import Voxera.Call.Audio

/-!
# The turns of a call

`_on_user_turn_completed` answers a turn when it finds the call in `LISTENING`, and otherwise returns at once. In
`STREAMING`, to which `feed_mulaw` moves the call with the first payload, it finds the call for good.

* `Live` : what holds until the call ends;
* `Turning`, `Move.turning` : what a move does to the turn that the recogniser's task is at;
* `Numbered` : a turn has a number of its own; `Underway` : a turn that was accepted is answered once;
* `Answers`, `turn_answered_iff`.
-/

namespace Voxera.Call

open EventLoop

/-! ## Until the call ends -/

/-- `stop` is past its check, or has asked a loop to cancel, only when the call has ended. -/
structure Live (c : Core) (π : Task → Place) : Prop where
  ending : (π .twilio).ends = true → c.state = .ENDED
  asked : ∀ u, c.asked u = true → c.state = .ENDED

section Moves
variable {l : Label} {c c' : Core} {π π' : Task → Place} {me : Task} {p q : Place}

/-- Only `stop` asks a task to cancel. -/
theorem Move.asked (h : Move l c π me p c' q) {u : Task} (hu : c'.asked u = true) :
    c.asked u = true ∨ me = .twilio ∧ p.ends = true := by
  cases h with
  | clears _ hc' => rcases hc' with rfl | rfl <;> exact Or.inl hu
  | returns hc' => rcases hc' with ⟨-, rfl⟩ | ⟨_, _, -, rfl⟩ <;> exact Or.inl hu
  | unwinds =>
      have hu' : Function.update c.asked me false u = true := hu
      by_cases hme : u = me
      · subst hme
        rw [Function.update_self] at hu'
        cases hu'
      · rw [Function.update_of_ne hme] at hu'
        exact Or.inl hu'
  | asks _ ha => exact Or.inr ⟨rfl, Place.ends_of_plain ha (by simp)⟩
  | tearsDownLoop => exact Or.inr ⟨rfl, rfl⟩
  | _ => exact Or.inl hu

theorem Live.move (h : Live c π) (hgoes : Goes me p q π π') (hmove : Move l c π me p c' q) : Live c' π' where
  ending hq := by
    by_cases hme : me = .twilio
    · subst hme
      rw [hgoes.after] at hq
      rcases hmove.past hq with hp | hended
      · exact hmove.ended (h.ending (by rw [hgoes.before]; exact hp))
      · exact hended
    · refine hmove.ended (h.ending ?_)
      rcases hgoes.others .twilio (Ne.symm hme) with heq | ⟨hspawned, -⟩
      · rwa [← heq]
      · cases hspawned
  asked u hu := by
    refine hmove.ended ?_
    rcases hmove.asked hu with hbefore | ⟨rfl, hends⟩
    · exact h.asked u hbefore
    · exact h.ending (by rw [hgoes.before]; exact hends)

end Moves

theorem live_of_run {cfg : Config} {ok : Session → Label → Prop} {ls : List Label} {s : Session}
    (hrun : Run (step cfg) ok .started ls s) : Live s.core s.place :=
  invariant_of_moves hrun ⟨(fun h => nomatch h), (fun _ h => nomatch h)⟩ (fun _ h hgoes hmove => h.move hgoes hmove)
    (fun h _ => ⟨h.ending, h.asked⟩)

/-! ## The way from a turn to its answer -/

/-- The turn for whose answer `tts.stop` is called. -/
def StopFor.accepted : StopFor → Option (UserTurnCompleted × Nat)
  | .systemTurn turn _ k | .begin _ (.answer turn _ k) => some (turn, k)
  | _ => none

namespace Section

/-- The turn that `_on_user_turn_completed` is called for. -/
def completed : Section → Option (UserTurnCompleted × Nat)
  | .turnCompleted turn k => some (turn, k)
  | _ => none

/-- The turn that `_on_user_turn_completed` has accepted. -/
def accepted : Section → Option (UserTurnCompleted × Nat)
  | .systemTurn turn _ k => some (turn, k)
  | _ => none

end Section

namespace Place

@[inherit_doc Section.completed]
def completed : Place → Option (UserTurnCompleted × Nat)
  | .runs (.acquire sec) | .runs (.enter sec) | .awaits (.acquiring sec) => sec.completed
  | _ => none

@[inherit_doc Section.accepted]
def accepted : Place → Option (UserTurnCompleted × Nat)
  | .runs (.acquire sec) | .runs (.enter sec) | .awaits (.acquiring sec) => sec.accepted
  | .runs (.ttsStop k) | .runs (.stopped k) | .awaits (.gathering _ _ k) | .awaits (.clearing k) => k.accepted
  | _ => none

/-- The task is at no turn. -/
def free (p : Place) : Prop := p.completed = none ∧ p.accepted = none

end Place

/-- The turn that the event is of. -/
def Event.turn : Event → Option Nat
  | .processing k _ _ | .generation _ k _ | .turnReturned k _ => some k
  | _ => none

/-- What a move adds to the record, and how it changes the turn that the task is at. -/
inductive Turning (c c' : Core) (me : Task) (p q : Place) : List Event → Prop
  | keeps {es : List Event} (hes : ∀ e ∈ es, e.turn = none) (hturns : c'.turns = c.turns)
      (hcompleted : q.completed = p.completed) (haccepted : q.accepted = p.accepted) : Turning c c' me p q es
  /-- A `CancelledError` leaves the session's code. -/
  | drops (hturns : c'.turns = c.turns) (hq : q.free) (hasked : me = .stt → c.asked me = true) : Turning c c' me p q []
  | completes {turn : UserTurnCompleted} (hturns : c'.turns = c.turns + 1) (hq : q.completed = some (turn, c.turns))
      (hp : p.accepted = none) (haccepted : q.accepted = none) : Turning c c' me p q []
  | rejects {turn : UserTurnCompleted} {k : Nat} (hturns : c'.turns = c.turns) (hme : me = .stt)
      (hst : c.state ≠ .LISTENING) (hp : p = .runs (.enter (.turnCompleted turn k))) (hq : q.free) :
      Turning c c' me p q [.turnReturned k turn]
  | accepts {turn : UserTurnCompleted} {k g r : Nat} (hturns : c'.turns = c.turns) (hme : me = .stt)
      (hst : c.state = .LISTENING) (hst' : c'.state = .PROCESSING) (hp : p = .runs (.enter (.turnCompleted turn k)))
      (hcompleted : q.completed = none) (hq : q.accepted = some (turn, k)) : Turning c c' me p q [.processing k g r]
  | answers {turn : UserTurnCompleted} {k ticket g r : Nat} (hturns : c'.turns = c.turns) (hme : me = .stt)
      (hp : p.accepted = some (turn, k)) (hq : q.free) :
      Turning c c' me p q
        [.opened ticket r, .generation g k (Text.strip turn.transcript), .turnReturned k turn]

section Moves
variable {l : Label} {c c' : Core} {π π' : Task → Place} {me : Task} {p q : Place}

theorem Place.free_of_plain (h : p.plain = true) : p.free := by
  constructor
  · unfold Place.completed
    split <;> first | rfl | cases h
  · unfold Place.accepted
    split <;> first | rfl | cases h

/-- The places of a turn are kept by a move between two places of none. -/
theorem Turning.of_free {es : List Event} (hp : p.free) (hq : q.free) (hes : ∀ e ∈ es, e.turn = none)
    (hturns : c'.turns = c.turns) : Turning c c' me p q es :=
  .keeps hes hturns (hq.1.trans hp.1.symm) (hq.2.trans hp.2.symm)

/-- An edge, too, keeps the turn that the task is at. -/
theorem Edge.turn {st : State} (h : Edge st me p q) : q.completed = p.completed ∧ q.accepted = p.accepted := by
  have hfree (hp : p.free) (hq : q.free) : q.completed = p.completed ∧ q.accepted = p.accepted :=
    ⟨hq.1.trans hp.1.symm, hq.2.trans hp.2.symm⟩
  cases h with
  | plain hp hq => exact hfree (Place.free_of_plain hp) (Place.free_of_plain hq)
  | acquires | waits | admitted | cleared | converted | tearsDown | interrupts | starts => exact ⟨rfl, rfl⟩
  | @declined sec _ hst hq =>
      refine hfree ?_ (by rcases hq with rfl | rfl <;> exact ⟨rfl, rfl⟩)
      cases sec <;> first | exact ⟨rfl, rfl⟩ | cases hst
  | @stops sec k hst =>
      cases sec with
      | systemTurn =>
          simp only [Section.stops, Option.ite_none_left_eq_some] at hst
          cases hst.2
          exact ⟨rfl, rfl⟩
      | fallback =>
          simp only [Section.stops, Option.ite_none_left_eq_some] at hst
          cases hst.2
          exact ⟨rfl, rfl⟩
      | _ => cases hst

theorem Move.turning (h : Move l c π me p c' q) :
    ∃ es, c'.trace = c.trace ++ es ∧ Turning c c' me p q es := by
  have hnil : c.trace = c.trace ++ [] := (List.append_nil _).symm
  have hnone : ∀ e ∈ ([] : List Event), e.turn = none := fun _ h => nomatch h
  have hone {e : Event} (he : e.turn = none) : ∀ x ∈ [e], x.turn = none := by simpa using he
  cases h with
  | edge h => exact ⟨[], hnil, .keeps hnone rfl h.turn.1 h.turn.2⟩
  | @calls _ _ sec hp hsec =>
      subst hp
      refine ⟨[], hnil, .of_free ?_ ?_ hnone rfl⟩
      · cases sec <;> exact ⟨rfl, rfl⟩
      · cases sec <;> first | exact ⟨rfl, rfl⟩ | cases hsec
  | turnRejected hst => exact ⟨_, rfl, .rejects rfl rfl hst rfl ⟨rfl, rfl⟩⟩
  | turnAccepted hst => exact ⟨_, rfl, .accepts rfl rfl hst rfl rfl rfl rfl⟩
  | systemTurnEnded | systemTurnStarts | fallsBack | prompted => exact ⟨_, rfl, .keeps (hone rfl) rfl rfl rfl⟩
  | @answers ticket turn _ k =>
      refine ⟨[.opened ticket c.ttsCount, .generation c.llmCount k (Text.strip turn.transcript), .turnReturned k turn], ?_,
        .answers rfl rfl rfl ⟨rfl, rfl⟩⟩
      simp [Core.generates, Core.opens, Core.emit]
  | @opensFallback _ ticket n =>
      refine ⟨[.opened ticket c.ttsCount, .fallback n], ?_, .keeps (by simp [Event.turn]) rfl rfl rfl⟩
      simp [Core.opens, Core.emit]
  | opensPrompt => exact ⟨_, rfl, .keeps (hone rfl) rfl rfl rfl⟩
  | completes => exact ⟨[], hnil, .completes rfl rfl rfl rfl⟩
  | clears _ hc' =>
      rcases hc' with rfl | rfl
      · exact ⟨[], hnil, .keeps hnone rfl rfl rfl⟩
      · exact ⟨_, rfl, .keeps (hone rfl) rfl rfl rfl⟩
  | returns hc' =>
      rcases hc' with ⟨-, rfl⟩ | ⟨_, _, -, rfl⟩
      · exact ⟨[], hnil, .keeps hnone rfl rfl rfl⟩
      · exact ⟨_, rfl, .keeps (hone rfl) rfl rfl rfl⟩
  | sendsMedia | ends | bargedIn | bargedInAfter | raises | reported | sendFails | expires =>
      exact ⟨_, rfl, .keeps (hone rfl) rfl rfl rfl⟩
  | generationFails => exact ⟨_, rfl, .keeps (hone rfl) rfl rfl rfl⟩
  | unwinds hasked => exact ⟨[], hnil, .drops rfl ⟨rfl, rfl⟩ (fun _ => hasked)⟩
  | generates hp hq => exact ⟨[], hnil, .drops rfl (by rcases hq with rfl | ⟨_, rfl⟩ <;> exact ⟨rfl, rfl⟩) (by simp)⟩
  | reply _ h => exact ⟨[], hnil, .drops rfl (by cases h <;> exact ⟨rfl, rfl⟩) (by simp)⟩
  | hears _ ha =>
      refine ⟨[], hnil, .of_free ?_ ⟨rfl, rfl⟩ hnone rfl⟩
      rcases ha with ⟨-, rfl | rfl⟩ | ⟨-, rfl⟩ <;> exact ⟨rfl, rfl⟩
  | dequeues hp | endsLoop hp | marksEnd hp =>
      exact ⟨[], hnil, .of_free (Place.free_of_plain hp) ⟨rfl, rfl⟩ hnone rfl⟩
  | loopOver ha =>
      refine ⟨[], hnil, .of_free ?_ ⟨rfl, rfl⟩ hnone rfl⟩
      rcases ha with rfl | rfl <;> exact ⟨rfl, rfl⟩
  | @asks _ a b _ _ ha hb =>
      exact ⟨[], hnil, .of_free (Place.free_of_plain (p := .awaits a) ha) (Place.free_of_plain (p := .awaits b) hb) hnone rfl⟩
  | _ => exact ⟨[], hnil, .keeps hnone rfl rfl rfl⟩

/-! ## One turn -/

theorem Turning.turns_le {es : List Event} (h : Turning c c' me p q es) : c.turns ≤ c'.turns := by
  cases h <;> omega

/-- What is added to the record is of the turn that the task is at. -/
theorem Turning.number {es : List Event} (h : Turning c c' me p q es) {e : Event} {k : Nat} (he : e ∈ es)
    (hk : e.turn = some k) :
    me = .stt ∧ q.completed = none ∧ ∃ turn, p.completed = some (turn, k) ∨ p.accepted = some (turn, k) := by
  cases h with
  | keeps hes =>
      rw [hes e he] at hk
      cases hk
  | drops | completes => cases he
  | @rejects turn _ _ hme _ hp hq =>
      rw [List.mem_singleton.mp he] at hk
      cases hk
      exact ⟨hme, hq.1, turn, Or.inl (by rw [hp]; rfl)⟩
  | @accepts turn _ _ _ _ hme _ _ hp hcompleted =>
      rw [List.mem_singleton.mp he] at hk
      cases hk
      exact ⟨hme, hcompleted, turn, Or.inl (by rw [hp]; rfl)⟩
  | @answers turn k₀ _ _ _ _ hme hp hq =>
      have heq : k₀ = k := by
        simp only [List.mem_cons, List.not_mem_nil, or_false] at he
        rcases he with rfl | rfl | rfl <;> cases hk <;> rfl
      subst heq
      exact ⟨hme, hq.1, turn, Or.inr hp⟩

/-- A turn has a number of its own, and nothing is on record of it until `_on_user_turn_completed` has the lock. -/
structure Numbered (c : Core) (π : Task → Place) : Prop where
  completed : ∀ turn k, (π .stt).completed = some (turn, k) → k < c.turns ∧ ∀ e ∈ c.trace, e.turn ≠ some k
  accepted : ∀ turn k, (π .stt).accepted = some (turn, k) → k < c.turns
  past : ∀ e ∈ c.trace, ∀ k, e.turn = some k → k < c.turns

theorem Goes.stt (h : Goes me p q π π') (hme : me ≠ .stt) : π' .stt = π .stt := by
  rcases h.others .stt (Ne.symm hme) with heq | ⟨hspawned, -⟩
  · exact heq
  · cases hspawned

theorem Numbered.move (h : Numbered c π) (hgoes : Goes me p q π π') (hmove : Move l c π me p c' q) :
    Numbered c' π' := by
  obtain ⟨es, htrace, hturning⟩ := hmove.turning
  have hle := hturning.turns_le
  have hmem {e : Event} (he : e ∈ c'.trace) : e ∈ c.trace ∨ e ∈ es := by
    rw [htrace] at he
    exact List.mem_append.mp he
  have hpast : ∀ e ∈ c'.trace, ∀ k, e.turn = some k → k < c'.turns := by
    intro e he k hk
    rcases hmem he with he | he
    · exact Nat.lt_of_lt_of_le (h.past e he k hk) hle
    · obtain ⟨rfl, -, turn, hp⟩ := hturning.number he hk
      rw [← hgoes.before] at hp
      have hlt : k < c.turns := hp.elim (fun hp => (h.completed turn k hp).1) (fun hp => h.accepted turn k hp)
      exact Nat.lt_of_lt_of_le hlt hle
  by_cases hme : me = .stt
  · subst hme
    have hbefore := hgoes.before
    refine ⟨fun turn k hk => ?_, fun turn k hk => ?_, hpast⟩
    · rw [hgoes.after] at hk
      cases hturning with
      | keeps hes hturns hcompleted =>
          obtain ⟨hlt, hnone⟩ := h.completed turn k (by rw [hbefore, ← hcompleted, hk])
          refine ⟨by omega, fun e he => ?_⟩
          rcases hmem he with he | he
          · exact hnone e he
          · simp [hes e he]
      | completes hturns hq =>
          rw [hq] at hk
          cases hk
          refine ⟨by omega, fun e he heq => ?_⟩
          have hlt := h.past e ((hmem he).resolve_right (by simp)) c.turns heq
          omega
      | drops _ hq | rejects _ _ _ _ hq | answers _ _ _ hq =>
          rw [hq.1] at hk
          cases hk
      | accepts _ _ _ _ _ hcompleted =>
          rw [hcompleted] at hk
          cases hk
    · rw [hgoes.after] at hk
      cases hturning with
      | keeps _ _ _ haccepted => exact Nat.lt_of_lt_of_le (h.accepted turn k (by rw [hbefore, ← haccepted, hk])) hle
      | completes _ _ _ haccepted =>
          rw [haccepted] at hk
          cases hk
      | drops _ hq | rejects _ _ _ _ hq | answers _ _ _ hq =>
          rw [hq.2] at hk
          cases hk
      | accepts _ _ _ _ hp _ hq =>
          rw [hq] at hk
          cases hk
          exact Nat.lt_of_lt_of_le (h.completed turn k (by rw [hbefore, hp]; rfl)).1 hle
  · have hplace := hgoes.stt hme
    refine ⟨fun turn k hk => ?_, fun turn k hk => ?_, hpast⟩
    · rw [hplace] at hk
      obtain ⟨hlt, hnone⟩ := h.completed turn k hk
      refine ⟨by omega, fun e he heq => ?_⟩
      rcases hmem he with he | he
      · exact hnone e he heq
      · exact hme (hturning.number he heq).1
    · rw [hplace] at hk
      exact Nat.lt_of_lt_of_le (h.accepted turn k hk) hle

/-- The generations that the turn number `k` has started. -/
def generationsOf (k : Nat) (trace : List Event) : List Event :=
  trace.filter fun e => match e with
    | .generation _ k' _ => k' = k
    | _ => false

/-- The turn has moved the call to `PROCESSING`, and one generation was started, for its transcript. -/
def Answered (trace : List Event) (turn : UserTurnCompleted) (k : Nat) : Prop :=
  (∃ g r, .processing k g r ∈ trace) ∧ ∃ g, generationsOf k trace = [.generation g k (Text.strip turn.transcript)]

/-- Nothing is on record of the turn but that it was accepted. -/
def Unanswered (k : Nat) (trace : List Event) : Prop := ∀ e ∈ trace, e.turn = some k → ∃ g r, e = .processing k g r

/-- Where a turn is that was accepted. -/
inductive Underway (turn : UserTurnCompleted) (k : Nat) (c : Core) (at_ : Option (UserTurnCompleted × Nat)) : Prop
  | waits (h : Unanswered k c.trace) (hat : at_ = some (turn, k))
  | dropped (h : Unanswered k c.trace) (hended : c.state = .ENDED) (hat : ∀ turn', at_ ≠ some (turn', k))
  | answered {g : Nat} (h : generationsOf k c.trace = [.generation g k (Text.strip turn.transcript)])
      (hmem : .turnReturned k turn ∈ c.trace) (hat : ∀ turn', at_ ≠ some (turn', k))

theorem generationsOf_append {k : Nat} {trace es : List Event} (h : ∀ e ∈ es, e.turn ≠ some k) :
    generationsOf k (trace ++ es) = generationsOf k trace := by
  have hnil : generationsOf k es = [] := by
    unfold generationsOf
    rw [List.filter_eq_nil_iff]
    intro e he hk
    cases e with
    | generation g k' prompt =>
        have heq : k' = k := by simpa using hk
        exact h _ he (by simp [Event.turn, heq])
    | _ => cases hk
  unfold generationsOf at hnil ⊢
  rw [List.filter_append, hnil, List.append_nil]

theorem Unanswered.generationsOf {k : Nat} {trace : List Event} (h : Unanswered k trace) : generationsOf k trace = [] := by
  unfold Call.generationsOf
  rw [List.filter_eq_nil_iff]
  intro e he hk
  cases e with
  | generation g k' prompt =>
      have heq : k' = k := by simpa using hk
      obtain ⟨_, _, hprocessing⟩ := h _ he (by simp [Event.turn, heq])
      cases hprocessing
  | _ => cases hk

theorem Unanswered.append {k : Nat} {trace es : List Event} (h : Unanswered k trace) (hes : ∀ e ∈ es, e.turn ≠ some k) :
    Unanswered k (trace ++ es) := by
  intro e he hk
  rcases List.mem_append.mp he with he | he
  · exact h e he hk
  · exact absurd hk (hes e he)

theorem Underway.move {turn : UserTurnCompleted} {k : Nat} (h : Underway turn k c (π .stt).accepted)
    (hprocessing : ∃ g r, .processing k g r ∈ c.trace) (hnumbered : Numbered c π) (hlive : Live c π)
    (hgoes : Goes me p q π π') (hmove : Move l c π me p c' q) : Underway turn k c' (π' .stt).accepted := by
  obtain ⟨es, htrace, hturning⟩ := hmove.turning
  obtain ⟨g₀, r₀, hmem⟩ := hprocessing
  -- Nothing more is on record of the turn but its answer, by the recogniser's task at the turn.
  have hother (hat : me = .stt → ∀ turn', p.accepted ≠ some (turn', k)) : ∀ e ∈ es, e.turn ≠ some k := by
    intro e he hk
    obtain ⟨rfl, -, turn', hp | hp⟩ := hturning.number he hk
    · rw [← hgoes.before] at hp
      exact (hnumbered.completed turn' k hp).2 _ hmem rfl
    · exact hat rfl turn' hp
  -- The recogniser's task does not come to the turn a second time.
  have hagain (hat : ∀ turn', (π .stt).accepted ≠ some (turn', k)) (turn' : UserTurnCompleted) :
      (π' .stt).accepted ≠ some (turn', k) := by
    intro hk
    by_cases hme : me = .stt
    · subst hme
      rw [hgoes.after] at hk
      rw [hgoes.before] at hat
      cases hturning with
      | keeps _ _ _ haccepted => exact hat turn' (haccepted ▸ hk)
      | completes _ _ _ haccepted =>
          rw [haccepted] at hk
          cases hk
      | drops _ hq | rejects _ _ _ _ hq | answers _ _ _ hq =>
          rw [hq.2] at hk
          cases hk
      | accepts _ _ _ _ hp _ hq =>
          rw [hq] at hk
          cases hk
          exact (hnumbered.completed turn' k (by rw [hgoes.before, hp]; rfl)).2 _ hmem rfl
    · exact hat turn' (hgoes.stt hme ▸ hk)
  cases h with
  | answered h hmem hat =>
      have hkeep : generationsOf k c'.trace = generationsOf k c.trace := by
        rw [htrace]
        refine generationsOf_append (hother fun hme => ?_)
        subst hme
        rw [← hgoes.before]
        exact hat
      exact .answered (hkeep.trans h) (by rw [htrace]; exact List.mem_append_left _ hmem) (hagain hat)
  | dropped h hended hat =>
      refine .dropped ?_ (hmove.ended hended) (hagain hat)
      rw [htrace]
      refine h.append (hother fun hme => ?_)
      subst hme
      rw [← hgoes.before]
      exact hat
  | waits h hat =>
      by_cases hme : me = .stt
      · subst hme
        rw [hgoes.before] at hat
        rw [hgoes.after]
        cases hturning with
        | keeps hes _ _ haccepted =>
            refine .waits ?_ (haccepted.trans hat)
            rw [htrace]
            exact h.append (fun e he => by simp [hes e he])
        | drops _ hq hasked =>
            refine .dropped ?_ (hmove.ended (hlive.asked _ (hasked rfl))) (fun _ => by simp [hq.2])
            rw [htrace]
            exact h.append (by simp)
        | @answers _ _ _ g _ _ _ hp hq =>
            rw [hat] at hp
            cases hp
            refine Underway.answered (g := g) ?_ (by simp [htrace]) (fun _ => by simp [hq.2])
            rw [htrace]
            have hnil := h.generationsOf
            unfold generationsOf at hnil ⊢
            simp [List.filter_append, hnil]
        | completes _ _ hp =>
            rw [hp] at hat
            cases hat
        | rejects _ _ _ hp | accepts _ _ _ _ hp =>
            rw [hp] at hat
            cases hat
      · refine .waits ?_ (hgoes.stt hme ▸ hat)
        rw [htrace]
        exact h.append (hother fun heq => absurd heq hme)

end Moves

/-! ## The answer -/

section Runs
variable {cfg : Config} {ls : List Label} {s t : Session} {turn : UserTurnCompleted} {k : Nat}

theorem numbered_of_run {ok : Session → Label → Prop} (hrun : Run (step cfg) ok .started ls s) :
    Numbered s.core s.place :=
  invariant_of_moves hrun ⟨(fun _ _ h => nomatch h), (fun _ _ h => nomatch h), (fun _ h => nomatch h)⟩
    (fun _ h hgoes hmove => h.move hgoes hmove) (fun h _ => ⟨h.completed, h.accepted, h.past⟩)

/-- From `t` on `_on_user_turn_completed` answers the turn number `k`. -/
structure Answers (cfg : Config) (t : Session) (turn : UserTurnCompleted) (k : Nat) : Prop where
  processing : t.state = .PROCESSING
  /-- When it returns, the turn is answered. -/
  answered : ∀ ls u, Run (step cfg) (fun _ _ => True) t ls u → .turnReturned k turn ∈ u.trace → Answered u.trace turn k
  /-- Until then it is on its way, unless the call ends. -/
  waits : ∀ ls u, Run (step cfg) (fun _ _ => True) t ls u → .turnReturned k turn ∉ u.trace → u.state ≠ .ENDED →
    (u.place .stt).accepted = some (turn, k)
  /-- Where the lock is free it returns before another task runs. -/
  atOnce : t.lock.free t.cancelling = true →
    ∃ n u, Run (step cfg) (fun _ _ => True) t (List.replicate n .run) u ∧ Answered u.trace turn k

/-- Where the lock is free it is taken at once. -/
theorem step_acquire {sec : Section} (cfg : Config) {me : Task} (hrunning : t.running = some (me, .acquire sec))
    (hfree : t.lock.free t.cancelling = true) :
    step cfg t .run = some ({ t with lock := t.lock.hold me }.goto me (.enter sec)) := by
  rw [step_run hrunning]
  simp only [Session.advance, Session.acquire, hfree, if_true]

/-- Without an active reply `tts.stop` returns at once. -/
theorem step_ttsStop {after : StopFor} (cfg : Config) {me : Task} (hrunning : t.running = some (me, .ttsStop after))
    (hidle : t.tts.active = none) : step cfg t .run = some (t.goto me (.stopped after)) := by
  rw [step_run hrunning]
  simp only [Session.advance, Session.ttsStop, hidle]

/-- `tts.begin` and `start_generation` await nothing more. -/
theorem returned_of_begin (cfg : Config) {history : List Llm.Entry} {ticket : Nat}
    (hrunning : t.running = some (.stt, .ttsStop (.begin ticket (.answer turn history k))))
    (hidle : t.tts.active = none) :
    ∃ u, Run (step cfg) (fun _ _ => True) t [.run, .run] u ∧ .turnReturned k turn ∈ u.trace := by
  have hstep := step_ttsStop cfg hrunning hidle
  refine ⟨_, .cons trivial hstep (.cons trivial (step_run (s := t.goto .stt _) rfl) .nil), ?_⟩
  show Event.turnReturned k turn ∈ _ ++ [Event.turnReturned k turn]
  simp

/-- `_on_system_turn_start` stops nothing and goes on to `tts.begin`. -/
theorem returned_of_enter (cfg : Config) {history : List Llm.Entry}
    (hrunning : t.running = some (.stt, .enter (.systemTurn turn history k))) (hlive : t.state ≠ .ENDED)
    (hidle : t.tts.active = none) :
    ∃ u, Run (step cfg) (fun _ _ => True) t (List.replicate 5 .run) u ∧ .turnReturned k turn ∈ u.trace := by
  let stops := t.goto .stt (.ttsStop (.systemTurn turn history k))
  have hstops : step cfg t .run = some stops := by
    rw [step_run hrunning]
    simp only [Session.advance, Session.enter, if_neg hlive, stops]
  let stopped := stops.goto .stt (.stopped (.systemTurn turn history k))
  have hstopped : step cfg stops .run = some stopped := step_ttsStop cfg rfl hidle
  have hbegins : step cfg stopped .run = some (stopped.stopped .stt (.systemTurn turn history k)) :=
    step_run (s := stops.goto .stt _) rfl
  obtain ⟨u, hrest, hmem⟩ := returned_of_begin cfg (t := stopped.stopped .stt (.systemTurn turn history k)) rfl hidle
  exact ⟨u, .cons trivial hstops (.cons trivial hstopped (.cons trivial hbegins hrest)), hmem⟩

/-- Where the lock is free and no reply is active, nothing is awaited on the way from a turn to its generation. -/
theorem returned_of_idle (cfg : Config) {history : List Llm.Entry}
    (hrunning : t.running = some (.stt, .acquire (.systemTurn turn history k))) (hlive : t.state ≠ .ENDED)
    (hfree : t.lock.free t.cancelling = true) (hidle : t.tts.active = none) :
    ∃ u, Run (step cfg) (fun _ _ => True) t (List.replicate 6 .run) u ∧ .turnReturned k turn ∈ u.trace := by
  let enters := { t with lock := t.lock.hold .stt }.goto .stt (.enter (.systemTurn turn history k))
  have henters : step cfg t .run = some enters := step_acquire cfg hrunning hfree
  obtain ⟨u, hrest, hmem⟩ := returned_of_enter cfg (t := enters) rfl hlive hidle
  exact ⟨u, .cons trivial henters hrest, hmem⟩

/-- What the record says of a turn that was accepted. -/
theorem Underway.answered_of_mem {at_ : Option (UserTurnCompleted × Nat)} (h : Underway turn k s.core at_)
    (hprocessing : ∃ g r, .processing k g r ∈ s.trace) (hmem : .turnReturned k turn ∈ s.trace) :
    Answered s.trace turn k := by
  cases h with
  | waits h | dropped h =>
      obtain ⟨_, _, heq⟩ := h _ hmem rfl
      cases heq
  | answered h => exact ⟨hprocessing, _, h⟩

/-- `_on_user_turn_completed` accepts the turn. -/
theorem answers_of_listening (hrun : Run (step cfg) (fun _ _ => True) .started ls s)
    (hturn : s.place .stt = .runs (.enter (.turnCompleted turn k))) (hidle : s.tts.active = none)
    (hstate : s.state = .LISTENING) (hstep : step cfg s .run = some t) : Answers cfg t turn k := by
  have hrunning := running_of_place hturn
  have hnumber := ((numbered_of_run hrun).completed turn k (by rw [hturn]; rfl)).2
  have ht : t = s.turnCompleted cfg .stt turn k := (Option.some.inj ((step_run hrunning).symm.trans hstep)).symm
  have hnext : t.running = some (.stt, .acquire (.systemTurn turn s.history k)) ∧ t.state = .PROCESSING ∧
      t.tts = s.tts ∧ t.trace = s.trace ++ [.processing k s.llm.count s.tts.count] := by
    rw [ht]
    unfold Session.turnCompleted
    rw [if_neg (by simpa using hstate)]
    refine ⟨rfl, ?_, rfl, rfl⟩
    show s.state.apply .PROCESSING = .PROCESSING
    rw [hstate]
    rfl
  obtain ⟨hrunning', hstate', htts, htrace⟩ := hnext
  have hprocessing : ∃ g r, .processing k g r ∈ t.trace :=
    ⟨s.llm.count, s.tts.count, by rw [htrace]; exact List.mem_append_right _ (List.mem_singleton_self _)⟩
  have hunderway : Underway turn k t.core (t.place .stt).accepted := by
    refine .waits (fun e he hk => ?_) (by rw [place_of_running hrunning']; rfl)
    have he' : e ∈ s.trace ++ [.processing k s.llm.count s.tts.count] := htrace ▸ he
    rcases List.mem_append.mp he' with he' | he'
    · exact absurd hk (hnumber e he')
    · exact ⟨_, _, List.mem_singleton.mp he'⟩
  have hrun' := hrun.snoc trivial hstep
  have hkeeps {ls u} (hrest : Run (step cfg) (fun _ _ => True) t ls u) :
      (∃ g r, .processing k g r ∈ u.trace) ∧ Underway turn k u.core (u.place .stt).accepted := by
    have hruns := hrest.always (I := fun u => Numbered u.core u.place ∧ Live u.core u.place)
      (fun hrest => ⟨numbered_of_run (hrun'.trans hrest), live_of_run (hrun'.trans hrest)⟩)
    refine (Placed.of_run hrun').invariant_of_moves hruns (I := fun c π => (∃ g r, .processing k g r ∈ c.trace) ∧
      Underway turn k c (π .stt).accepted) ⟨hprocessing, hunderway⟩ ?_ ?_
    · intro s l me c' q π' hok h hgoes hmove
      refine ⟨?_, h.2.move h.1 hok.2.1 hok.2.2 hgoes hmove⟩
      obtain ⟨es, htrace, -⟩ := hmove.turning
      obtain ⟨g, r, hmem⟩ := h.1
      exact ⟨g, r, by rw [htrace]; exact List.mem_append_left _ hmem⟩
    · rintro c π frame frames queue ⟨hmem, h⟩ -
      refine ⟨hmem, ?_⟩
      cases h with
      | waits h hat => exact .waits h hat
      | dropped h hended hat => exact .dropped h hended hat
      | answered h hmem hat => exact .answered h hmem hat
  refine ⟨hstate', fun ls u hrest hmem => ?_, fun ls u hrest hmem hlive => ?_, fun hfree => ?_⟩
  · obtain ⟨hprocessing', h⟩ := hkeeps hrest
    exact h.answered_of_mem hprocessing' hmem
  · cases (hkeeps hrest).2 with
    | waits _ hat => exact hat
    | dropped _ hended => exact absurd hended hlive
    | answered _ hreturned => exact absurd hreturned hmem
  · have hactive : t.tts.active = none := by rw [htts, hidle]
    obtain ⟨u, hrest, hmem⟩ := returned_of_idle cfg hrunning' (by rw [hstate']; simp) hfree hactive
    obtain ⟨hprocessing', h⟩ := hkeeps hrest
    exact ⟨6, u, hrest, h.answered_of_mem hprocessing' hmem⟩

/-- **A completed turn is answered** exactly when `_on_user_turn_completed`, with the lock, finds the call in
`LISTENING`. -/
theorem turn_answered_iff (hrun : Run (step cfg) (fun _ _ => True) .started ls s)
    (hturn : s.place .stt = .runs (.enter (.turnCompleted turn k))) (hidle : s.tts.active = none)
    (hstep : step cfg s .run = some t) : Answers cfg t turn k ↔ s.state = .LISTENING := by
  refine ⟨fun h => ?_, fun hstate => answers_of_listening hrun hturn hidle hstate hstep⟩
  by_contra hstate
  have ht : t = s.turnCompleted cfg .stt turn k :=
    (Option.some.inj ((step_run (running_of_place hturn)).symm.trans hstep)).symm
  have htrace : t.trace = s.trace ++ [.turnReturned k turn] := by
    rw [ht]
    unfold Session.turnCompleted
    rw [if_pos hstate]
    rfl
  obtain ⟨⟨g, r, hmem⟩, -⟩ := h.answered [] t .nil (by simp [htrace])
  rw [htrace] at hmem
  have hnumber := ((numbered_of_run hrun).completed turn k (by rw [hturn]; rfl)).2
  exact hnumber _ ((List.mem_append.mp hmem).resolve_right (by simp)) rfl

end Runs

/-! ## Two turns -/

/-- The system without `audioop`. -/
def plainConfig : Config where
  toPcm := toPcm none id
  toMulaw bytes := (Telephony.pcm1616kToTwilioAudio none bytes).getD []

/-- The caller's first turn. -/
def hello : UserTurnCompleted where
  utteranceId := "00000000-0000-4000-8000-000000000000".toList
  transcript := "hello".toList

/-- A final transcript without a partial one before it. -/
def helloEvent : TranscriptEvent := ⟨.FINAL, hello.utteranceId, hello.transcript⟩

/-- The turn is answered: its reply is open, and its generation started. -/
def answerLabels : List Label :=
  [.wake .stt (.ok .none), .transcript helloEvent] ++ List.replicate 14 .run

/-- A payload of silence is taken, and the recogniser gives a final transcript for its frame. -/
def helloLabels : List Label :=
  [.wake .stt (.ok .none), .feedMulaw (List.replicate 160 0xFF), .run, .run, .processFrame, .wake .stt (.ok .none),
    .wake .stt (.ok (.transcript helloEvent))]

/-- The turn is completed, with no generation and no reply ever begun, and is not answered. -/
theorem hello_unanswered : ∃ ls s, Run (step plainConfig) (fun _ _ => True) .started ls s ∧ s.state = .STREAMING ∧
    s.llm.count = 0 ∧ s.tts.count = 0 ∧ s.trace = [.turnReturned 0 hello] ∧ ¬Answered s.trace hello 0 := by
  have hexec : (exec (step plainConfig) (fun _ _ => True) .started (helloLabels ++ List.replicate 6 .run)).any (fun s =>
      s.state = .STREAMING ∧ s.llm.count = 0 ∧ s.tts.count = 0 ∧ s.trace = [.turnReturned 0 hello]) = true := by
    decide +kernel
  obtain ⟨s, hrun, hs⟩ := Run.exists_of_exec hexec
  obtain ⟨hstate, hllm, htts, htrace⟩ := of_decide_eq_true hs
  refine ⟨_, s, hrun, hstate, hllm, htts, htrace, ?_⟩
  rintro ⟨⟨g, r, hmem⟩, -⟩
  rw [htrace] at hmem
  simp at hmem

/-- Before the first payload the turn is answered. -/
theorem turn_answered_iff_hello : ∃ ls s t, Run (step plainConfig) (fun _ _ => True) .started ls s ∧
    s.place .stt = .runs (.enter (.turnCompleted hello 0)) ∧ step plainConfig s .run = some t ∧
    Answers plainConfig t hello 0 := by
  have hexec : (exec (step plainConfig) (fun _ _ => True) .started
      ([.wake .stt (.ok .none), .transcript helloEvent] ++ List.replicate 5 .run)).any (fun s =>
      s.place .stt = .runs (.enter (.turnCompleted hello 0)) ∧ s.tts.active = none ∧ s.state = .LISTENING ∧
        (step plainConfig s .run).isSome = true) = true := by decide +kernel
  obtain ⟨s, hrun, hs⟩ := Run.exists_of_exec hexec
  obtain ⟨hturn, hidle, hstate, hsome⟩ := of_decide_eq_true hs
  obtain ⟨t, hstep⟩ := Option.isSome_iff_exists.mp hsome
  exact ⟨_, s, t, hrun, hturn, hstep, (turn_answered_iff hrun hturn hidle hstep).mpr hstate⟩

end Voxera.Call
