import Voxera.Call.Turns

/-!
# One reply at a time

`tts.begin` replaces the current reply, and does it outside the lock. But until the call ends it follows a call of
`tts.stop` under the lock without an await between them, so it finds no reply active and does not wait itself: at most
the current reply is active, and it is over once `tts.stop` goes on.

* `Place.quiet`, `Place.begins`, `Place.stopping` : the stages of `tts.stop` and of `tts.begin`;
* `Single` : the invariant (`Single.move`, `single_of_run`);
* `Adds`, `Move.adds` : the moves that begin a reply, send a frame or a `clear`.
-/

namespace Voxera.Call

open EventLoop

/-- `tts.stop` has found no reply, or has seen the end of its own; so has the call before `tts.begin`. -/
def Place.quiet : Place → Bool
  | .runs (.stopped _) | .awaits (.clearing _) | .runs (.ttsStop (.begin _ _)) => true
  | _ => false

/-- `tts.begin` is about to create its reply. -/
def Place.begins : Place → Bool
  | .runs (.ttsStop (.begin _ _)) | .runs (.stopped (.begin _ _)) => true
  | _ => false

/-- `tts.stop` waits. -/
def Place.stopping : Place → Bool
  | .awaits (.gathering _ _ _) | .awaits (.clearing _) => true
  | _ => false

structure Single (c : Core) (π : Task → Place) : Prop where
  others : ∀ r, c.ttsCurrent ≠ some r → (c.ttsTask r).isDone = true
  quiet : ∀ u, (π u).quiet = true → c.active = none
  gathers : ∀ u r hadAudio k, π u = .awaits (.gathering r hadAudio k) → c.ttsCurrent = some r
  locked : ∀ u, (π u).stopping = true → (π u).holds u = true
  begins : ∀ u v, (π u).begins = true → (π v).stopping = false

/-- A reply that is active is the current one. -/
theorem Core.active_eq_some {c : Core} {r : Nat} (h : c.active = some r) :
    c.ttsCurrent = some r ∧ (c.ttsTask r).isDone = false := by
  obtain ⟨hcurrent, hdone⟩ := Option.filter_eq_some_iff.mp h
  exact ⟨hcurrent, by simpa using hdone⟩

theorem Core.active_of_current {c : Core} {r : Nat} (h : c.ttsCurrent = some r) (hr : (c.ttsTask r).isDone = true) :
    c.active = none := by
  simp [Core.active, h, hr]

section Moves
variable {l : Label} {c c' : Core} {π π' : Task → Place} {me : Task} {p q : Place}

/-- Without an active reply every reply is over. -/
theorem Single.done (h : Single c π) (hactive : c.active = none) (r : Nat) : (c.ttsTask r).isDone = true := by
  by_cases hcurrent : c.ttsCurrent = some r
  · by_contra hr
    have hsome : c.active = some r := by
      unfold Core.active
      rw [hcurrent]
      simpa using hr
    rw [hactive] at hsome
    cases hsome
  · exact h.others r hcurrent

/-- The replies that are not over are the active one. -/
theorem Single.active_of_not_done (h : Single c π) {r : Nat} (hr : (c.ttsTask r).isDone = false) :
    c.active = some r := by
  have hcurrent : c.ttsCurrent = some r := by
    by_contra hcurrent
    rw [h.others r hcurrent] at hr
    cases hr
  simp [Core.active, hcurrent, hr]

theorem Asks.isDone {before after : Nat → Coroutine (Tts.Pc Unit)} (h : Asks π before after) (r : Nat) :
    (after r).isDone = (before r).isDone := by
  rcases h r with heq | ⟨-, heq⟩
  · rw [heq]
  · rw [heq, Coroutine.isDone_cancel]

/-- Only `tts.begin` changes the current reply, and no reply that is over goes on. -/
theorem Move.replies (h : Move l c π me p c' q) :
    (c'.ttsCurrent = c.ttsCurrent ∧ c'.ttsCount = c.ttsCount ∧
        ∀ r, (c.ttsTask r).isDone = true → (c'.ttsTask r).isDone = true) ∨
      (p.begins = true ∧ q.stopping = false ∧ q.quiet = false) ∧ c'.ttsCurrent = some c.ttsCount ∧
        c'.ttsCount = c.ttsCount + 1 ∧
        ∀ r, r ≠ c.ttsCount → (c.ttsTask r).isDone = true → (c'.ttsTask r).isDone = true := by
  cases h with
  | turnStarted _ hasks | bargesIn _ hasks | recovers _ hasks | ends _ hasks | expires hasks =>
      exact Or.inl ⟨rfl, rfl, fun r hr => (hasks.isDone r).trans hr⟩
  | asks _ _ _ _ hasks | tearsDownLoop hasks => exact Or.inl ⟨rfl, rfl, fun r hr => (hasks.isDone r).trans hr⟩
  | @cancelsReply _ _ r₀ _ _ _ hasks =>
      refine Or.inl ⟨rfl, rfl, fun r hr => (hasks.isDone r).trans ?_⟩
      by_cases heq : r = r₀
      · subst heq
        rw [Function.update_self, Coroutine.isDone_cancel]
        exact hr
      · rw [Function.update_of_ne heq]
        exact hr
  | @reply r₀ _ _ _ _ _ hpc =>
      refine Or.inl ⟨rfl, rfl, fun r hr => ?_⟩
      have hne : r ≠ r₀ := by
        rintro rfl
        rw [hpc] at hr
        cases hr
      show (Function.update c.ttsTask r₀ _ r).isDone = true
      rw [Function.update_of_ne hne]
      exact hr
  | answers hasks =>
      refine Or.inr ⟨⟨rfl, rfl, rfl⟩, rfl, rfl, fun r hne hr => (hasks.isDone r).trans ?_⟩
      simpa [Core.opens, Function.update_of_ne hne] using hr
  | opensFallback | opensPrompt =>
      refine Or.inr ⟨⟨rfl, rfl, rfl⟩, rfl, rfl, fun r hne hr => ?_⟩
      simpa [Core.opens, Function.update_of_ne hne] using hr
  | clears _ hc' => rcases hc' with rfl | rfl <;> exact Or.inl ⟨rfl, rfl, fun _ hr => hr⟩
  | returns hc' => rcases hc' with ⟨-, rfl⟩ | ⟨_, _, -, rfl⟩ <;> exact Or.inl ⟨rfl, rfl, fun _ hr => hr⟩
  | _ => exact Or.inl ⟨rfl, rfl, fun _ hr => hr⟩

theorem Place.quiet_of_plain (h : p.plain = true) : p.quiet = false := by
  unfold Place.quiet
  split <;> first | rfl | cases h

theorem Place.stopping_of_plain (h : p.plain = true) : p.stopping = false := by
  unfold Place.stopping
  split <;> first | rfl | cases h

theorem Place.begins_of_plain (h : p.plain = true) : p.begins = false := by
  unfold Place.begins
  split <;> first | rfl | cases h

theorem Place.holds_stopped (k : StopFor) : (Place.runs (.stopped k)).holds me = k.locked := by
  cases me <;> rfl

theorem Place.holds_enter (sec : Section) : (Place.runs (.enter sec)).holds me = true := by
  cases me <;> rfl

theorem Place.holds_gathering (r : Nat) (hadAudio : Bool) (k : StopFor) :
    (Place.awaits (.gathering r hadAudio k)).holds me = k.locked := by
  cases me <;> rfl

theorem Place.holds_clearing (k : StopFor) : (Place.awaits (.clearing k)).holds me = k.locked := by
  cases me <;> rfl

theorem Section.not_begins {sec : Section} {st : State} {k : StopFor} (h : sec.stops st = some k) :
    k.locked = true := by
  unfold Section.stops at h
  split at h
  · split at h <;> cases h
    rfl
  · split at h <;> cases h
    rfl
  · cases h

theorem Place.begins_of_locked {k : StopFor} (h : k.locked = true) :
    (Place.runs (.ttsStop k)).quiet = false ∧ (Place.runs (.ttsStop k)).begins = false := by
  cases k with
  | begin => cases h
  | _ => exact ⟨rfl, rfl⟩

/-- How `tts.stop` comes to know that its reply is over. -/
theorem Move.to_quiet (h : Move l c π me p c' q) (hlive : c.state ≠ .ENDED) (hq : q.quiet = true) :
    p.quiet = true ∨ c.active = none ∨
      ∃ r hadAudio k, p = .awaits (.gathering r hadAudio k) ∧ (c.ttsTask r).isDone = true := by
  cases h with
  | silent hactive => exact Or.inr (Or.inl hactive)
  | gathered hdone | clears hdone => exact Or.inr (Or.inr ⟨_, _, _, rfl, hdone⟩)
  | fallsBack | prompted | systemTurnStarts => exact Or.inl rfl
  | systemTurnEnded hst => exact absurd hst hlive
  | edge h =>
      cases h with
      | plain _ hplain =>
          rw [Place.quiet_of_plain hplain] at hq
          cases hq
      | cleared => exact Or.inl rfl
      | declined _ hq' => rcases hq' with rfl | rfl <;> cases hq
      | stops hst =>
          rw [(Place.begins_of_locked (Section.not_begins hst)).1] at hq
          cases hq
      | _ => cases hq
  | @asks _ _ b _ _ _ hb =>
      rw [Place.quiet_of_plain (p := .awaits b) hb] at hq
      cases hq
  | reply _ h => cases h <;> cases hq
  | generates _ hq' => rcases hq' with rfl | ⟨_, rfl⟩ <;> cases hq
  | _ => cases hq

/-- `tts.stop` waits for the reply that is active. -/
theorem Move.to_stopping (h : Move l c π me p c' q) (hq : q.stopping = true) :
    (∃ r hadAudio k, p = .awaits (.gathering r hadAudio k) ∧ q = .awaits (.clearing k)) ∨
      ∃ r hadAudio k, p = .runs (.ttsStop k) ∧ q = .awaits (.gathering r hadAudio k) ∧ c.active = some r := by
  cases h with
  | clears => exact Or.inl ⟨_, _, _, rfl, rfl⟩
  | cancelsReply hactive => exact Or.inr ⟨_, _, _, rfl, rfl, hactive⟩
  | edge h =>
      cases h with
      | plain _ hplain =>
          rw [Place.stopping_of_plain hplain] at hq
          cases hq
      | declined _ hq' => rcases hq' with rfl | rfl <;> cases hq
      | _ => cases hq
  | @asks _ _ b _ _ _ hb =>
      rw [Place.stopping_of_plain (p := .awaits b) hb] at hq
      cases hq
  | reply _ h => cases h <;> cases hq
  | generates _ hq' => rcases hq' with rfl | ⟨_, rfl⟩ <;> cases hq
  | _ => cases hq

/-- `tts.begin` is called by a task that holds the lock, or has just released it. -/
theorem Move.to_begins (h : Move l c π me p c' q) (hq : q.begins = true) :
    p.begins = true ∨ p.holds me = true ∨ p.stopping = true := by
  cases h with
  | @silent _ k =>
      cases k with
      | begin => exact Or.inl rfl
      | _ => cases hq
  | gathered | clears => exact Or.inr (Or.inr rfl)
  | fallsBack | prompted | systemTurnStarts => exact Or.inr (Or.inl (Place.holds_stopped _))
  | systemTurnEnded => exact Or.inr (Or.inl (Place.holds_enter _))
  | edge h =>
      cases h with
      | plain _ hplain =>
          rw [Place.begins_of_plain hplain] at hq
          cases hq
      | cleared => exact Or.inr (Or.inr rfl)
      | declined _ hq' => rcases hq' with rfl | rfl <;> cases hq
      | stops hst =>
          rw [(Place.begins_of_locked (Section.not_begins hst)).2] at hq
          cases hq
      | _ => cases hq
  | @asks _ _ b _ _ _ hb =>
      rw [Place.begins_of_plain (p := .awaits b) hb] at hq
      cases hq
  | reply _ h => cases h <;> cases hq
  | generates _ hq' => rcases hq' with rfl | ⟨_, rfl⟩ <;> cases hq
  | _ => cases hq

theorem Place.quiet_of_begins (h : p.begins = true) : p.quiet = true := by
  unfold Place.begins at h
  split at h
  · rfl
  · rfl
  · cases h

theorem Place.not_stopping_of_begins (h : p.begins = true) : p.stopping = false := by
  unfold Place.begins at h
  split at h
  · rfl
  · rfl
  · cases h

/-- A task that waits in `tts.stop`, or has waited, unless it runs. -/
theorem Place.stopping_of_quiet (h : p.quiet = true) (hp : ∀ x, p ≠ .runs x) : p.stopping = true := by
  unfold Place.quiet at h
  split at h
  · exact absurd rfl (hp _)
  · rfl
  · exact absurd rfl (hp _)
  · cases h

/-- Another task is not created at a place of interest. -/
theorem Goes.unmoved {u : Task} (h : Goes me p q π π') (hu : u ≠ me) (hne : π' u ≠ .awaits .created) : π' u = π u := by
  rcases h.others u hu with heq | ⟨-, -, heq⟩
  · exact heq
  · exact absurd heq hne

/-- Another task that is at a place of `tts.stop` has been there. -/
theorem Goes.stopping {u : Task} (h : Goes me p q π π') (hu : u ≠ me) (hstop : (π' u).stopping = true) :
    π' u = π u := by
  refine h.unmoved hu ?_
  intro heq
  rw [heq] at hstop
  cases hstop

theorem Goes.quiet {u : Task} (h : Goes me p q π π') (hu : u ≠ me) (hquiet : (π' u).quiet = true) :
    π' u = π u := by
  refine h.unmoved hu ?_
  intro heq
  rw [heq] at hquiet
  cases hquiet

theorem Single.holds (h : Single c π) (hgoes : Goes me p q π π') (hp : p.holds me = true ∨ p.stopping = true) {v : Task}
    (hv : v ≠ me) : (π v).stopping = false := by
  have hme : (π me).holds me = true := by
    rw [hgoes.before]
    rcases hp with hp | hp
    · exact hp
    · have hlocked := h.locked me
      rw [hgoes.before] at hlocked
      exact hlocked hp
  by_contra hstop
  have hholds := h.locked v (by simpa using hstop)
  exact hv (hgoes.orderly.exclusive v me hholds hme)

theorem Single.move_begins (h : Single c π) (hgoes : Goes me p q π π') (hmove : Move l c π me p c' q) (u v : Task)
    (hu : (π' u).begins = true) : (π' v).stopping = false := by
  have hme : u = me := by
    by_contra hne
    have hruns : ∃ x, π' u = .runs x := by
      unfold Place.begins at hu
      split at hu
      · next heq => exact ⟨_, heq⟩
      · next heq => exact ⟨_, heq⟩
      · cases hu
    obtain ⟨x, hx⟩ := hruns
    have heq := hgoes.unmoved hne (by simp [hx])
    exact hgoes.solo u hne x (heq ▸ hx)
  subst hme
  rw [hgoes.after] at hu
  by_cases hv : v = u
  · subst hv
    rw [hgoes.after]
    exact Place.not_stopping_of_begins hu
  · by_contra hstop
    have hstop' : (π' v).stopping = true := by simpa using hstop
    have hbefore : (π v).stopping = false := by
      rcases hmove.to_begins hu with hp | hp
      · exact h.begins u v (by rw [hgoes.before]; exact hp)
      · exact h.holds hgoes hp hv
    rw [hgoes.stopping hv hstop', hbefore] at hstop'
    cases hstop'

theorem Single.move (h : Single c π) (hlive : c.state ≠ .ENDED) (hgoes : Goes me p q π π')
    (hmove : Move l c π me p c' q) : Single c' π' := by
  have hbegins := h.move_begins hgoes hmove
  rcases hmove.replies with ⟨hcurrent, -, hdone⟩ | ⟨⟨hp, hstop, hquiet⟩, hcurrent, -, hdone⟩
  · have hnone (hactive : c.active = none) : c'.active = none := by
      rcases hcur : c'.ttsCurrent with _ | r
      · simp [Core.active, hcur]
      · exact Core.active_of_current hcur (hdone r (h.done hactive r))
    refine ⟨fun r hr => hdone r (h.others r (hcurrent ▸ hr)), fun u hu => ?_, fun u r hadAudio k hu => ?_,
      fun u hu => ?_, hbegins⟩
    · by_cases hme : u = me
      · subst hme
        rw [hgoes.after] at hu
        rcases hmove.to_quiet hlive hu with hp | hactive | ⟨r, hadAudio, k, hp, hr⟩
        · exact hnone (h.quiet u (by rw [hgoes.before]; exact hp))
        · exact hnone hactive
        · exact hnone (Core.active_of_current (h.gathers u r hadAudio k (by rw [hgoes.before, hp])) hr)
      · rw [hgoes.quiet hme hu] at hu
        exact hnone (h.quiet u hu)
    · rw [hcurrent]
      by_cases hme : u = me
      · subst hme
        rw [hgoes.after] at hu
        rcases hmove.to_stopping (by rw [hu]; rfl) with ⟨_, _, _, -, hq⟩ | ⟨_, _, _, -, hq, hactive⟩
        · rw [hu] at hq
          cases hq
        · rw [hu] at hq
          cases hq
          exact (Core.active_eq_some hactive).1
      · rw [hgoes.stopping hme (by rw [hu]; rfl)] at hu
        exact h.gathers u r hadAudio k hu
    · by_cases hme : u = me
      · subst hme
        rw [hgoes.after] at hu ⊢
        rcases hmove.to_stopping hu with ⟨r, hadAudio, k, hp, hq⟩ | ⟨r, hadAudio, k, hp, hq, hactive⟩
        · have hlocked := h.locked u (by rw [hgoes.before, hp]; rfl)
          rw [hgoes.before, hp, Place.holds_gathering] at hlocked
          rw [hq, Place.holds_clearing]
          exact hlocked
        · rw [hq, Place.holds_gathering]
          cases k with
          | begin ticket opening =>
              rw [h.quiet u (by rw [hgoes.before, hp]; rfl)] at hactive
              cases hactive
          | _ => rfl
      · have heq := hgoes.stopping hme hu
        rw [heq] at hu ⊢
        exact h.locked u hu
  · have hbefore : (π me).begins = true := by
      rw [hgoes.before]
      exact hp
    have hactive := h.quiet me (Place.quiet_of_begins hbefore)
    -- While the reply is created no other task is in `tts.stop`.
    have hnot (u : Task) (hu : (π' u).stopping = true) : False := by
      by_cases hme : u = me
      · subst hme
        rw [hgoes.after, hstop] at hu
        cases hu
      · rw [hgoes.stopping hme hu, h.begins me u hbefore] at hu
        cases hu
    refine ⟨fun r hr => hdone r (fun heq => hr (by rw [hcurrent, heq])) (h.done hactive r), fun u hu => ?_,
      fun u r hadAudio k hu => (hnot u (by rw [hu]; rfl)).elim, fun u hu => (hnot u hu).elim, hbegins⟩
    by_cases hme : u = me
    · subst hme
      rw [hgoes.after, hquiet] at hu
      cases hu
    · have heq := hgoes.quiet hme hu
      refine (hnot u (Place.stopping_of_quiet hu fun x hx => ?_)).elim
      exact hgoes.solo u hme x (heq ▸ hx)

/-! ### What is sent -/

def Event.outbound : Event → Bool
  | .opened _ _ | .media _ | .clear | .bargedIn => true
  | _ => false

/-- What a move of `me` from `p` adds to the record. -/
inductive Adds (c c' : Core) (me : Task) (p : Place) : List Event → Prop
  | silent {es : List Event} (h : ∀ e ∈ es, e.outbound = false) : Adds c c' me p es
  | media {r : Nat} (hme : me = .reply r) (hp : p = .runs (.enter .frameSend)) (hst : c.state ≠ .ENDED) :
      Adds c c' me p [.media (.reply r)]
  | clear {r : Nat} {hadAudio : Bool} {k : StopFor} (hp : p = .awaits (.gathering r hadAudio k))
      (hr : (c.ttsTask r).isDone = true) : Adds c c' me p [.clear]
  | bargedIn {k : Option TurnManager.After} (hp : p = .runs (.stopped (.bargeIn k))) : Adds c c' me p [.bargedIn]
  | opened {ticket : Nat} {opening : Opening} {es : List Event} (hp : p = .runs (.stopped (.begin ticket opening)))
      (hcount : c'.ttsCount = c.ttsCount + 1) (hes : ∀ e ∈ es, e.outbound = false) :
      Adds c c' me p (.opened ticket c.ttsCount :: es)

theorem Move.adds (h : Move l c π me p c' q) : ∃ es, c'.trace = c.trace ++ es ∧ Adds c c' me p es := by
  have hnone : c.trace = c.trace ++ [] ∧ Adds c c' me p [] := ⟨(List.append_nil _).symm, .silent (by simp)⟩
  have hone {e : Event} (he : e.outbound = false) : Adds c c' me p [e] := .silent (by simpa using he)
  cases h with
  | sendsMedia hst => exact ⟨_, rfl, .media rfl rfl hst⟩
  | clears hr hc' =>
      rcases hc' with rfl | rfl
      · exact ⟨_, hnone⟩
      · exact ⟨_, rfl, .clear rfl hr⟩
  | @answers ticket turn _ k =>
      refine ⟨[.opened ticket c.ttsCount, .generation c.llmCount k (Text.strip turn.transcript), .turnReturned k turn],
        ?_, .opened rfl rfl (by simp [Event.outbound])⟩
      simp [Core.generates, Core.opens, Core.emit]
  | @opensFallback _ ticket n =>
      refine ⟨[.opened ticket c.ttsCount, .fallback n], ?_, .opened rfl rfl (by simp [Event.outbound])⟩
      simp [Core.opens, Core.emit]
  | opensPrompt => exact ⟨_, rfl, .opened rfl rfl (by simp)⟩
  | returns hc' =>
      rcases hc' with ⟨-, rfl⟩ | ⟨_, _, -, rfl⟩
      · exact ⟨_, hnone⟩
      · exact ⟨_, rfl, hone rfl⟩
  | bargedIn | bargedInAfter => exact ⟨_, rfl, .bargedIn rfl⟩
  | turnRejected | turnAccepted | systemTurnEnded | systemTurnStarts | fallsBack | prompted => exact ⟨_, rfl, hone rfl⟩
  | raises | reported | sendFails | expires | generationFails | ends => exact ⟨_, rfl, hone rfl⟩
  | _ => exact ⟨_, hnone⟩

end Moves

section Runs
variable {cfg : Config} {ls : List Label} {s : Session}

/-- A reply that is in a callback of the session is not over. -/
theorem Placed.reply_not_done {r : Nat} (h : Placed s) (hplace : s.place (.reply r) ≠ .away) :
    (s.core.ttsTask r).isDone = false := by
  have hcall : s.inCall (.reply r) = true := by
    have hrest {o : Option Task} (ho : Others o s) (hne : o ≠ some (.reply r)) (hr : s.rest (.reply r) ≠ .away) :
        s.inCall (.reply r) = true := by
      rw [ho.reply hne, Option.isSome_iff_ne_none]
      intro hpc
      exact hr (by simp [Session.rest, hpc])
    unfold Placed at h
    unfold Session.place at hplace
    rcases hrunning : s.running with _ | ⟨u, x⟩
    · simp only [hrunning] at h hplace
      exact hrest h (by simp) hplace
    · simp only [hrunning] at h hplace
      by_cases hu : .reply r = u
      · rw [hu]
        exact h.1.inCall
      · rw [if_neg hu] at hplace
        exact hrest h.1.toOthers (by simpa using fun heq => hu heq.symm) hplace
  have htask : (s.tts.task r).pc?.any Tts.Pc.inCallback = true := hcall
  show (s.tts.task r).isDone = false
  cases hdone : s.tts.task r with
  | suspended => rfl
  | done =>
      rw [hdone] at htask
      cases htask

/-- A step keeps the replies that are over, and counts on. -/
theorem replies_of_step {cfg : Config} {l : Label} {t : Session} (h : Placed s) (hstep : step cfg s l = some t) :
    s.tts.count ≤ t.tts.count ∧
      ∀ r, r < s.tts.count → (s.tts.task r).isDone = true → (t.tts.task r).isDone = true := by
  cases Move.of_step h hstep with
  | nothing _ heq =>
      rw [heq]
      exact ⟨Nat.le_refl _, fun _ _ hr => hr⟩
  | frame _ _ hcore =>
      have hcount : t.tts.count = s.tts.count := congrArg Core.ttsCount hcore
      have htask : t.tts.task = s.tts.task := congrArg Core.ttsTask hcore
      rw [hcount, htask]
      exact ⟨Nat.le_refl _, fun _ _ hr => hr⟩
  | move me _ _ hmoved =>
      obtain ⟨q, hmove, -, -⟩ := hmoved
      rcases hmove.replies with ⟨-, hcount, hdone⟩ | ⟨-, -, hcount, hdone⟩
      · exact ⟨Nat.le_of_eq hcount.symm, fun r _ hr => hdone r hr⟩
      · exact ⟨Nat.le_trans (Nat.le_succ _) (Nat.le_of_eq hcount.symm), fun r hlt hr => hdone r (Nat.ne_of_lt hlt) hr⟩

theorem single_of_run {ok : Session → Label → Prop} (hrun : Run (step cfg) ok .started ls s) (hlive : s.state ≠ .ENDED) :
    Single s.core s.place := by
  refine invariant_of_moves hrun (I := fun c π => c.state ≠ .ENDED → Single c π) (fun _ => ?_)
    (fun _ h hgoes hmove hlive => ?_) (fun h _ hlive => ?_) hlive
  · refine ⟨fun r _ => rfl, fun u hu => ?_, fun u r hadAudio k hu => ?_, fun u hu => ?_, fun u v hu => ?_⟩
    all_goals cases u <;> cases hu
  · have hbefore := fun hended => hlive (hmove.ended hended)
    exact (h hbefore).move hbefore hgoes hmove
  · have hsingle := h hlive
    exact ⟨hsingle.others, hsingle.quiet, hsingle.gathers, hsingle.locked, hsingle.begins⟩

end Runs

/-- The generation hands out its only sentence, and the first frame of it is sent. -/
def spokenLabels : List Label :=
  answerLabels ++ [.generation 0 (.ok .none), .generation 0 (.ok (.token "Hi.".toList 0)), .generation 0 (.ok .none),
    .generation 0 (.ok .none)] ++ List.replicate 3 .run ++
  [.reply 0 (.ok .none), .reply 0 (.ok (.frame [0, 0, 0, 0])), .reply 0 (.ok .none)] ++ List.replicate 4 .run ++
  [.wake (.reply 0) (.ok .none), .run]

/-- The caller goes on. -/
def waitEvent : TranscriptEvent := ⟨.PARTIAL, "00000000-0000-4000-8000-000000000001".toList, "wait".toList⟩

end Voxera.Call
