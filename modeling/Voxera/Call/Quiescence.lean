import Voxera.Call.Interrupting
import Voxera.Call.States

/-!
# The call when nothing runs

Two flags say that the system talks: the state, `PROCESSING` or `SPEAKING`, and the open system turn. They are set under
the lock on the way from a turn to its answer, and reset by the reply that is heard to its end, by a barge-in and by a
recovery. So while the system talks there is somebody who will reset them, or begin a reply that does: unless a reply
fails by itself, which `_on_tts_playback_end` takes for a barge-in; or a failed generation calls for the recovery, which
cancels its own task before it has reset anything.

* `Core.talks` : the two flags (`Move.talks`);
* `Carried` : who will reset them; `Voiced` : the invariant (`Voiced.step`);
* `Session.cutsShort` : the two failures; `Quiescent`, `silent_of_run`.
-/

namespace Voxera.Call

open EventLoop

/-- The system answers, or its turn is open. -/
def Core.talks (c : Core) : Bool := c.state.answering || c.conversation.isSystemSpeaking

/-- The section of a turn that was accepted. -/
def Place.announces : Place → Bool
  | .runs (.acquire sec) | .runs (.enter sec) | .awaits (.acquiring sec) => sec.accepted.isSome
  | _ => false

/-- `tts.stop` is called, or has returned to its caller. -/
def Place.replaces : Place → Bool
  | .runs (.ttsStop _) | .runs (.stopped _) | .awaits (.gathering _ _ _) | .awaits (.clearing _) => true
  | _ => false

/-- The reply was not asked to cancel, and has not failed. -/
def Speaks (c : Core) (r : Nat) : Prop := ∃ pc, c.ttsTask r = .suspended pc false ∧ pc.interrupted = false

/-- Who ends the talk: a reply; the turn that is on its way to one; a task that replaces the reply. A generation that
waits in `tts.stop` is left out, as it may be cancelled there. -/
inductive Carried (c : Core) (π : Task → Place) : Prop
  | reply {r : Nat} (h : Speaks c r)
  | turn (h : (π .stt).announces = true)
  | stops {me : Task} (h : (π me).replaces = true) (hme : ∀ g, me = .generation g → (π me).stopping = false)

section Moves
variable {l : Label} {c c' : Core} {π π' : Task → Place} {me : Task} {p q : Place} {r : Nat}

theorem Place.announces_of_plain (h : p.plain = true) : p.announces = false := by
  unfold Place.announces
  split <;> first | rfl | cases h

theorem Place.replaces_of_plain (h : p.plain = true) : p.replaces = false := by
  unfold Place.replaces
  split <;> first | rfl | cases h

theorem Place.replaces_of_stopping (h : p.stopping = true) : p.replaces = true := by
  unfold Place.stopping at h
  split at h
  · rfl
  · rfl
  · cases h

theorem isSystemSpeaking_startUserTurn {utteranceId : Text} {conv conv' : ConversationState}
    (h : conv.startUserTurn utteranceId = some conv') : conv'.isSystemSpeaking = conv.isSystemSpeaking := by
  rw [ConversationState.startUserTurn_eq_some h]

theorem isSystemSpeaking_partialTurn (ev : TranscriptEvent) (conv : ConversationState) :
    (TurnManager.partialTurn ev conv).1.isSystemSpeaking = conv.isSystemSpeaking := by
  unfold TurnManager.partialTurn
  split
  · rfl
  · split
    · next h => exact isSystemSpeaking_startUserTurn h
    · rfl

theorem isSystemSpeaking_finalTurn (ev : TranscriptEvent) (conv : ConversationState) :
    (TurnManager.finalTurn ev conv).1.isSystemSpeaking = conv.isSystemSpeaking := by
  unfold TurnManager.finalTurn
  split
  · next h => exact isSystemSpeaking_startUserTurn h
  · rfl

/-- No transcript event makes the system speak. -/
theorem isSystemSpeaking_processTranscriptEvent {ev : TranscriptEvent} {conv : ConversationState}
    (h : conv.isSystemSpeaking = false) : (TurnManager.processTranscriptEvent ev conv).1.isSystemSpeaking = false := by
  have hnone : TurnManager.handleInterruption conv = none := by simp [TurnManager.handleInterruption, h]
  unfold TurnManager.processTranscriptEvent
  rw [hnone]
  cases ev.type with
  | PARTIAL => exact (isSystemSpeaking_partialTurn ev conv).trans h
  | FINAL =>
      dsimp only
      split
      · exact h
      · split
        · exact (isSystemSpeaking_finalTurn ev conv).trans h
        · exact h

theorem isSystemSpeaking_resume {k : TurnManager.After} {conv : ConversationState} (h : conv.isSystemSpeaking = false) :
    (TurnManager.resume k conv).1.isSystemSpeaking = false := by
  cases k with
  | partialInterrupted ev => exact (isSystemSpeaking_partialTurn ev conv).trans h
  | finalInterrupted ev => exact (isSystemSpeaking_finalTurn ev conv).trans h
  | partialStarted | finalStarted | completed => exact h

theorem Core.talks_eq_false : c.talks = false ↔ c.state.answering = false ∧ c.conversation.isSystemSpeaking = false := by
  simp [Core.talks]

theorem State.answering_closes (a : State) : ((a.apply .INTERRUPTED).apply .LISTENING).answering = false := by
  cases a <;> rfl

/-- Only a turn that is answered makes the system talk. -/
theorem Move.talks (h : Move l c π me p c' q) (hc' : c'.talks = true) :
    c.talks = true ∨ me = .stt ∧ p.holds .stt = true ∧ (q.announces = true ∨ q.replaces = true) := by
  by_contra hnot
  push Not at hnot
  obtain ⟨hc, hnot⟩ := hnot
  obtain ⟨hstate, hsystem⟩ := Core.talks_eq_false.mp (by simpa using hc)
  suffices hsilent : c'.talks = false by
    rw [hsilent] at hc'
    cases hc'
  rw [Core.talks_eq_false]
  cases h with
  | turnAccepted => exact absurd rfl (hnot rfl rfl).1
  | systemTurnStarts => exact absurd rfl (hnot rfl rfl).2
  | turnStartedEnded | bargeInDeclined => exact ⟨hstate, isSystemSpeaking_resume hsystem⟩
  | turnStarted =>
      refine ⟨?_, isSystemSpeaking_resume hsystem⟩
      rw [if_neg (fun heq => by rw [heq] at hstate; cases hstate)]
      exact hstate
  | hears => exact ⟨hstate, isSystemSpeaking_processTranscriptEvent hsystem⟩
  | speaks hst =>
      rw [hstate] at hst
      cases hst
  | playbackEnded =>
      refine ⟨?_, by simp⟩
      simp only [hstate]
      exact hstate
  | fed =>
      refine ⟨?_, hsystem⟩
      show (if c.state = .CONNECTED ∨ c.state = .LISTENING then c.state.apply .STREAMING else c.state).answering = false
      generalize c.state = a at hstate
      cases a <;> first | rfl | cases hstate
  | ends => exact ⟨rfl, hsystem⟩
  | bargedIn => exact ⟨State.answering_closes _, by simp⟩
  | bargedInAfter => exact ⟨State.answering_closes _, isSystemSpeaking_resume (by simp)⟩
  | recovered =>
      refine ⟨?_, by simp⟩
      simp only [hstate]
      exact hstate
  | clears _ hc' => rcases hc' with rfl | rfl <;> exact ⟨hstate, hsystem⟩
  | returns hc' => rcases hc' with ⟨-, rfl⟩ | ⟨_, _, -, rfl⟩ <;> exact ⟨hstate, hsystem⟩
  | _ => exact ⟨hstate, hsystem⟩

/-- The task that closes the turns ends the talk. -/
theorem Core.talks_closes : c.closes.talks = false := Core.talks_eq_false.mpr ⟨State.answering_closes _, by simp⟩

/-- An accepted turn comes to `tts.stop`. -/
theorem Move.announces (h : Move l c π .stt p c' q) (hp : p.announces = true) (hasked : c.asked .stt = false) :
    q.announces = true ∨ q.replaces = true := by
  cases h with
  | systemTurnEnded => exact Or.inr rfl
  | edge h =>
      cases h with
      | plain hplain =>
          rw [Place.announces_of_plain hplain] at hp
          cases hp
      | acquires | waits | admitted => exact Or.inl hp
      | @declined sec _ hst =>
          cases sec with
          | systemTurn => cases hst
          | _ => cases hp
      | stops => exact Or.inr rfl
      | _ => cases hp
  | unwinds h =>
      rw [hasked] at h
      cases h
  | @calls _ _ sec hp' => cases sec <;> subst hp' <;> cases hp
  | hears _ ha => rcases ha with ⟨-, rfl | rfl⟩ | ⟨h, -⟩ <;> first | cases hp | cases h
  | dequeues hplain | endsLoop hplain =>
      rw [Place.announces_of_plain hplain] at hp
      cases hp
  | _ => cases hp

/-- What becomes of a call of `tts.stop`. -/
theorem Move.replaces (h : Move l c π me p c' q) (hp : p.replaces = true)
    (hbegins : p.begins = true → ∀ u, (π u).stopping = false) :
    q.replaces = true ∨ c'.talks = false ∨ Speaks c' c.ttsCount ∨ p = .runs (.stopped .stop) ∨
      p.stopping = true ∧ (c.asked me = true ∨ (∃ g, me = .generation g) ∨ ∃ r, me = .reply r) := by
  have hopens (ticket : Nat) : Speaks (c.opens ticket) c.ttsCount := ⟨.created, Function.update_self _ _ _, rfl⟩
  cases h with
  | silent | cancelsReply | gathered | clears | systemTurnStarts | fallsBack | prompted => exact Or.inl rfl
  | bargedIn => exact Or.inr (Or.inl Core.talks_closes)
  | bargedInAfter =>
      refine Or.inr (Or.inl (Core.talks_eq_false.mpr ⟨State.answering_closes _, isSystemSpeaking_resume ?_⟩))
      simp
  | recovered =>
      refine Or.inr (Or.inl (Core.talks_eq_false.mpr ⟨?_, by simp⟩))
      cases hanswering : c.state.answering with
      | true =>
          rw [if_pos rfl]
          exact State.answering_closes _
      | false =>
          rw [if_neg (by simp)]
          exact hanswering
  | @answers ticket turn history k ttsTask hasks =>
      obtain ⟨pc, hpc, hnot⟩ := hopens ticket
      refine Or.inr (Or.inr (Or.inl ⟨pc, ?_, hnot⟩))
      rcases hasks c.ttsCount with heq | ⟨⟨u, hadAudio, k', hu⟩, -⟩
      · exact heq.trans hpc
      · have hnot := hbegins rfl u
        rw [hu] at hnot
        cases hnot
  | @opensFallback _ ticket | @opensPrompt ticket => exact Or.inr (Or.inr (Or.inl (hopens ticket)))
  | edge h =>
      cases h with
      | plain hplain =>
          rw [Place.replaces_of_plain hplain] at hp
          cases hp
      | cleared => exact Or.inl rfl
      | tearsDown => exact Or.inr (Or.inr (Or.inr (Or.inl rfl)))
      | _ => cases hp
  | @unwinds _ a h =>
      refine Or.inr (Or.inr (Or.inr (Or.inr ⟨?_, Or.inl h⟩)))
      cases a <;> first | rfl | cases hp
  | @generates _ _ _ _ hp' =>
      refine Or.inr (Or.inr (Or.inr (Or.inr ⟨?_, Or.inr (Or.inl ⟨_, rfl⟩)⟩)))
      rcases hp' with rfl | rfl | ⟨a, rfl, -⟩
      · cases hp
      · cases hp
      · cases a <;> first | rfl | cases hp
  | reply _ h =>
      refine Or.inr (Or.inr (Or.inr (Or.inr ⟨?_, Or.inr (Or.inr ⟨_, rfl⟩)⟩)))
      cases h with
      | interrupted _ hp' =>
          rcases hp' with rfl | ⟨a, rfl, -⟩
          · cases hp
          · cases a <;> first | rfl | cases hp
      | _ => cases hp
  | @calls _ _ sec hp' => cases sec <;> subst hp' <;> cases hp
  | hears _ ha => rcases ha with ⟨-, rfl | rfl⟩ | ⟨-, rfl⟩ <;> cases hp
  | dequeues hplain | endsLoop hplain | marksEnd hplain =>
      rw [Place.replaces_of_plain hplain] at hp
      cases hp
  | loopOver ha => rcases ha with rfl | rfl <;> cases hp
  | @asks _ a _ _ _ ha =>
      rw [Place.replaces_of_plain (p := .awaits a) ha] at hp
      cases hp
  | _ => cases hp

/-- What becomes of a reply that speaks. -/
theorem Move.speaker (h : Move l c π me p c' q) (hs : Speaks c r) (hlt : r < c.ttsCount) :
    Speaks c' r ∨ q.stopping = true ∨ (∃ u hadAudio k, π u = .awaits (.gathering r hadAudio k)) ∨
      (∃ pc, c.ttsTask r = .suspended pc false ∧ pc.raises = true ∧ l = .reply r .raised) ∨
      ∃ inner asked, c.ttsTask r = .suspended (.playbackEnd false inner) asked ∧ p = .runs .leave ∧ me = .reply r := by
  have hsame {d : Core} (heq : d.ttsTask r = c.ttsTask r) : Speaks d r := by
    unfold Speaks
    rw [heq]
    exact hs
  have hasks' {d : Core} {before : Nat → Coroutine (Tts.Pc Unit)} (hasks : Asks π before d.ttsTask)
      (hbefore : before r = c.ttsTask r) :
      Speaks d r ∨ ∃ u hadAudio k, π u = .awaits (.gathering r hadAudio k) := by
    rcases hasks r with heq | ⟨hu, -⟩
    · exact Or.inl (hsame (heq.trans hbefore))
    · exact Or.inr hu
  have hopens (ticket : Nat) : (c.opens ticket).ttsTask r = c.ttsTask r := by
    have hne : r ≠ c.ttsCount := Nat.ne_of_lt hlt
    simp [Core.opens, Function.update_of_ne hne]
  have hor {d : Core} (h : Speaks d r ∨ ∃ u hadAudio k, π u = .awaits (.gathering r hadAudio k)) {P Q : Prop} :
      Speaks d r ∨ P ∨ (∃ u hadAudio k, π u = .awaits (.gathering r hadAudio k)) ∨ Q :=
    h.imp_right fun h => Or.inr (Or.inl h)
  cases h with
  | turnStarted _ hasks | bargesIn _ hasks | recovers _ hasks | ends _ hasks | expires hasks => exact hor (hasks' hasks rfl)
  | asks _ _ _ _ hasks | tearsDownLoop hasks => exact hor (hasks' hasks rfl)
  | answers hasks => exact hor (hasks' hasks (hopens _))
  | cancelsReply => exact Or.inr (Or.inl rfl)
  | @opensFallback _ ticket | @opensPrompt ticket => exact Or.inl (hsame (hopens ticket))
  | clears _ hc' => rcases hc' with rfl | rfl <;> exact Or.inl hs
  | returns hc' => rcases hc' with ⟨-, rfl⟩ | ⟨_, _, -, rfl⟩ <;> exact Or.inl hs
  | @reply r₀ _ _ pc asked x hpc h =>
      by_cases hr : r = r₀
      · subst hr
        obtain ⟨pc', hpc', hnot⟩ := hs
        rw [hpc] at hpc'
        cases hpc'
        have hspeaks {pc' : Tts.Pc Unit} (h : pc'.interrupted = false) :
            Speaks { c with ttsTask := Function.update c.ttsTask r (.suspended pc' false) } r :=
          ⟨pc', Function.update_self _ _ _, h⟩
        cases h with
        | interrupted h =>
            rcases h with h | h
            · cases h
            · rw [hnot] at h
              cases h
        | fails hraises hl => exact Or.inr (Or.inr (Or.inr (Or.inl ⟨_, hpc, hraises, hl⟩)))
        | goesOn h => exact Or.inl (hspeaks h)
        | sends | heard | sent => exact Or.inl (hspeaks rfl)
        | @reported i inner =>
            cases i with
            | true => cases hnot
            | false => exact Or.inr (Or.inr (Or.inr (Or.inr ⟨inner, _, hpc, rfl, rfl⟩)))
      · exact Or.inl (hsame (Function.update_of_ne hr _ _))
  | _ => exact Or.inl hs

theorem Asks.active (h : Asks π c.ttsTask c'.ttsTask) (hcurrent : c'.ttsCurrent = c.ttsCurrent) :
    c'.active = c.active := by
  unfold Core.active
  rw [hcurrent]
  refine congrArg (Option.filter · c.ttsCurrent) (funext fun r => ?_)
  rw [h.isDone r]

/-- A task under the lock calls `tts.stop` in the section that it has entered. -/
theorem Move.to_ttsStop {k : StopFor} (h : Move l c π me p c' (.runs (.ttsStop k))) (hk : k.locked = true) :
    c'.active = c.active ∧ ∃ sec, p = .runs (.enter sec) ∧ ∀ text, sec ≠ .segment text := by
  cases h with
  | bargesIn _ hasks | recovers _ hasks | ends _ hasks => exact ⟨hasks.active rfl, _, rfl, nofun⟩
  | marks => exact ⟨rfl, _, rfl, nofun⟩
  | edge h =>
      cases h with
      | plain _ hplain => cases hplain
      | stops hst =>
          refine ⟨rfl, _, rfl, ?_⟩
          rintro text rfl
          cases hst
      | declined _ hq => rcases hq with hq | hq <;> cases hq
  | systemTurnEnded | systemTurnStarts | fallsBack | prompted => cases hk
  | generates _ hq => rcases hq with hq | ⟨_, hq⟩ <;> cases hq
  | reply _ h => cases h

/-- Where a reply is that was heard to its end. -/
theorem Move.reports (h : Move l c π (.reply r) p c' q) (hlive : c.state ≠ .ENDED) (hp : p.reports = true) :
    q.reports = true ∨ q = .away ∨ q = .runs .leave ∧ c'.talks = false := by
  cases h with
  | playbackEnded =>
      refine Or.inr (Or.inr ⟨rfl, Core.talks_eq_false.mpr ⟨?_, by simp⟩⟩)
      show (if c.state.answering then c.state.apply .LISTENING else c.state).answering = false
      generalize c.state = a
      cases a <;> rfl
  | edge h =>
      cases h with
      | plain hplain =>
          rw [Place.reports_of_plain hplain] at hp
          cases hp
      | acquires | waits | admitted => exact Or.inl hp
      | @declined sec _ hst =>
          cases sec with
          | playbackEnd => exact absurd (by simpa [Section.declines] using hst) hlive
          | _ => cases hp
      | @stops sec _ hst =>
          cases sec with
          | playbackEnd => cases hst
          | _ => cases hp
      | _ => cases hp
  | unwinds => exact Or.inr (Or.inl rfl)
  | reply _ h =>
      cases h with
      | interrupted => exact Or.inr (Or.inl rfl)
      | _ => cases hp
  | @calls _ _ sec hp' => cases sec <;> subst hp' <;> cases hp
  | hears _ ha => rcases ha with ⟨h, -⟩ | ⟨h, -⟩ <;> cases h
  | _ => cases hp

theorem suspended_of_cancel {x : Coroutine (Tts.Pc Unit)} {pc : Tts.Pc Unit} {asked : Bool}
    (h : x.cancel = .suspended pc asked) : ∃ asked', x = .suspended pc asked' := by
  cases x with
  | done => cases h
  | suspended pc' asked' =>
      cases h
      exact ⟨asked', rfl⟩

theorem Asks.suspended_before {before after : Nat → Coroutine (Tts.Pc Unit)} (h : Asks π before after) {pc : Tts.Pc Unit}
    (hr : ∃ asked, after r = .suspended pc asked) : ∃ asked, before r = .suspended pc asked := by
  obtain ⟨asked, hr⟩ := hr
  rcases h r with heq | ⟨-, heq⟩
  · exact ⟨asked, heq ▸ hr⟩
  · exact suspended_of_cancel (heq.symm.trans hr)

/-- A reply is where it was, unless it runs. -/
theorem Move.suspended_before (h : Move l c π me p c' q) {pc : Tts.Pc Unit} (hpc : pc ≠ .created)
    (hr : ∃ asked, c'.ttsTask r = .suspended pc asked) :
    (∃ asked, c.ttsTask r = .suspended pc asked) ∨ me = .reply r ∧ (q.reports = true ∨ q = .away ∨
      ∃ frame inner, pc = .sendBytes frame inner) := by
  have hopens (ticket : Nat) (hr : ∃ asked, (c.opens ticket).ttsTask r = .suspended pc asked) :
      ∃ asked, c.ttsTask r = .suspended pc asked := by
    by_cases heq : r = c.ttsCount
    · subst heq
      obtain ⟨asked, hr⟩ := hr
      have hcreated : (c.opens ticket).ttsTask c.ttsCount = .await .created := Function.update_self _ _ _
      rw [hcreated] at hr
      cases hr
      exact absurd rfl hpc
    · simpa [Core.opens, Function.update_of_ne heq] using hr
  cases h with
  | turnStarted _ hasks | bargesIn _ hasks | recovers _ hasks | ends _ hasks | expires hasks =>
      exact Or.inl (hasks.suspended_before hr)
  | asks _ _ _ _ hasks | tearsDownLoop hasks => exact Or.inl (hasks.suspended_before hr)
  | @cancelsReply _ _ r₀ _ _ _ hasks =>
      refine Or.inl ?_
      obtain ⟨asked, hr⟩ := hasks.suspended_before hr
      by_cases heq : r = r₀
      · subst heq
        rw [Function.update_self] at hr
        exact suspended_of_cancel hr
      · rw [Function.update_of_ne heq] at hr
        exact ⟨asked, hr⟩
  | @reply r₀ _ _ _ _ _ _ h =>
      by_cases heq : r = r₀
      · subst heq
        refine Or.inr ⟨rfl, ?_⟩
        cases h with
        | heard => exact Or.inl rfl
        | sends =>
            obtain ⟨asked, hr⟩ := hr
            simp only [Function.update_self] at hr
            cases hr
            exact Or.inr (Or.inr ⟨_, _, rfl⟩)
        | _ => exact Or.inr (Or.inl rfl)
      · obtain ⟨asked, hr⟩ := hr
        exact Or.inl ⟨asked, (Function.update_of_ne heq _ _).symm.trans hr⟩
  | answers hasks => exact Or.inl (hopens _ (hasks.suspended_before hr))
  | @opensFallback _ ticket | @opensPrompt ticket => exact Or.inl (hopens ticket hr)
  | clears _ hc' => rcases hc' with rfl | rfl <;> exact Or.inl hr
  | returns hc' => rcases hc' with ⟨-, rfl⟩ | ⟨_, _, -, rfl⟩ <;> exact Or.inl hr
  | _ => exact Or.inl hr

end Moves

/-! ## The invariant -/

/-- A reply fails by itself while the system talks; or the recovery of a failed generation has got the lock, while the
system talks and a reply is active. -/
def Session.cutsShort (s : Session) (l : Label) : Bool :=
  s.core.talks &&
    ((match l with
      | .reply r .raised => (s.tts.task r).pc?.any Tts.Pc.raises
      | _ => false) ||
      match s.running with
      | some (.generation _, .enter (.recovery _)) | some (.generation _, .enter (.fallback _)) => s.tts.active.isSome
      | _ => false)

structure Voiced (c : Core) (π : Task → Place) : Prop where
  carried : c.talks = true → Carried c π
  /-- A failed generation waits in `tts.stop` only when the system does not talk. -/
  stopping : ∀ g, (π (.generation g)).stopping = true → c.talks = false
  stops : ∀ g k, π (.generation g) = .runs (.ttsStop k) → c.active = none ∨ c.talks = false
  /-- A reply that was heard to its end ends the talk before it returns. -/
  heard : ∀ r inner, (∃ asked, c.ttsTask r = .suspended (.playbackEnd false inner) asked) →
    (π (.reply r)).reports = true ∨ π (.reply r) = .runs .leave ∧ c.talks = false

/-- A step of a task before the call ends. -/
structure Takes (cfg : Config) (s t : Session) (l : Label) (me : Task) (q : Place) : Prop where
  step : step cfg s l = some t
  placed : Placed s
  placed' : Placed t
  live : s.state ≠ .ENDED
  unended : Live s.core s.place
  single : Single s.core s.place
  single' : Single t.core t.place
  move : Move l s.core s.place me (s.place me) t.core q
  goes : Goes me (s.place me) q s.place t.place

section Steps
variable {cfg : Config} {l : Label} {s t : Session} {ls : List Label} {me : Task} {q : Place} {r : Nat}

/-- A reply that is in a callback of the session is at a place there. -/
theorem Placed.not_away (h : Placed s) (hcall : s.inCall (.reply r) = true) : s.place (.reply r) ≠ .away := by
  intro hplace
  have hrest {o : Option Task} (ho : Others o s) (hne : o ≠ some (.reply r)) (hr : s.rest (.reply r) = .away) : False := by
    rw [ho.reply hne, Option.isSome_iff_ne_none] at hcall
    unfold Session.rest at hr
    cases hpc : s.pc (.reply r) with
    | none => exact hcall hpc
    | some a => simp [hpc] at hr
  unfold Placed at h
  unfold Session.place at hplace
  rcases hrunning : s.running with _ | ⟨u, x⟩
  · simp only [hrunning] at h hplace
    exact hrest h (by simp) hplace
  · simp only [hrunning] at h hplace
    by_cases hu : .reply r = u
    · rw [if_pos hu] at hplace
      cases hplace
    · rw [if_neg hu] at hplace
      exact hrest h.1.toOthers (by simpa using fun heq => hu heq.symm) hplace

namespace Takes

theorem not_asked (h : Takes cfg s t l me q) (u : Task) : s.core.asked u = false := by
  by_contra hasked
  exact h.live (h.unended.asked u (by simpa using hasked))

/-- Another task that starts to talk has the lock. -/
theorem talks (h : Takes cfg s t l me q) (ht : t.core.talks = true) :
    s.core.talks = true ∨ me = .stt ∧ (s.place .stt).holds .stt = true ∧ (q.announces = true ∨ q.replaces = true) := by
  rcases h.move.talks ht with hs | ⟨rfl, hholds, hq⟩
  · exact Or.inl hs
  · exact Or.inr ⟨rfl, hholds, hq⟩

/-- A generation comes to wait in `tts.stop` only when the system does not talk. -/
theorem not_talks_of_stopping (h : Takes cfg s t l me q) (hv : Voiced s.core s.place) {g : Nat} (hme : me = .generation g)
    (hq : q.stopping = true) : s.core.talks = false := by
  subst hme
  rcases h.move.to_stopping hq with ⟨_, _, _, hp, -⟩ | ⟨_, _, k, hp, -, hactive⟩
  · exact hv.stopping g (by rw [hp]; rfl)
  · refine (hv.stops g k hp).resolve_left (fun hnone => ?_)
    rw [hnone] at hactive
    cases hactive

theorem replaces (h : Takes cfg s t l me q) (hv : Voiced s.core s.place) (hs : s.core.talks = true)
    (hq : q.replaces = true) : Carried t.core t.place := by
  refine .stops (show (t.place me).replaces = true by rw [h.goes.after]; exact hq) (fun g heq => ?_)
  rw [h.goes.after]
  by_contra hstop
  rw [h.not_talks_of_stopping hv heq (by simpa using hstop)] at hs
  cases hs

/-- A call of `tts.stop` is carried on. -/
theorem stops (h : Takes cfg s t l me q) (hv : Voiced s.core s.place) (hs : s.core.talks = true) (ht : t.core.talks = true)
    {u : Task} (hu : (s.place u).replaces = true) (hg : ∀ g, u = .generation g → (s.place u).stopping = false) :
    Carried t.core t.place := by
  by_cases hme : u = me
  · subst hme
    rcases h.move.replaces hu (fun hbegins v => h.single.begins u v hbegins) with hq | hnot | hspeaks | hstop | ⟨hstop, hasked | ⟨g, rfl⟩ | ⟨r, rfl⟩⟩
    · exact h.replaces hv hs hq
    · rw [hnot] at ht
      cases ht
    · exact .reply hspeaks
    · have hfits := h.goes.orderly.fits u
      rw [hstop] at hfits
      cases u with
      | twilio => exact absurd (h.unended.ending (by rw [hstop]; rfl)) h.live
      | _ => cases hfits
    · rw [h.not_asked] at hasked
      cases hasked
    · rw [hg g rfl] at hstop
      cases hstop
    · -- A reply that waits there, in its own recovery, waits for its own end.
      have hnot := h.placed.reply_not_done (r := r) (fun heq => by rw [heq] at hstop; cases hstop)
      have hactive := h.single.active_of_not_done hnot
      rcases hplace : s.place (.reply r) with x | a | _
      · rw [hplace] at hstop
        cases hstop
      · rw [hplace] at hstop
        cases a with
        | gathering r' hadAudio k =>
            have hr : r' = r := by
              have hcurrent := h.single.gathers _ r' hadAudio k hplace
              rw [(Core.active_eq_some hactive).1] at hcurrent
              exact (Option.some.inj hcurrent).symm
            subst hr
            have hpc := gathering_stays h.placed (pc_of_place hplace) hnot h.step
            refine h.replaces hv hs ?_
            rw [← h.goes.after, place_of_pc h.placed' hpc]
            rfl
        | clearing k =>
            rw [h.single.quiet _ (by rw [hplace]; rfl)] at hactive
            cases hactive
        | _ => cases hstop
      · rw [hplace] at hstop
        cases hstop
  · have hplace : t.place u = s.place u := by
      refine h.goes.unmoved hme (fun heq => ?_)
      rcases h.goes.others u hme with hsame | ⟨-, haway, -⟩
      · rw [← hsame, heq] at hu
        cases hu
      · rw [haway] at hu
        cases hu
    exact .stops (by rw [hplace]; exact hu) (by rw [hplace]; exact hg)

theorem stt (h : Takes cfg s t l me q) (hme : me ≠ .stt) : t.place .stt = s.place .stt := h.goes.stt hme

/-- The running task is the one that takes the step. -/
theorem mine (h : Takes cfg s t l me q) {u : Task} {x : Point} (hu : s.place u = .runs x) : u = me := by
  by_contra hne
  exact h.goes.solo u hne x hu

theorem turn (h : Takes cfg s t l me q) (hs : (s.place .stt).announces = true) : Carried t.core t.place := by
  by_cases hme : me = .stt
  · subst hme
    rcases h.move.announces hs (h.not_asked .stt) with hq | hq
    · exact .turn (by rw [h.goes.after]; exact hq)
    · exact .stops (show (t.place .stt).replaces = true by rw [h.goes.after]; exact hq) nofun
  · exact .turn (by rw [h.stt hme]; exact hs)

theorem reply (h : Takes cfg s t l me q) (hv : Voiced s.core s.place) (hcut : s.cutsShort l = false)
    (hs : s.core.talks = true) (ht : t.core.talks = true) (hr : Speaks s.core r) : Carried t.core t.place := by
  have hlt : r < s.tts.count := by
    obtain ⟨pc, hpc, -⟩ := hr
    by_contra hle
    have hdone : s.core.ttsTask r = .done := h.placed.done_of_le (by omega)
    rw [hdone] at hpc
    cases hpc
  rcases h.move.speaker hr hlt with hr | hstop | ⟨u, hadAudio, k, hu⟩ | ⟨pc, hpc, hraises, rfl⟩ |
    ⟨inner, asked, hpc, hp, rfl⟩
  · exact .reply hr
  · exact h.replaces hv hs (Place.replaces_of_stopping hstop)
  · refine h.stops hv hs ht (u := u) (by rw [hu]; rfl) (fun g heq => ?_)
    subst heq
    have hnot := hv.stopping g (by rw [hu]; rfl)
    rw [hs] at hnot
    cases hnot
  · have hpc' : s.tts.task r = .suspended pc false := hpc
    simp [Session.cutsShort, hs, hpc', hraises] at hcut
  · rcases hv.heard r inner ⟨asked, hpc⟩ with hreports | ⟨-, hnot⟩
    · rw [hp] at hreports
      cases hreports
    · rw [hs] at hnot
      cases hnot

theorem carried (h : Takes cfg s t l me q) (hv : Voiced s.core s.place) (hcut : s.cutsShort l = false)
    (ht : t.core.talks = true) : Carried t.core t.place := by
  rcases h.talks ht with hs | ⟨rfl, -, hq | hq⟩
  · cases hv.carried hs with
    | reply hr => exact h.reply hv hcut hs ht hr
    | turn hturn => exact h.turn hturn
    | stops hu hg => exact h.stops hv hs ht hu hg
  · exact .turn (by rw [h.goes.after]; exact hq)
  · exact .stops (show (t.place .stt).replaces = true by rw [h.goes.after]; exact hq) nofun

/-- While a generation holds the lock, or runs, no turn makes the system talk. -/
theorem not_talks (h : Takes cfg s t l me q) (hs : s.core.talks = false)
    (hother : me = .stt → (s.place .stt).holds .stt = true → False) : t.core.talks = false := by
  by_contra ht
  rcases h.talks (by simpa using ht) with hs' | ⟨hme, hholds, -⟩
  · rw [hs] at hs'
    cases hs'
  · exact hother hme hholds

theorem stopping (h : Takes cfg s t l me q) (hv : Voiced s.core s.place) {g : Nat}
    (hg : (t.place (.generation g)).stopping = true) : t.core.talks = false := by
  by_cases hme : .generation g = me
  · rw [hme, h.goes.after] at hg
    exact h.not_talks (h.not_talks_of_stopping hv hme.symm hg) (fun heq => by rw [heq] at hme; cases hme)
  · have hplace := h.goes.stopping hme hg
    rw [hplace] at hg
    refine h.not_talks (hv.stopping g hg) (fun _ hholds => ?_)
    exact nomatch h.goes.orderly.exclusive _ _ (h.single.locked _ hg) hholds

theorem calls (h : Takes cfg s t l me q) (hcut : s.cutsShort l = false) {g : Nat} {k : StopFor}
    (hg : t.place (.generation g) = .runs (.ttsStop k)) : t.core.active = none ∨ t.core.talks = false := by
  have hme : .generation g = me := by
    by_contra hne
    have hplace := h.goes.unmoved hne (by rw [hg]; nofun)
    exact hne (h.mine (hplace ▸ hg))
  subst hme
  have hq := h.goes.after
  rw [hg] at hq
  have hmove := h.move
  rw [← hq] at hmove
  cases hk : k.locked with
  | false =>
      refine Or.inl (h.single'.quiet (.generation g) ?_)
      rw [hg]
      cases k <;> first | rfl | cases hk
  | true =>
      obtain ⟨hactive, sec, hp, hsec⟩ := hmove.to_ttsStop hk
      have hrunning := running_of_place hp
      have hfits := h.goes.orderly.fits (.generation g)
      rw [hp] at hfits
      by_cases hs : s.core.talks = true
      · refine Or.inl (hactive.trans ?_)
        have hnone : s.tts.active = none := by
          cases sec with
          | recovery | fallback =>
              have hboth := hcut
              simp only [Session.cutsShort, hs, hrunning, Bool.true_and, Bool.or_eq_false_iff] at hboth
              simpa using hboth.2
          | segment text => exact absurd rfl (hsec text)
          | bargeIn k => cases k <;> cases hfits
          | _ => cases hfits
        exact hnone
      · refine Or.inr (h.not_talks (by simpa using hs) nofun)

theorem heard (h : Takes cfg s t l me q) (hv : Voiced s.core s.place) {inner : Unit}
    (hr : ∃ asked, t.core.ttsTask r = .suspended (.playbackEnd false inner) asked) :
    (t.place (.reply r)).reports = true ∨ t.place (.reply r) = .runs .leave ∧ t.core.talks = false := by
  have haway : t.place (.reply r) ≠ .away := by
    obtain ⟨asked, hr⟩ := hr
    have hr' : t.tts.task r = .suspended (.playbackEnd false inner) asked := hr
    exact h.placed'.not_away (by simp [Session.inCall, hr', Tts.Pc.inCallback])
  have hpc : Tts.Pc.playbackEnd false inner ≠ .created := fun heq => by cases heq
  rcases h.move.suspended_before hpc hr with ⟨asked, hbefore⟩ | ⟨rfl, hq | hq | ⟨_, _, hpc⟩⟩
  · rcases hv.heard r inner ⟨asked, hbefore⟩ with hreports | ⟨hleave, -⟩
    · by_cases hme : me = .reply r
      · subst hme
        have hmove := h.move
        rcases hmove.reports h.live hreports with hq | hq | ⟨hq, hnot⟩
        · exact Or.inl (by rw [h.goes.after]; exact hq)
        · exact absurd (h.goes.after.trans hq) haway
        · exact Or.inr ⟨h.goes.after.trans hq, hnot⟩
      · refine Or.inl ?_
        rcases h.goes.others (.reply r) (Ne.symm hme) with hplace | ⟨hspawned, -⟩
        · rw [hplace]
          exact hreports
        · cases hspawned
    · have hdone := done_of_reported hleave hbefore h.step
      obtain ⟨asked', hr⟩ := hr
      have hr' : t.tts.task r = .suspended (.playbackEnd false inner) asked' := hr
      rw [hr'] at hdone
      cases hdone
  · exact Or.inl (by rw [h.goes.after]; exact hq)
  · exact absurd (h.goes.after.trans hq) haway
  · cases hpc

end Takes

theorem Voiced.step (h : Voiced s.core s.place) (hrun : Run (Call.step cfg) (fun _ _ => True) .started ls s)
    (hcut : s.cutsShort l = false) (hstep : Call.step cfg s l = some t) (hlive : t.state ≠ .ENDED) :
    Voiced t.core t.place := by
  have hplaced := Placed.of_run hrun
  have hrun' := hrun.snoc trivial hstep
  cases Move.of_step hplaced hstep with
  | nothing _ heq =>
      subst heq
      exact h
  | frame _ _ hcore hplace =>
      rw [hcore, hplace]
      refine ⟨fun htalks => ?_, h.stopping, h.stops, h.heard⟩
      cases h.carried htalks with
      | reply hr => exact .reply hr
      | turn hturn => exact .turn hturn
      | stops hu hg => exact .stops hu hg
  | move me _ hsolo hmoved =>
      obtain ⟨q, hmove, hq, hothers⟩ := hmoved
      have hbefore : s.state ≠ .ENDED := fun hended => hlive (hmove.ended hended)
      have htakes : Takes cfg s t l me q := ⟨hstep, hplaced, hplaced.of_step hstep, hbefore, live_of_run hrun,
        single_of_run hrun hbefore, single_of_run hrun' hlive, hmove,
        ⟨rfl, hq, hothers, hsolo, hplaced.orderly, (hplaced.of_step hstep).orderly⟩⟩
      exact ⟨htakes.carried h hcut, fun g => htakes.stopping h, fun g k => htakes.calls hcut, fun r inner => htakes.heard h⟩

theorem voiced_started : Voiced Session.started.core Session.started.place where
  carried h := by cases h
  stopping g h := by cases h
  stops g k h := by cases h
  heard r inner h := by
    obtain ⟨asked, h⟩ := h
    cases h

theorem voiced_of_run (hrun : Run (Call.step cfg) (fun s l => s.cutsShort l = false) .started ls s)
    (hlive : s.state ≠ .ENDED) : Voiced s.core s.place := by
  have hboth : (∃ ls, Run (Call.step cfg) (fun _ _ => True) .started ls s) ∧
      (s.state ≠ .ENDED → Voiced s.core s.place) := by
    refine hrun.invariant (I := fun s => (∃ ls, Run (Call.step cfg) (fun _ _ => True) .started ls s) ∧
      (s.state ≠ .ENDED → Voiced s.core s.place)) ⟨⟨[], .nil⟩, fun _ => voiced_started⟩ ?_
    rintro s t l ⟨⟨ls, hrun⟩, hvoiced⟩ hcut hstep
    refine ⟨⟨_, hrun.snoc trivial hstep⟩, fun hlive => (hvoiced fun hended => hlive ?_).step hrun hcut hstep hlive⟩
    cases Move.of_step (Placed.of_run hrun) hstep with
    | nothing _ heq => rw [heq, hended]
    | frame _ _ hcore => exact (congrArg Core.state hcore).trans hended
    | move me _ _ hmoved =>
        obtain ⟨q, hmove, -, -⟩ := hmoved
        exact hmove.ended hended
  exact hboth.2 hlive

/-! ## The claim -/

/-- No generation and no reply is left, and no task is in a piece of the session's code, waits for its lock or in
`tts.stop`. -/
structure Quiescent (s : Session) : Prop where
  idle : s.running = none
  generations : ∀ g, (s.llm.task g).isDone = true
  replies : ∀ r, (s.tts.task r).isDone = true
  tasks : ∀ me a, s.pc me = some a → a.plain = true

/-- The tasks that have been created, but for generations and replies. -/
def Session.tasks (s : Session) : List Task :=
  [.stt, .twilio, .silence] ++ (List.range s.vads).map .vad ++ (List.range s.errors).map .sttError ++
    (List.range s.llm.count).map .watchdog

/-- The same, computed over the tasks that have been created. -/
def Session.resting (s : Session) : Bool :=
  s.running = none && (List.range s.llm.count).all (fun g => (s.llm.task g).isDone) &&
    (List.range s.tts.count).all (fun r => (s.tts.task r).isDone) && s.tasks.all (fun me => (s.pc me).all Await.plain)

theorem quiescent_of_resting (h : Placed s) (hs : s.resting = true) : Quiescent s := by
  simp only [Session.resting, Bool.and_eq_true, decide_eq_true_eq, List.all_eq_true, List.mem_range] at hs
  obtain ⟨⟨⟨hidle, hgenerations⟩, hreplies⟩, htasks⟩ := hs
  have hothers : Others none s := by
    unfold Placed at h
    rwa [hidle] at h
  have hgeneration (g : Nat) : (s.llm.task g).isDone = true := by
    by_cases hg : g < s.llm.count
    · exact hgenerations g hg
    · rw [hothers.generations (by omega)]
      rfl
  have hreply (r : Nat) : (s.tts.task r).isDone = true := by
    by_cases hr : r < s.tts.count
    · exact hreplies r hr
    · rw [h.done_of_le (by omega)]
      rfl
  refine ⟨hidle, hgeneration, hreply, fun me a ha => ?_⟩
  have hmade := hothers.made ha
  have hlisted (hme : me ∈ s.tasks) : a.plain = true := by
    have hall := htasks me hme
    simpa [ha] using hall
  cases me with
  | stt | twilio | silence => exact hlisted (by simp [Session.tasks])
  | vad n | sttError n | watchdog n =>
      refine hlisted ?_
      simp only [Session.made, decide_eq_true_eq] at hmade
      simp [Session.tasks, hmade]
  | generation g =>
      have hcall := hothers.generation (g := g) (by simp)
      have hdone := hgeneration g
      cases htask : s.llm.task g with
      | done => simp [Session.inCall, htask, ha] at hcall
      | suspended =>
          rw [htask] at hdone
          cases hdone
  | reply r =>
      have hcall := hothers.reply (r := r) (by simp)
      have hdone := hreply r
      cases htask : s.tts.task r with
      | done => simp [Session.inCall, htask, ha] at hcall
      | suspended =>
          rw [htask] at hdone
          cases hdone

/-- **The system is silent** when nothing runs, unless a reply or a generation has failed while it talked. -/
theorem silent_of_run (hrun : Run (Call.step cfg) (fun s l => s.cutsShort l = false) .started ls s)
    (hlive : s.state ≠ .ENDED) (hquiet : Quiescent s) :
    s.state ≠ .PROCESSING ∧ s.state ≠ .SPEAKING ∧ s.conversation.isSystemSpeaking = false := by
  have hplain (u : Task) : (s.place u).plain = true := by
    unfold Session.place Session.rest
    rw [hquiet.idle]
    cases hpc : s.pc u with
    | none => rfl
    | some a => exact hquiet.tasks u a hpc
  have htalks : s.core.talks = false := by
    by_contra htalks
    cases (voiced_of_run hrun hlive).carried (by simpa using htalks) with
    | @reply r hr =>
        obtain ⟨pc, hpc, -⟩ := hr
        have hdone := hquiet.replies r
        have hpc' : s.tts.task r = .suspended pc false := hpc
        rw [hpc'] at hdone
        cases hdone
    | turn hturn =>
        rw [Place.announces_of_plain (hplain _)] at hturn
        cases hturn
    | stops hu =>
        rw [Place.replaces_of_plain (hplain _)] at hu
        cases hu
  obtain ⟨hstate, hsystem⟩ := Core.talks_eq_false.mp htalks
  have hstate' : s.state.answering = false := hstate
  refine ⟨fun heq => ?_, fun heq => ?_, hsystem⟩
  · rw [heq] at hstate'
    cases hstate'
  · rw [heq] at hstate'
    cases hstate'

end Steps

/-- The caller's turn is answered: the loops, the reply, the generation and its watchdog wait. -/
def begunLabels : List Label :=
  .wake .silence (.ok .none) :: answerLabels ++
    [.reply 0 (.ok .none), .generation 0 (.ok .none), .wake (.watchdog 0) (.ok .none)]

/-- The generation hands out its only sentence and ends, and the synthesis of the sentence has begun. -/
def generatedLabels : List Label :=
  begunLabels ++ [.generation 0 (.ok (.token "Hi.".toList 0)), .generation 0 (.ok .none),
    .wake (.watchdog 0) (.ok .none), .generation 0 (.ok .none), .run, .run, .run, .generation 0 (.ok .none),
    .reply 0 (.ok .none)]

/-- The sentence is one frame, and is heard to its end. -/
theorem silent_of_run_heard : ∃ ls s, Run (step plainConfig) (fun s l => s.cutsShort l = false) .started ls s ∧
    s.tts.count = 1 ∧ Quiescent s ∧
    s.state ≠ .PROCESSING ∧ s.state ≠ .SPEAKING ∧ s.conversation.isSystemSpeaking = false := by
  have hexec : (exec (step plainConfig) (fun s l => s.cutsShort l = false) .started (generatedLabels ++
      [.reply 0 (.ok (.frame [0, 0, 0, 0])), .reply 0 (.ok .none), .run, .run, .run, .run,
        .wake (.reply 0) (.ok .none), .run] ++ List.replicate 5 (.reply 0 (.ok .none)) ++
      [.run, .run, .run])).any (fun s =>
      s.tts.count = 1 ∧ s.resting = true ∧ s.state ≠ .ENDED) = true := by decide +kernel
  obtain ⟨s, hrun, hs⟩ := Run.exists_of_exec hexec
  obtain ⟨hcount, hresting, hlive⟩ := of_decide_eq_true hs
  have hquiet := quiescent_of_resting (Placed.of_run (hrun.mono fun _ _ _ => trivial)) hresting
  exact ⟨_, s, hrun, hcount, hquiet, silent_of_run hrun hlive hquiet⟩

/-- The call is left in `SPEAKING` when the synthesis fails, and in `PROCESSING` when the generation does. -/
theorem left_talking :
    (∃ ls s, Run (step plainConfig) (fun _ _ => True) .started ls s ∧ Quiescent s ∧ s.state = .SPEAKING ∧
      s.conversation.isSystemSpeaking = true) ∧
    ∃ ls s, Run (step plainConfig) (fun _ _ => True) .started ls s ∧ Quiescent s ∧ s.state = .PROCESSING ∧
      s.conversation.isSystemSpeaking = true := by
  constructor
  · have hexec : (exec (step plainConfig) (fun _ _ => True) .started (generatedLabels ++
        [.reply 0 .raised, .reply 0 (.ok .none), .reply 0 (.ok .none)])).any (fun s =>
        s.resting = true ∧ s.state = .SPEAKING ∧ s.conversation.isSystemSpeaking = true) = true := by decide +kernel
    obtain ⟨s, hrun, hs⟩ := Run.exists_of_exec hexec
    obtain ⟨hresting, hstate⟩ := of_decide_eq_true hs
    exact ⟨_, s, hrun, quiescent_of_resting (Placed.of_run hrun) hresting, hstate⟩
  · have hexec : (exec (step plainConfig) (fun _ _ => True) .started (begunLabels ++
        [.generation 0 .raised, .generation 0 (.ok .none), .run, .run, .run, .wake (.watchdog 0) (.ok .none),
          .reply 0 .cancelled, .reply 0 (.ok .none), .wake (.generation 0) .cancelled])).any (fun s =>
        s.resting = true ∧ s.state = .PROCESSING ∧ s.conversation.isSystemSpeaking = true) = true := by decide +kernel
    obtain ⟨s, hrun, hs⟩ := Run.exists_of_exec hexec
    obtain ⟨hresting, hstate⟩ := of_decide_eq_true hs
    exact ⟨_, s, hrun, quiescent_of_resting (Placed.of_run hrun) hresting, hstate⟩

end Voxera.Call
