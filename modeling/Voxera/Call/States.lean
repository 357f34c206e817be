import Voxera.Call.Replies

/-!
# The states of a call

The state changes only under the lock. So a barge-in that waits in `tts.stop` still finds the system answering when it
goes on, and a call leaves `STREAMING` only when it ends.

* `State.usual` : the states that a call comes to;
* `Place.barging` : `_handle_barge_in` is past its check;
* `Guarded` : the invariant (`Guarded.move`, `guarded_of_run`); `Guarded.streaming`.
-/

namespace Voxera.Call

open EventLoop

/-- A call that has started is in one of these between two pieces of its code. -/
def State.usual (a : State) : Bool := a = .LISTENING || a = .STREAMING || a = .PROCESSING || a = .SPEAKING || a = .ENDED

def StopFor.barges : StopFor → Bool
  | .bargeIn _ => true
  | _ => false

/-- `_handle_barge_in` is past its check. -/
def Place.barging : Place → Bool
  | .runs (.ttsStop k) | .runs (.stopped k) | .awaits (.gathering _ _ k) | .awaits (.clearing k) => k.barges
  | _ => false

structure Guarded (c : Core) (π : Task → Place) : Prop where
  usual : c.state.usual = true
  barging : ∀ u, (π u).barging = true → c.state.answering = true

section Moves
variable {l : Label} {c c' : Core} {π π' : Task → Place} {me : Task} {p q : Place}

theorem State.usual_closes {a : State} (h : a.usual = true) : ((a.apply .INTERRUPTED).apply .LISTENING).usual = true := by
  cases a <;> first | decide | cases h

theorem Move.usual (h : Move l c π me p c' q) (hc : c.state.usual = true) : c'.state.usual = true := by
  cases h with
  | turnStarted =>
      show (if c.state = .PROCESSING then c.state.apply .LISTENING else c.state).usual = true
      generalize c.state = a at hc
      cases a <;> first | decide | cases hc
  | turnAccepted | speaks | ends => rfl
  | playbackEnded =>
      show (if c.state.answering then c.state.apply .LISTENING else c.state).usual = true
      generalize c.state = a at hc
      cases a <;> first | decide | cases hc
  | fed =>
      show (if c.state = .CONNECTED ∨ c.state = .LISTENING then c.state.apply .STREAMING else c.state).usual = true
      generalize c.state = a at hc
      cases a <;> first | decide | cases hc
  | bargedIn | bargedInAfter => exact State.usual_closes hc
  | recovered =>
      show (if c.state.answering then (c.state.apply .INTERRUPTED).apply .LISTENING else c.state).usual = true
      split
      · exact State.usual_closes hc
      · exact hc
  | clears _ hc' => rcases hc' with rfl | rfl <;> exact hc
  | returns hc' => rcases hc' with ⟨-, rfl⟩ | ⟨_, _, -, rfl⟩ <;> exact hc
  | _ => exact hc

/-- The state changes only under the lock. -/
theorem Move.state_eq (h : Move l c π me p c' q) : c'.state = c.state ∨ p.holds me = true := by
  cases h with
  | turnStarted | turnAccepted | speaks | playbackEnded | fed | ends => exact Or.inr (Place.holds_enter _)
  | bargedIn | bargedInAfter | recovered => exact Or.inr (Place.holds_stopped _)
  | clears _ hc' => rcases hc' with rfl | rfl <;> exact Or.inl rfl
  | returns hc' => rcases hc' with ⟨-, rfl⟩ | ⟨_, _, -, rfl⟩ <;> exact Or.inl rfl
  | _ => exact Or.inl rfl

theorem Place.barging_of_plain (h : p.plain = true) : p.barging = false := by
  unfold Place.barging
  split <;> first | rfl | cases h

theorem StopFor.locked_of_barges {k : StopFor} (h : k.barges = true) : k.locked = true := by
  cases k <;> first | rfl | cases h

theorem Place.holds_of_barging (h : p.barging = true) (u : Task) : p.holds u = true := by
  unfold Place.barging at h
  split at h
  · exact (by cases u <;> rfl : Place.holds u _ = StopFor.locked _).trans (StopFor.locked_of_barges h)
  · exact (Place.holds_stopped _).trans (StopFor.locked_of_barges h)
  · exact (Place.holds_gathering _ _ _).trans (StopFor.locked_of_barges h)
  · exact (Place.holds_clearing _).trans (StopFor.locked_of_barges h)
  · cases h

/-- `_handle_barge_in` comes there when the system answers, and leaves the state until `tts.stop` has returned. -/
theorem Move.to_barging (h : Move l c π me p c' q) (hq : q.barging = true) :
    c'.state = c.state ∧ (p.barging = true ∨ c.state.answering = true) := by
  cases h with
  | bargesIn hst => exact ⟨rfl, Or.inr hst⟩
  | silent | cancelsReply | gathered => exact ⟨rfl, Or.inl hq⟩
  | clears _ hc' => rcases hc' with rfl | rfl <;> exact ⟨rfl, Or.inl hq⟩
  | edge h =>
      cases h with
      | plain _ hplain =>
          rw [Place.barging_of_plain hplain] at hq
          cases hq
      | cleared => exact ⟨rfl, Or.inl hq⟩
      | declined _ hq' => rcases hq' with rfl | rfl <;> cases hq
      | @stops sec _ hst =>
          unfold Section.stops at hst
          split at hst
          · split at hst <;> cases hst
            cases hq
          · split at hst <;> cases hst
            cases hq
          · cases hst
      | _ => cases hq
  | @asks _ _ b _ _ _ hb =>
      rw [Place.barging_of_plain (p := .awaits b) hb] at hq
      cases hq
  | reply _ h => cases h <;> cases hq
  | generates _ hq' => rcases hq' with rfl | ⟨_, rfl⟩ <;> cases hq
  | _ => cases hq

theorem Guarded.move (h : Guarded c π) (hgoes : Goes me p q π π') (hmove : Move l c π me p c' q) : Guarded c' π' where
  usual := hmove.usual h.usual
  barging u hu := by
    by_cases hme : u = me
    · subst hme
      rw [hgoes.after] at hu
      obtain ⟨hstate, hp | hanswering⟩ := hmove.to_barging hu
      · rw [hstate]
        exact h.barging u (by rw [hgoes.before]; exact hp)
      · rw [hstate]
        exact hanswering
    · have hplace := hgoes.unmoved hme (fun heq => by rw [heq] at hu; cases hu)
      rw [hplace] at hu
      rcases hmove.state_eq with hstate | hholds
      · rw [hstate]
        exact h.barging u hu
      · rw [← hgoes.before] at hholds
        exact absurd (hgoes.orderly.exclusive u me (Place.holds_of_barging hu u) hholds) hme

/-- A call leaves `STREAMING` only when it ends. -/
theorem Guarded.streaming (h : Guarded c π) (hp : π me = p) (hmove : Move l c π me p c' q) (hc : c.state = .STREAMING) :
    c'.state = .STREAMING ∨ c'.state = .ENDED := by
  have hbarging (hbarging : p.barging = true) : False := by
    have hanswering := h.barging me (by rw [hp]; exact hbarging)
    rw [hc] at hanswering
    cases hanswering
  cases hmove with
  | turnAccepted hst | speaks hst =>
      rw [hc] at hst
      cases hst
  | bargedIn | bargedInAfter => exact (hbarging rfl).elim
  | ends => exact Or.inr rfl
  | turnStarted | playbackEnded | fed | recovered => exact Or.inl (by simp [hc, State.answering])
  | clears _ hc' => rcases hc' with rfl | rfl <;> exact Or.inl hc
  | returns hc' => rcases hc' with ⟨-, rfl⟩ | ⟨_, _, -, rfl⟩ <;> exact Or.inl hc
  | _ => exact Or.inl hc

end Moves

theorem guarded_of_run {cfg : Config} {ok : Session → Label → Prop} {ls : List Label} {s : Session}
    (hrun : Run (step cfg) ok .started ls s) : Guarded s.core s.place := by
  refine invariant_of_moves hrun ⟨rfl, fun u hu => ?_⟩ (fun _ h hgoes hmove => h.move hgoes hmove)
    (fun h _ => ⟨h.usual, h.barging⟩)
  cases u <;> cases hu

end Voxera.Call
