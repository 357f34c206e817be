import Voxera.Call.Replies

/-!
# The audio that is sent

A media message is only sent by a reply that is not over, and not in `ENDED`. When `tts.stop` sends its `clear`, the
reply that it has waited for was the only one that was not over.

* `Sent` : a reply that was begun before a `clear` is over, and is not heard after it (`Sent.move`);
* `Move.silent_of_ended`, `ended_of_run` : nothing is sent in `ENDED`;
* `outbound_safe` : both.
-/

namespace Voxera.Call

open EventLoop

/-- An entry that is not in what is added to a history has its place in the history before. -/
theorem sublist_of_last_not_mem {α : Type*} {a : α} {l front back : List α} (ha : a ∉ back)
    (h : (l ++ [a]).Sublist (front ++ back)) : (l ++ [a]).Sublist front := by
  obtain ⟨l₁, l₂, heq, h₁, h₂⟩ := List.sublist_append_iff.mp h
  rcases List.eq_nil_or_concat l₂ with rfl | ⟨l₂, b, rfl⟩
  · rwa [heq, List.append_nil]
  · rw [List.concat_eq_append, ← List.append_assoc] at heq
    obtain ⟨-, hb⟩ := List.append_inj' heq rfl
    cases hb
    exact absurd (h₂.subset (by simp)) ha

/-- Whatever reply was begun before is over: a barge-in has returned the call to `LISTENING`, or `clear` is sent. -/
def Event.cuts : Event → Bool
  | .bargedIn | .clear => true
  | _ => false

section Moves
variable {l : Label} {c c' : Core} {π π' : Task → Place} {me : Task} {p q : Place}

/-- A reply that was begun before a barge-in or a `clear` is over, and nothing more of it is sent. -/
structure Sent (c : Core) : Prop where
  counted : ∀ ticket r, .opened ticket r ∈ c.trace → r < c.ttsCount
  finished : c.state ≠ .ENDED → ∀ ticket r e, e.cuts = true → [.opened ticket r, e].Sublist c.trace →
    (c.ttsTask r).isDone = true
  media : ∀ ticket r e, e.cuts = true → ¬[.opened ticket r, e, .media (.reply r)].Sublist c.trace

theorem Event.outbound_of_cuts {e : Event} (h : e.cuts = true) : e.outbound = true := by
  unfold Event.cuts at h
  split at h
  · rfl
  · rfl
  · cases h

theorem Event.not_mem_of_outbound {e : Event} {es : List Event} (he : e.outbound = true)
    (hes : ∀ e ∈ es, e.outbound = false) : e ∉ es := by
  intro hmem
  rw [hes e hmem] at he
  cases he

theorem Sent.media_of_not_mem (h : Sent c) {es : List Event} {ticket r : Nat} {e : Event} (he : e.cuts = true)
    (hmedia : Event.media (.reply r) ∉ es) : ¬[.opened ticket r, e, .media (.reply r)].Sublist (c.trace ++ es) := by
  intro hs
  exact h.media ticket r e he (sublist_of_last_not_mem (l := [Event.opened ticket r, e]) hmedia hs)

/-- When the reply that is current is over, all are. -/
theorem Sent.cut {es : List Event} (h : Sent c) (hmove : Move l c π me p c' q) (htrace : c'.trace = c.trace ++ es)
    (hcount : c.ttsCount ≤ c'.ttsCount) (hes : ∀ ticket r, .opened ticket r ∉ es)
    (hmedia : ∀ u, .media u ∉ es) (hover : c.state ≠ .ENDED → ∀ r, (c.ttsTask r).isDone = true)
    (hdone : ∀ r, r < c.ttsCount → (c.ttsTask r).isDone = true → (c'.ttsTask r).isDone = true) : Sent c' where
  counted ticket r hmem := by
    rw [htrace] at hmem
    exact Nat.lt_of_lt_of_le (h.counted ticket r ((List.mem_append.mp hmem).resolve_right (hes ticket r))) hcount
  finished hlive ticket r e he hs := by
    rw [htrace] at hs
    have hmem := (List.mem_append.mp (hs.subset List.mem_cons_self)).resolve_right (hes ticket r)
    exact hdone r (h.counted ticket r hmem) (hover (fun hended => hlive (hmove.ended hended)) r)
  media ticket r e he := by
    rw [htrace]
    exact h.media_of_not_mem he (hmedia _)

theorem Sent.move (h : Sent c) (hsingle : c.state ≠ .ENDED → Single c π) (hp : π me = p) (hmove : Move l c π me p c' q)
    (hreply : ∀ r, me = .reply r → p ≠ .away → (c.ttsTask r).isDone = false) : Sent c' := by
  obtain ⟨es, htrace, hadds⟩ := hmove.adds
  have hcount : c.ttsCount ≤ c'.ttsCount := by
    rcases hmove.replies with ⟨-, heq, -⟩ | ⟨-, -, heq, -⟩ <;> omega
  have hdone : ∀ r, r < c.ttsCount → (c.ttsTask r).isDone = true → (c'.ttsTask r).isDone = true := by
    intro r hlt hr
    rcases hmove.replies with ⟨-, -, hdone⟩ | ⟨-, -, -, hdone⟩
    · exact hdone r hr
    · exact hdone r (by omega) hr
  -- Where nothing of the kind is added, the pair is older.
  have hover (hes : ∀ e : Event, e.cuts = true → e ∉ es) (hlive : c'.state ≠ .ENDED) (ticket r : Nat) (e : Event)
      (he : e.cuts = true) (hs : [.opened ticket r, e].Sublist c'.trace) : (c'.ttsTask r).isDone = true := by
    rw [htrace] at hs
    have hbefore := sublist_of_last_not_mem (l := [Event.opened ticket r]) (hes e he) hs
    exact hdone r (h.counted ticket r (hbefore.subset List.mem_cons_self))
      (h.finished (fun hended => hlive (hmove.ended hended)) ticket r e he hbefore)
  have hcounted (hes : ∀ ticket r, .opened ticket r ∉ es) (ticket r : Nat) (hmem : .opened ticket r ∈ c'.trace) :
      r < c'.ttsCount := by
    rw [htrace] at hmem
    exact Nat.lt_of_lt_of_le (h.counted ticket r ((List.mem_append.mp hmem).resolve_right (hes ticket r))) hcount
  cases hadds with
  | silent hes =>
      refine ⟨hcounted fun _ _ => Event.not_mem_of_outbound rfl hes,
        hover fun e he => Event.not_mem_of_outbound (Event.outbound_of_cuts he) hes, fun ticket r e he => ?_⟩
      rw [htrace]
      exact h.media_of_not_mem he (Event.not_mem_of_outbound rfl hes)
  | @media r₀ hme hp' hst =>
      refine ⟨hcounted (by simp), hover fun e he hmem => ?_, fun ticket r e he => ?_⟩
      · rw [List.mem_singleton.mp hmem] at he
        cases he
      · rw [htrace]
        by_cases heq : r = r₀
        · subst heq
          intro hs
          have hs' : ([Event.opened ticket r, e] ++ [Event.media (.reply r)]).Sublist (c.trace ++ _) := hs
          have hbefore := (List.append_sublist_append_right _).mp hs'
          have hend := h.finished hst ticket r e he hbefore
          rw [hreply r hme (by simp [hp'])] at hend
          cases hend
        · exact h.media_of_not_mem he (by simpa using heq)
  | @clear r₀ hadAudio k hp' hr =>
      refine h.cut hmove htrace hcount (by simp) (by simp) (fun hlive => ?_) hdone
      have hcurrent := (hsingle hlive).gathers me r₀ hadAudio k (by rw [hp, hp'])
      exact (hsingle hlive).done (Core.active_of_current hcurrent hr)
  | bargedIn hp' =>
      refine h.cut hmove htrace hcount (by simp) (by simp) (fun hlive => ?_) hdone
      exact (hsingle hlive).done ((hsingle hlive).quiet me (by rw [hp, hp']; rfl))
  | @opened ticket₀ opening es hp' hcount' hes =>
      refine ⟨fun ticket r hmem => ?_, hover fun e he hmem => ?_, fun ticket r e he => ?_⟩
      · rw [htrace] at hmem
        rcases List.mem_append.mp hmem with hmem | hmem
        · exact Nat.lt_of_lt_of_le (h.counted ticket r hmem) hcount
        · rcases List.mem_cons.mp hmem with heq | hmem
          · cases heq
            omega
          · exact absurd hmem (Event.not_mem_of_outbound rfl hes)
      · rcases List.mem_cons.mp hmem with rfl | hmem
        · cases he
        · exact Event.not_mem_of_outbound (Event.outbound_of_cuts he) hes hmem
      · rw [htrace]
        exact h.media_of_not_mem he (by simpa using Event.not_mem_of_outbound rfl hes)

/-- In `ENDED` no media message is sent. -/
theorem Move.silent_of_ended (h : Move l c π me p c' q) (hc : c.state = .ENDED) :
    ∃ es, c'.trace = c.trace ++ es ∧ ∀ u, .media u ∉ es := by
  obtain ⟨es, htrace, hadds⟩ := h.adds
  refine ⟨es, htrace, fun u hmem => ?_⟩
  cases hadds with
  | silent hes => exact Event.not_mem_of_outbound rfl hes hmem
  | media _ _ hst => exact hst hc
  | clear | bargedIn => simp at hmem
  | opened _ _ hes =>
      rcases List.mem_cons.mp hmem with heq | hmem
      · cases heq
      · exact Event.not_mem_of_outbound rfl hes hmem

end Moves

section Runs
variable {cfg : Config} {ls : List Label} {s : Session}

theorem sent_started : Sent Session.started.core where
  counted _ _ h := by cases h
  finished _ _ _ _ _ h := by cases h
  media _ _ _ _ h := by cases h

theorem sent_of_run (hrun : Run (step cfg) (fun _ _ => True) .started ls s) : Sent s.core := by
  have hruns := hrun.always (I := fun s => Placed s ∧ (s.state ≠ .ENDED → Single s.core s.place))
    (fun hrun => ⟨Placed.of_run hrun, single_of_run hrun⟩)
  refine invariant_of_moves hruns (I := fun c _ => Sent c) sent_started
    (fun hok h hgoes hmove => h.move hok.2.2 hgoes.before hmove fun r hme hp => ?_)
    (fun h _ => ⟨h.counted, h.finished, h.media⟩)
  subst hme
  exact hok.2.1.reply_not_done hp

/-- `ENDED` is never left, and nothing is sent there. -/
theorem ended_of_run {ls' : List Label} {t : Session} (hrun : Run (step cfg) (fun _ _ => True) .started ls s)
    (hs : s.state = .ENDED) (hrest : Run (step cfg) (fun _ _ => True) s ls' t) :
    t.state = .ENDED ∧ ∃ es, t.trace = s.trace ++ es ∧ ∀ u, .media u ∉ es := by
  have hboth : Placed t ∧ t.state = .ENDED ∧ ∃ es, t.trace = s.trace ++ es ∧ ∀ u, .media u ∉ es := by
    refine hrest.invariant (I := fun t => Placed t ∧ t.state = .ENDED ∧ ∃ es, t.trace = s.trace ++ es ∧
      ∀ u, .media u ∉ es) ⟨Placed.of_run hrun, hs, [], (List.append_nil _).symm, by simp⟩ ?_
    rintro t u l ⟨hplaced, ht, es, htrace, hes⟩ - hstep
    refine ⟨hplaced.of_step hstep, ?_⟩
    cases Move.of_step hplaced hstep with
    | nothing _ h =>
        rw [h]
        exact ⟨ht, es, htrace, hes⟩
    | frame _ _ hcore =>
        have hstate : u.state = t.state := congrArg Core.state hcore
        have htrace' : u.trace = t.trace := congrArg Core.trace hcore
        rw [hstate, htrace']
        exact ⟨ht, es, htrace, hes⟩
    | move me _ _ h =>
        obtain ⟨q, hmove, -, -⟩ := h
        obtain ⟨es', htrace', hes'⟩ := hmove.silent_of_ended ht
        refine ⟨hmove.ended ht, es ++ es', ?_, fun v hv => ?_⟩
        · rw [← List.append_assoc, ← htrace]
          exact htrace'
        · exact (List.mem_append.mp hv).elim (hes v) (hes' v)
  exact hboth.2

/-- No media message is sent in `ENDED`, which is never left; and after a barge-in, or after a `clear`, none with the
audio of a reply that was begun before. -/
theorem outbound_safe (hrun : Run (step cfg) (fun _ _ => True) .started ls s) :
    (s.state = .ENDED → ∀ ls' t, Run (step cfg) (fun _ _ => True) s ls' t →
        t.state = .ENDED ∧ ∃ es, t.trace = s.trace ++ es ∧ ∀ u, .media u ∉ es) ∧
      ∀ ticket r e, e = .bargedIn ∨ e = .clear → ¬[.opened ticket r, e, .media (.reply r)].Sublist s.trace := by
  refine ⟨fun hs ls' t hrest => ended_of_run hrun hs hrest, ?_⟩
  rintro ticket r e he
  refine (sent_of_run hrun).media ticket r e ?_
  rcases he with rfl | rfl <;> rfl

end Runs

/-- The caller interrupts the answer: the reply ends, what Twilio has of it is cleared, and the call listens again. -/
def bargeInLabels : List Label :=
  spokenLabels ++ [.transcript waitEvent] ++ List.replicate 4 .run ++
  [.reply 0 .cancelled, .reply 0 (.ok .none), .wake .stt (.ok .none), .wake .stt (.ok .none)] ++ List.replicate 6 .run

theorem outbound_safe_bargeIn : ∃ ls s, Run (step plainConfig) (fun _ _ => True) .started ls s ∧ s.state = .LISTENING ∧
    s.trace.filter Event.outbound = [.opened 0 0, .media (.reply 0), .clear, .bargedIn] ∧
    ∀ ls' t, Run (step plainConfig) (fun _ _ => True) s ls' t →
      ¬[.opened 0 0, .clear, .media (.reply 0)].Sublist t.trace ∧
      ¬[.opened 0 0, .bargedIn, .media (.reply 0)].Sublist t.trace := by
  have hexec : (exec (step plainConfig) (fun _ _ => True) .started bargeInLabels).any (fun s => s.state = .LISTENING ∧
      s.trace.filter Event.outbound = [.opened 0 0, .media (.reply 0), .clear, .bargedIn]) = true := by decide +kernel
  obtain ⟨s, hrun, hs⟩ := Run.exists_of_exec hexec
  obtain ⟨hstate, htrace⟩ := of_decide_eq_true hs
  refine ⟨_, s, hrun, hstate, htrace, fun ls' t hrest => ?_⟩
  have hsafe := (outbound_safe (hrun.trans hrest)).2 0 0
  exact ⟨hsafe .clear (Or.inr rfl), hsafe .bargedIn (Or.inl rfl)⟩

end Voxera.Call
