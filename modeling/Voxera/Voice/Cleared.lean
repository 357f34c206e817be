import Voxera.Voice.HeldTurn
import Voxera.Voice.Silence

/-!
# What the client is told of an interruption

A call of `stop` that has read `_audio_sent` as true owes the client a `tts_clear` for the reply it waits
for. A reply of which audio had been handed over when the system was interrupted is cleared exactly once,
by the interruption, as long as

* `_audio_sent` says at every interruption what has been handed over: it is written when `send_bytes`
  returns, and the interruption may come before that;
* nobody else calls `stop` for the reply while a clear of it is owed.

`Cleared` is the invariant; `BargeInSafe` are the steps that keep it and the silence of `Silent`.
-/

namespace Voxera.Voice

open EventLoop
open Session

variable {cfg : Config} {me : Handler} {s t : Session}

/-! ## Clears, sent and owed -/

/-- `tts_clear` for the reply `r`. -/
def Event.clears (r : Nat) : Event → Bool
  | .tts r' (.json (.ttsClear _)) => r' == r
  | _ => false

/-- The reply that the call will clear once the reply has ended. -/
def Pc.owes? : Pc → Option Nat
  | .stopping r true _ => some r
  | _ => none

/-- The interruption had heard audio of the reply `r`. -/
def StopFor.heard (r : Nat) : StopFor → Bool
  | .interruption _ cut => cut.heard = some r
  | _ => false

/-- The `tts_clear`s sent for `r`. -/
def Session.clears (s : Session) (r : Nat) : Nat := s.trace.countP (Event.clears r)

/-- The reply that the task will clear. -/
def Session.owesAt (s : Session) (me : Handler) : Option Nat := (s.handler me).pc?.bind Pc.owes?

/-- The system was interrupted when audio of `r` had been handed over. -/
def Session.Interrupted (s : Session) (r : Nat) : Prop := ∃ cut, .interruption cut ∈ s.trace ∧ cut.heard = some r

/-- The interruption will clear `r`, and nobody else. -/
structure Owed (s : Session) (r : Nat) : Prop where
  owner : ∃ me k, (s.handler me).pc? = some (.stopping r true k) ∧ k.heard r = true ∧
    ∀ other, s.owesAt other = some r → other = me
  clears : s.clears r = 0

/-- `r` has been cleared. -/
structure Paid (s : Session) (r : Nat) : Prop where
  owner : ∀ other, s.owesAt other ≠ some r
  clears : s.clears r = 1

structure Cleared (s : Session) : Prop where
  below : ∀ me r b k, (s.handler me).pc? = some (.stopping r b k) → r < s.tts.count
  done : ∀ r, 0 < s.clears r → r < s.tts.count ∧ s.tts.task r = .done
  owed : ∀ r, s.Interrupted r → Owed s r ∨ Paid s r
  stopping : ∀ me r r' b k, (s.handler me).pc? = some (.stopping r' b k) → k.heard r = true → r' = r ∧ b = true
  clearing : ∀ me r k, (s.handler me).pc? = some (.clearing k) → k.heard r = true → s.clears r = 1
  bargeIn : ∀ me r k cut, (s.handler me).pc? = some (.bargeIn k cut) → cut.heard = some r → s.clears r = 1
  returned : ∀ r cut, .interruptionReturned cut ∈ s.trace → cut.heard = some r → s.clears r = 1

theorem owesAt_update {pc : Coroutine Pc} (hhandler : t.handler = Function.update s.handler me pc) (other : Handler) :
    t.owesAt other = if other = me then pc.pc?.bind Pc.owes? else s.owesAt other := by
  unfold Session.owesAt
  by_cases heq : other = me <;> simp [hhandler, heq]

theorem clears_append {es : List Event} (htrace : t.trace = s.trace ++ es) (hes : ∀ e ∈ es, ∀ r, e.clears r = false)
    (r : Nat) : t.clears r = s.clears r := by
  have hzero : es.countP (Event.clears r) = 0 := by
    rw [List.countP_eq_zero]
    intro e he
    simp [hes e he r]
  rw [Session.clears, htrace, List.countP_append, hzero, Nat.add_zero]
  rfl

theorem Pc.speech_of_owes {pc : Pc} {r : Nat} (h : pc.owes? = some r) : pc.speech = true := by
  cases pc <;> first | rfl | cases h

theorem StopFor.heard_eq_true {r : Nat} {k : StopFor} (h : k.heard r = true) :
    ∃ after cut, k = .interruption after cut ∧ cut.heard = some r := by
  cases k with
  | interruption after cut => exact ⟨after, cut, rfl, of_decide_eq_true h⟩
  | _ => cases h

/-- A reply task clears nothing. -/
theorem clears_calls {r : Tts.Reply} {next : Option (Tts.Pc Unit)} {call : Tts.Event} (h : call ∈ r.calls next)
    (n n' : Nat) : (Event.tts n call).clears n' = false := by
  unfold Tts.Reply.calls at h
  split at h
  · cases List.mem_singleton.mp h
    rfl
  · cases List.mem_singleton.mp h
    rfl
  · cases List.mem_singleton.mp h
    rfl
  · cases List.mem_singleton.mp h
    rfl
  · cases List.mem_singleton.mp h
    rfl
  · cases h

namespace Cleared

theorem fresh (cfg : Config) : Cleared (fresh cfg) where
  below := fun _ _ _ _ h => nomatch h
  done := by simp [Session.clears, Session.fresh]
  owed := by
    rintro r ⟨cut, hmem, -⟩
    cases hmem
  stopping := fun _ _ _ _ _ h => nomatch h
  clearing := fun _ _ _ h => nomatch h
  bargeIn := fun _ _ _ _ h => nomatch h
  returned := by simp [Session.fresh]

/-- A reply that has been cleared has ended. -/
theorem clears_of_active (h : Cleared s) {r : Nat} (hactive : s.tts.active = some r) : s.clears r = 0 := by
  by_contra hne
  obtain ⟨-, hdone⟩ := h.done r (Nat.pos_of_ne_zero hne)
  have hrunning := (Tts.Consumer.active_eq_some.mp hactive).2
  rw [hdone] at hrunning
  cases hrunning

/-- A reply at work that was interrupted is still to be cleared, by an interruption. -/
theorem owed_of_active (h : Cleared s) {r : Nat} (hactive : s.tts.active = some r) (hi : s.Interrupted r) :
    ∃ me k, (s.handler me).pc? = some (.stopping r true k) ∧ k.heard r = true := by
  rcases h.owed r hi with ho | hp
  · obtain ⟨me, k, hpc, hk, -⟩ := ho.owner
    exact ⟨me, k, hpc, hk⟩
  · have hzero := h.clears_of_active hactive
    rw [hp.clears] at hzero
    cases hzero

/-- Nothing is cleared, and what an interruption owes it goes on to owe. -/
theorem congr (h : Cleared s) (hcount : s.tts.count ≤ t.tts.count)
    (hbelow : ∀ other r b k, (t.handler other).pc? = some (.stopping r b k) → r < s.tts.count)
    (hdone : ∀ r < s.tts.count, s.tts.task r = .done → t.tts.task r = .done)
    (hclears : ∀ r, t.clears r = s.clears r)
    (hint : ∀ r, t.Interrupted r → s.Interrupted r ∨ Owed t r)
    (howes : ∀ other r, s.Interrupted r → (t.owesAt other = some r ↔ s.owesAt other = some r))
    (howner : ∀ other r k, (s.handler other).pc? = some (.stopping r true k) → k.heard r = true →
      (t.handler other).pc? = some (.stopping r true k))
    (hstopping : ∀ other r r' b k, (t.handler other).pc? = some (.stopping r' b k) → k.heard r = true → r' = r ∧ b = true)
    (hclearing : ∀ other r k, (t.handler other).pc? = some (.clearing k) → k.heard r = true → s.clears r = 1)
    (hbargeIn : ∀ other r k cut, (t.handler other).pc? = some (.bargeIn k cut) → cut.heard = some r → s.clears r = 1)
    (hreturned : ∀ r cut, .interruptionReturned cut ∈ t.trace → cut.heard = some r → s.clears r = 1) : Cleared t where
  below := fun other r b k hpc => lt_of_lt_of_le (hbelow other r b k hpc) hcount
  done := by
    intro r hr
    rw [hclears] at hr
    obtain ⟨hlt, htask⟩ := h.done r hr
    exact ⟨lt_of_lt_of_le hlt hcount, hdone r hlt htask⟩
  owed := by
    intro r hr
    rcases hint r hr with hr' | hnew
    swap
    · exact Or.inl hnew
    rcases h.owed r hr' with ho | hp
    · obtain ⟨me, k, hpc, hk, honly⟩ := ho.owner
      refine Or.inl ⟨⟨me, k, howner me r k hpc hk, hk, fun other hother => ?_⟩, (hclears r).trans ho.clears⟩
      exact honly other ((howes other r hr').mp hother)
    · refine Or.inr ⟨fun other hother => ?_, (hclears r).trans hp.clears⟩
      exact hp.owner other ((howes other r hr').mp hother)
  stopping := hstopping
  clearing := by
    intro other r k hpc hk
    rw [hclears]
    exact hclearing other r k hpc hk
  bargeIn := by
    intro other r k cut hpc hk
    rw [hclears]
    exact hbargeIn other r k cut hpc hk
  returned := by
    intro r cut hmem hk
    rw [hclears]
    exact hreturned r cut hmem hk

/-- A step of no call. -/
theorem aside (h : Cleared s) (hhandler : t.handler = s.handler) (hcount : s.tts.count ≤ t.tts.count)
    (hdone : ∀ r < s.tts.count, s.tts.task r = .done → t.tts.task r = .done) {es : List Event}
    (htrace : t.trace = s.trace ++ es)
    (hes : ∀ e ∈ es, (∀ r, e.clears r = false) ∧ ∀ cut, e.cut? = some cut → cut.heard = none) : Cleared t := by
  have hold : ∀ e ∈ t.trace, ∀ cut r, e.cut? = some cut → cut.heard = some r → e ∈ s.trace := by
    intro e he cut r hcut hr
    rw [htrace] at he
    rcases List.mem_append.mp he with he | he
    · exact he
    · rw [(hes e he).2 cut hcut] at hr
      cases hr
  refine h.congr hcount (by rw [hhandler]; exact h.below) hdone (clears_append htrace (fun e he => (hes e he).1)) ?_ ?_ ?_ ?_
    ?_ ?_ ?_
  · rintro r ⟨cut, hmem, hcut⟩
    exact Or.inl ⟨cut, hold _ hmem cut r rfl hcut, hcut⟩
  · intro other r _
    unfold Session.owesAt
    rw [hhandler]
  · intro other r k hpc _
    rw [hhandler]
    exact hpc
  · rw [hhandler]
    exact h.stopping
  · rw [hhandler]
    exact h.clearing
  · rw [hhandler]
    exact h.bargeIn
  · intro r cut hmem hcut
    exact h.returned r cut (hold _ hmem cut r rfl hcut) hcut

theorem hushed (h : Cleared s) (hs : Hushed s t) : Cleared t := by
  obtain ⟨es, htrace, hes⟩ := hs.trace
  have hkind : ∀ e ∈ es, e.cut? = none ∧ ∀ r, e.clears r = false := by
    intro e he
    obtain ⟨utteranceId, rfl⟩ := hes e he
    exact ⟨rfl, fun _ => rfl⟩
  have hold : ∀ e ∈ t.trace, e.cut? ≠ none → e ∈ s.trace := by
    intro e he hne
    rw [htrace] at he
    rcases List.mem_append.mp he with he | he
    · exact he
    · exact absurd (hkind e he).1 hne
  have hat : ∀ other pc, pc.speech = true → (t.handler other).pc? = some pc → (s.handler other).pc? = some pc :=
    fun other pc hpc => (hs.handler other pc hpc).mp
  refine h.congr (by rw [hs.tts]) (fun other r b k hpc => h.below other r b k (hat other _ rfl hpc))
    (by rw [hs.tts]; exact fun _ _ hd => hd) (clears_append htrace (fun e he => (hkind e he).2)) ?_ ?_ ?_ ?_ ?_ ?_ ?_
  · rintro r ⟨cut, hmem, hcut⟩
    exact Or.inl ⟨cut, hold _ hmem (by simp [Event.cut?]), hcut⟩
  · intro other r _
    simp only [Session.owesAt, Option.bind_eq_some_iff]
    constructor
    · rintro ⟨pc, hpc, howes⟩
      exact ⟨pc, hat other pc (Pc.speech_of_owes howes) hpc, howes⟩
    · rintro ⟨pc, hpc, howes⟩
      exact ⟨pc, (hs.handler other pc (Pc.speech_of_owes howes)).mpr hpc, howes⟩
  · intro other r k hpc _
    exact (hs.handler other _ rfl).mpr hpc
  · intro other r r' b k hpc
    exact h.stopping other r r' b k (hat other _ rfl hpc)
  · intro other r k hpc
    exact h.clearing other r k (hat other _ rfl hpc)
  · intro other r k cut hpc
    exact h.bargeIn other r k cut (hat other _ rfl hpc)
  · intro r cut hmem hcut
    exact h.returned r cut (hold _ hmem (by simp [Event.cut?])) hcut

/-- The call `me` goes on to `pc`; it owes nothing, and what it owes afterwards was not heard by an
interruption. -/
theorem goesOn (h : Cleared s) {pc : Coroutine Pc} (hhandler : t.handler = Function.update s.handler me pc)
    (hnothing : s.owesAt me = none) (howes : ∀ r, pc.pc?.bind Pc.owes? = some r → ¬ s.Interrupted r)
    (hcount : s.tts.count ≤ t.tts.count) (hdone : ∀ r < s.tts.count, s.tts.task r = .done → t.tts.task r = .done)
    {es : List Event} (htrace : t.trace = s.trace ++ es) (hes : ∀ e ∈ es, ∀ r, e.clears r = false)
    (hcuts : ∀ cut, .interruption cut ∈ es → cut.heard = none)
    (hreturned : ∀ cut r, .interruptionReturned cut ∈ es → cut.heard = some r → s.clears r = 1)
    (hpc : ∀ pc', pc.pc? = some pc' → (∀ r b k, pc' = .stopping r b k → r < s.tts.count ∧ ∀ r', k.heard r' = false) ∧
      (∀ k r, pc' = .clearing k → k.heard r = true → s.clears r = 1) ∧
      ∀ k cut r, pc' = .bargeIn k cut → cut.heard = some r → s.clears r = 1) : Cleared t := by
  have hother : ∀ other, other ≠ me → t.handler other = s.handler other := by
    intro other hne
    rw [hhandler, Function.update_of_ne hne]
  have hself : t.handler me = pc := by rw [hhandler, Function.update_self]
  refine h.congr hcount ?_ hdone (clears_append htrace hes) ?_ ?_ ?_ ?_ ?_ ?_ ?_
  · intro other r b k hat
    by_cases heq : other = me
    · subst heq
      rw [hself] at hat
      exact ((hpc _ hat).1 r b k rfl).1
    · rw [hother other heq] at hat
      exact h.below other r b k hat
  · rintro r ⟨cut, hmem, hcut⟩
    rw [htrace] at hmem
    rcases List.mem_append.mp hmem with hmem | hmem
    · exact Or.inl ⟨cut, hmem, hcut⟩
    · rw [hcuts cut hmem] at hcut
      cases hcut
  · intro other r hr
    rw [owesAt_update hhandler]
    split
    · rename_i heq
      subst heq
      rw [hnothing]
      exact ⟨fun hsome => absurd hr (howes r hsome), fun hsome => by cases hsome⟩
    · rfl
  · intro other r k hat _
    have hne : other ≠ me := by
      rintro rfl
      simp [Session.owesAt, hat, Pc.owes?] at hnothing
    rw [hother other hne]
    exact hat
  · intro other r r' b k hat hk
    by_cases heq : other = me
    · subst heq
      rw [hself] at hat
      rw [((hpc _ hat).1 r' b k rfl).2 r] at hk
      cases hk
    · rw [hother other heq] at hat
      exact h.stopping other r r' b k hat hk
  · intro other r k hat hk
    by_cases heq : other = me
    · subst heq
      rw [hself] at hat
      exact (hpc _ hat).2.1 k r rfl hk
    · rw [hother other heq] at hat
      exact h.clearing other r k hat hk
  · intro other r k cut hat hk
    by_cases heq : other = me
    · subst heq
      rw [hself] at hat
      exact (hpc _ hat).2.2 k cut r rfl hk
    · rw [hother other heq] at hat
      exact h.bargeIn other r k cut hat hk
  · intro r cut hmem hcut
    rw [htrace] at hmem
    rcases List.mem_append.mp hmem with hmem | hmem
    · exact h.returned r cut hmem hcut
    · exact hreturned cut r hmem hcut

/-! ## The pieces of a call -/

theorem leave (h : Cleared s) (hnothing : s.owesAt me = none) : Cleared (s.leave me) := by
  have hhandler : (s.leave me).handler = Function.update s.handler me .done := rfl
  refine h.goesOn hhandler hnothing ?_ le_rfl (fun _ _ hd => hd) (List.append_nil _).symm ?_ ?_ ?_ ?_
  · intro r hr
    cases hr
  · simp
  · simp
  · simp
  · intro pc' hpc'
    cases hpc'

theorem owesAt_leave (s : Session) (me : Handler) : (s.leave me).owesAt me = none := by
  rw [owesAt_update (s := s) rfl, if_pos rfl]
  rfl

/-- `stop` for a call that is not an interruption. -/
theorem ttsStop (h : Cleared s) {k : StopFor} {next : Session → Session} (hnothing : s.owesAt me = none)
    (hk : ∀ r, k.heard r = false) (hbelow : ∀ r, s.tts.current = some r → r < s.tts.count)
    (hstop : ∀ r, s.tts.active = some r → ¬ s.Interrupted r)
    (hnext : s.tts.active = none → Cleared (next s)) : Cleared (s.ttsStop me k next) := by
  unfold Session.ttsStop
  split
  · rename_i hactive
    exact hnext hactive
  · rename_i r hactive
    have hhandler : ({ s with tts := s.tts.cancel r }.park me (.stopping r s.tts.audioSent k)).handler =
        Function.update s.handler me (.await (.stopping r s.tts.audioSent k)) := rfl
    refine h.goesOn hhandler hnothing ?_ le_rfl ?_ (List.append_nil _).symm ?_ ?_ ?_ ?_
    · intro r' hr'
      cases hsent : s.tts.audioSent with
      | false =>
          rw [hsent] at hr'
          cases hr'
      | true =>
          rw [hsent] at hr'
          cases hr'
          exact hstop r hactive
    · intro r' _ hdone
      exact Tts.Consumer.task_cancel_done hdone r
    · simp
    · simp
    · simp
    · intro pc' hpc'
      cases hpc'
      refine ⟨?_, ?_, ?_⟩
      · rintro r' b k' ⟨⟩
        exact ⟨hbelow r (Tts.Consumer.active_eq_some.mp hactive).1, hk⟩
      · rintro k' r' ⟨⟩
      · rintro k' cut r' ⟨⟩

/-- A call that owes nothing opens a reply and returns. -/
theorem opens (h : Cleared s) (hnothing : s.owesAt me = none) (hhandler : t.handler = Function.update s.handler me .done)
    (hcount : t.tts.count = s.tts.count + 1)
    (htask : t.tts.task = Function.update s.tts.task s.tts.count (.await .created)) {es : List Event}
    (htrace : t.trace = s.trace ++ es) (hes : ∀ e ∈ es, e.cut? = none ∧ ∀ r, e.clears r = false) : Cleared t := by
  refine h.goesOn hhandler hnothing ?_ (by omega) ?_ htrace (fun e he => (hes e he).2) ?_ ?_ ?_
  · intro r hr
    cases hr
  · intro r hr hdone
    rw [htask, Function.update_of_ne (by omega)]
    exact hdone
  · intro cut hmem
    cases (hes _ hmem).1
  · intro cut r hmem
    cases (hes _ hmem).1
  · intro pc' hpc'
    cases hpc'

theorem replyBegun (h : Cleared s) (hnothing : s.owesAt me = none) (turn : UserTurnCompleted)
    (history : List Llm.Entry) (ticket : Nat) : Cleared (s.replyBegun me turn history ticket) := by
  have htrace : (s.replyBegun me turn history ticket).trace = s.trace ++ [.opened ticket s.tts.count,
      .generation s.llm.count s.tts.count (Text.strip turn.transcript) history s.state.isUserSpeaking] := by
    simp [Session.replyBegun]
  refine h.opens hnothing rfl rfl rfl htrace ?_
  simp [Event.cut?, Event.clears]

theorem speechOpened (h : Cleared s) (hnothing : s.owesAt me = none) {ticket : Nat} (ho : SpeechOpened me ticket s t) :
    Cleared t := by
  obtain ⟨es, htrace, hes⟩ := ho.trace
  refine h.opens hnothing ho.handler ho.count ho.task htrace ?_
  intro e he
  rcases List.mem_cons.mp he with rfl | he
  · exact ⟨rfl, fun _ => rfl⟩
  · obtain ⟨r, item, rfl⟩ := hes e he
    exact ⟨rfl, fun _ => rfl⟩

theorem reply (h : Cleared s) (hnothing : s.owesAt me = none) (hbelow : ∀ r, s.tts.current = some r → r < s.tts.count)
    (hstop : ∀ r, s.tts.active = some r → ¬ s.Interrupted r) (turn : UserTurnCompleted) :
    Cleared (s.reply cfg me turn) := by
  have htrace : (s.replyBegins cfg turn).trace =
      s.trace ++ [.reply turn s.state.isUserSpeaking, .begin s.begun s.state.isUserSpeaking] := by simp
  have hbegins : Cleared (s.replyBegins cfg turn) :=
    h.aside rfl le_rfl (fun _ _ hd => hd) htrace (by simp [Event.cut?, Event.clears])
  unfold Session.reply
  refine hbegins.ttsStop hnothing (fun _ => rfl) hbelow ?_ (fun _ => hbegins.replyBegun hnothing turn _ _)
  rintro r hactive ⟨cut, hmem, hcut⟩
  refine hstop r hactive ⟨cut, ?_, hcut⟩
  rw [htrace] at hmem
  simpa using hmem

theorem answers (h : Cleared s) {calls : Prop} (hbelow : ∀ r, s.tts.current = some r → r < s.tts.count)
    (hstop : calls → ∀ r, s.tts.active = some r → ¬ s.Interrupted r) (ha : Answers cfg me calls s t) : Cleared t := by
  cases ha with
  | hushed hs => exact h.hushed hs
  | @replies u hcalls hs hidle turn =>
      refine (h.hushed hs).reply ?_ (by rw [hs.tts]; exact hbelow) ?_ turn
      · simp [Session.owesAt, hidle]
      · rintro r hactive ⟨cut, hmem, hcut⟩
        obtain ⟨es, htrace, hes⟩ := hs.trace
        rw [hs.tts] at hactive
        refine hstop hcalls r hactive ⟨cut, ?_, hcut⟩
        rw [htrace] at hmem
        refine (List.mem_append.mp hmem).resolve_right (fun hmem => ?_)
        obtain ⟨utteranceId, heq⟩ := hes _ hmem
        cases heq

theorem heard_eq_some {r : Nat} (hactive : s.tts.active = some r) (hheard : s.heard ≠ none) : s.heard = some r := by
  obtain ⟨r', hr'⟩ := Option.ne_none_iff_exists'.mp hheard
  have hr := (Option.filter_eq_some_iff.mp hr').1
  rw [hactive] at hr
  cases hr
  exact hr'

/-- The system is interrupted, and a reply is at work. -/
theorem interruptStops (h : Cleared s) {r : Nat} {k : AfterInterruption} (vad : Option EnergyVAD)
    (state : ConversationState) (hidle : s.handler me = .done) (hactive : s.tts.active = some r) (hbelow : r < s.tts.count)
    (hsent : s.heard ≠ none → s.tts.audioSent = true) (hnot : ¬ s.Interrupted r)
    (hfree : s.heard ≠ none → ∀ other, s.owesAt other ≠ some r)
    (ht : t = { { s with vad }.interrupted state with tts := s.tts.cancel r }.park me
      (.stopping r s.tts.audioSent (.interruption k s.cut))) : Cleared t := by
  have htrace : t.trace = s.trace ++ [.interruption s.cut] := by rw [ht]; rfl
  have hhandler : t.handler = Function.update s.handler me
      (.await (.stopping r s.tts.audioSent (.interruption k s.cut))) := by rw [ht]; rfl
  have hcount : t.tts.count = s.tts.count := by rw [ht]; rfl
  have htask : ∀ r', s.tts.task r' = .done → t.tts.task r' = .done := by
    intro r' hdone
    rw [ht]
    exact Tts.Consumer.task_cancel_done hdone r
  have hclears : ∀ r', t.clears r' = s.clears r' := clears_append htrace (by simp [Event.clears])
  have howes : ∀ other r', r' ≠ r → (t.owesAt other = some r' ↔ s.owesAt other = some r') := by
    intro other r' hne
    rw [owesAt_update hhandler]
    split
    · rename_i heq
      subst heq
      have hnone : s.owesAt other = none := by simp [Session.owesAt, hidle]
      rw [hnone]
      cases s.tts.audioSent with
      | false => simp [Coroutine.await, Pc.owes?]
      | true => simpa [Coroutine.await, Pc.owes?] using Ne.symm hne
    · rfl
  have hpc : ∀ other pc, (t.handler other).pc? = some pc →
      (other = me ∧ pc = .stopping r s.tts.audioSent (.interruption k s.cut)) ∨ (s.handler other).pc? = some pc := by
    intro other pc hat
    rw [hhandler] at hat
    by_cases heq : other = me
    · subst heq
      rw [Function.update_self] at hat
      exact Or.inl ⟨rfl, (Option.some.inj hat).symm⟩
    · rw [Function.update_of_ne heq] at hat
      exact Or.inr hat
  refine h.congr hcount.ge ?_ (fun r' _ => htask r') hclears ?_ ?_ ?_ ?_ ?_ ?_ ?_
  · intro other r' b k' hat
    rcases hpc other _ hat with ⟨-, heq⟩ | hat
    · cases heq
      exact hbelow
    · exact h.below other r' b k' hat
  · rintro r' ⟨cut, hmem, hcut⟩
    rw [htrace] at hmem
    rcases List.mem_append.mp hmem with hmem | hmem
    · exact Or.inl ⟨cut, hmem, hcut⟩
    · cases List.mem_singleton.mp hmem
      -- the interruption itself: `me` owes the clear, and it alone
      have hne : s.heard ≠ none := by
        intro hnone
        have hcut' : s.heard = some r' := hcut
        rw [hnone] at hcut'
        cases hcut'
      have heq : some r = some r' := (heard_eq_some hactive hne).symm.trans hcut
      cases heq
      refine Or.inr ⟨⟨me, .interruption k s.cut, ?_, ?_, ?_⟩, (hclears r).trans (h.clears_of_active hactive)⟩
      · rw [hhandler, Function.update_self, hsent hne]
        rfl
      · exact decide_eq_true hcut
      · intro other hother
        rw [owesAt_update hhandler] at hother
        split at hother
        · assumption
        · exact absurd hother (hfree hne other)
  · intro other r' hr'
    apply howes
    rintro rfl
    exact hnot hr'
  · intro other r' k' hat hk'
    have hne : other ≠ me := by
      rintro rfl
      rw [hidle] at hat
      cases hat
    rw [hhandler, Function.update_of_ne hne]
    exact hat
  · intro other r' r'' b k' hat hk'
    rcases hpc other _ hat with ⟨-, heq⟩ | hat
    · cases heq
      have hheard : s.heard = some r' := of_decide_eq_true hk'
      have hne : s.heard ≠ none := by simp [hheard]
      exact ⟨Option.some.inj ((heard_eq_some hactive hne).symm.trans hheard), hsent hne⟩
    · exact h.stopping other r' r'' b k' hat hk'
  · intro other r' k' hat hk'
    rcases hpc other _ hat with ⟨-, heq⟩ | hat
    · cases heq
    · exact h.clearing other r' k' hat hk'
  · intro other r' k' cut hat hk'
    rcases hpc other _ hat with ⟨-, heq⟩ | hat
    · cases heq
    · exact h.bargeIn other r' k' cut hat hk'
  · intro r' cut hmem hcut
    rw [htrace] at hmem
    have hmem' : .interruptionReturned cut ∈ s.trace := by simpa using hmem
    exact h.returned r' cut hmem' hcut

/-- The one who owes the clear of an interrupted reply is the only one, and it has not been sent. -/
theorem owing (h : Cleared s) {r : Nat} (hi : s.Interrupted r) (hme : s.owesAt me = some r) :
    s.clears r = 0 ∧ ∀ other, s.owesAt other = some r → other = me := by
  rcases h.owed r hi with ho | hp
  · obtain ⟨owner, k, -, -, honly⟩ := ho.owner
    refine ⟨ho.clears, fun other hother => ?_⟩
    rw [honly other hother, honly me hme]
  · exact absurd hme (hp.owner me)

/-- The clear that is owed is sent. -/
theorem clear (h : Cleared s) (hs : Silent s) {r : Nat} {k : StopFor} {cancelling : Bool}
    (hpc : s.handler me = .suspended (.stopping r true k) cancelling) (hdone : s.tts.task r = .done) :
    Cleared (((s.leave me).emit (.tts r (.json (.ttsClear (StopFor.reason k))))).park me (.clearing k)) := by
  generalize ht : ((s.leave me).emit (.tts r (.json (.ttsClear (StopFor.reason k))))).park me (.clearing k) = t
  have htrace : t.trace = s.trace ++ [.tts r (.json (.ttsClear (StopFor.reason k)))] := by rw [← ht]; rfl
  have hhandler : t.handler = Function.update s.handler me (.await (.clearing k)) := by
    rw [← ht]
    exact Function.update_idem _ _ _
  have htts : t.tts = s.tts := by rw [← ht]; rfl
  have hme : s.owesAt me = some r := by simp [Session.owesAt, hpc, Pc.owes?]
  have hat : (s.handler me).pc? = some (.stopping r true k) := by rw [hpc]; rfl
  have hclears : ∀ r', t.clears r' = s.clears r' + if r = r' then 1 else 0 := by
    intro r'
    rw [Session.clears, htrace, List.countP_append]
    congr 1
    by_cases heq : r = r' <;> simp [Event.clears, heq]
  have hint : ∀ r', t.Interrupted r' → s.Interrupted r' := by
    rintro r' ⟨cut, hmem, hcut⟩
    rw [htrace] at hmem
    exact ⟨cut, by simpa using hmem, hcut⟩
  have hcutAt : ∀ other pc cut r', (s.handler other).pc? = some pc → pc.cut? = some cut → cut.heard = some r' →
      s.Interrupted r' := by
    intro other pc cut r' hother hcut hr'
    exact ⟨cut, hs.known other cut (Option.bind_eq_some_iff.mpr ⟨pc, hother, hcut⟩), hr'⟩
  have hkeep : ∀ r', s.Interrupted r' → s.clears r' = 1 → t.clears r' = 1 := by
    intro r' hi hone
    have hne : r ≠ r' := by
      rintro rfl
      rw [(h.owing hi hme).1] at hone
      cases hone
    rw [hclears, if_neg hne, hone]
  have hsend : s.Interrupted r → t.clears r = 1 := by
    intro hi
    rw [hclears, if_pos rfl, (h.owing hi hme).1]
  have howes : ∀ other r', t.owesAt other = some r' → other ≠ me ∧ s.owesAt other = some r' := by
    intro other r' hother
    rw [owesAt_update hhandler] at hother
    split at hother
    · cases hother
    · rename_i hne
      exact ⟨hne, hother⟩
  have hpcs : ∀ other pc, (t.handler other).pc? = some pc →
      (other = me ∧ pc = .clearing k) ∨ (s.handler other).pc? = some pc := by
    intro other pc hother
    rw [hhandler] at hother
    by_cases heq : other = me
    · subst heq
      rw [Function.update_self] at hother
      exact Or.inl ⟨rfl, (Option.some.inj hother).symm⟩
    · rw [Function.update_of_ne heq] at hother
      exact Or.inr hother
  constructor
  · intro other r' b k' hother
    rw [htts]
    rcases hpcs other _ hother with ⟨-, heq⟩ | hother
    · cases heq
    · exact h.below other r' b k' hother
  · intro r' hr'
    rw [htts]
    by_cases heq : r = r'
    · exact heq ▸ ⟨h.below me r true k hat, hdone⟩
    · rw [hclears, if_neg heq] at hr'
      exact h.done r' hr'
  · intro r' hi
    have hi' := hint r' hi
    by_cases heq : r = r'
    · subst heq
      refine Or.inr ⟨fun other hother => ?_, hsend hi'⟩
      obtain ⟨hne, hold⟩ := howes other r hother
      exact hne ((h.owing hi' hme).2 other hold)
    · rcases h.owed r' hi' with ho | hp
      · obtain ⟨owner, k', hown, hk', honly⟩ := ho.owner
        have hne : owner ≠ me := by
          rintro rfl
          rw [hat] at hown
          cases hown
          exact heq rfl
        refine Or.inl ⟨⟨owner, k', ?_, hk', fun other hother => honly other (howes other r' hother).2⟩, ?_⟩
        · rw [hhandler, Function.update_of_ne hne]
          exact hown
        · rw [hclears, if_neg heq, ho.clears]
      · refine Or.inr ⟨fun other hother => hp.owner other (howes other r' hother).2, ?_⟩
        rw [hclears, if_neg heq, hp.clears]
  · intro other r' r'' b k' hother
    rcases hpcs other _ hother with ⟨-, heq⟩ | hother
    · cases heq
    · exact h.stopping other r' r'' b k' hother
  · intro other r' k' hother hk'
    obtain ⟨after, cut, rfl, hcut⟩ := StopFor.heard_eq_true hk'
    rcases hpcs other _ hother with ⟨rfl, heq⟩ | hother
    · cases heq
      obtain ⟨heq, -⟩ := h.stopping other r' r true _ hat hk'
      subst heq
      exact hsend (hcutAt other _ cut r hat rfl hcut)
    · exact hkeep r' (hcutAt other _ cut r' hother rfl hcut) (h.clearing other r' _ hother hk')
  · intro other r' k' cut hother hcut
    rcases hpcs other _ hother with ⟨-, heq⟩ | hother
    · cases heq
    · exact hkeep r' (hcutAt other _ cut r' hother rfl hcut) (h.bargeIn other r' k' cut hother hcut)
  · intro r' cut hmem hcut
    have hmem' : .interruptionReturned cut ∈ s.trace := by
      rw [htrace] at hmem
      simpa using hmem
    exact hkeep r' ⟨cut, hs.returned _ hmem' cut rfl, hcut⟩ (h.returned r' cut hmem' hcut)

end Cleared

/-! ## The steps in question -/

/-- The step calls `tts.stop`. -/
def Session.callsStop (cfg : Config) (s : Session) (l : Label) : Bool :=
  s.interrupts l || s.callsBegin cfg l || s.closesSpeech l

/-- A clear of `r` is owed, by an interruption that has heard it, or (`anyone`) by whatever call. -/
def Session.clearOwed (s : Session) (anyone : Bool) (r : Nat) : Bool :=
  s.callers.any fun h => (s.handler h).pc?.any fun pc => match pc with
    | .stopping r' true k => r' == r && (anyone || k.heard r)
    | _ => false

/-- The calls of `tts.begin` are undisturbed; `_audio_sent` is up to date when the system is interrupted;
and `stop` is not called for a reply whose clear is owed, if an interruption owes it or is the call. -/
def BargeInSafe (cfg : Config) (s : Session) (l : Label) : Bool :=
  BeginUndisturbed cfg s l && (!s.interrupts l || s.heard.isNone || s.tts.audioSent) &&
    (!s.callsStop cfg l || s.tts.active.all fun r => !s.clearOwed (s.interrupts l && s.heard.isSome) r)

theorem Typed.not_owed (h : Typed s) {anyone : Bool} {r : Nat} (hnot : s.clearOwed anyone r = false) {k : StopFor}
    (hpc : (s.handler me).pc? = some (.stopping r true k)) : (anyone || k.heard r) = false := by
  have hme := List.any_eq_false.mp hnot me (h.mem_callers hpc)
  simpa [hpc] using hme

namespace Cleared

/-- No interruption has heard the reply that a safe step stops. -/
theorem not_interrupted (h : Cleared s) (ht : Typed s) {l : Label} (hok : BargeInSafe cfg s l = true)
    (hl : s.callsStop cfg l = true) {r : Nat} (hactive : s.tts.active = some r) : ¬ s.Interrupted r := by
  intro hi
  obtain ⟨me, k, hpc, hk⟩ := h.owed_of_active hactive hi
  have hnot : s.clearOwed (s.interrupts l && s.heard.isSome) r = false := by
    unfold BargeInSafe at hok
    simp only [Bool.and_eq_true, hl, hactive, Option.all_some, Bool.not_true, Bool.false_or, Bool.not_eq_true'] at hok
    exact hok.2
  have hme := ht.not_owed hnot hpc
  rw [hk, Bool.or_true] at hme
  cases hme

/-- A call to which `stop` has returned owes nothing. -/
theorem owesAt_of_returns {pc : Pc} {k : StopFor} {cancelling : Bool} (hpc : s.handler me = .suspended pc cancelling)
    (hreturns : Returns s k pc) : s.owesAt me = none := by
  cases hreturns <;> simp [Session.owesAt, hpc, Pc.owes?]

/-- The interruption goes on to send `barge_in`: what it had heard has been cleared. -/
theorem bargesIn (h : Cleared s) {pc : Pc} {k : AfterInterruption} {cut : Cut} {cancelling : Bool}
    (hpc : s.handler me = .suspended pc cancelling) (hreturns : Returns s (.interruption k cut) pc) :
    Cleared (((s.leave me).emit .bargeIn).park me (.bargeIn k cut)) := by
  have hhandler : (((s.leave me).emit .bargeIn).park me (.bargeIn k cut)).handler =
      Function.update s.handler me (.await (.bargeIn k cut)) := Function.update_idem _ _ _
  have hat : (s.handler me).pc? = some pc := by rw [hpc]; rfl
  have hone : ∀ r, cut.heard = some r → s.clears r = 1 := by
    intro r hcut
    have hk : (StopFor.interruption k cut).heard r = true := decide_eq_true hcut
    cases hreturns with
    | stopped hdone => cases (h.stopping me r _ false _ hat hk).2
    | cleared => exact h.clearing me r _ hat hk
  refine h.goesOn hhandler (owesAt_of_returns hpc hreturns) ?_ le_rfl (fun _ _ hd => hd) rfl ?_ ?_ ?_ ?_
  · intro r hr
    cases hr
  · simp [Event.clears]
  · simp
  · simp
  · rintro pc' ⟨⟩
    refine ⟨?_, ?_, ?_⟩
    · rintro r b k' ⟨⟩
    · rintro k' r ⟨⟩
    · rintro k' cut' r ⟨⟩
      exact hone r

/-- The interruption returns. -/
theorem returns (h : Cleared s) {k : AfterInterruption} {cut : Cut} {cancelling : Bool}
    (hpc : s.handler me = .suspended (.bargeIn k cut) cancelling) :
    Cleared ((s.leave me).emit (.interruptionReturned cut)) := by
  have hhandler : ((s.leave me).emit (.interruptionReturned cut)).handler = Function.update s.handler me .done := rfl
  have hat : (s.handler me).pc? = some (.bargeIn k cut) := by rw [hpc]; rfl
  refine h.goesOn hhandler (by simp [Session.owesAt, hpc, Pc.owes?]) ?_ le_rfl (fun _ _ hd => hd) rfl ?_ ?_ ?_ ?_
  · intro r hr
    cases hr
  · simp [Event.clears]
  · simp
  · intro cut' r hmem hcut
    cases List.mem_singleton.mp hmem
    exact h.bargeIn me r k cut hat hcut
  · intro pc' hpc'
    cases hpc'

theorem called (h : Cleared s) (hs : Silent s) (ht : Typed s) {l : Label} (hok : BargeInSafe cfg s l = true)
    (hc : Called cfg s l t) : Cleared t := by
  have hstop : s.callsStop cfg l = true → ∀ r, s.tts.active = some r → ¬ s.Interrupted r :=
    fun hl r hactive => h.not_interrupted ht hok hl hactive
  have hreply : s.callsReply cfg l = true → ∀ r, s.tts.active = some r → ¬ s.Interrupted r :=
    fun hl => hstop (by simp [Session.callsStop, Session.callsBegin, hl])
  cases hc with
  | answers _ ha => exact h.answers hs.below hreply ha
  | @interruptReturns me vad state _ hinterrupts hidle _ hactive ha =>
      have hheard : s.heard = none := by simp [Session.heard, hactive]
      have hreturned : Cleared (({ s with vad }.interrupted state).emit (.interruptionReturned s.cut)) := by
        have htrace : (({ s with vad }.interrupted state).emit (.interruptionReturned s.cut)).trace =
            s.trace ++ [.interruption s.cut, .interruptionReturned s.cut] := by
          rw [emit_trace, trace_interrupted, List.append_assoc]
          rfl
        refine h.aside rfl le_rfl (fun _ _ hd => hd) htrace ?_
        simp [Event.clears, Event.cut?, Session.cut, hheard]
      refine hreturned.answers hs.below (fun _ r hr => ?_) ha
      have hr' : s.tts.active = some r := hr
      rw [hactive] at hr'
      cases hr'
  | @interruptStops me vad state k r hinterrupts hidle _ hactive =>
      have hnot := hstop (by simp [Session.callsStop, hinterrupts]) r hactive
      have hsafe : (s.heard.isNone = true ∨ s.tts.audioSent = true) ∧
          s.clearOwed (s.interrupts l && s.heard.isSome) r = false := by
        unfold BargeInSafe at hok
        simp only [Bool.and_eq_true, Session.callsStop, hinterrupts, hactive, Option.all_some, Bool.not_true, Bool.false_or,
          Bool.true_or, Bool.not_eq_true', Bool.or_eq_true, Bool.true_and] at hok
        rw [hinterrupts, Bool.true_and]
        exact ⟨hok.1.2, hok.2⟩
      refine h.interruptStops vad state hidle hactive (hs.below r (Tts.Consumer.active_eq_some.mp hactive).1) ?_ hnot ?_ rfl
      · intro hheard
        rcases hsafe.1 with hnone | hsent
        · exact absurd (Option.isNone_iff_eq_none.mp hnone) hheard
        · exact hsent
      · intro hheard other hother
        obtain ⟨pc, hpc, howes⟩ := Option.bind_eq_some_iff.mp hother
        obtain ⟨k', rfl⟩ : ∃ k', pc = .stopping r true k' := by
          unfold Pc.owes? at howes
          split at howes
          · cases howes
            exact ⟨_, rfl⟩
          · cases howes
        have hall := ht.not_owed hsafe.2 hpc
        rw [hinterrupts, Option.isSome_iff_ne_none.mpr hheard] at hall
        cases hall
  | @clears me r k cancelling hpc hdone => exact h.clear hs hpc (Coroutine.isDone_iff.mp hdone)
  | bargesIn hpc hreturns => exact h.bargesIn hpc hreturns
  | @returns me k cut cancelling _ hpc ha =>
      refine (h.returns hpc).answers hs.below ?_ ha
      rintro hl r hactive ⟨cut', hmem, hcut⟩
      refine hreply hl r hactive ⟨cut', ?_, hcut⟩
      have hmem' : .interruption cut' ∈ s.trace ++ [.interruptionReturned cut] := hmem
      simpa using hmem'
  | @begins me pc turn history ticket cancelling _ hpc hreturns =>
      exact (h.leave (owesAt_of_returns hpc hreturns)).replyBegun (owesAt_leave s me) turn history ticket
  | @speakBegins me pc text utteranceId ticket cancelling _ hpc hreturns =>
      exact (h.leave (owesAt_of_returns hpc hreturns)).speechOpened (owesAt_leave s me)
        (speakTextBegun_opened me text utteranceId ticket _)
  | @closes me pc cancelling hpc hreturns =>
      have hleft := h.leave (owesAt_of_returns hpc hreturns)
      have hclosed : Cleared { s.leave me with closed := true } :=
        hleft.aside rfl le_rfl (fun _ _ hd => hd) (List.append_nil _).symm (by simp)
      exact hclosed.leave (owesAt_leave s me)
  | @speakText text utteranceId hl hidle hopen =>
      have hnothing : s.owesAt .endpoint = none := by simp [Session.owesAt, hidle]
      have hbegins : Cleared ({ s with timing := none, state := s.state.startSystemTurn, begun := s.begun + 1 }.emit
          (.begin s.begun s.state.startSystemTurn.isUserSpeaking)) :=
        h.aside rfl le_rfl (fun _ _ hd => hd) rfl (by simp [Event.clears, Event.cut?])
      unfold Session.speakText
      simp only
      refine hbegins.ttsStop hnothing (fun _ => rfl) hs.below ?_ (fun _ => ?_)
      · rintro r hactive ⟨cut, hmem, hcut⟩
        refine hstop ?_ r hactive ⟨cut, by simpa using hmem, hcut⟩
        rw [hl]
        simp [Session.callsStop, Session.callsBegin, Label.usesSpeakText]
      · exact hbegins.speechOpened hnothing (speakTextBegun_opened .endpoint text utteranceId s.begun _)
  | @closesSpeech u hl hs' hidle =>
      have hu : Cleared u := h.hushed hs'
      have hnothing : u.owesAt .endpoint = none := by simp [Session.owesAt, hidle]
      show Cleared (u.ttsStop .endpoint .close (fun v => v.closeReturned .endpoint))
      refine hu.ttsStop hnothing (fun _ => rfl) (by rw [hs'.tts]; exact hs.below) ?_ (fun _ => ?_)
      · rintro r hactive ⟨cut, hmem, hcut⟩
        obtain ⟨es, htrace, hes⟩ := hs'.trace
        rw [hs'.tts] at hactive
        refine hstop (by simp [Session.callsStop, hl]) r hactive ⟨cut, ?_, hcut⟩
        rw [htrace] at hmem
        refine (List.mem_append.mp hmem).resolve_right (fun hmem => ?_)
        obtain ⟨utteranceId, heq⟩ := hes _ hmem
        cases heq
      · have hclosed : Cleared { u with closed := true } :=
          hu.aside rfl le_rfl (fun _ _ hd => hd) (List.append_nil _).symm (by simp)
        exact hclosed.leave hnothing

/-- **A safe step keeps the account of the clears.** -/
theorem step (h : Cleared s) (hs : Silent s) (ht : Typed s) {l : Label} (hok : BargeInSafe cfg s l = true)
    (hstep : step cfg s l = some t) : Cleared t := by
  cases Stepped.of_step ht hstep with
  | called hc => exact h.called hs ht hok hc
  | generation hgen =>
      obtain ⟨pc, cancelling, items, next, hg⟩ := GenerationStep.of_resume hgen
      have haside := resumeGeneration_aside hgen
      obtain ⟨es, htrace, hes⟩ := hg.puts.trace
      refine h.aside haside.handler hg.puts.count.ge (fun _ _ hd => by rw [hg.puts.task]; exact hd) htrace ?_
      intro e he
      rcases hes e he with ⟨r, item, rfl, -⟩ | ⟨m, rfl⟩
      · exact ⟨fun _ => rfl, by simp [Event.cut?]⟩
      · exact ⟨fun _ => rfl, by simp [Event.cut?]⟩
  | reply hreply =>
      obtain ⟨pc, cancelling, next, hr⟩ := ReplyStep.of_resume hreply
      have haside := resumeReply_aside hreply
      obtain ⟨es, htrace, hes⟩ := hr.trace
      rw [List.append_assoc] at htrace
      refine h.aside haside.handler hr.count.ge ?_ htrace ?_
      · intro r' _ hdone
        rw [hr.task, Function.update_of_ne]
        · exact hdone
        · rintro rfl
          rw [hr.at_pc] at hdone
          cases hdone
      · intro e he
        rcases List.mem_append.mp he with he | he
        · obtain ⟨call, hcall, rfl⟩ := List.mem_map.mp he
          exact ⟨fun r' => clears_calls hcall _ r', by simp [Event.cut?]⟩
        · obtain ⟨timing, rfl⟩ := hes e he
          exact ⟨fun _ => rfl, by simp [Event.cut?]⟩

end Cleared

/-- Once an interruption has returned, the replies begun before it hand over no frame and the generations
started before it speak no segment, and the reply it had heard has been cleared exactly once. -/
structure CutOffCleanly (trace : List Event) : Prop where
  frames : ∀ cut r frame k, [.interruptionReturned cut, .tts r (.audio frame)].Sublist trace →
    .opened k r ∈ trace → cut.begun ≤ k
  segments : ∀ cut r g text, [.interruptionReturned cut, .queued r (some g) (some text)].Sublist trace →
    cut.generations ≤ g
  clears : ∀ cut r, .interruptionReturned cut ∈ trace → cut.heard = some r → trace.countP (Event.clears r) = 1

/-- **Barge-in is safe**, in every run in which `tts.begin` is undisturbed, `_audio_sent` is up to date when
the system is interrupted, and nobody else stops a reply while an interruption stops it. -/
theorem cutOffCleanly_of_bargeInSafe (cfg : Config) {ls : List Label} {s : Session}
    (h : Run (step cfg) (fun s l => BargeInSafe cfg s l = true) (fresh cfg) ls s) : CutOffCleanly s.trace := by
  have hinv : Typed s ∧ Silent s ∧ Cleared s := by
    apply h.invariant (I := fun s => Typed s ∧ Silent s ∧ Cleared s)
    · exact ⟨Typed.fresh cfg, Silent.fresh cfg, Cleared.fresh cfg⟩
    · rintro t u l ⟨ht, hs, hc⟩ hok hstep
      have hbegin : BeginUndisturbed cfg t l = true := by
        unfold BargeInSafe at hok
        simp only [Bool.and_eq_true] at hok
        exact hok.1.1
      exact ⟨ht.step hstep, hs.step ht hbegin hstep, hc.step hs ht hok hstep⟩
  obtain ⟨-, hs, hc⟩ := hinv
  refine ⟨?_, ?_, ?_⟩
  · intro cut r frame k hsub hopened
    exact hs.frames _ cut r frame k hsub rfl hopened
  · intro cut r g text hsub
    exact hs.segments _ cut r g text hsub rfl
  · intro cut r hmem hcut
    exact hc.returned r cut hmem hcut

/-! ## Two runs -/

/-- The greeting is on its way: its first frame has been handed to `send_bytes`. -/
def greeting : List Label :=
  [.speakText "Hello.".toList anId, .reply 0 (.ok .none), .reply 0 (.ok (.frame [0, 0])), .reply 0 (.ok .none)]

/-- The caller barges in; the greeting's task ends, and the interruption goes on. -/
def bargesIn : List Label :=
  [.transcript .stt ⟨.PARTIAL, anId, "Wait".toList⟩, .reply 0 .cancelled, .reply 0 (.ok .none), .handler .stt (.ok ()),
    .handler .stt (.ok ())]

/-- The frame has been sent when the caller barges in. -/
def clearedGreeting : List Label := greeting ++ .reply 0 (.ok .none) :: bargesIn ++ [.handler .stt (.ok ())]

theorem cutOffCleanly_clearedGreeting : ∃ s,
    Run (step {}) (fun s l => BargeInSafe {} s l = true) (fresh {}) clearedGreeting s ∧ CutOffCleanly s.trace ∧
      .interruptionReturned ⟨1, 0, some 0⟩ ∈ s.trace := by
  obtain ⟨s, hrun, hreturned⟩ := Run.exists_of_exec
    (P := fun s : Session => s.trace.contains (.interruptionReturned ⟨1, 0, some 0⟩)) (s := fresh {})
    (show (exec (step {}) (fun s l => BargeInSafe {} s l = true) _ clearedGreeting).any _ = true by decide +kernel)
  exact ⟨s, hrun, cutOffCleanly_of_bargeInSafe {} hrun, List.contains_iff_mem.mp hreturned⟩

/-- The caller barges in while the greeting's first frame is being sent, and the client is not told to drop it. -/
theorem firstFrame_not_cutOffCleanly : ∃ s,
    Run (step {}) (fun _ _ => True) (fresh {}) (greeting ++ bargesIn) s ∧ ¬ CutOffCleanly s.trace := by
  obtain ⟨s, hrun, hnone⟩ := Run.exists_of_exec
    (P := fun s : Session => s.trace.contains (.interruptionReturned ⟨1, 0, some 0⟩) &&
      s.trace.countP (Event.clears 0) == 0) (s := fresh {})
    (show (exec (step {}) (fun _ _ => True) _ (greeting ++ bargesIn)).any _ = true by decide +kernel)
  simp only [Bool.and_eq_true, List.contains_iff_mem, beq_iff_eq] at hnone
  refine ⟨s, hrun, fun h => ?_⟩
  have hone := h.clears _ 0 hnone.1 rfl
  rw [hnone.2] at hone
  cases hone

end Voxera.Voice
