import Voxera.Voice.HeldTurn

/-!
# No user turn is lost, duplicated or reordered

The texts of the FINAL events come back, in order, in the prompts of the generations, in the reply
that waits in `tts.begin`, in the held turn, or in the FINAL whose barge-in has not returned yet, as
long as no `_reply` is called while another one waits.

* `Grouped` : a list of texts cut into consecutive turns, each joined by spaces, where everything but
  the last part of a turn has been held;
* `Ledger` : the invariant, with the texts of the completed turns and the prompt that waits.
-/

namespace Voxera.Voice

open EventLoop
open Session

variable {cfg : Config} {me : Handler} {s t : Session}

/-! ## Turns of several parts -/

/-- Every proper part of the turn sounds unfinished, so that it was held. -/
def Joins (cfg : Config) (parts : List Text) : Prop :=
  parts ≠ [] ∧ ∀ p q, p ++ q = parts → p ≠ [] → q ≠ [] → unfinished cfg (Text.joinSpaces p) = true

/-- `turns` are the texts in consecutive groups, each joined by single spaces. -/
def Grouped (cfg : Config) (texts turns : List Text) : Prop :=
  ∃ groups : List (List Text), groups.flatten = texts ∧ groups.map Text.joinSpaces = turns ∧
    ∀ parts ∈ groups, Joins cfg parts

theorem Joins.single (cfg : Config) (text : Text) : Joins cfg [text] := by
  refine ⟨by simp, fun p q hpq hp hq => ?_⟩
  have hlen := congrArg List.length hpq
  have hp' := List.length_pos_iff.mpr hp
  have hq' := List.length_pos_iff.mpr hq
  simp only [List.length_append, List.length_singleton] at hlen
  omega

theorem Joins.concat {parts : List Text} (h : Joins cfg parts)
    (hheld : unfinished cfg (Text.joinSpaces parts) = true) (text : Text) : Joins cfg (parts ++ [text]) := by
  refine ⟨by simp, fun p q hpq hp hq => ?_⟩
  obtain ⟨q', x, rfl⟩ : ∃ q' x, q = q' ++ [x] := ⟨_, _, (List.dropLast_append_getLast hq).symm⟩
  rw [← List.append_assoc] at hpq
  obtain ⟨hpq', -⟩ := List.append_inj' hpq rfl
  by_cases hq' : q' = []
  · subst hq'
    rw [List.append_nil] at hpq'
    rwa [hpq']
  · exact h.2 p q' hpq' hp hq'

namespace Grouped

theorem nil (cfg : Config) : Grouped cfg [] [] := ⟨[], rfl, rfl, by simp⟩

/-- A turn of its own. -/
theorem snoc {texts turns : List Text} (h : Grouped cfg texts turns) (text : Text) :
    Grouped cfg (texts ++ [text]) (turns ++ [text]) := by
  obtain ⟨groups, rfl, rfl, hjoins⟩ := h
  refine ⟨groups ++ [[text]], by simp, by simp [Text.joinSpaces], ?_⟩
  intro parts hparts
  rcases List.mem_append.mp hparts with hparts | hparts
  · exact hjoins parts hparts
  · rw [List.mem_singleton.mp hparts]
    exact Joins.single cfg text

/-- The last turn was held and goes on. -/
theorem join {texts turns : List Text} {held : Text} (h : Grouped cfg texts (turns ++ [held]))
    (hheld : unfinished cfg held = true) (text : Text) :
    Grouped cfg (texts ++ [text]) (turns ++ [Text.joinSpace held text]) := by
  obtain ⟨groups, rfl, hmap, hjoins⟩ := h
  obtain ⟨first, last, rfl, rfl, hlast⟩ := List.map_eq_append_iff.mp hmap
  obtain ⟨parts, rfl, hparts⟩ := List.map_eq_singleton_iff.mp hlast
  have hlastJoins : Joins cfg parts := hjoins parts (by simp)
  refine ⟨first ++ [parts ++ [text]], by simp, ?_, ?_⟩
  · rw [List.map_append, List.map_singleton, Text.joinSpaces_concat hlastJoins.1, hparts]
  · intro g hg
    rcases List.mem_append.mp hg with hg | hg
    · exact hjoins g (by simp [hg])
    · rw [List.mem_singleton.mp hg]
      exact hlastJoins.concat (by rwa [hparts]) text

theorem flatten_eq_map {groups : List (List Text)} (hjoins : ∀ parts ∈ groups, Joins cfg parts) :
    groups.length ≤ groups.flatten.length ∧
      (groups.flatten.length ≤ groups.length → groups.flatten = groups.map Text.joinSpaces) := by
  induction groups with
  | nil => simp
  | cons parts groups ih =>
      obtain ⟨hle, heq⟩ := ih (fun p hp => hjoins p (by simp [hp]))
      have hpos := List.length_pos_iff.mpr (hjoins parts (by simp)).1
      simp only [List.flatten_cons, List.length_append, List.length_cons, List.map_cons]
      refine ⟨by omega, fun hlength => ?_⟩
      obtain ⟨text, rfl⟩ := List.length_eq_one_iff.mp (show parts.length = 1 by omega)
      rw [List.length_singleton] at hlength
      rw [heq (by omega)]
      rfl

/-- As many turns as texts: nothing is joined. -/
theorem eq_of_length {texts turns : List Text} (h : Grouped cfg texts turns) (hlength : texts.length ≤ turns.length) :
    texts = turns := by
  obtain ⟨groups, rfl, rfl, hjoins⟩ := h
  exact (flatten_eq_map hjoins).2 (by simpa using hlength)

end Grouped

/-! ## Where the texts are -/

/-- The text of a transcript, unless it is blank. -/
def spoken (transcript : Text) : List Text :=
  if Text.strip transcript = [] then [] else [Text.strip transcript]

/-- The texts of the FINAL events among the labels. -/
def finals (ls : List Label) : List Text :=
  ls.flatMap fun l => match l with
    | .transcript _ ⟨.FINAL, _, transcript⟩ => spoken transcript
    | _ => []

/-- The prompts of the generations started. -/
def prompts (trace : List Event) : List Text :=
  trace.filterMap fun e => match e with
    | .generation _ _ prompt _ _ => some prompt
    | _ => none

/-- The prompt of the `_reply` that is suspended here. -/
def Pc.prompt? (pc : Pc) : Option Text :=
  match pc.stop? with
  | some (.reply turn _ _) => some (Text.strip turn.transcript)
  | _ => none

/-- Where `process_transcript_event` goes on when the barge-in awaited here has returned. -/
def Pc.after? : Pc → Option TurnManager.After
  | .stopping _ _ (.interruption (.turn k) _) | .clearing (.interruption (.turn k) _) | .bargeIn (.turn k) _ => some k
  | _ => none

/-- The text of the event whose barge-in is awaited. -/
def spokenAfter : TurnManager.After → List Text
  | .finalInterrupted ev => spoken ev.transcript
  | _ => []

/-- What `process_transcript_event` may await a barge-in for. -/
def Delivered : TurnManager.After → Prop
  | .partialInterrupted _ => True
  | .finalInterrupted ev => Text.isUuid ev.utteranceId = true
  | _ => False

namespace Session

variable (s)

def heldTexts : List Text := s.held.toList.map fun turn => Text.strip turn.transcript

def promptAt (h : Handler) : Option Text := (s.handler h).pc?.bind Pc.prompt?

/-- The event of the recogniser that waits for its barge-in to return. -/
def after : Option TurnManager.After := (s.handler .stt).pc?.bind Pc.after?

end Session

/-- The prompts of the calls of `_reply` that wait in `tts.begin`: one, or none. -/
inductive Waits (s : Session) : List Text → Prop
  | nobody (h : ∀ me, s.promptAt me = none) : Waits s []
  | one (me : Handler) {text : Text} (h : s.promptAt me = some text)
      (hothers : ∀ other, other ≠ me → s.promptAt other = none) : Waits s [text]

theorem prompt?_isSome (pc : Pc) : pc.prompt?.isSome = pc.inReply := by
  unfold Pc.prompt? Pc.inReply
  rcases hk : pc.stop? with _ | k
  · rfl
  · cases k <;> rfl

namespace Waits

theorem congr {pending : List Text} (h : Waits s pending) (hat : ∀ me, t.promptAt me = s.promptAt me) :
    Waits t pending := by
  cases h with
  | nobody h => exact .nobody (fun me => (hat me).trans (h me))
  | one me h hothers => exact .one me ((hat _).trans h) (fun other hne => (hat other).trans (hothers other hne))

/-- No `_reply` waits. -/
theorem eq_nil {pending : List Text} (h : Waits s pending) (hw : NoReply s) : pending = [] := by
  cases h with
  | nobody => rfl
  | @one me text h _ =>
      obtain ⟨pc, hpc, hprompt⟩ := Option.bind_eq_some_iff.mp h
      have hin := prompt?_isSome pc
      rw [hprompt, hw me pc hpc] at hin
      cases hin

end Waits

/-! ## The ledger -/

/-- The completed turns' texts are in the prompts, in `pending` and in the held turn. -/
structure Ledger (cfg : Config) (texts pending : List Text) (after : Option TurnManager.After) (s : Session) : Prop where
  isOpen : s.closed = false
  endpoint : s.handler .endpoint = .done
  after : s.after = after
  held : ∀ turn, s.held = some turn →
    Text.strip turn.transcript ≠ [] ∧ unfinished cfg (Text.strip turn.transcript) = true
  grouped : Grouped cfg texts (prompts s.trace ++ pending ++ s.heldTexts)

/-- The completed turns' texts, with the `_reply` that waits. -/
def Settled (cfg : Config) (texts : List Text) (after : Option TurnManager.After) (s : Session) : Prop :=
  ∃ pending, Waits s pending ∧ Ledger cfg texts pending after s

@[simp] theorem prompts_append (a b : List Event) : prompts (a ++ b) = prompts a ++ prompts b :=
  List.filterMap_append

theorem prompts_ofTask {es : List Event} (h : ∀ e ∈ es, e.OfTask) : prompts es = [] := by
  refine List.filterMap_eq_nil_iff.mpr (fun e he => ?_)
  have hof := h e he
  cases e <;> first | rfl | cases hof

namespace Ledger

variable {texts pending : List Text} {after after' : Option TurnManager.After}

theorem congr (h : Ledger cfg texts pending after s) (hhandler : t.handler = s.handler) (hclosed : t.closed = s.closed)
    (hheld : t.held = s.held) (htrace : prompts t.trace = prompts s.trace) : Ledger cfg texts pending after t where
  isOpen := hclosed.trans h.isOpen
  endpoint := by rw [hhandler]; exact h.endpoint
  after := by rw [← h.after, Session.after, Session.after, hhandler]
  held := by rw [hheld]; exact h.held
  grouped := by
    rw [htrace, show t.heldTexts = s.heldTexts by unfold Session.heldTexts; rw [hheld]]
    exact h.grouped

theorem aside (h : Ledger cfg texts pending after s) (ha : Aside s t) : Ledger cfg texts pending after t := by
  refine h.congr ha.handler ha.closed ha.held ?_
  obtain ⟨es, hes, hof⟩ := ha.trace
  rw [hes, prompts_append, prompts_ofTask hof, List.append_nil]

theorem emit (h : Ledger cfg texts pending after s) {e : Event} (he : prompts [e] = []) :
    Ledger cfg texts pending after (s.emit e) := by
  refine h.congr rfl rfl rfl ?_
  rw [emit_trace, prompts_append, he, List.append_nil]

/-- The running call suspends. -/
theorem park (h : Ledger cfg texts pending after s) (pc : Pc) (hend : me ≠ .endpoint)
    (hstt : me = .stt → pc.after? = after')
    (hother : me ≠ .stt → after = after') : Ledger cfg texts pending after' (s.park me pc) where
  isOpen := h.isOpen
  endpoint := by simpa [Function.update_of_ne hend.symm] using h.endpoint
  after := by
    by_cases hm : me = .stt
    · rw [← hstt hm, hm]
      simp [Session.after, Coroutine.await]
    · rw [← hother hm, ← h.after]
      simp [Session.after, Function.update_of_ne (Ne.symm hm)]
  held := h.held
  grouped := h.grouped

/-- A call whose task is not the session's timer returns. -/
theorem leave (h : Ledger cfg texts pending after s)
    (hstt : me = .stt → after' = none) (hother : me ≠ .stt → after = after') :
    Ledger cfg texts pending after' (s.leave me) where
  isOpen := h.isOpen
  endpoint := by
    by_cases hm : Handler.endpoint = me
    · simp [hm]
    · simpa [Function.update_of_ne hm] using h.endpoint
  after := by
    by_cases hm : me = .stt
    · rw [hstt hm, hm]
      simp [Session.after]
    · rw [← hother hm, ← h.after]
      simp [Session.after, Function.update_of_ne (Ne.symm hm)]
  held := h.held
  grouped := h.grouped

/-- A call that has not suspended returns. -/
theorem leave_done (h : Ledger cfg texts pending after s) (hme : s.handler me = .done) :
    Ledger cfg texts pending after (s.leave me) := by
  rw [leave_of_done hme]
  exact h

/-! ## Hold timers -/

theorem cancelHoldTimer (h : Ledger cfg texts pending after s) : Ledger cfg texts pending after (s.cancelHoldTimer me) where
  isOpen := by simpa using h.isOpen
  endpoint := cancelHoldTimer_handler_done h.endpoint
  after := by simpa [Session.after] using h.after
  held := by simpa using h.held
  grouped := by simpa [Session.heldTexts] using h.grouped

theorem startHoldTimer (h : Ledger cfg texts pending after s) : Ledger cfg texts pending after (s.startHoldTimer me) where
  isOpen := by simpa using h.isOpen
  endpoint := by simpa [startHoldTimer_handler] using cancelHoldTimer_handler_done h.endpoint
  after := by simpa [Session.after, startHoldTimer_handler] using h.after
  held := by simpa using h.held
  grouped := by simpa [Session.heldTexts] using h.grouped

end Ledger

namespace Waits

variable {pending : List Text}

theorem of_handler (h : Waits s pending) (hh : t.handler = s.handler) : Waits t pending :=
  h.congr (fun me => by simp [Session.promptAt, hh])

theorem cancelHoldTimer (h : Waits s pending) : Waits (s.cancelHoldTimer me) pending :=
  h.congr (fun h' => by simp [Session.promptAt])

theorem startHoldTimer (h : Waits s pending) (hfresh : s.handler (.timer s.timers) = .done) :
    Waits (s.startHoldTimer me) pending := by
  refine h.congr (fun h' => ?_)
  by_cases hh : h' = .timer s.timers
  · subst hh
    simp [Session.promptAt, startHoldTimer_handler, hfresh, Coroutine.await, Pc.prompt?,
      Pc.stop?]
  · simp [Session.promptAt, startHoldTimer_handler, Function.update_of_ne hh]

/-- A call that is no `_reply` suspends. -/
theorem park (h : Waits s pending) (hme : s.handler me = .done) {pc : Pc} (hpc : pc.prompt? = none) :
    Waits (s.park me pc) pending := by
  refine h.congr (fun h' => ?_)
  by_cases hh : h' = me
  · subst hh
    simp [Session.promptAt, hme, hpc, Coroutine.await]
  · simp [Session.promptAt, Function.update_of_ne hh]

/-- A `_reply` suspends. -/
theorem parkReply (h : Waits s []) {pc : Pc} {text : Text} (hpc : pc.prompt? = some text) :
    Waits (s.park me pc) [text] := by
  cases h with
  | nobody h =>
      refine .one me (by simp [Session.promptAt, hpc, Coroutine.await]) (fun other hne => ?_)
      simpa [Session.promptAt, Function.update_of_ne hne] using h other

theorem leave (h : Waits s pending) (hme : s.promptAt me = none) : Waits (s.leave me) pending := by
  refine h.congr (fun h' => ?_)
  by_cases hh : h' = me
  · subst hh
    simpa [Session.promptAt] using hme.symm
  · simp [Session.promptAt, Function.update_of_ne hh]

/-- The `_reply` that waits goes on. -/
theorem leaveReply (h : Waits s pending) {text : Text} (hme : s.promptAt me = some text) :
    pending = [text] ∧ Waits (s.leave me) [] := by
  cases h with
  | nobody h => simp [h me] at hme
  | @one me' text' h hothers =>
      by_cases hh : me = me'
      · subst hh
        rw [hme] at h
        cases h
        refine ⟨rfl, .nobody (fun other => ?_)⟩
        by_cases ho : other = me
        · simp [Session.promptAt, ho]
        · simpa [Session.promptAt, Function.update_of_ne ho] using hothers other ho
      · simp [hothers me hh] at hme

end Waits

theorem spoken_of_ne_nil {transcript : Text} (h : Text.strip transcript ≠ []) :
    spoken transcript = [Text.strip transcript] := by
  simp [spoken, h]

namespace Ledger

variable {texts pending : List Text} {after after' : Option TurnManager.After}

/-! ## Replies -/

/-- The rest of `_reply` after `tts.begin` hands over the prompt. -/
theorem replyBegun {turn : UserTurnCompleted} (h : Ledger cfg texts [Text.strip turn.transcript] after s)
    (hme : s.handler me = .done) (history : List Llm.Entry) (ticket : Nat) :
    Ledger cfg texts [] after (s.replyBegun me turn history ticket) := by
  have hgenerated : Ledger cfg texts [] after ((s.emit (.opened ticket s.tts.count)).emit
      (.generation s.llm.count s.tts.count (Text.strip turn.transcript) history s.state.isUserSpeaking)) := {
    isOpen := h.isOpen
    endpoint := h.endpoint
    after := h.after
    held := h.held
    grouped := by simpa [prompts, Session.heldTexts] using h.grouped }
  unfold Session.replyBegun
  refine leave_done ?_ hme
  exact hgenerated.congr rfl rfl rfl rfl

/-- `_reply` hands over the prompt at once, or waits with it in `tts.begin`. -/
theorem reply {turn : UserTurnCompleted} (h : Ledger cfg texts [Text.strip turn.transcript] after s)
    (hwaits : Waits s []) (hend : me ≠ .endpoint) (hme : s.handler me = .done) : Settled cfg texts after (s.reply cfg me turn) := by
  have hbegins : Ledger cfg texts [Text.strip turn.transcript] after (s.replyBegins cfg turn) :=
    h.congr rfl rfl rfl (by simp [prompts])
  unfold Session.reply Session.ttsStop
  split
  · refine ⟨[], ?_, hbegins.replyBegun hme _ _⟩
    have hidle : s.promptAt me = none := by simp [Session.promptAt, hme]
    exact (hwaits.leave hidle).of_handler rfl
  · rename_i r _
    have hcancel := hbegins.congr (t := { s.replyBegins cfg turn with tts := s.tts.cancel r }) rfl rfl rfl rfl
    refine ⟨[Text.strip turn.transcript], ?_, ?_⟩
    · exact (hwaits.of_handler (t := { s.replyBegins cfg turn with tts := s.tts.cancel r }) rfl).parkReply rfl
    · refine hcancel.park _ hend ?_ (fun _ => rfl)
      rintro rfl
      rw [← h.after]
      simp [Session.after, hme, Pc.after?]

/-! ## Turns -/

/-- A complete turn, with the held turn before it, in the place of the held turn. -/
theorem continued (h : Ledger cfg texts pending after s) (turn : UserTurnCompleted) :
    Text.strip (s.continued turn).1.transcript = (s.continued turn).2 ∧
      ((s.continued turn).2 = [] → s.held = none ∧ spoken turn.transcript = []) ∧
      ((s.continued turn).2 ≠ [] →
        Grouped cfg (texts ++ spoken turn.transcript) (prompts s.trace ++ pending ++ [(s.continued turn).2])) := by
  have hgrouped := h.grouped
  cases hheld : s.held with
  | none =>
      simp only [Session.continued, hheld, Session.heldTexts, Option.toList_none, List.map_nil,
        List.append_nil] at hgrouped ⊢
      refine ⟨trivial, fun htext => ⟨trivial, by simp [spoken, htext]⟩, fun htext => ?_⟩
      rw [spoken_of_ne_nil htext]
      exact hgrouped.snoc _
  | some held =>
      obtain ⟨hne, hunfinished⟩ := h.held held hheld
      simp only [Session.continued, hheld, Session.heldTexts, Option.toList_some, List.map_cons,
        List.map_nil] at hgrouped ⊢
      by_cases htext : Text.strip turn.transcript = []
      · simp only [htext, Text.strip_joinSpace_nil (Text.stripped_strip held.transcript), Text.strip_strip]
        refine ⟨trivial, fun h0 => absurd h0 hne, fun _ => ?_⟩
        simpa [spoken, htext] using hgrouped
      · rw [Text.strip_eq_self (Text.stripped_joinSpace (Text.stripped_strip _) (Text.stripped_strip _) hne htext)]
        refine ⟨?_, fun h0 => absurd h0 (Text.joinSpace_ne_nil _ _), fun _ => ?_⟩
        · exact Text.strip_eq_self
            (Text.stripped_joinSpace (Text.stripped_strip _) (Text.stripped_strip _) hne htext)
        · rw [spoken_of_ne_nil htext]
          exact hgrouped.join hunfinished _

end Ledger

namespace Settled

variable {texts : List Text} {after after' : Option TurnManager.After}

theorem emit (h : Settled cfg texts after s) {e : Event} (he : prompts [e] = []) : Settled cfg texts after (s.emit e) := by
  obtain ⟨pending, hwaits, hl⟩ := h
  exact ⟨pending, hwaits.of_handler rfl, hl.emit he⟩

theorem aside (h : Settled cfg texts after s) (ha : Aside s t) : Settled cfg texts after t := by
  obtain ⟨pending, hwaits, hl⟩ := h
  exact ⟨pending, hwaits.of_handler ha.handler, hl.aside ha⟩

theorem congr (h : Settled cfg texts after s) (hhandler : t.handler = s.handler) (hclosed : t.closed = s.closed)
    (hheld : t.held = s.held) (htrace : prompts t.trace = prompts s.trace) : Settled cfg texts after t := by
  obtain ⟨pending, hwaits, hl⟩ := h
  exact ⟨pending, hwaits.of_handler hhandler, hl.congr hhandler hclosed hheld htrace⟩

theorem cancelHoldTimer (h : Settled cfg texts after s) : Settled cfg texts after (s.cancelHoldTimer me) := by
  obtain ⟨pending, hwaits, hl⟩ := h
  exact ⟨pending, hwaits.cancelHoldTimer, hl.cancelHoldTimer⟩

/-- A call of `handle_interruption` suspends. -/
theorem park (h : Settled cfg texts after s) (pc : Pc)
    (hend : me ≠ .endpoint) (hme : s.handler me = .done) (hprompt : pc.prompt? = none)
    (hstt : me = .stt → pc.after? = after') (hother : me ≠ .stt → after = after') :
    Settled cfg texts after' (s.park me pc) := by
  obtain ⟨pending, hwaits, hl⟩ := h
  exact ⟨pending, hwaits.park hme hprompt, hl.park pc hend hstt hother⟩

theorem startHoldTimer (h : Settled cfg texts after s) (hfresh : s.handler (.timer s.timers) = .done) :
    Settled cfg texts after (s.startHoldTimer me) := by
  obtain ⟨pending, hwaits, hl⟩ := h
  exact ⟨pending, hwaits.startHoldTimer hfresh, hl.startHoldTimer⟩

theorem holdTurn {turn : UserTurnCompleted} (h : Settled cfg texts none { s with held := some turn })
    (hfree : Free s .stt) : Settled cfg texts none (s.holdTurn .stt turn) := by
  have hidle : ({ s with held := some turn }.startHoldTimer .stt).handler .stt = .done := by
    rw [startHoldTimer_handler, Function.update_of_ne (by simp)]
    exact cancelHoldTimer_handler_done (s := { s with held := some turn }) hfree.idle
  exact ((h.startHoldTimer hfree.timer).emit (e := .turnHeld turn.utteranceId) rfl).park .turnHeld (by simp) hidle rfl
    (fun _ => rfl) (fun _ => rfl)

/-- `_on_user_turn_completed` answers the turn or holds it. -/
theorem onUserTurnCompleted (h : Settled cfg texts none s) (hfree : Free s .stt) (turn : UserTurnCompleted)
    (hanswers : s.answers cfg turn = true → NoReply s) :
    Settled cfg (texts ++ spoken turn.transcript) none (s.onUserTurnCompleted cfg .stt turn) := by
  obtain ⟨pending, hwaits, hl⟩ := h
  obtain ⟨hstrip, hblank, hgrouped⟩ := hl.continued turn
  unfold Session.answers at hanswers
  unfold Session.onUserTurnCompleted
  generalize s.continued turn = c at hstrip hblank hgrouped hanswers ⊢
  obtain ⟨turn', text⟩ := c
  simp only at hstrip hblank hgrouped hanswers ⊢
  have hnone : Free ({ s with held := none }.cancelHoldTimer .stt) .stt :=
    Free.cancelHoldTimer (s := { s with held := none }) ⟨hfree.idle, hfree.timer⟩
  split
  · rename_i htext
    obtain ⟨hheld, hspoken⟩ := hblank htext
    have hsame : Settled cfg texts none { s with held := none } :=
      ⟨pending, hwaits.of_handler rfl, hl.congr rfl rfl hheld.symm rfl⟩
    rw [hspoken, List.append_nil]
    rw [leave_of_done hnone.idle]
    exact hsame.cancelHoldTimer
  · rename_i htext
    split
    · rename_i hunfinished
      have hheld : Ledger cfg (texts ++ spoken turn.transcript) pending none { s with held := some turn' } := {
        isOpen := hl.isOpen
        endpoint := hl.endpoint
        after := hl.after
        held := by
          rintro _ ⟨rfl⟩
          rw [hstrip]
          exact ⟨htext, hunfinished⟩
        grouped := by simpa [Session.heldTexts, hstrip] using hgrouped htext }
      have hheldWaits : Waits { s with held := some turn' } pending := hwaits.of_handler rfl
      have hcancel : Settled cfg (texts ++ spoken turn.transcript) none
          ({ s with held := some turn' }.cancelHoldTimer .stt) :=
        cancelHoldTimer ⟨pending, hheldWaits, hheld⟩
      refine holdTurn ?_ hnone
      simpa [cancelHoldTimer_eq] using hcancel
    · rename_i hfinished
      have hempty : pending = [] := by
        refine hwaits.eq_nil (hanswers ?_)
        simp [htext, hfinished]
      subst hempty
      have hanswered : Ledger cfg (texts ++ spoken turn.transcript) [text] none { s with held := none } := {
        isOpen := hl.isOpen
        endpoint := hl.endpoint
        after := hl.after
        held := by simp
        grouped := by simpa [Session.heldTexts] using hgrouped htext }
      rw [← hstrip] at hanswered
      have hwaits' : Waits { s with held := none } [] := hwaits.of_handler rfl
      exact hanswered.cancelHoldTimer.reply hwaits'.cancelHoldTimer (by simp) hnone.idle

/-- `process_transcript_event` completes an open turn. -/
theorem turnCompleted (h : Settled cfg texts none s) (hfree : Free s .stt) (ev : TranscriptEvent)
    (hanswers : s.answers cfg ⟨ev.utteranceId, ev.transcript⟩ = true → NoReply s) :
    Settled cfg (texts ++ spoken ev.transcript) none
      (s.turnCompleted cfg .stt (TurnManager.turnCompleted ev s.state)) := by
  have hstate : Settled cfg texts none { s with state := s.state.completeUserTurn } :=
    h.congr rfl rfl rfl rfl
  exact hstate.onUserTurnCompleted ⟨hfree.idle, hfree.timer⟩ _ hanswers

theorem userTurnStarted (h : Settled cfg texts none s) (state : ConversationState) :
    Settled cfg texts none ({ s with state }.onUserTurnStarted .stt) := by
  have hstate : Settled cfg texts none { s with state, llm := s.llm.cancel } := h.congr rfl rfl rfl rfl
  exact hstate.cancelHoldTimer

theorem leave_done (h : Settled cfg texts after s) (hme : s.handler me = .done) :
    Settled cfg texts after (s.leave me) := by
  rw [leave_of_done hme]
  exact h

/-- The PARTIAL branch completes nothing. -/
theorem partialTurn (h : Settled cfg texts none s) (hfree : Free s .stt) (ev : TranscriptEvent) :
    Settled cfg texts none (s.turnStarted cfg .stt (TurnManager.partialTurn ev s.state)) := by
  unfold TurnManager.partialTurn
  split
  · exact h.leave_done hfree.idle
  · split
    · rename_i state _
      exact (h.userTurnStarted state).leave_done (cancelHoldTimer_handler_done hfree.idle)
    · exact h.leave_done hfree.idle

/-- The FINAL branch without an open turn opens and completes one. -/
theorem finalTurn (h : Settled cfg texts none s) (hfree : Free s .stt) (ev : TranscriptEvent)
    (hid : Text.isUuid ev.utteranceId = true)
    (hanswers : s.answers cfg ⟨ev.utteranceId, ev.transcript⟩ = true → NoReply s) :
    Settled cfg (texts ++ spoken ev.transcript) none
      (s.turnStarted cfg .stt (TurnManager.finalTurn ev s.state)) := by
  unfold TurnManager.finalTurn ConversationState.startUserTurn
  rw [if_pos hid]
  refine (h.userTurnStarted _).turnCompleted ?_ ev (fun ha => ?_)
  · exact Free.cancelHoldTimer (s := { s with state := _, llm := s.llm.cancel }) ⟨hfree.idle, hfree.timer⟩
  · rw [answers_congr (s := s) (by simp [Session.onUserTurnStarted])] at ha
    exact NoReply.cancelHoldTimer (s := { s with state := _, llm := s.llm.cancel }) (hanswers ha) .stt

/-! ## Interruptions -/

/-- `handle_interruption` returns to `process_transcript_event`. -/
theorem interruptionReturned (h : Settled cfg texts none s) (hfree : Free s .stt)
    {k : TurnManager.After} (hk : Delivered k) (cut : Cut)
    (hanswers : ∀ ev, k = .finalInterrupted ev → s.answers cfg ⟨ev.utteranceId, ev.transcript⟩ = true →
      NoReply s) :
    Settled cfg (texts ++ spokenAfter k) none (s.interruptionReturned cfg .stt (.turn k) cut) := by
  have hemit : Settled cfg texts none (s.emit (.interruptionReturned cut)) := h.emit rfl
  cases k with
  | partialInterrupted ev =>
      rw [show spokenAfter (.partialInterrupted ev) = [] from rfl, List.append_nil]
      exact hemit.partialTurn ⟨hfree.idle, hfree.timer⟩ ev
  | finalInterrupted ev => exact hemit.finalTurn ⟨hfree.idle, hfree.timer⟩ ev hk (hanswers ev rfl)
  | _ => cases hk

theorem stopGenerating (h : Settled cfg texts after s) (state : ConversationState) :
    Settled cfg texts after ({ s with state }.emit (.interruption s.cut)).stopGenerating := by
  have hstate : Settled cfg texts after { s with state } := h.congr rfl rfl rfl rfl
  exact (hstate.emit (e := .interruption s.cut) rfl).congr rfl rfl rfl rfl

/-- A barge-in by a transcript: it returns at once, or the transcript waits for it. -/
theorem interruptTurn (h : Settled cfg texts none s) (hfree : Free s .stt) (state : ConversationState)
    {k : TurnManager.After} (hk : Delivered k)
    (hanswers : ∀ ev, k = .finalInterrupted ev → s.tts.active = none →
      s.answers cfg ⟨ev.utteranceId, ev.transcript⟩ = true → NoReply s) :
    Settled cfg (texts ++ spokenAfter k) none (s.interrupt cfg .stt state (.turn k)) ∨
      Settled cfg texts (some k) (s.interrupt cfg .stt state (.turn k)) := by
  have hstop := h.stopGenerating state
  unfold Session.interrupt Session.onUserInterrupted Session.ttsStop
  split
  · rename_i hactive
    exact Or.inl (hstop.interruptionReturned ⟨hfree.idle, hfree.timer⟩ hk s.cut (fun ev hev => hanswers ev hev hactive))
  · rename_i r _
    have hcancel := hstop.congr (t := { ({ s with state }.emit (.interruption s.cut)).stopGenerating with
      tts := s.tts.cancel r }) rfl rfl rfl rfl
    exact Or.inr (hcancel.park _ (by simp) hfree.idle rfl (fun _ => rfl) (by simp))

/-- A barge-in by the voice activity detector. -/
theorem interruptVad (h : Settled cfg texts after s) (hme : s.handler .dispatcher = .done)
    (state : ConversationState) : Settled cfg texts after (s.interrupt cfg .dispatcher state .vad) := by
  have hstop := h.stopGenerating state
  unfold Session.interrupt Session.onUserInterrupted Session.ttsStop
  split
  · exact (hstop.emit (e := .interruptionReturned s.cut) rfl).leave_done hme
  · rename_i r _
    have hcancel := hstop.congr (t := { ({ s with state }.emit (.interruption s.cut)).stopGenerating with
      tts := s.tts.cancel r }) rfl rfl rfl rfl
    exact hcancel.park _ (by simp) hme rfl (by simp) (fun _ => rfl)

end Settled

/-! ## Steps -/

/-- The utterance id of a transcript is a UUID. -/
def Label.identified : Label → Bool
  | .transcript _ ev => Text.isUuid ev.utteranceId
  | _ => true

/-- No `_reply` is called while another one waits in `tts.begin`; the transcripts have UUIDs, and neither
`speak_text` nor `close` is called. -/
def OneReplyAtATime (cfg : Config) (s : Session) (l : Label) : Bool :=
  !(s.callsReply cfg l && s.replyWaits) && l.plain && l.identified

/-- The texts are settled, but for that of the event whose barge-in is awaited. -/
def Accounted (cfg : Config) (texts : List Text) (s : Session) : Prop :=
  ∃ settled after, settled ++ after.toList.flatMap spokenAfter = texts ∧
    (∀ k, after = some k → Delivered k) ∧ Settled cfg settled after s

namespace Accounted

variable {texts : List Text}

theorem fresh (cfg : Config) : Accounted cfg [] (fresh cfg) := by
  refine ⟨[], none, rfl, by simp, [], .nobody (fun _ => rfl), ?_⟩
  exact {
    isOpen := rfl
    endpoint := rfl
    after := rfl
    held := fun _ h => nomatch h
    grouped := Grouped.nil cfg }

theorem of_settled (h : Settled cfg texts none s) : Accounted cfg texts s :=
  ⟨texts, none, by simp, by simp, h⟩

theorem of_waiting {k : TurnManager.After} (h : Settled cfg texts (some k) s) (hk : Delivered k) :
    Accounted cfg (texts ++ spokenAfter k) s :=
  ⟨texts, some k, by simp, by rintro _ ⟨rfl⟩; exact hk, h⟩

/-- No event waits when the recogniser's task is idle. -/
theorem settled_of_idle (h : Accounted cfg texts s) (hme : s.handler .stt = .done) :
    Settled cfg texts none s := by
  obtain ⟨settled, after, rfl, -, pending, hwaits, hl⟩ := h
  have hafter : after = none := by
    rw [← hl.after]
    simp [Session.after, hme]
  subst hafter
  simpa using ⟨pending, hwaits, hl⟩

theorem aside (h : Accounted cfg texts s) (ha : Aside s t) : Accounted cfg texts t := by
  obtain ⟨settled, after, htexts, hdelivered, hs⟩ := h
  exact ⟨settled, after, htexts, hdelivered, hs.aside ha⟩

theorem processTranscriptEvent (h : Accounted cfg texts s) (hfree : Free s .stt)
    (ev : TranscriptEvent) (hid : Text.isUuid ev.utteranceId = true)
    (hcalls : s.callsReply cfg (.transcript .stt ev) = true → NoReply s) :
    Accounted cfg (texts ++ finals [.transcript .stt ev]) (s.processTranscriptEvent cfg .stt ev) := by
  have hs := h.settled_of_idle hfree.idle
  obtain ⟨type, utteranceId, transcript⟩ := ev
  unfold Session.callsReply at hcalls
  have hbranch := transcribes cfg .stt s ⟨type, utteranceId, transcript⟩
  generalize s.processTranscriptEvent cfg .stt ⟨type, utteranceId, transcript⟩ = t at hbranch ⊢
  cases hbranch with
  | @partialInterrupted state htype hstate =>
      subst htype
      rcases hs.interruptTurn hfree state (k := .partialInterrupted ⟨.PARTIAL, utteranceId, transcript⟩) trivial
        (by simp) with ht | ht
      · simpa [finals, spokenAfter] using of_settled ht
      · simpa [finals, spokenAfter] using of_waiting ht trivial
  | partialTurn htype hsys =>
      subst htype
      simpa [finals] using of_settled (hs.partialTurn hfree _)
  | turnCompleted htype huser =>
      subst htype
      have ht := hs.turnCompleted hfree ⟨.FINAL, utteranceId, transcript⟩ (fun ha => hcalls (by simp [ha, huser]))
      simpa [finals] using of_settled ht
  | @finalInterrupted state htype huser htext hstate =>
      subst htype
      rcases hs.interruptTurn hfree state (k := .finalInterrupted ⟨.FINAL, utteranceId, transcript⟩) hid
        (fun ev hev hactive ha => by
          cases hev
          exact hcalls (by simp [ha, htext, hid, hactive])) with ht | ht
      · simpa [finals, spokenAfter] using of_settled ht
      · simpa [finals, spokenAfter] using of_waiting ht hid
  | finalTurn htype huser htext hsys =>
      subst htype
      have ht := hs.finalTurn hfree ⟨.FINAL, utteranceId, transcript⟩ hid
        (fun ha => hcalls (by simp [ha, htext, hid, hsys]))
      simpa [finals] using of_settled ht
  | blank htype huser htext =>
      subst htype
      simpa [finals, spoken, htext] using of_settled (hs.leave_done hfree.idle)

theorem processAudioFrame (h : Accounted cfg texts s) (hfree : Free s .dispatcher) (bytes : Bytes) :
    Accounted cfg texts (s.processAudioFrame cfg .dispatcher bytes) := by
  obtain ⟨settled, after, htexts, hdelivered, hs⟩ := h
  refine ⟨settled, after, htexts, hdelivered, ?_⟩
  unfold Session.processAudioFrame
  split
  · exact hs
  · have hset : ∀ vad, Settled cfg settled after { s with vad } := fun vad => hs.congr rfl rfl rfl rfl
    simp only
    split
    · split
      · refine Settled.interruptVad (hset _) ?_ _
        exact hfree.idle
      · split
        · exact Settled.startHoldTimer (hset _) hfree.timer
        · exact hset _
    · exact hset _

/-- `stop` has returned to a `_reply`, or it sends `tts_clear` first. -/
theorem replyStopped (h : Accounted cfg texts s) {pc : Pc} {cancelling : Bool}
    (hpc : s.handler me = .suspended pc cancelling) {turn : UserTurnCompleted} {history : List Llm.Entry}
    {ticket : Nat} (hk : pc.stop? = some (.reply turn history ticket)) :
    Accounted cfg texts ((s.leave me).replyBegun me turn history ticket) ∧
      ∀ e, prompts [e] = [] →
        Accounted cfg texts (((s.leave me).emit e).park me (.clearing (.reply turn history ticket))) := by
  obtain ⟨settled, after, htexts, hdelivered, pending, hwaits, hl⟩ := h
  have hpc? : (s.handler me).pc? = some pc := by rw [hpc, Coroutine.pc?_suspended]
  have hprompt : s.promptAt me = some (Text.strip turn.transcript) := by
    simp [Session.promptAt, hpc, Pc.prompt?, hk]
  have hafter : me = .stt → after = none := by
    rintro rfl
    rw [← hl.after, Session.after, hpc?]
    cases pc <;> simp_all [Pc.stop?, Pc.after?]
  have hend : me ≠ .endpoint := by
    rintro rfl
    rw [hl.endpoint] at hpc
    cases hpc
  obtain ⟨rfl, hwaits'⟩ := hwaits.leaveReply hprompt
  have hleave : Ledger cfg settled [Text.strip turn.transcript] after (s.leave me) :=
    hl.leave hafter (fun _ => rfl)
  refine ⟨⟨settled, after, htexts, hdelivered, [], ?_, hleave.replyBegun (by simp) _ _⟩, fun e he => ?_⟩
  · have hidle : (s.leave me).promptAt me = none := by simp [Session.promptAt]
    exact (hwaits'.leave hidle).of_handler rfl
  · refine ⟨settled, after, htexts, hdelivered, [Text.strip turn.transcript], ?_, ?_⟩
    · exact (hwaits'.of_handler (t := (s.leave me).emit e) rfl).parkReply rfl
    · refine (hleave.emit he).park _ hend ?_ (fun _ => rfl)
      intro hstt
      rw [hafter hstt]
      rfl

/-- A call that is no `_reply` goes on. -/
theorem leave (h : Settled cfg texts s.after s) {pc : Pc} {cancelling : Bool}
    (hpc : s.handler me = .suspended pc cancelling) (hprompt : pc.prompt? = none) :
    Settled cfg texts (if me = .stt then none else s.after) (s.leave me) := by
  obtain ⟨pending, hwaits, hl⟩ := h
  refine ⟨pending, hwaits.leave (by simp [Session.promptAt, hpc, hprompt]), ?_⟩
  exact hl.leave (fun hm => by simp [hm]) (fun hm => by simp [hm])

/-- A call of `handle_interruption` goes on. -/
theorem interruptionStopped (h : Accounted cfg texts s) (ht : Typed s) {pc : Pc} {cancelling : Bool}
    (hpc : s.handler me = .suspended pc cancelling) {k : AfterInterruption} {cut : Cut}
    (hk : pc.stop? = some (.interruption k cut)) {pc' : Pc} (hk' : pc' = .clearing (.interruption k cut) ∨ pc' = .bargeIn k cut)
    {e : Event} (he : prompts [e] = []) : Accounted cfg texts (((s.leave me).emit e).park me pc') := by
  obtain ⟨settled, after, htexts, hdelivered, hs⟩ := h
  obtain ⟨_, -, hl⟩ := id hs
  have hafter := hl.after
  subst hafter
  have hpc? : (s.handler me).pc? = some pc := by rw [hpc, Coroutine.pc?_suspended]
  have hruns : (StopFor.interruption k cut).runsIn me = true := by
    have hown := ht.runsIn me pc hpc?
    cases pc <;> simp_all [Pc.stop?, Pc.runsIn]
  have hend : me ≠ .endpoint := by
    rintro rfl
    rw [hl.endpoint] at hpc
    cases hpc
  have hprompt : pc.prompt? = none := by simp [Pc.prompt?, hk]
  refine ⟨settled, s.after, htexts, hdelivered, ?_⟩
  refine ((leave hs hpc hprompt).emit he).park pc' hend (by simp) ?_ ?_ ?_
  · rcases hk' with rfl | rfl <;> rfl
  · rintro rfl
    rw [Session.after, hpc?]
    cases k with
    | turn k => rcases hk' with rfl | rfl <;> cases pc <;> simp_all [Pc.stop?, Pc.after?]
    | vad => cases hruns
  · intro hm
    simp [hm]

/-- A held turn is answered when its timer has run out. -/
theorem releaseHeldTurn (h : Accounted cfg texts s) {n : Nat}
    (hpc : s.handler (.timer n) = .suspended .holdSleep false)
    (hcalls : s.held.isSome = true → NoReply s) :
    Accounted cfg texts ((s.leave (.timer n)).releaseHeldTurn cfg (.timer n)) := by
  obtain ⟨settled, after, htexts, hdelivered, pending, hwaits, hl⟩ := h
  refine ⟨settled, after, htexts, hdelivered, ?_⟩
  have hidle : s.promptAt (.timer n) = none := by simp [Session.promptAt, hpc, Pc.prompt?, Pc.stop?]
  have hleave : Ledger cfg settled pending after (s.leave (.timer n)) := hl.leave (by simp) (fun _ => rfl)
  have hwaits' : Waits ({ s with held := none, holdTask := none }.leave (.timer n)) pending :=
    (hwaits.leave hidle).of_handler rfl
  unfold Session.releaseHeldTurn
  simp only [leave_held]
  split
  · rename_i turn hheld
    have hnone : pending = [] := hwaits.eq_nil (hcalls (by simp [hheld]))
    subst hnone
    have hrelease : Ledger cfg settled [Text.strip turn.transcript] after
        ({ s with held := none, holdTask := none }.leave (.timer n)) := {
      isOpen := hleave.isOpen
      endpoint := hleave.endpoint
      after := hleave.after
      held := by simp
      grouped := by simpa [Session.heldTexts, hheld] using hl.grouped }
    exact hrelease.reply hwaits' (by simp) (by simp)
  · rename_i hheld
    have hrelease : Ledger cfg settled pending after
        ({ s with held := none, holdTask := none }.leave (.timer n)) :=
      hleave.congr rfl rfl hheld.symm rfl
    refine Settled.leave_done ?_ (by simp)
    exact ⟨pending, hwaits', hrelease⟩

/-- A suspended call goes on. -/
theorem resumeHandler (h : Accounted cfg texts s) (ht : Typed s) {pc : Pc} {cancelling : Bool}
    (hpc : s.handler me = .suspended pc cancelling) {w : Wake Unit} (hfits : w.fits cancelling = true)
    (henabled : s.enabled pc w = true) (hcalls : s.callsReply cfg (.handler me w) = true → NoReply s) :
    Accounted cfg texts ((s.leave me).resumeHandler cfg me pc w) := by
  obtain ⟨settled, after, htexts, hdelivered, hs⟩ := id h
  obtain ⟨_, -, hl⟩ := id hs
  have hafter := hl.after
  subst hafter
  have hpc? : (s.handler me).pc? = some pc := by rw [hpc, Coroutine.pc?_suspended]
  have hruns : pc.runsIn me = true := ht.runsIn me pc hpc?
  have hend : me ≠ .endpoint := by
    rintro rfl
    rw [hl.endpoint] at hpc
    cases hpc
  unfold Session.resumeHandler
  cases w with
  | ok a =>
      have hc : cancelling = false := by simpa [Wake.fits] using hfits
      subst hc
      cases pc with
      | stopping r hadAudio k =>
          simp only [Session.replyStopped]
          cases k with
          | interruption k cut =>
              split
              · exact h.interruptionStopped ht hpc rfl (Or.inl rfl) rfl
              · exact h.interruptionStopped ht hpc rfl (Or.inr rfl) rfl
          | reply turn history ticket =>
              split
              · exact (h.replyStopped hpc rfl).2 _ rfl
              · exact (h.replyStopped hpc rfl).1
          | speakText => cases me <;> first | exact absurd rfl hend | cases hruns
          | close => cases me <;> first | exact absurd rfl hend | cases hruns
      | clearing k =>
          cases k with
          | interruption k cut => exact h.interruptionStopped ht hpc rfl (Or.inr rfl) rfl
          | reply turn history ticket => exact (h.replyStopped hpc rfl).1
          | speakText => cases me <;> first | exact absurd rfl hend | cases hruns
          | close => cases me <;> first | exact absurd rfl hend | cases hruns
      | bargeIn k cut =>
          cases k with
          | turn k =>
              have hstt : me = .stt := by cases me <;> simp_all [Pc.runsIn, StopFor.runsIn]
              subst hstt
              have hk : s.after = some k := by simp [Session.after, hpc, Pc.after?]
              have hleave : Settled cfg settled none (s.leave .stt) := by
                simpa using leave hs hpc rfl
              have hfree : Free (s.leave .stt) .stt :=
                ⟨by simp, by simpa using ht.unstarted s.timers le_rfl⟩
              have hreturned := of_settled (hleave.interruptionReturned hfree (hdelivered k hk) cut (by
                rintro ev rfl ha
                have hsame : (s.leave .stt).answers cfg ⟨ev.utteranceId, ev.transcript⟩ =
                    s.answers cfg ⟨ev.utteranceId, ev.transcript⟩ := answers_congr rfl _
                rw [hsame] at ha
                have hid : Text.isUuid ev.utteranceId = true := hdelivered _ hk
                exact (hcalls (by simp [Session.callsReply, hpc, hid, ha])).leave .stt))
              simpa [hk, ← htexts] using hreturned
          | vad =>
              have hdispatcher : me = .dispatcher := by cases me <;> simp_all [Pc.runsIn, StopFor.runsIn]
              subst hdispatcher
              have hleave : Settled cfg settled s.after (s.leave .dispatcher) := by
                simpa using leave hs hpc rfl
              refine ⟨settled, s.after, htexts, hdelivered, ?_⟩
              exact (hleave.emit (e := .interruptionReturned cut) rfl).leave_done (by simp)
      | turnHeld =>
          have hstt : me = .stt := by cases me <;> simp_all [Pc.runsIn]
          subst hstt
          have hk : s.after = none := by simp [Session.after, hpc, Pc.after?]
          have hleave : Settled cfg settled none (s.leave .stt) := by
            simpa using leave hs hpc rfl
          exact ⟨settled, none, by simpa [hk] using htexts, by simp, hleave.leave_done (by simp)⟩
      | holdSleep =>
          cases me with
          | timer n => exact h.releaseHeldTurn hpc (fun hheld => hcalls (by simpa [Session.callsReply, hpc] using hheld))
          | _ => cases hruns
      | closing g => cases me <;> first | exact absurd rfl hend | cases hruns
  | raised => cases henabled
  | cancelled =>
      have hc : cancelling = true := by simpa [Wake.fits] using hfits
      subst hc
      obtain rfl := ht.calm me pc hpc
      cases me with
      | timer n =>
          obtain ⟨pending, hwaits, hl⟩ := hs
          refine ⟨settled, s.after, htexts, hdelivered, pending, ?_, ?_⟩
          · refine Waits.leave ?_ (by simp [Session.promptAt])
            exact hwaits.leave (by simp [Session.promptAt, hpc, Pc.prompt?, Pc.stop?])
          · exact Ledger.leave_done (hl.leave (by simp) (fun _ => rfl)) (by simp)
      | _ => cases hruns

/-- **A step that calls no `_reply` while another one waits keeps the account.** -/
theorem step (h : Accounted cfg texts s) (ht : Typed s) {l : Label} (hl : OneReplyAtATime cfg s l = true)
    (hstep : step cfg s l = some t) : Accounted cfg (texts ++ finals [l]) t := by
  have hcalls : s.callsReply cfg l = true → NoReply s := by
    intro hc
    simp only [OneReplyAtATime, hc, Bool.true_and, Bool.and_eq_true, Bool.not_eq_true'] at hl
    exact ht.noReply hl.1.1
  obtain ⟨settled, after, -, -, _, -, hledger⟩ := id h
  cases StepTo.of_step hstep with
  | @transcript me ev htranscribes hclosed hidle =>
      cases me with
      | stt =>
          have hid : Text.isUuid ev.utteranceId = true := by
            simp only [OneReplyAtATime, Bool.and_eq_true] at hl
            exact hl.2
          exact h.processTranscriptEvent (ht.free hidle) ev hid hcalls
      | endpoint => exact absurd (hclosed rfl) (by simp [hledger.isOpen])
      | _ => cases htranscribes
  | frame hidle => simpa [finals] using h.processAudioFrame (ht.free hidle) _
  | speakText => simp [OneReplyAtATime, Label.plain] at hl
  | close => simp [OneReplyAtATime, Label.plain] at hl
  | handler hpc hfits henabled => simpa [finals] using h.resumeHandler ht hpc hfits henabled hcalls
  | generation hgen => simpa [finals] using h.aside (resumeGeneration_aside hgen)
  | reply hreply => simpa [finals] using h.aside (resumeReply_aside hreply)

end Accounted

@[simp] theorem finals_append (a b : List Label) : finals (a ++ b) = finals a ++ finals b := List.flatMap_append

/-- The user turns of a run: the texts of the FINAL events are those of the prompts, of the `_reply` that
waits, of the held turn and of the event whose barge-in is awaited, in this order. -/
structure TurnsKept (cfg : Config) (ls : List Label) (s : Session) : Prop where
  anywhere : ∃ texts pending, Waits s pending ∧
    texts ++ s.after.toList.flatMap spokenAfter = finals ls ∧
    Grouped cfg texts (prompts s.trace ++ pending ++ s.heldTexts)
  /-- No transcript is being processed and no `_reply` waits. -/
  atRest : s.handler .stt = .done → s.replyWaits = false → Grouped cfg (finals ls) (prompts s.trace ++ s.heldTexts)

/-- **No user turn is lost, duplicated or reordered**, in every run in which no `_reply` is called while
another one waits in `tts.begin`. -/
theorem turnsKept_of_oneReplyAtATime (cfg : Config) {ls : List Label} {s : Session}
    (h : Run (step cfg) (fun s l => OneReplyAtATime cfg s l = true) (fresh cfg) ls s) : TurnsKept cfg ls s := by
  obtain ⟨ht, hinv⟩ : Typed s ∧ Accounted cfg (finals ls) s :=
    h.invariant₂ (I := fun ls s => Typed s ∧ Accounted cfg (finals ls) s)
      ⟨Typed.fresh cfg, Accounted.fresh cfg⟩
      (fun ⟨ht, hi⟩ hl hstep => ⟨ht.step hstep, by simpa using hi.step ht hl hstep⟩)
  constructor
  · obtain ⟨texts, after, htexts, -, pending, hwaits, hl⟩ := hinv
    exact ⟨texts, pending, hwaits, by rw [hl.after]; exact htexts, hl.grouped⟩
  · intro hidle hnone
    obtain ⟨pending, hwaits, hl⟩ := hinv.settled_of_idle hidle
    have hpending : pending = [] := hwaits.eq_nil (ht.noReply hnone)
    simpa [hpending] using hl.grouped

/-! ## Two runs -/

/-- A pause in the middle of a turn, and then a second turn after the reply to the first has begun. -/
def pausedTurns : List Label :=
  [.transcript .stt ⟨.FINAL, anId, "I am calling for".toList⟩, .handler .stt (.ok ()),
    .transcript .stt ⟨.FINAL, anId, "my order.".toList⟩, .transcript .stt ⟨.FINAL, anId, "Hello?".toList⟩,
    .reply 0 .cancelled, .handler .stt (.ok ()), .handler .stt (.ok ())]

theorem turnsKept_pausedTurns : ∃ s,
    Run (step {}) (fun s l => OneReplyAtATime {} s l = true) (fresh {}) pausedTurns s ∧ TurnsKept {} pausedTurns s ∧
      prompts s.trace = ["I am calling for my order.".toList, "Hello?".toList] := by
  obtain ⟨s, hrun, hprompts⟩ := Run.exists_of_exec
    (P := fun s => prompts s.trace == ["I am calling for my order.".toList, "Hello?".toList]) (s := fresh {})
    (show (exec (step {}) (fun s l => OneReplyAtATime {} s l = true) _ pausedTurns).any _ = true by decide +kernel)
  exact ⟨s, hrun, turnsKept_of_oneReplyAtATime {} hrun, by simpa using hprompts⟩

/-- A barge-in by voice; the interrupted reply is held up in the sending of its `tts_metrics` until after the timer of a held
turn has run out, and a turn comes when it has ended. -/
def overtakenTurn : List Label :=
  [.transcript .stt ⟨.FINAL, anId, "Hello.".toList⟩, .reply 0 (.ok .none), .generation 0 (.ok .none),
    .frame loudFrame, .frame loudFrame, .frame loudFrame, .generation 0 .cancelled, .reply 0 .cancelled,
    .generation 0 (.ok .none),
    .transcript .stt ⟨.FINAL, anId, "I am calling for".toList⟩, .handler .stt (.ok ()),
    .handler (.timer 0) (.ok ()), .reply 0 .cancelled,
    .transcript .stt ⟨.FINAL, anId, "Hello?".toList⟩, .handler .dispatcher (.ok ()), .handler (.timer 0) (.ok ())]

/-- The held turn is answered after the turn that followed it. -/
theorem overtakenTurn_not_turnsKept : ∃ s,
    Run (step {}) (fun _ l => (l.plain && l.identified) = true) (fresh {}) overtakenTurn s ∧ ¬ TurnsKept {} overtakenTurn s := by
  obtain ⟨s, hrun, hs⟩ := Run.exists_of_exec
    (P := fun s => s.idle .stt && !s.replyWaits && s.held.isNone &&
      prompts s.trace == ["Hello.".toList, "Hello?".toList, "I am calling for".toList]) (s := fresh {})
    (show (exec (step {}) (fun _ l => (l.plain && l.identified) = true) _ overtakenTurn).any _ = true by decide +kernel)
  simp only [Bool.and_eq_true, Bool.not_eq_true', Option.isNone_iff_eq_none, beq_iff_eq] at hs
  obtain ⟨⟨⟨hidle, hwaits⟩, hheld⟩, hprompts⟩ := hs
  refine ⟨s, hrun, fun h => ?_⟩
  have hgrouped := h.atRest (Coroutine.isDone_iff.mp hidle) hwaits
  rw [hprompts, Session.heldTexts, hheld] at hgrouped
  exact absurd (hgrouped.eq_of_length (by decide +kernel)) (by decide +kernel)

end Voxera.Voice
