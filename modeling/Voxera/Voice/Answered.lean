import Voxera.Voice.Turns
import Voxera.Voice.Steps

/-!
# Every user turn is answered once

Whatever the scheduler does: `_reply` is called for every turn of the user, in order and once, with the id of the first
FINAL event of the turn. Behind it only the order can get lost: the prompts of the generations are those of the calls of
`_reply` that do not wait in `tts.begin`, each once.

* `Gathered` : the FINAL events in consecutive turns, each with the id of its first event;
* `Books` : a call adds turns to those that were replied to or are held;
* `PromptsWait` : the calls of `_reply` that wait, with their prompts;
* `answered_of_run` : both for every run.
-/

namespace Voxera.Voice

open EventLoop
open Session

variable {cfg : Config} {me : Handler} {s t u : Session} {events turns added added' : List UserTurnCompleted}

/-! ## Turns of several events -/

/-- A turn without the blanks around its text. -/
def stripped (turn : UserTurnCompleted) : UserTurnCompleted := { turn with transcript := Text.strip turn.transcript }

/-- A turn, unless it is blank. -/
def spokenTurn (turn : UserTurnCompleted) : List UserTurnCompleted :=
  if Text.strip turn.transcript = [] then [] else [stripped turn]

/-- The FINAL events among the labels, with their ids. -/
def finalTurns (ls : List Label) : List UserTurnCompleted :=
  ls.flatMap fun l => match l with
    | .transcript _ ⟨.FINAL, utteranceId, transcript⟩ => spokenTurn ⟨utteranceId, transcript⟩
    | _ => []

/-- The turns that `_reply` was called with. -/
def replied (trace : List Event) : List UserTurnCompleted :=
  trace.filterMap fun e => match e with
    | .reply turn _ => some (stripped turn)
    | _ => none

/-- Events that are one turn. -/
def oneTurn (parts : List UserTurnCompleted) : UserTurnCompleted where
  utteranceId := (parts.head?.map (·.utteranceId)).getD []
  transcript := Text.joinSpaces (parts.map (·.transcript))

/-- `turns` are the events in consecutive groups; every proper part of a group sounds unfinished. -/
def Gathered (cfg : Config) (events turns : List UserTurnCompleted) : Prop :=
  ∃ groups : List (List UserTurnCompleted), groups.flatten = events ∧ groups.map oneTurn = turns ∧
    ∀ parts ∈ groups, Joins cfg (parts.map (·.transcript))

namespace Gathered

theorem nil (cfg : Config) : Gathered cfg [] [] := ⟨[], rfl, rfl, fun _ h => absurd h List.not_mem_nil⟩

/-- A turn of its own. -/
theorem snoc (h : Gathered cfg events turns) (turn : UserTurnCompleted) :
    Gathered cfg (events ++ [turn]) (turns ++ [turn]) := by
  obtain ⟨groups, rfl, rfl, hjoins⟩ := h
  refine ⟨groups ++ [[turn]], by simp, by simp [oneTurn], ?_⟩
  intro parts hparts
  rcases List.mem_append.mp hparts with hparts | hparts
  · exact hjoins parts hparts
  · rw [List.mem_singleton.mp hparts]
    exact Joins.single cfg turn.transcript

/-- The last turn was held and goes on. -/
theorem join {held : UserTurnCompleted} (h : Gathered cfg events (turns ++ [held]))
    (hheld : unfinished cfg held.transcript = true) (turn : UserTurnCompleted) :
    Gathered cfg (events ++ [turn])
      (turns ++ [{ held with transcript := Text.joinSpace held.transcript turn.transcript }]) := by
  obtain ⟨groups, rfl, hmap, hjoins⟩ := h
  obtain ⟨first, last, rfl, rfl, hlast⟩ := List.map_eq_append_iff.mp hmap
  obtain ⟨parts, rfl, rfl⟩ := List.map_eq_singleton_iff.mp hlast
  have hlastJoins : Joins cfg (parts.map (·.transcript)) := hjoins parts (by simp)
  have hne : parts ≠ [] := fun hnil => hlastJoins.1 (by rw [hnil]; rfl)
  refine ⟨first ++ [parts ++ [turn]], by simp, ?_, ?_⟩
  · rw [List.map_append, List.map_singleton]
    congr 2
    unfold oneTurn
    rw [List.map_append, List.map_singleton, Text.joinSpaces_concat hlastJoins.1, List.head?_append_of_ne_nil _ hne]
  · intro group hgroup
    rcases List.mem_append.mp hgroup with hgroup | hgroup
    · exact hjoins group (by simp [hgroup])
    · rw [List.mem_singleton.mp hgroup, List.map_append]
      exact hlastJoins.concat hheld turn.transcript

/-- The texts alone. -/
theorem grouped (h : Gathered cfg events turns) :
    Grouped cfg (events.map (·.transcript)) (turns.map (·.transcript)) := by
  obtain ⟨groups, rfl, rfl, hjoins⟩ := h
  refine ⟨groups.map (List.map (·.transcript)), by simp [List.map_flatten], by simp [oneTurn], ?_⟩
  intro parts hparts
  obtain ⟨group, hgroup, rfl⟩ := List.mem_map.mp hparts
  exact hjoins group hgroup

/-- The turns bear ids of the events, in their order. -/
theorem ids (h : Gathered cfg events turns) : (turns.map (·.utteranceId)).Sublist (events.map (·.utteranceId)) := by
  obtain ⟨groups, rfl, rfl, hjoins⟩ := h
  induction groups with
  | nil => exact List.Sublist.slnil
  | cons parts groups ih =>
      have hrest := ih (fun group hgroup => hjoins group (List.mem_cons_of_mem _ hgroup))
      have hne := (hjoins parts List.mem_cons_self).1
      cases parts with
      | nil => exact absurd rfl hne
      | cons turn parts =>
          rw [List.flatten_cons, List.map_cons, List.map_cons, List.cons_append, List.map_cons, List.map_append]
          exact (hrest.trans (List.sublist_append_right _ _)).cons_cons _

/-- The turns say what the events say. -/
theorem joined (h : Gathered cfg events turns) (hne : ∀ turn ∈ events, turn.transcript ≠ []) :
    (∀ turn ∈ turns, turn.transcript ≠ []) ∧
      Text.joinSpaces (turns.map (·.transcript)) = Text.joinSpaces (events.map (·.transcript)) := by
  obtain ⟨groups, rfl, rfl, hjoins⟩ := h
  have hparts : ∀ parts ∈ groups, ∀ text ∈ parts.map (·.transcript), text ≠ [] := by
    intro parts hmem text htext
    obtain ⟨turn, hturn, rfl⟩ := List.mem_map.mp htext
    exact hne turn (List.mem_flatten.mpr ⟨parts, hmem, hturn⟩)
  constructor
  · intro turn hturn
    obtain ⟨parts, hmem, rfl⟩ := List.mem_map.mp hturn
    exact Text.joinSpaces_ne_nil (hjoins parts hmem).1 (hparts parts hmem)
  · rw [List.map_flatten, Text.joinSpaces_flatten, List.map_map, List.map_map]
    · rfl
    · intro group hgroup
      obtain ⟨parts, hmem, rfl⟩ := List.mem_map.mp hgroup
      exact (hjoins parts hmem).1
    · intro group hgroup
      obtain ⟨parts, hmem, rfl⟩ := List.mem_map.mp hgroup
      exact hparts parts hmem

end Gathered

theorem spokenTurn_of_ne_nil {turn : UserTurnCompleted} (h : Text.strip turn.transcript ≠ []) :
    spokenTurn turn = [stripped turn] := by
  simp [spokenTurn, h]

@[simp] theorem replied_append (a b : List Event) : replied (a ++ b) = replied a ++ replied b := List.filterMap_append

@[simp] theorem finalTurns_append (ls ls' : List Label) : finalTurns (ls ++ ls') = finalTurns ls ++ finalTurns ls' :=
  List.flatMap_append

theorem replied_ofTask {es : List Event} (h : ∀ e ∈ es, e.OfTask) : replied es = [] := by
  refine List.filterMap_eq_nil_iff.mpr (fun e he => ?_)
  have hof := h e he
  cases e <;> first | rfl | cases hof

/-- The event whose barge-in is awaited. -/
def turnAfter : TurnManager.After → List UserTurnCompleted
  | .finalInterrupted ev => spokenTurn ⟨ev.utteranceId, ev.transcript⟩
  | _ => []

/-! ## What a call adds -/

/-- The turns replied to, and the held one. -/
def Session.turnsTaken (s : Session) : List UserTurnCompleted := replied s.trace ++ s.held.toList.map stripped

/-- The events are in the turns replied to and in the held one, which sounds unfinished. -/
structure Booked (cfg : Config) (events : List UserTurnCompleted) (s : Session) : Prop where
  held : ∀ turn, s.held = some turn →
    Text.strip turn.transcript ≠ [] ∧ unfinished cfg (Text.strip turn.transcript) = true
  gathered : Gathered cfg events s.turnsTaken

/-- From `s` to `t` the events `added` come to the turns. -/
def Books (cfg : Config) (added : List UserTurnCompleted) (s t : Session) : Prop :=
  ∀ events, Booked cfg events s → Booked cfg (events ++ added) t

namespace Books

theorem of_eq (hheld : t.held = s.held) (htrace : replied t.trace = replied s.trace) : Books cfg [] s t := by
  intro events h
  rw [List.append_nil]
  refine ⟨by rw [hheld]; exact h.held, ?_⟩
  rw [Session.turnsTaken, hheld, htrace]
  exact h.gathered

theorem trans (h : Books cfg added s t) (h' : Books cfg added' t u) : Books cfg (added ++ added') s u := by
  intro events hs
  rw [← List.append_assoc]
  exact h' _ (h events hs)

theorem after (h : Books cfg [] s t) (h' : Books cfg added t u) : Books cfg added s u := h.trans h'

theorem aside (h : Aside s t) : Books cfg [] s t := by
  refine of_eq h.held ?_
  obtain ⟨es, hes, hof⟩ := h.trace
  rw [hes, replied_append, replied_ofTask hof, List.append_nil]

end Books

/-! ## Replies and turns -/

/-- `stop` is called in between. -/
theorem booked_ttsStop (me : Handler) (k : StopFor) (next : Session → Session)
    (hnext : (next s).held = s.held ∧ replied (next s).trace = replied s.trace) :
    (s.ttsStop me k next).held = s.held ∧ replied (s.ttsStop me k next).trace = replied s.trace := by
  unfold Session.ttsStop
  split
  · exact hnext
  · exact ⟨rfl, rfl⟩

theorem booked_replyBegun (me : Handler) (turn : UserTurnCompleted) (history : List Llm.Entry) (ticket : Nat)
    (s : Session) : (s.replyBegun me turn history ticket).held = s.held ∧
      replied (s.replyBegun me turn history ticket).trace = replied s.trace := by
  refine ⟨rfl, ?_⟩
  unfold Session.replyBegun
  simp [replied]

theorem booked_reply (cfg : Config) (me : Handler) (turn : UserTurnCompleted) (s : Session) :
    (s.reply cfg me turn).held = s.held ∧ replied (s.reply cfg me turn).trace = replied s.trace ++ [stripped turn] := by
  obtain ⟨hheld, htrace⟩ := booked_ttsStop me (.reply turn s.history s.begun)
    (fun s' => s'.replyBegun me turn s.history s.begun)
    (booked_replyBegun me turn s.history s.begun (s.replyBegins cfg turn))
  refine ⟨hheld, htrace.trans ?_⟩
  simp [replied]

theorem booked_holdTurn (me : Handler) (turn : UserTurnCompleted) (s : Session) :
    (s.holdTurn me turn).held = some turn ∧ replied (s.holdTurn me turn).trace = replied s.trace := by
  unfold Session.holdTurn
  simp [replied]

/-- A complete turn, with the held one before it. -/
theorem Booked.continued (h : Booked cfg events s) (turn : UserTurnCompleted) :
    Text.strip (s.continued turn).1.transcript = (s.continued turn).2 ∧
      ((s.continued turn).2 = [] → s.held = none ∧ spokenTurn turn = []) ∧
      ((s.continued turn).2 ≠ [] →
        Gathered cfg (events ++ spokenTurn turn) (replied s.trace ++ [stripped (s.continued turn).1])) := by
  have hgathered := h.gathered
  unfold Session.turnsTaken at hgathered
  cases hheld : s.held with
  | none =>
      simp only [Session.continued, hheld, Option.toList_none, List.map_nil, List.append_nil] at hgathered ⊢
      refine ⟨trivial, fun htext => ⟨trivial, by simp [spokenTurn, htext]⟩, fun htext => ?_⟩
      rw [spokenTurn_of_ne_nil htext]
      exact hgathered.snoc _
  | some held =>
      obtain ⟨hne, hunfinished⟩ := h.held held hheld
      simp only [Session.continued, hheld, Option.toList_some, List.map_cons, List.map_nil] at hgathered ⊢
      by_cases htext : Text.strip turn.transcript = []
      · simp only [htext, Text.strip_joinSpace_nil (Text.stripped_strip held.transcript), Text.strip_strip]
        refine ⟨trivial, fun h0 => absurd h0 hne, fun _ => ?_⟩
        simpa [spokenTurn, stripped, htext] using hgathered
      · have hstripped := Text.stripped_joinSpace (Text.stripped_strip held.transcript)
          (Text.stripped_strip turn.transcript) hne htext
        rw [Text.strip_eq_self hstripped]
        refine ⟨Text.strip_eq_self hstripped, fun h0 => absurd h0 (Text.joinSpace_ne_nil _ _), fun _ => ?_⟩
        rw [spokenTurn_of_ne_nil htext]
        have hjoin := hgathered.join hunfinished (stripped turn)
        simpa [stripped, Text.strip_eq_self hstripped] using hjoin

/-- A complete turn is replied to or held. -/
theorem Books.onUserTurnCompleted (cfg : Config) (me : Handler) (s : Session) (turn : UserTurnCompleted) :
    Books cfg (spokenTurn turn) s (s.onUserTurnCompleted cfg me turn) := by
  intro events h
  obtain ⟨hstrip, hblank, hgathered⟩ := h.continued turn
  unfold Session.onUserTurnCompleted
  generalize s.continued turn = c at hstrip hblank hgathered ⊢
  obtain ⟨turn', text⟩ := c
  simp only at hstrip hblank hgathered ⊢
  split
  · rename_i htext
    obtain ⟨hheld, hspoken⟩ := hblank htext
    rw [hspoken]
    exact Books.of_eq (by simp [hheld]) (by simp) events h
  · rename_i htext
    split
    · rename_i hunfinished
      obtain ⟨hheld, htrace⟩ := booked_holdTurn me turn' ({ s with held := none }.cancelHoldTimer me)
      refine ⟨?_, ?_⟩
      · rw [hheld]
        rintro _ ⟨rfl⟩
        rw [hstrip]
        exact ⟨htext, hunfinished⟩
      · rw [Session.turnsTaken, hheld, htrace]
        simpa using hgathered htext
    · obtain ⟨hheld, htrace⟩ := booked_reply cfg me turn' ({ s with held := none }.cancelHoldTimer me)
      refine ⟨?_, ?_⟩
      · rw [hheld]
        simp
      · rw [Session.turnsTaken, hheld, htrace]
        simpa using hgathered htext

/-! ## Calls -/

/-- Where `process_transcript_event` goes on in this task when the barge-in it awaits has returned. -/
def Session.afterAt (s : Session) (h : Handler) : Option TurnManager.After := (s.handler h).pc?.bind Pc.after?

/-- A call of `me` moves no other call, and awaits no barge-in for an event. -/
structure Confined (me : Handler) (s t : Session) : Prop where
  closed : t.closed = s.closed
  others : ∀ h, h ≠ me → (∀ n, h ≠ .timer n) → t.handler h = s.handler h
  mine : s.afterAt me = none → t.afterAt me = none

namespace Confined

theorem of_eq (hclosed : t.closed = s.closed) (hhandler : t.handler = s.handler) : Confined me s t where
  closed := hclosed
  others h _ _ := by rw [hhandler]
  mine h := by rw [Session.afterAt, hhandler]; exact h

theorem trans (h : Confined me s t) (h' : Confined me t u) : Confined me s u where
  closed := h'.closed.trans h.closed
  others x hx htimer := (h'.others x hx htimer).trans (h.others x hx htimer)
  mine hs := h'.mine (h.mine hs)

/-- The call returns, or suspends and awaits no barge-in for an event. -/
theorem set (hclosed : t.closed = s.closed) {task : Coroutine Pc} (hhandler : t.handler = Function.update s.handler me task)
    (htask : task.pc?.bind Pc.after? = none) : Confined me s t where
  closed := hclosed
  others h hh _ := by rw [hhandler, Function.update_of_ne hh]
  mine _ := by rw [Session.afterAt, hhandler, Function.update_self]; exact htask

theorem leave (me : Handler) (s : Session) : Confined me s (s.leave me) := set rfl rfl rfl

theorem park (me : Handler) (s : Session) {pc : Pc} (hpc : pc.after? = none) : Confined me s (s.park me pc) :=
  set rfl rfl hpc

theorem cancelHoldTimer (me me' : Handler) (s : Session) : Confined me s (s.cancelHoldTimer me') where
  closed := by simp
  others h _ htimer := by
    rw [cancelHoldTimer_eq]
    cases s.holdTask with
    | none => rfl
    | some n =>
        dsimp only
        split
        · rfl
        · rw [Function.update_of_ne (htimer n)]
  mine hs := by simpa [Session.afterAt] using hs

theorem startHoldTimer (me me' : Handler) (s : Session) : Confined me s (s.startHoldTimer me') := by
  have hcancel := cancelHoldTimer me me' s
  refine ⟨by simp, fun h hh htimer => ?_, fun hs => ?_⟩
  · rw [startHoldTimer_handler, Function.update_of_ne (htimer _), hcancel.others h hh htimer]
  · rw [Session.afterAt, startHoldTimer_handler]
    by_cases hme : me = .timer s.timers
    · rw [hme, Function.update_self]
      rfl
    · rw [Function.update_of_ne hme]
      exact hcancel.mine hs

theorem ttsStop (k : StopFor) (next : Session → Session) (hk : ∀ r hadAudio, (Pc.stopping r hadAudio k).after? = none)
    (hnext : Confined me s (next s)) : Confined me s (s.ttsStop me k next) := by
  unfold Session.ttsStop
  split
  · exact hnext
  · exact set rfl rfl (hk _ _)

theorem reply (cfg : Config) (me : Handler) (turn : UserTurnCompleted) (s : Session) :
    Confined me s (s.reply cfg me turn) := by
  have hbegins : Confined me s (s.replyBegins cfg turn) := of_eq rfl rfl
  have hstop : Confined me (s.replyBegins cfg turn) (s.reply cfg me turn) :=
    ttsStop (.reply turn s.history s.begun) (fun s' => s'.replyBegun me turn s.history s.begun)
      (fun _ _ => rfl) (set rfl rfl rfl)
  exact hbegins.trans hstop

theorem holdTurn (me : Handler) (turn : UserTurnCompleted) (s : Session) : Confined me s (s.holdTurn me turn) := by
  have hheld : Confined me s { s with held := some turn } := of_eq rfl rfl
  refine (hheld.trans (startHoldTimer me me _)).trans ?_
  exact set rfl rfl rfl

theorem onUserTurnCompleted (cfg : Config) (me : Handler) (turn : UserTurnCompleted) (s : Session) :
    Confined me s (s.onUserTurnCompleted cfg me turn) := by
  have hheld : Confined me s { s with held := none } := of_eq rfl rfl
  have hcancel := hheld.trans (cancelHoldTimer me me _)
  unfold Session.onUserTurnCompleted
  dsimp only
  split
  · exact hcancel.trans (leave me _)
  · split
    · exact hcancel.trans (holdTurn me _ _)
    · exact hcancel.trans (reply cfg me _ _)

end Confined

/-- A call of `me` adds turns. -/
structure Takes (cfg : Config) (me : Handler) (added : List UserTurnCompleted) (s t : Session) : Prop
    extends Confined me s t where
  books : Books cfg added s t

namespace Takes

theorem of_eq (hheld : t.held = s.held) (htrace : replied t.trace = replied s.trace) (h : Confined me s t) :
    Takes cfg me [] s t := ⟨h, .of_eq hheld htrace⟩

theorem before (h : Takes cfg me [] s t) (h' : Takes cfg me added t u) : Takes cfg me added s u :=
  ⟨h.toConfined.trans h'.toConfined, h.books.trans h'.books⟩

theorem leave (cfg : Config) (me : Handler) (s : Session) : Takes cfg me [] s (s.leave me) := of_eq rfl rfl (.leave me s)

/-- `process_transcript_event` completes an open turn. -/
theorem turnCompleted (cfg : Config) (me : Handler) (s : Session) (ev : TranscriptEvent) (state : ConversationState) :
    Takes cfg me (spokenTurn ⟨ev.utteranceId, ev.transcript⟩) s
      (s.turnCompleted cfg me (TurnManager.turnCompleted ev state)) := by
  have hstate : Takes cfg me [] s { s with state := state.completeUserTurn } := of_eq rfl rfl (.of_eq rfl rfl)
  exact hstate.before ⟨.onUserTurnCompleted cfg me _ _, .onUserTurnCompleted cfg me _ _⟩

theorem onUserTurnStarted (cfg : Config) (me : Handler) (s : Session) (state : ConversationState) :
    Takes cfg me [] s ({ s with state }.onUserTurnStarted me) := by
  have hcancel : Confined me s { s with state, llm := s.llm.cancel } := .of_eq rfl rfl
  refine of_eq ?_ ?_ (hcancel.trans (.cancelHoldTimer me me _))
  · simp [Session.onUserTurnStarted]
  · simp [Session.onUserTurnStarted]

/-- The PARTIAL branch completes nothing. -/
theorem partialTurn (cfg : Config) (me : Handler) (s : Session) (ev : TranscriptEvent) (state : ConversationState) :
    Takes cfg me [] s (s.turnStarted cfg me (TurnManager.partialTurn ev state)) := by
  have hstate : ∀ state, Takes cfg me [] s { s with state } := fun _ => of_eq rfl rfl (.of_eq rfl rfl)
  unfold TurnManager.partialTurn
  split
  · exact (hstate state).before (leave cfg me _)
  · split
    · exact (onUserTurnStarted cfg me s _).before ((of_eq rfl rfl (.of_eq rfl rfl)).before (leave cfg me _))
    · exact (hstate state).before (leave cfg me _)

/-- The FINAL branch without an open turn opens and completes one. -/
theorem finalTurn (cfg : Config) (me : Handler) (s : Session) {ev : TranscriptEvent}
    (hid : Text.isUuid ev.utteranceId = true) (state : ConversationState) :
    Takes cfg me (spokenTurn ⟨ev.utteranceId, ev.transcript⟩) s
      (s.turnStarted cfg me (TurnManager.finalTurn ev state)) := by
  unfold TurnManager.finalTurn ConversationState.startUserTurn
  rw [if_pos hid]
  exact (onUserTurnStarted cfg me s _).before (turnCompleted cfg me _ ev _)

/-- `handle_interruption` returns. -/
theorem interruptionReturned (cfg : Config) (me : Handler) (s : Session) {k : TurnManager.After} (hk : Delivered k)
    (cut : Cut) : Takes cfg me (turnAfter k) s (s.interruptionReturned cfg me (.turn k) cut) := by
  have hemit : Takes cfg me [] s (s.emit (.interruptionReturned cut)) := of_eq rfl (by simp [replied]) (.of_eq rfl rfl)
  cases k with
  | partialInterrupted ev => exact hemit.before (partialTurn cfg me _ ev _)
  | finalInterrupted ev => exact hemit.before (finalTurn cfg me _ hk _)
  | _ => cases hk

end Takes

/-- A barge-in by the voice activity detector. -/
theorem Takes.interruptVad (cfg : Config) (s : Session) (state : ConversationState) :
    Takes cfg .dispatcher [] s (s.interrupt cfg .dispatcher state .vad) := by
  have hinterrupted : Confined .dispatcher s (s.interrupted state) := .of_eq rfl rfl
  refine ⟨?_, ?_⟩
  · have hstop : Confined .dispatcher (s.interrupted state) (s.interrupt cfg .dispatcher state .vad) :=
      .ttsStop (.interruption .vad s.cut) (fun s' => s'.interruptionReturned cfg .dispatcher .vad s.cut)
        (fun _ _ => rfl) (.set rfl rfl rfl)
    exact hinterrupted.trans hstop
  · unfold Session.interrupt Session.onUserInterrupted Session.ttsStop
    split
    · exact .of_eq rfl (by simp [replied, Session.interruptionReturned])
    · exact .of_eq rfl (by simp [replied])

/-! ## The turns of a run -/

/-- The events are taken, but for the one whose barge-in is awaited. -/
structure InTurn (cfg : Config) (events : List UserTurnCompleted) (s : Session) : Prop where
  isOpen : s.closed = false
  endpoint : s.handler .endpoint = .done
  delivered : ∀ k, s.after = some k → Delivered k
  booked : ∃ taken, taken ++ s.after.toList.flatMap turnAfter = events ∧ Booked cfg taken s

namespace InTurn

theorem fresh (cfg : Config) : InTurn cfg [] (fresh cfg) where
  isOpen := rfl
  endpoint := rfl
  delivered := fun _ h => nomatch h
  booked := ⟨[], rfl, fun _ h => (nomatch h), Gathered.nil cfg⟩

/-- No event waits when the recogniser's task is idle. -/
theorem idle (h : InTurn cfg events s) (hafter : s.after = none) : Booked cfg events s := by
  obtain ⟨taken, htaken, hbooked⟩ := h.booked
  rw [hafter] at htaken
  simpa [← htaken] using hbooked

/-- A call of the recogniser's task that awaits nothing for an event. -/
theorem took (h : InTurn cfg events s) (hafter : s.after = none) (ht : Takes cfg .stt added s t) :
    InTurn cfg (events ++ added) t := by
  have hnone : t.after = none := ht.mine hafter
  exact {
    isOpen := ht.closed.trans h.isOpen
    endpoint := (ht.others .endpoint (by simp) (by simp)).trans h.endpoint
    delivered := by simp [hnone]
    booked := ⟨events ++ added, by simp [hnone], ht.books _ (h.idle hafter)⟩ }

/-- The recogniser's and the endpoint's task stand still. -/
theorem elsewhere (h : InTurn cfg events s) (hclosed : t.closed = s.closed) (hstt : t.handler .stt = s.handler .stt)
    (hendpoint : t.handler .endpoint = s.handler .endpoint) (hbooks : Books cfg [] s t) : InTurn cfg events t := by
  have hafter : t.after = s.after := by rw [Session.after, hstt, Session.after]
  obtain ⟨taken, htaken, hbooked⟩ := h.booked
  exact {
    isOpen := hclosed.trans h.isOpen
    endpoint := hendpoint.trans h.endpoint
    delivered := by rw [hafter]; exact h.delivered
    booked := ⟨taken, by rw [hafter]; exact htaken, by simpa using hbooks _ hbooked⟩ }

/-- A call of another task. -/
theorem other (h : InTurn cfg events s) (hstt : me ≠ .stt) (hend : me ≠ .endpoint) (ht : Takes cfg me [] s t) :
    InTurn cfg events t :=
  h.elsewhere ht.closed (ht.others .stt hstt.symm (by simp)) (ht.others .endpoint hend.symm (by simp)) ht.books

theorem aside (h : InTurn cfg events s) (ha : Aside s t) : InTurn cfg events t :=
  h.elsewhere ha.closed (by rw [ha.handler]) (by rw [ha.handler]) (.aside ha)

/-- The recogniser's task suspends at a place where the event `k` waits for its barge-in. -/
theorem awaits (h : InTurn cfg events s) (hafter : s.after = none) {k : TurnManager.After} (hk : Delivered k)
    (hclosed : t.closed = s.closed) {pc : Pc} (hhandler : t.handler = Function.update s.handler .stt (.await pc))
    (hpc : pc.after? = some k) (hbooks : Books cfg [] s t) : InTurn cfg (events ++ turnAfter k) t := by
  have hsome : t.after = some k := by
    rw [Session.after, hhandler, Function.update_self]
    exact hpc
  exact {
    isOpen := hclosed.trans h.isOpen
    endpoint := by rw [hhandler, Function.update_of_ne (by simp)]; exact h.endpoint
    delivered := by rw [hsome]; rintro _ ⟨rfl⟩; exact hk
    booked := ⟨events, by simp [hsome], by simpa using hbooks _ (h.idle hafter)⟩ }

/-! ### Barge-ins -/

/-- A barge-in by a transcript: it returns at once, or the transcript waits for it. -/
theorem interruptTurn (h : InTurn cfg events s) (hafter : s.after = none) {k : TurnManager.After} (hk : Delivered k)
    (state : ConversationState) : InTurn cfg (events ++ turnAfter k) (s.interrupt cfg .stt state (.turn k)) := by
  have hstop : Takes cfg .stt [] s (s.interrupted state) := .of_eq rfl (by simp [replied]) (.of_eq rfl rfl)
  unfold Session.interrupt Session.onUserInterrupted Session.ttsStop
  split
  · exact h.took hafter (hstop.before (.interruptionReturned cfg .stt _ hk s.cut))
  · refine h.awaits hafter hk rfl rfl rfl (.of_eq rfl ?_)
    simp [replied]

theorem processTranscriptEvent (h : InTurn cfg events s) (hidle : s.handler .stt = .done) {ev : TranscriptEvent}
    (hid : Text.isUuid ev.utteranceId = true) :
    InTurn cfg (events ++ finalTurns [.transcript .stt ev]) (s.processTranscriptEvent cfg .stt ev) := by
  have hafter : s.after = none := by rw [Session.after, hidle]; rfl
  obtain ⟨type, utteranceId, transcript⟩ := ev
  have hbranch := transcribes cfg .stt s ⟨type, utteranceId, transcript⟩
  generalize s.processTranscriptEvent cfg .stt ⟨type, utteranceId, transcript⟩ = t at hbranch ⊢
  cases hbranch with
  | @partialInterrupted state htype =>
      subst htype
      exact h.interruptTurn hafter (k := .partialInterrupted _) trivial state
  | partialTurn htype =>
      subst htype
      exact h.took hafter (.partialTurn cfg .stt s _ _)
  | turnCompleted htype =>
      subst htype
      simpa [finalTurns] using h.took hafter (.turnCompleted cfg .stt s ⟨.FINAL, utteranceId, transcript⟩ s.state)
  | @finalInterrupted state htype =>
      subst htype
      have hturn := h.interruptTurn hafter (k := .finalInterrupted ⟨.FINAL, utteranceId, transcript⟩) hid state
      simpa [finalTurns, turnAfter] using hturn
  | finalTurn htype =>
      subst htype
      have hturn := @Takes.finalTurn cfg .stt s ⟨.FINAL, utteranceId, transcript⟩ hid s.state
      simpa [finalTurns] using h.took hafter hturn
  | blank htype _ htext =>
      subst htype
      simpa [finalTurns, spokenTurn, htext] using h.took hafter (.leave cfg .stt s)

theorem processAudioFrame (h : InTurn cfg events s) (bytes : Bytes) :
    InTurn cfg events (s.processAudioFrame cfg .dispatcher bytes) := by
  have hset : ∀ vad, InTurn cfg events { s with vad } := fun vad => h.elsewhere rfl rfl rfl (.of_eq rfl rfl)
  unfold Session.processAudioFrame
  split
  · exact h
  · dsimp only
    split
    · split
      · exact (hset _).other (by simp) (by simp) (.interruptVad cfg _ _)
      · split
        · exact (hset _).other (by simp) (by simp) (.of_eq (by simp) (by simp) (.startHoldTimer .dispatcher .dispatcher _))
        · exact hset _
    · exact hset _

/-- The rest of a call that began with `s.leave me`. -/
theorem resumed (h : InTurn cfg events s) (hend : me ≠ .endpoint) (hnone : s.afterAt me = none)
    (ht : Takes cfg me [] (s.leave me) t) : InTurn cfg events t := by
  have hall : Takes cfg me [] s t := (Takes.leave cfg me s).before ht
  by_cases hstt : me = .stt
  · subst hstt
    simpa using h.took hnone hall
  · exact h.other hstt hend hall

/-- A call that is suspended in a barge-in suspends at the next place of it. -/
theorem moves (h : InTurn cfg events s) (hend : me ≠ .endpoint) {pc : Pc} {cancelling : Bool}
    (hpc : s.handler me = .suspended pc cancelling) (pc' : Pc) (hclosed : t.closed = s.closed)
    (hhandler : t.handler = Function.update s.handler me (.await pc')) (hsame : pc'.after? = pc.after?)
    (hbooks : Books cfg [] s t) : InTurn cfg events t := by
  have hafter : t.after = s.after := by
    rw [Session.after, Session.after, hhandler]
    by_cases hstt : .stt = me
    · rw [hstt, Function.update_self, hpc]
      exact hsame
    · rw [Function.update_of_ne hstt]
  obtain ⟨taken, htaken, hbooked⟩ := h.booked
  exact {
    isOpen := hclosed.trans h.isOpen
    endpoint := by rw [hhandler, Function.update_of_ne hend.symm]; exact h.endpoint
    delivered := by rw [hafter]; exact h.delivered
    booked := ⟨taken, by rw [hafter]; exact htaken, by simpa using hbooks _ hbooked⟩ }

/-- `stop` has returned. -/
theorem stopReturned (h : InTurn cfg events s) (hend : me ≠ .endpoint) {pc : Pc} {cancelling : Bool}
    (hpc : s.handler me = .suspended pc cancelling) {k : StopFor} (hstop : pc.stop? = some k) (hk : k.runsIn me = true) :
    InTurn cfg events ((s.leave me).stopReturned me k) := by
  cases k with
  | interruption k cut =>
      refine h.moves hend hpc (.bargeIn k cut) rfl ?_ ?_ ?_
      · exact Function.update_idem ..
      · cases pc with
        | stopping r hadAudio k' => obtain rfl := Option.some.inj hstop; cases k <;> rfl
        | clearing k' => obtain rfl := Option.some.inj hstop; cases k <;> rfl
        | _ => cases hstop
      · exact .of_eq rfl (by simp [Session.stopReturned, replied])
  | reply turn history ticket =>
      obtain ⟨hheld, htrace⟩ := booked_replyBegun me turn history ticket (s.leave me)
      have hnone : s.afterAt me = none := by
        rw [Session.afterAt, hpc]
        cases pc with
        | stopping r hadAudio k' => obtain rfl := Option.some.inj hstop; rfl
        | clearing k' => obtain rfl := Option.some.inj hstop; rfl
        | _ => cases hstop
      exact h.resumed hend hnone (.of_eq hheld htrace (.set rfl rfl rfl))
  | speakText => cases me <;> first | exact absurd rfl hend | cases hk
  | close => cases me <;> first | exact absurd rfl hend | cases hk

/-- `handle_interruption` returns. -/
theorem interruptionReturned (h : InTurn cfg events s) (hend : me ≠ .endpoint) {k : AfterInterruption} {cut : Cut}
    {cancelling : Bool} (hpc : s.handler me = .suspended (.bargeIn k cut) cancelling)
    (hk : (StopFor.interruption k cut).runsIn me = true) :
    InTurn cfg events ((s.leave me).interruptionReturned cfg me k cut) := by
  cases k with
  | turn k =>
      have hstt : me = .stt := by cases me <;> first | rfl | exact absurd rfl hend | cases hk
      subst hstt
      have hafter : s.after = some k := by rw [Session.after, hpc]; rfl
      obtain ⟨taken, htaken, hbooked⟩ := h.booked
      rw [hafter] at htaken
      have hleft : InTurn cfg taken (s.leave .stt) := {
        isOpen := h.isOpen
        endpoint := h.endpoint
        delivered := by simp [Session.after]
        booked := ⟨taken, by simp [Session.after], by simpa using (Takes.leave cfg .stt s).books taken hbooked⟩ }
      have hreturned := hleft.took (by simp [Session.after]) (.interruptionReturned cfg .stt _ (h.delivered k hafter) cut)
      simpa [← htaken] using hreturned
  | vad =>
      have hnone : s.afterAt me = none := by rw [Session.afterAt, hpc]; rfl
      refine h.resumed hend hnone (.of_eq rfl ?_ ?_)
      · simp [Session.interruptionReturned, replied]
      · exact .set rfl rfl rfl

/-- A held turn is answered when its timer has run out. -/
theorem releaseHeldTurn (h : InTurn cfg events s) {n : Nat} {cancelling : Bool}
    (hpc : s.handler (.timer n) = .suspended .holdSleep cancelling) :
    InTurn cfg events ((s.leave (.timer n)).releaseHeldTurn cfg (.timer n)) := by
  have hnone : s.afterAt (.timer n) = none := by rw [Session.afterAt, hpc]; rfl
  have hcleared : Confined (.timer n) (s.leave (.timer n)) { s.leave (.timer n) with held := none, holdTask := none } :=
    .of_eq rfl rfl
  refine h.resumed (by simp) hnone ?_
  unfold Session.releaseHeldTurn
  dsimp only
  cases hheld : (s.leave (.timer n)).held with
  | some turn =>
      refine ⟨hcleared.trans (.reply cfg _ turn _), fun taken hbooked => ?_⟩
      obtain ⟨hnoHeld, htrace⟩ :=
        booked_reply cfg (.timer n) turn { s.leave (.timer n) with held := none, holdTask := none }
      refine ⟨by rw [hnoHeld]; simp, ?_⟩
      have hgathered := hbooked.gathered
      rw [Session.turnsTaken, hheld] at hgathered
      rw [Session.turnsTaken, hnoHeld, htrace]
      simpa using hgathered
  | none => exact .of_eq hheld.symm rfl (hcleared.trans (.leave _ _))

/-- A suspended call goes on. -/
theorem resumeHandler (h : InTurn cfg events s) (ht : Typed s) {pc : Pc} {cancelling : Bool}
    (hpc : s.handler me = .suspended pc cancelling) {w : Wake Unit} (hfits : w.fits cancelling = true)
    (henabled : s.enabled pc w = true) : InTurn cfg events ((s.leave me).resumeHandler cfg me pc w) := by
  have hruns : pc.runsIn me = true := ht.runsIn me pc (by rw [hpc, Coroutine.pc?_suspended])
  have hend : me ≠ .endpoint := by
    rintro rfl
    rw [h.endpoint] at hpc
    cases hpc
  unfold Session.resumeHandler
  cases w with
  | ok a =>
      cases pc with
      | stopping r hadAudio k =>
          have hk : k.runsIn me = true := by cases me <;> exact hruns
          simp only [Session.replyStopped]
          split
          · refine h.moves hend hpc (.clearing k) rfl (Function.update_idem ..) ?_ (.of_eq rfl (by simp [replied]))
            cases k with
            | interruption k cut => cases k <;> rfl
            | _ => rfl
          · exact h.stopReturned hend hpc rfl hk
      | clearing k => exact h.stopReturned hend hpc rfl (by cases me <;> exact hruns)
      | bargeIn k cut => exact h.interruptionReturned hend hpc (by cases me <;> exact hruns)
      | turnHeld => exact h.resumed hend (by rw [Session.afterAt, hpc]; rfl) (.leave cfg me _)
      | holdSleep =>
          cases me with
          | timer n => exact h.releaseHeldTurn hpc
          | _ => cases hruns
      | closing g => cases me <;> first | exact absurd rfl hend | cases hruns
  | raised => cases henabled
  | cancelled =>
      have hcancelling : cancelling = true := by simpa [Wake.fits] using hfits
      subst hcancelling
      obtain rfl := ht.calm me pc hpc
      exact h.resumed hend (by rw [Session.afterAt, hpc]; rfl) (.leave cfg me _)

/-- **A step takes the FINAL event that it delivers.** -/
theorem step (h : InTurn cfg events s) (ht : Typed s) {l : Label} (hl : (l.plain && l.identified) = true)
    (hstep : step cfg s l = some t) : InTurn cfg (events ++ finalTurns [l]) t := by
  rw [Bool.and_eq_true] at hl
  cases StepTo.of_step hstep with
  | @transcript me ev htranscribes hclosed hidle =>
      cases me with
      | stt => exact h.processTranscriptEvent hidle hl.2
      | endpoint => exact absurd (hclosed rfl) (by simp [h.isOpen])
      | _ => cases htranscribes
  | frame hidle => simpa [finalTurns] using h.processAudioFrame _
  | speakText => exact absurd hl.1 (by simp [Label.plain])
  | close => exact absurd hl.1 (by simp [Label.plain])
  | handler hpc hfits henabled => simpa [finalTurns] using h.resumeHandler ht hpc hfits henabled
  | generation hgen => simpa [finalTurns] using h.aside (resumeGeneration_aside hgen)
  | reply hreply => simpa [finalTurns] using h.aside (resumeReply_aside hreply)

end InTurn

/-! ## The prompts of a run -/

/-- The calls of `_reply` that wait in `tts.begin`, each with its prompt. -/
structure PromptsWait (s : Session) (pending : List (Handler × Text)) : Prop where
  nodup : (pending.map Prod.fst).Nodup
  mem_iff : ∀ me text, (me, text) ∈ pending ↔ s.promptAt me = some text

namespace PromptsWait

variable {pending : List (Handler × Text)}

theorem congr (h : PromptsWait s pending) (hat : ∀ me, t.promptAt me = s.promptAt me) : PromptsWait t pending :=
  ⟨h.nodup, fun me text => by rw [hat]; exact h.mem_iff me text⟩

/-- A call begins to wait. -/
theorem add (h : PromptsWait s pending) {text : Text} (hs : s.promptAt me = none) (ht : t.promptAt me = some text)
    (hothers : ∀ other, other ≠ me → t.promptAt other = s.promptAt other) : PromptsWait t (pending ++ [(me, text)]) := by
  have hnot : ∀ text', (me, text') ∉ pending := by
    intro text' hmem
    rw [h.mem_iff, hs] at hmem
    cases hmem
  refine ⟨?_, fun other text' => ?_⟩
  · rw [List.map_append, List.nodup_append]
    refine ⟨h.nodup, by simp, ?_⟩
    intro other hmem other' hme heq
    obtain ⟨⟨other, text'⟩, hpair, rfl⟩ := List.mem_map.mp hmem
    obtain rfl : other' = me := by simpa using hme
    exact hnot text' (heq ▸ hpair)
  · rw [List.mem_append, List.mem_singleton]
    by_cases hother : other = me
    · subst hother
      rw [ht]
      constructor
      · rintro (hmem | heq)
        · exact absurd hmem (hnot text')
        · cases heq
          rfl
      · rintro ⟨rfl⟩
        exact Or.inr rfl
    · rw [hothers other hother, h.mem_iff]
      simp [hother]

/-- A call goes on. -/
theorem remove (h : PromptsWait s pending) {text : Text} (hs : s.promptAt me = some text) (ht : t.promptAt me = none)
    (hothers : ∀ other, other ≠ me → t.promptAt other = s.promptAt other) :
    ∃ pending', pending.Perm ((me, text) :: pending') ∧ PromptsWait t pending' := by
  have hmem : (me, text) ∈ pending := (h.mem_iff me text).mpr hs
  have hperm := List.perm_cons_erase hmem
  have hnodup := (hperm.map Prod.fst).nodup_iff.mp h.nodup
  rw [List.map_cons, List.nodup_cons] at hnodup
  refine ⟨pending.erase (me, text), hperm, hnodup.2, fun other text' => ?_⟩
  have hiff := h.mem_iff other text'
  rw [hperm.mem_iff, List.mem_cons] at hiff
  by_cases hother : other = me
  · subst hother
    rw [ht]
    simp only [reduceCtorEq, iff_false]
    exact fun hin => hnodup.1 (List.mem_map.mpr ⟨_, hin, rfl⟩)
  · rw [hothers other hother, ← hiff]
    simp [hother]

end PromptsWait

/-- The prompts handed over and those that wait are those of the calls of `_reply`, each once. -/
def Prompted (s : Session) : Prop :=
  ∃ pending, PromptsWait s pending ∧ (prompts s.trace ++ pending.map Prod.snd).Perm ((replied s.trace).map (·.transcript))

/-- Nobody waits. -/
theorem PromptsWait.eq_nil {pending : List (Handler × Text)} (h : PromptsWait s pending) (hw : NoReply s) : pending = [] := by
  refine List.eq_nil_iff_forall_not_mem.mpr ?_
  rintro ⟨me, text⟩ hmem
  obtain ⟨pc, hpc, hprompt⟩ := Option.bind_eq_some_iff.mp ((h.mem_iff me text).mp hmem)
  have hin := prompt?_isSome pc
  rw [hprompt, hw me pc hpc] at hin
  cases hin

/-- The prompt of the `_reply` that awaits `stop`. -/
def StopFor.prompt? : StopFor → Option Text
  | .reply turn _ _ => some (Text.strip turn.transcript)
  | _ => none

namespace Prompted

theorem fresh (cfg : Config) : Prompted (fresh cfg) :=
  ⟨[], ⟨List.nodup_nil, fun _ _ => by simp [Session.promptAt, Session.fresh]⟩, List.Perm.refl _⟩

theorem congr (h : Prompted s) (hat : ∀ me, t.promptAt me = s.promptAt me) (hprompts : prompts t.trace = prompts s.trace)
    (hreplied : replied t.trace = replied s.trace) : Prompted t := by
  obtain ⟨pending, hwaiting, hperm⟩ := h
  exact ⟨pending, hwaiting.congr hat, by rw [hprompts, hreplied]; exact hperm⟩

/-- The call of `me` changes its place, and has no prompt before and behind it, or the same one. -/
theorem moves (h : Prompted s) {task : Coroutine Pc} (hhandler : t.handler = Function.update s.handler me task)
    (hsame : task.pc?.bind Pc.prompt? = s.promptAt me) (hprompts : prompts t.trace = prompts s.trace)
    (hreplied : replied t.trace = replied s.trace) : Prompted t := by
  refine h.congr (fun other => ?_) hprompts hreplied
  rw [Session.promptAt, hhandler]
  by_cases hother : other = me
  · rw [hother, Function.update_self, hsame]
  · rw [Function.update_of_ne hother]
    rfl

theorem aside (h : Prompted s) (ha : Aside s t) : Prompted t := by
  obtain ⟨es, hes, hof⟩ := ha.trace
  refine h.congr (fun me => ?_) ?_ ?_
  · rw [Session.promptAt, ha.handler]
    rfl
  · rw [hes, prompts_append, prompts_ofTask hof, List.append_nil]
  · rw [hes, replied_append, replied_ofTask hof, List.append_nil]

/-- A place with a prompt is one of `stop`. -/
theorem speech_of_prompt? {pc : Pc} {text : Text} (h : pc.prompt? = some text) : pc.speech = true := by
  cases pc <;> first | rfl | cases h

theorem promptAt_hushed (h : Hushed s t) (me : Handler) : t.promptAt me = s.promptAt me := by
  have hiff : ∀ text, t.promptAt me = some text ↔ s.promptAt me = some text := by
    intro text
    simp only [Session.promptAt, Option.bind_eq_some_iff]
    constructor
    · rintro ⟨pc, hpc, htext⟩
      exact ⟨pc, (h.handler me pc (speech_of_prompt? htext)).mp hpc, htext⟩
    · rintro ⟨pc, hpc, htext⟩
      exact ⟨pc, (h.handler me pc (speech_of_prompt? htext)).mpr hpc, htext⟩
  exact Option.ext hiff

theorem hushed (h : Prompted s) (hh : Hushed s t) : Prompted t := by
  obtain ⟨es, hes, hturnHeld⟩ := hh.trace
  have hnone : prompts es = [] ∧ replied es = [] := by
    constructor
    · refine List.filterMap_eq_nil_iff.mpr (fun e he => ?_)
      obtain ⟨utteranceId, rfl⟩ := hturnHeld e he
      rfl
    · refine List.filterMap_eq_nil_iff.mpr (fun e he => ?_)
      obtain ⟨utteranceId, rfl⟩ := hturnHeld e he
      rfl
  refine h.congr (promptAt_hushed hh) ?_ ?_
  · rw [hes, prompts_append, hnone.1, List.append_nil]
  · rw [hes, replied_append, hnone.2, List.append_nil]

/-- `_reply` hands over its prompt at once, or waits with it. -/
theorem reply (h : Prompted s) (hidle : s.handler me = .done) (turn : UserTurnCompleted) :
    Prompted (s.reply cfg me turn) := by
  obtain ⟨pending, hwaiting, hperm⟩ := h
  obtain ⟨-, hreplied⟩ := booked_reply cfg me turn s
  have hnone : s.promptAt me = none := by rw [Session.promptAt, hidle]; rfl
  cases hactive : (s.replyBegins cfg turn).tts.active with
  | none =>
      have heq : s.reply cfg me turn = (s.replyBegins cfg turn).replyBegun me turn s.history s.begun := by
        simp only [Session.reply, Session.ttsStop, hactive]
      refine ⟨pending, hwaiting.congr (fun other => ?_), ?_⟩
      · rw [heq]
        by_cases hother : other = me
        · subst hother
          rw [hnone]
          simp [Session.promptAt, Session.replyBegun]
        · simp [Session.promptAt, Session.replyBegun, Function.update_of_ne hother]
      · have hprompts : prompts (s.reply cfg me turn).trace = prompts s.trace ++ [Text.strip turn.transcript] := by
          rw [heq]
          simp [Session.replyBegun, prompts]
        rw [hprompts, hreplied, List.map_append, List.append_assoc]
        refine List.Perm.trans ?_ (hperm.append_right _)
        rw [List.append_assoc]
        exact List.perm_append_comm.append_left _
  | some r =>
      have heq : s.reply cfg me turn = { s.replyBegins cfg turn with tts := (s.replyBegins cfg turn).tts.cancel r }.park me
          (.stopping r (s.replyBegins cfg turn).tts.audioSent (.reply turn s.history s.begun)) := by
        simp only [Session.reply, Session.ttsStop, hactive]
      refine ⟨pending ++ [(me, Text.strip turn.transcript)], hwaiting.add hnone ?_ (fun other hother => ?_), ?_⟩
      · rw [heq]
        simp [Session.promptAt, Coroutine.await, Pc.prompt?, Pc.stop?]
      · rw [heq]
        simp [Session.promptAt, Function.update_of_ne hother]
      · have hprompts : prompts (s.reply cfg me turn).trace = prompts s.trace := by
          rw [heq]
          simp [prompts]
        rw [hprompts, hreplied, List.map_append, List.map_append, ← List.append_assoc]
        exact hperm.append_right _

theorem answers {calls : Prop} (h : Prompted s) (ha : Answers cfg me calls s t) : Prompted t := by
  cases ha with
  | hushed hh => exact h.hushed hh
  | replies _ hh hidle turn => exact (h.hushed hh).reply hidle turn

theorem promptAt_of_stop? {pc : Pc} {k : StopFor} {cancelling : Bool} (hpc : s.handler me = .suspended pc cancelling)
    (hstop : pc.stop? = some k) : s.promptAt me = k.prompt? := by
  rw [Session.promptAt, hpc]
  cases pc with
  | stopping r hadAudio k' => obtain rfl := Option.some.inj hstop; cases k' <;> rfl
  | clearing k' => obtain rfl := Option.some.inj hstop; cases k' <;> rfl
  | _ => cases hstop

/-- The rest of `_reply` after `tts.begin` hands over the prompt. -/
theorem replyBegun (h : Prompted s) {pc : Pc} {cancelling : Bool} (hpc : s.handler me = .suspended pc cancelling)
    {turn : UserTurnCompleted} {history : List Llm.Entry} {ticket : Nat}
    (hstop : pc.stop? = some (.reply turn history ticket)) : Prompted ((s.leave me).replyBegun me turn history ticket) := by
  obtain ⟨pending, hwaiting, hperm⟩ := h
  obtain ⟨-, hreplied⟩ := booked_replyBegun me turn history ticket (s.leave me)
  obtain ⟨pending', hpending, hwaiting'⟩ := hwaiting.remove (t := (s.leave me).replyBegun me turn history ticket)
    (promptAt_of_stop? hpc hstop) (by simp [Session.promptAt, Session.replyBegun])
    (fun other hother => by simp [Session.promptAt, Session.replyBegun, Function.update_of_ne hother])
  refine ⟨pending', hwaiting', ?_⟩
  have hprompts : prompts ((s.leave me).replyBegun me turn history ticket).trace =
      prompts s.trace ++ [Text.strip turn.transcript] := by
    simp [Session.replyBegun, prompts]
  have hmap := hpending.map Prod.snd
  rw [List.map_cons] at hmap
  rw [hprompts, hreplied, List.append_assoc]
  exact (hmap.symm.append_left _).trans hperm

theorem speakTextBegun (h : Prompted s) (me : Handler) (hnone : s.promptAt me = none) (text utteranceId : Text) (ticket : Nat) :
    Prompted ((s.leave me).speakTextBegun me text utteranceId ticket) := by
  have hopened := speakTextBegun_opened me text utteranceId ticket (s.leave me)
  obtain ⟨es, hes, hqueued⟩ := hopened.trace
  have hhandler : ((s.leave me).speakTextBegun me text utteranceId ticket).handler = Function.update s.handler me .done := by
    rw [hopened.handler]
    exact Function.update_idem ..
  refine h.moves hhandler hnone.symm ?_ ?_
  · have hfree : prompts es = [] := by
      refine List.filterMap_eq_nil_iff.mpr (fun e he => ?_)
      obtain ⟨r, item, rfl⟩ := hqueued e he
      rfl
    have hall : prompts (.opened ticket (s.leave me).tts.count :: es) = [] := hfree
    rw [hes, prompts_append, hall, List.append_nil]
    rfl
  · have hfree : replied es = [] := by
      refine List.filterMap_eq_nil_iff.mpr (fun e he => ?_)
      obtain ⟨r, item, rfl⟩ := hqueued e he
      rfl
    have hall : replied (.opened ticket (s.leave me).tts.count :: es) = [] := hfree
    rw [hes, replied_append, hall, List.append_nil]
    rfl

theorem called (h : Prompted s) {l : Label} (hcalled : Called cfg s l t) : Prompted t := by
  cases hcalled with
  | answers _ ha => exact h.answers ha
  | @interruptReturns me vad state t _ _ _ _ ha =>
      have hinterrupted : Prompted (({ s with vad }.interrupted state).emit (.interruptionReturned s.cut)) :=
        h.congr (fun _ => rfl) (by simp [prompts]) (by simp [replied])
      exact hinterrupted.answers ha
  | interruptStops _ hidle =>
      refine h.moves rfl ?_ (by simp [prompts]) (by simp [replied])
      rw [Session.promptAt, hidle]
      rfl
  | clears hpc =>
      refine h.moves (Function.update_idem ..) ?_ (by simp [prompts]) (by simp [replied])
      rw [promptAt_of_stop? hpc rfl]
      rename_i k _ _
      cases k <;> rfl
  | bargesIn hpc hreturns =>
      refine h.moves (Function.update_idem ..) ?_ (by simp [prompts]) (by simp [replied])
      rw [promptAt_of_stop? hpc hreturns.stop?]
      rfl
  | @returns me k cut cancelling t hpc ha =>
      have hleft : Prompted ((s.leave me).emit (.interruptionReturned cut)) := by
        refine h.moves rfl ?_ (by simp [prompts]) (by simp [replied])
        rw [Session.promptAt, hpc]
        rfl
      exact hleft.answers ha
  | begins _ hpc hreturns => exact h.replyBegun hpc hreturns.stop?
  | speakBegins _ hpc hreturns => exact h.speakTextBegun _ (promptAt_of_stop? hpc hreturns.stop?) _ _ _
  | closes hpc hreturns =>
      refine h.moves (Function.update_idem ..) ?_ rfl rfl
      rw [promptAt_of_stop? hpc hreturns.stop?]
      rfl
  | @speakText text utteranceId _ hidle =>
      have hnone : s.promptAt .endpoint = none := by rw [Session.promptAt, hidle]; rfl
      have hbegins : ∀ state, Prompted ({ s with timing := none, state, begun := s.begun + 1 }.emit
          (.begin s.begun state.isUserSpeaking)) :=
        fun state => h.congr (fun _ => rfl) (by simp [prompts]) (by simp [replied])
      unfold Session.speakText Session.ttsStop
      dsimp only
      split
      · have hbegun := (hbegins s.state.startSystemTurn).speakTextBegun .endpoint hnone text utteranceId s.begun
        rwa [leave_of_done (by exact hidle)] at hbegun
      · exact h.moves rfl hnone.symm (by simp [prompts]) (by simp [replied])
  | @closesSpeech t _ hh hidle =>
      have hnone : t.promptAt .endpoint = none := by rw [Session.promptAt, hidle]; rfl
      unfold Session.closeTts Session.ttsStop
      split
      · exact (h.hushed hh).moves rfl hnone.symm rfl rfl
      · exact (h.hushed hh).moves rfl hnone.symm rfl rfl

/-- **A step keeps the prompts those of the calls of `_reply`.** -/
theorem step (h : Prompted s) (ht : Typed s) {l : Label} (hstep : step cfg s l = some t) : Prompted t := by
  cases Stepped.of_step ht hstep with
  | called hcalled => exact h.called hcalled
  | generation hgen => exact h.aside (resumeGeneration_aside hgen)
  | reply hreply => exact h.aside (resumeReply_aside hreply)

end Prompted

/-! ## Every run -/

/-- In every run the FINAL events are taken and the prompts are those of the calls of `_reply`. -/
theorem taken_of_run {ls : List Label} (h : Run (step cfg) (fun _ l => (l.plain && l.identified) = true) (fresh cfg) ls s) :
    Typed s ∧ InTurn cfg (finalTurns ls) s ∧ Prompted s :=
  h.invariant₂ (I := fun ls s => Typed s ∧ InTurn cfg (finalTurns ls) s ∧ Prompted s)
    ⟨Typed.fresh cfg, InTurn.fresh cfg, Prompted.fresh cfg⟩
    (fun ⟨ht, hi, hp⟩ hl hstep =>
      ⟨ht.step hstep, by simpa using hi.step ht hl hstep, hp.step ht hstep⟩)

/-- When nobody waits, every prompt has been handed over. -/
theorem Prompted.atRest (h : Prompted s) (ht : Typed s) (hnone : s.replyWaits = false) :
    (prompts s.trace).Perm ((replied s.trace).map (·.transcript)) := by
  obtain ⟨pending, hwaiting, hperm⟩ := h
  simpa [hwaiting.eq_nil (ht.noReply hnone)] using hperm

/-- The user turns of a run. -/
structure Answered (cfg : Config) (ls : List Label) (s : Session) : Prop where
  /-- The FINAL events are, in order and once each, in the calls of `_reply`, in the held turn, and in the event whose
  barge-in is awaited. -/
  inTurn : ∃ taken, taken ++ s.after.toList.flatMap turnAfter = finalTurns ls ∧
    Gathered cfg taken (replied s.trace ++ s.held.toList.map stripped)
  /-- The prompts handed over, and those of the calls of `_reply` that wait in `tts.begin`, are those of the calls of
  `_reply`. -/
  prompted : ∃ pending, PromptsWait s pending ∧
    (prompts s.trace ++ pending.map Prod.snd).Perm ((replied s.trace).map (·.transcript))
  /-- No `_reply` waits. -/
  atRest : s.replyWaits = false → (prompts s.trace).Perm ((replied s.trace).map (·.transcript))

/-- **Every user turn is answered once**, in every run of transcripts with UUIDs, frames and timers. -/
theorem answered_of_run (cfg : Config) {ls : List Label} {s : Session}
    (h : Run (step cfg) (fun _ l => (l.plain && l.identified) = true) (fresh cfg) ls s) : Answered cfg ls s := by
  obtain ⟨ht, hturns, hprompted⟩ := taken_of_run h
  obtain ⟨taken, htaken, hbooked⟩ := hturns.booked
  exact ⟨⟨taken, htaken, hbooked.gathered⟩, hprompted, hprompted.atRest ht⟩

/-- In the run that answers a held turn after the turn that followed it no prompt is lost, but their order is. -/
theorem answered_of_run_overtakenTurn : ∃ s,
    Run (step {}) (fun _ l => (l.plain && l.identified) = true) (fresh {}) overtakenTurn s ∧
      Answered {} overtakenTurn s ∧
      (replied s.trace).map (·.transcript) = ["Hello.".toList, "I am calling for".toList, "Hello?".toList] ∧
      prompts s.trace = ["Hello.".toList, "Hello?".toList, "I am calling for".toList] := by
  obtain ⟨s, hrun, hs⟩ := Run.exists_of_exec
    (P := fun s => (replied s.trace).map (·.transcript) == ["Hello.".toList, "I am calling for".toList, "Hello?".toList] &&
      prompts s.trace == ["Hello.".toList, "Hello?".toList, "I am calling for".toList]) (s := fresh {})
    (show (exec (step {}) (fun _ l => (l.plain && l.identified) = true) _ overtakenTurn).any _ = true by decide +kernel)
  rw [Bool.and_eq_true, beq_iff_eq, beq_iff_eq] at hs
  exact ⟨s, hrun, answered_of_run {} hrun, hs.1, hs.2⟩

end Voxera.Voice
