import Voxera.Voice.HeldTurn
import Voxera.Voice.Steps
import Voxera.Voice.Tasks
import Mathlib.Data.List.DropRight
import Mathlib.Data.List.Infix

/-!
# The history that a generation is given

`_reply` hands `start_generation` the history as it was before it recorded its own prompt. The history is a
window of the conversation: the last entries of all the turns recorded so far.

* `Turn`, `Dialogue` : the turns that `_reply` has recorded, each with what `on_complete` has remembered
  for it, next to the session, which never reads them;
* `WellFormed` : a history of whole turns;
* `AnsweredInTurn` : what the steps must respect so that the window never cuts a turn;
* `Tells` : the steps of the calls, as far as the history is concerned.
-/

namespace Voxera.Voice

open EventLoop
open Session
open Llm (Entry Role)

variable {cfg : Config} {me : Handler} {s t u : Session}

/-! ## A window of the last entries -/

section Window

variable {α : Type*}

theorem rtake_rtake_of_le (l : List α) {m n : Nat} (h : m ≤ n) : (l.rtake n).rtake m = l.rtake m := by
  rw [List.rtake_eq_reverse_take_reverse, List.rtake_eq_reverse_take_reverse, List.reverse_reverse, List.take_take,
    Nat.min_eq_left h, ← List.rtake_eq_reverse_take_reverse]

/-- What falls out of the window never comes back. -/
theorem rtake_rtake_concat (l : List α) (n : Nat) (x : α) : (l.rtake n ++ [x]).rtake n = (l ++ [x]).rtake n := by
  cases n with
  | zero => simp
  | succ n => rw [List.rtake_concat_succ, List.rtake_concat_succ, rtake_rtake_of_le l (Nat.le_succ n)]

theorem length_rtake_le (l : List α) (n : Nat) : (l.rtake n).length ≤ n := by
  rw [List.rtake, List.length_drop]
  omega

theorem rtake_eq_self {l : List α} {n : Nat} (h : l.length ≤ n) : l.rtake n = l := by
  rw [List.rtake, Nat.sub_eq_zero_of_le h, List.drop_zero]

theorem rtake_append_length (a b : List α) : (a ++ b).rtake b.length = b := by
  rw [List.rtake, List.length_append, Nat.add_sub_cancel, List.drop_left]

end Window

/-! ## Turns -/

/-- A turn that `_reply` has recorded, and the text that `on_complete` has remembered for it. -/
structure Turn where
  /-- The call of `tts.begin` that its `_reply` makes. -/
  ticket : Nat
  prompt : Text
  answer : Option Text := none
  deriving DecidableEq, Repr

/-- The entries of the turn: the prompt and, right after it, its answer. -/
def Turn.entries (turn : Turn) : List Entry :=
  ⟨.user, turn.prompt⟩ :: turn.answer.toList.map (fun text => ⟨.assistant, text⟩)

def entries (turns : List Turn) : List Entry := turns.flatMap Turn.entries

@[simp] theorem entries_append (a b : List Turn) : entries (a ++ b) = entries a ++ entries b := List.flatMap_append

/-- The answer is remembered for the turn of this `_reply`. -/
def answer (ticket : Nat) (text : Text) (turns : List Turn) : List Turn :=
  turns.map fun turn => if turn.ticket = ticket then { turn with answer := some text } else turn

/-- The last `n * 2` entries are those of whole turns. -/
def Whole (n : Nat) (turns : List Turn) : Bool :=
  (entries turns).length ≤ n * 2 || turns.tails.any fun block => (entries block).length = n * 2

theorem exists_block_of_whole {n : Nat} {turns : List Turn} (h : Whole n turns = true) :
    ∃ block, block <:+ turns ∧ (entries turns).rtake (n * 2) = entries block := by
  unfold Whole at h
  rw [Bool.or_eq_true] at h
  rcases h with h | h
  · exact ⟨turns, List.suffix_rfl, rtake_eq_self (of_decide_eq_true h)⟩
  · obtain ⟨block, hblock, hlength⟩ := List.any_eq_true.mp h
    rw [List.mem_tails] at hblock
    obtain ⟨first, rfl⟩ := hblock
    refine ⟨block, List.suffix_append first block, ?_⟩
    rw [entries_append, ← of_decide_eq_true hlength, rtake_append_length]

theorem answer_of_forall_ne {ticket : Nat} {turns : List Turn} (h : ∀ turn ∈ turns, turn.ticket ≠ ticket) (text : Text) :
    answer ticket text turns = turns := by
  have hsame : ∀ turn ∈ turns, (if turn.ticket = ticket then { turn with answer := some text } else turn) = turn :=
    fun turn hturn => if_neg (h turn hturn)
  rw [answer, List.map_congr_left hsame, List.map_id']

/-! ## The conversation next to the session -/

/-- A session, and the turns of its conversation. -/
structure Dialogue where
  session : Session
  turns : List Turn := []
  /-- Which `_reply` has started the generation. -/
  asked : Nat → Option Nat := fun _ => none

namespace Session

/-- What `on_complete` remembers when it is called in this step of the generation `g`. -/
def answerOf (s : Session) (g : Nat) (w : Wake Llm.Item) : Option Text :=
  match s.llm.resume g w with
  | some (llm, .complete _) => if Text.strip (llm.gen g).text ≠ [] then some (Text.strip (llm.gen g).text) else none
  | _ => none

/-- The calls that a step has made. -/
def since (s t : Session) : List Event := t.trace.drop s.trace.length

end Session

/-- The turn that the call of `_reply` records. -/
def Event.turn? (ticket : Nat) : Event → Option Turn
  | .reply turn _ => some { ticket, prompt := Text.strip turn.transcript }
  | _ => none

def Event.ticket? : Event → Option Nat
  | .opened ticket _ => some ticket
  | _ => none

def Event.generation? : Event → Option Nat
  | .generation g _ _ _ _ => some g
  | _ => none

namespace Dialogue

variable (d : Dialogue)

/-- The turns, with what the step remembers as an answer. -/
def answered : Label → List Turn
  | .generation g w =>
    match d.session.answerOf g w, d.asked g with
    | some text, some ticket => answer ticket text d.turns
    | _, _ => d.turns
  | _ => d.turns

/-- `_reply` opens its reply and starts its generation in one step. -/
def asking (es : List Event) : Nat → Option Nat :=
  match es.findSome? Event.ticket?, es.findSome? Event.generation? with
  | some ticket, some g => Function.update d.asked g (some ticket)
  | _, _ => d.asked

def next (l : Label) (t : Session) : Dialogue where
  session := t
  turns := d.answered l ++ (d.session.since t).filterMap (Event.turn? d.session.begun)
  asked := d.asking (d.session.since t)

def step (cfg : Config) (d : Dialogue) (l : Label) : Option Dialogue := (Voice.step cfg d.session l).map (d.next l)

def fresh (cfg : Config) : Dialogue := { session := Session.fresh cfg }

/-- The generation was started by the `_reply` of the last turn. -/
def answersLast (g : Nat) : Bool := d.turns.getLast?.any fun turn => d.asked g = some turn.ticket

/-- `_reply` is called when the window of the history does not cut a turn, and a generation that has said
something calls `on_complete` before the next turn is recorded. -/
def AnsweredInTurn (cfg : Config) (d : Dialogue) (l : Label) : Bool :=
  (!d.session.callsReply cfg l || Whole cfg.historyTurns d.turns) &&
    match l with
    | .generation g w => (d.session.answerOf g w).isNone || d.answersLast g
    | _ => true

end Dialogue

/-- At most `n * 2` entries, with a user entry first, of whole turns: each answer stands right after the
prompt that it answers. -/
structure WellFormed (n : Nat) (turns : List Turn) (history : List Entry) : Prop where
  length : history.length ≤ n * 2
  user : ∀ entry, history.head? = some entry → entry.role = .user
  whole : ∃ block, block <:+: turns ∧ history = entries block

instance (n : Nat) (turns : List Turn) (history : List Entry) : Decidable (WellFormed n turns history) :=
  decidable_of_iff (history.length ≤ n * 2 ∧ (∀ entry ∈ history.head?, entry.role = .user) ∧
      ∃ block ∈ turns.tails.flatMap List.inits, history = entries block) <| by
    constructor
    · rintro ⟨hlength, huser, block, hblock, heq⟩
      obtain ⟨rest, hrest, hinit⟩ := List.mem_flatMap.mp hblock
      rw [List.mem_tails] at hrest
      rw [List.mem_inits] at hinit
      exact ⟨hlength, huser, block, hinit.isInfix.trans hrest.isInfix, heq⟩
    · rintro ⟨hlength, huser, block, hblock, heq⟩
      obtain ⟨rest, hinit, hrest⟩ := List.infix_iff_prefix_suffix.mp hblock
      refine ⟨hlength, huser, block, List.mem_flatMap.mpr ⟨rest, ?_, ?_⟩, heq⟩
      · exact (List.mem_tails ..).mpr hrest
      · exact (List.mem_inits ..).mpr hinit

/-! ## What the steps say -/

/-- The history that the `_reply` suspended here took, and its call of `tts.begin`. -/
def Pc.snapshot? (pc : Pc) : Option (List Entry × Nat) :=
  match pc.stop? with
  | some (.reply _ history ticket) => some (history, ticket)
  | _ => none

def Session.snapshotAt (s : Session) (me : Handler) : Option (List Entry × Nat) := (s.handler me).pc?.bind Pc.snapshot?

theorem Pc.speech_of_snapshot? {pc : Pc} {x : List Entry × Nat} (h : pc.snapshot? = some x) : pc.speech = true := by
  cases pc <;> first | rfl | cases h

theorem snapshotAt_of_suspended {pc : Pc} {cancelling : Bool} (h : s.handler me = .suspended pc cancelling) :
    s.snapshotAt me = pc.snapshot? := by
  rw [Session.snapshotAt, h]
  rfl

/-- The slot of one call has changed. -/
theorem snapshotAt_update {c : Coroutine Pc} (hhandler : t.handler = Function.update s.handler me c) (other : Handler) :
    t.snapshotAt other = if other = me then c.pc?.bind Pc.snapshot? else s.snapshotAt other := by
  unfold Session.snapshotAt
  rw [hhandler]
  by_cases heq : other = me
  · rw [heq, Function.update_self, if_pos rfl]
  · rw [Function.update_of_ne heq, if_neg heq]

/-- The calls that say something about the conversation. -/
def Event.said : Event → Bool
  | .reply _ _ | .generation _ _ _ _ _ => true
  | _ => false

/-- Nothing is recorded, asked or answered. -/
structure Unsaid (s t : Session) : Prop where
  history : t.history = s.history
  begun : s.begun ≤ t.begun
  count : t.llm.count = s.llm.count
  ended : ∀ g, s.llm.task g = .done → t.llm.task g = .done
  snapshot : ∀ me x, t.snapshotAt me = some x → s.snapshotAt me = some x
  trace : ∃ es, t.trace = s.trace ++ es ∧ ∀ e ∈ es, e.said = false

namespace Unsaid

theorem refl (s : Session) : Unsaid s s :=
  ⟨rfl, le_rfl, rfl, fun _ h => h, fun _ _ h => h, [], (List.append_nil _).symm, by simp⟩

theorem trans (h : Unsaid s t) (h' : Unsaid t u) : Unsaid s u where
  history := h'.history.trans h.history
  begun := h.begun.trans h'.begun
  count := h'.count.trans h.count
  ended g hg := h'.ended g (h.ended g hg)
  snapshot me x hx := h.snapshot me x (h'.snapshot me x hx)
  trace := extends_trans h.trace h'.trace

theorem ended_cancel {g : Nat} (hg : s.llm.task g = .done) : s.llm.cancel.task g = .done := by
  rw [Llm.Consumer.cancel_task, hg]
  split <;> rfl

theorem of_llm (hllm : t.llm = s.llm ∨ t.llm = s.llm.cancel) (hhistory : t.history = s.history)
    (hbegun : s.begun ≤ t.begun) (hsnapshot : ∀ me x, t.snapshotAt me = some x → s.snapshotAt me = some x)
    {es : List Event} (htrace : t.trace = s.trace ++ es) (hes : ∀ e ∈ es, e.said = false) : Unsaid s t := by
  refine ⟨hhistory, hbegun, ?_, fun g hg => ?_, hsnapshot, es, htrace, hes⟩
  · rcases hllm with hllm | hllm <;> simp [hllm]
  · rcases hllm with hllm | hllm <;> rw [hllm]
    · exact hg
    · exact ended_cancel hg

theorem hushed (h : Hushed s t) : Unsaid s t := by
  obtain ⟨es, htrace, hes⟩ := h.trace
  refine of_llm h.llm h.history (le_of_eq h.begun.symm) ?_ htrace (fun e he => ?_)
  · intro me x hx
    obtain ⟨pc, hpc, hpcx⟩ := Option.bind_eq_some_iff.mp hx
    exact Option.bind_eq_some_iff.mpr ⟨pc, (h.handler me pc (Pc.speech_of_snapshot? hpcx)).mp hpc, hpcx⟩
  · obtain ⟨utteranceId, rfl⟩ := hes e he
    rfl

/-- One call suspends, goes on or returns, and no `_reply` takes its history. -/
theorem of_update {c : Coroutine Pc} (hhandler : t.handler = Function.update s.handler me c)
    (hc : ∀ x, c.pc?.bind Pc.snapshot? = some x → s.snapshotAt me = some x)
    (hllm : t.llm = s.llm ∨ t.llm = s.llm.cancel) (hhistory : t.history = s.history)
    (hbegun : s.begun ≤ t.begun) {es : List Event} (htrace : t.trace = s.trace ++ es) (hes : ∀ e ∈ es, e.said = false) :
    Unsaid s t := by
  refine of_llm hllm hhistory hbegun (fun other x hx => ?_) htrace hes
  rw [snapshotAt_update hhandler other] at hx
  split at hx
  · rename_i heq
    exact heq ▸ hc x hx
  · exact hx

theorem speechOpened {ticket : Nat} (ho : SpeechOpened me ticket s t) (hhistory : t.history = s.history) : Unsaid s t := by
  obtain ⟨es, htrace, hes⟩ := ho.trace
  refine of_update ho.handler (fun x hx => nomatch hx) (Or.inl ho.llm) hhistory (le_of_eq ho.begun.symm) htrace ?_
  intro e he
  rcases List.mem_cons.mp he with rfl | he
  · rfl
  · obtain ⟨r, item, rfl⟩ := hes e he
    rfl

/-- `tts.stop` for a call that is no `_reply`. -/
theorem ttsStop {k : StopFor} {next : Session → Session} (hk : k.isReply = false) (hnext : Unsaid s (next s)) :
    Unsaid s (s.ttsStop me k next) := by
  unfold Session.ttsStop
  split
  · exact hnext
  · rename_i r _
    refine of_update (c := .await (.stopping r s.tts.audioSent k)) rfl (fun x hx => ?_) (Or.inl rfl) rfl le_rfl
      (List.append_nil _).symm (by simp)
    cases k with
    | reply => cases hk
    | _ => cases hx

end Unsaid

/-- The steps of the calls, as far as the conversation is concerned. -/
inductive Tells (cfg : Config) (s : Session) (l : Label) : Session → Prop
  | silent {t : Session} (h : Unsaid s t) : Tells cfg s l t
  | replies {me : Handler} {u : Session} {es : List Event} (hcalls : s.callsReply cfg l = true) (h : Unsaid s u)
      (hbegun : u.begun = s.begun) (htrace : u.trace = s.trace ++ es) (hes : ∀ e ∈ es, e.ticket? = none)
      (turn : UserTurnCompleted) : Tells cfg s l (u.reply cfg me turn)
  | begins {me : Handler} {turn : UserTurnCompleted} {history : List Entry} {ticket : Nat}
      (hsnapshot : s.snapshotAt me = some (history, ticket)) :
      Tells cfg s l ((s.leave me).replyBegun me turn history ticket)

namespace Tells

variable {l : Label}

theorem of_answers (ha : Answers cfg me (s.callsReply cfg l = true) u t) (h : Unsaid s u) (hbegun : u.begun = s.begun)
    {es : List Event} (htrace : u.trace = s.trace ++ es) (hes : ∀ e ∈ es, e.ticket? = none) : Tells cfg s l t := by
  cases ha with
  | hushed hu => exact .silent (h.trans (.hushed hu))
  | @replies v hcalls hu _ turn =>
      obtain ⟨es', htrace', hes'⟩ := hu.trace
      have hboth : v.trace = s.trace ++ (es ++ es') := by rw [htrace', htrace, List.append_assoc]
      refine .replies hcalls (h.trans (.hushed hu)) (hu.begun.trans hbegun) hboth (fun e he => ?_) turn
      rcases List.mem_append.mp he with he | he
      · exact hes e he
      · obtain ⟨utteranceId, rfl⟩ := hes' e he
        rfl

theorem of_called (hc : Called cfg s l t) : Tells cfg s l t := by
  cases hc with
  | answers _ ha => exact of_answers ha (.refl s) rfl (List.append_nil _).symm (by simp)
  | @interruptReturns _ vad state _ _ _ _ _ ha =>
      have htrace : (({ s with vad }.interrupted state).emit (.interruptionReturned s.cut)).trace =
          s.trace ++ [.interruption s.cut, .interruptionReturned s.cut] := by
        rw [emit_trace, trace_interrupted, List.append_assoc]
        rfl
      refine of_answers ha ?_ rfl htrace (by simp [Event.ticket?])
      exact .of_llm (Or.inr rfl) rfl le_rfl (fun _ _ hx => hx) htrace (by simp [Event.said])
  | interruptStops =>
      exact .silent (.of_update rfl (fun _ hx => nomatch hx) (Or.inr rfl) rfl le_rfl (trace_interrupted _ _)
        (by simp [Event.said]))
  | @clears me r k cancelling hpc =>
      refine .silent (.of_update (c := .await (.clearing k)) (Function.update_idem ..) (fun x hx => ?_) (Or.inl rfl) rfl le_rfl
        rfl (by simp [Event.said]))
      rw [snapshotAt_of_suspended hpc]
      exact hx
  | @bargesIn me pc k cut cancelling hpc =>
      exact .silent (.of_update (c := .await (.bargeIn k cut)) (Function.update_idem ..) (fun _ hx => nomatch hx) (Or.inl rfl)
        rfl le_rfl rfl (by simp [Event.said]))
  | @returns me k cut _ _ _ ha =>
      refine of_answers ha ?_ rfl (emit_trace ..) (by simp [Event.ticket?])
      exact .of_update (c := .done) rfl (fun _ hx => nomatch hx) (Or.inl rfl) rfl le_rfl (emit_trace ..) (by simp [Event.said])
  | @begins me pc turn history ticket _ _ hpc hreturns =>
      refine .begins ?_
      rw [snapshotAt_of_suspended hpc, Pc.snapshot?, hreturns.stop?]
  | @speakBegins me _ text utteranceId ticket _ _ hpc hreturns =>
      have hleft : Unsaid s (s.leave me) :=
        .of_update (c := .done) rfl (fun _ hx => nomatch hx) (Or.inl rfl) rfl le_rfl (List.append_nil _).symm (by simp)
      exact .silent (hleft.trans (.speechOpened (speakTextBegun_opened me text utteranceId ticket _) rfl))
  | @closes me =>
      exact .silent (.of_update (c := .done) (Function.update_idem ..) (fun _ hx => nomatch hx) (Or.inl rfl) rfl le_rfl
        (List.append_nil _).symm (by simp))
  | @speakText text utteranceId hl =>
      have hbegins : Unsaid s ({ s with timing := none, state := s.state.startSystemTurn, begun := s.begun + 1 }.emit
          (.begin s.begun s.state.startSystemTurn.isUserSpeaking)) :=
        .of_llm (Or.inl rfl) rfl (Nat.le_succ _) (fun _ _ hx => hx) rfl (by simp [Event.said])
      unfold Session.speakText
      refine .silent (hbegins.trans (.ttsStop rfl ?_))
      exact .speechOpened (speakTextBegun_opened .endpoint text utteranceId s.begun _) rfl
  | @closesSpeech u _ hu _ =>
      refine .silent ((Unsaid.hushed hu).trans (.ttsStop rfl ?_))
      exact .of_update (c := .done) rfl (fun _ hx => nomatch hx) (Or.inl rfl) rfl le_rfl (List.append_nil _).symm (by simp)

end Tells

/-! ## Generations and replies -/

theorem Event.OfTask.not_said {e : Event} (h : e.OfTask) : e.said = false := by
  cases e <;> first | rfl | cases h

theorem onSegments_history (g : Nat) (segments : List Text) (s : Session) :
    (onSegments g segments s).history = s.history := by
  induction segments generalizing s with
  | nil => rfl
  | cons segment rest ih =>
      rw [onSegments, ih]
      rfl

theorem onComplete_history (g : Nat) (text : Text) (outcome : Llm.Outcome) (s : Session) :
    (s.onComplete cfg g text outcome).history =
      if Text.strip text ≠ [] then remembered cfg s.history ⟨.assistant, Text.strip text⟩ else s.history := by
  unfold onComplete
  simp only
  split <;> split <;> rfl

/-- The effect of a step of a generation on the conversation. -/
structure Speaks (cfg : Config) (g : Nat) (w : Wake Llm.Item) (s t : Session) : Prop where
  aside : Aside s t
  alive : s.llm.task g ≠ .done
  count : t.llm.count = s.llm.count
  ended : ∀ g', s.llm.task g' = .done → t.llm.task g' = .done
  history : t.history =
    (s.answerOf g w).elim s.history (fun text => remembered cfg s.history ⟨.assistant, text⟩)
  completes : ∀ text, s.answerOf g w = some text → t.llm.task g = .done

theorem Speaks.of_resume {g : Nat} {w : Wake Llm.Item} (h : s.resumeGeneration cfg g w = some t) : Speaks cfg g w s t := by
  obtain ⟨pc, cancelling, items, next, hstep⟩ := GenerationStep.of_resume h
  have halive : s.llm.task g ≠ .done := by
    rw [hstep.at_pc]
    exact fun hdone => nomatch hdone
  refine ⟨resumeGeneration_aside h, halive, hstep.count, fun g' hg' => ?_, ?_, ?_⟩
  · have hne : g' ≠ g := by
      rintro rfl
      exact halive hg'
    rw [hstep.task, Function.update_of_ne hne, hg']
  · unfold resumeGeneration at h
    obtain ⟨⟨llm, next⟩, hresume, rfl⟩ := Option.map_eq_some_iff.mp h
    unfold Session.answerOf
    rw [hresume]
    cases next with
    | await pc => rfl
    | segments segments flushed => exact onSegments_history g segments _
    | complete outcome =>
        simp only [onComplete_history]
        split <;> rfl
    | ended => rfl
  · intro text htext
    unfold resumeGeneration at h
    obtain ⟨⟨llm, next⟩, hresume, rfl⟩ := Option.map_eq_some_iff.mp h
    unfold Session.answerOf at htext
    rw [hresume] at htext
    cases next with
    | complete outcome => simp [Llm.Consumer.finish]
    | _ => cases htext

theorem playbackEnded_history (utteranceId : Text) (interrupted : Bool) (s : Session) :
    (s.playbackEnded utteranceId interrupted).history = s.history := by
  unfold Session.playbackEnded
  split <;> rfl

theorem onPlaybackEnd_history (r : Nat) (interrupted : Bool) (s : Session) :
    (s.onPlaybackEnd r interrupted).history = s.history := by
  unfold Session.onPlaybackEnd
  simp only
  split
  · split
    · rfl
    · exact playbackEnded_history ..
  · exact playbackEnded_history ..

theorem metricsSent_history (r : Nat) (w : Wake Tts.Item) (s : Session) : (s.metricsSent r w).history = s.history := by
  unfold Session.metricsSent
  split
  · rfl
  · exact playbackEnded_history ..
  · rfl

theorem resumeReply_history {r : Nat} {w : Wake Tts.Item} (h : s.resumeReply r w = some t) : t.history = s.history := by
  unfold resumeReply at h
  obtain ⟨⟨tts, calls⟩, -, rfl⟩ := Option.map_eq_some_iff.mp h
  simp only
  split
  · rw [onPlaybackEnd_history, emits_history]
    exact metricsSent_history r w s
  · exact metricsSent_history r w s

/-- A reply's task says nothing. -/
theorem Unsaid.of_resumeReply {r : Nat} {w : Wake Tts.Item} (h : s.resumeReply r w = some t) : Unsaid s t := by
  obtain ⟨pc, cancelling, next, hstep⟩ := ReplyStep.of_resume h
  have haside := resumeReply_aside h
  obtain ⟨es, htrace, hes⟩ := haside.trace
  refine .of_llm (Or.inl hstep.llm) (resumeReply_history h) (le_of_eq haside.begun.symm) ?_ htrace (fun e he => (hes e he).not_said)
  intro me x hx
  rwa [Session.snapshotAt, haside.handler] at hx

/-! ## The invariant -/

/-- A history of whole turns, all of them before the last one. -/
def Window (n : Nat) (turns : List Turn) (history : List Entry) : Prop :=
  history.length ≤ n * 2 ∧ ∃ block, block <:+: turns.dropLast ∧ history = entries block

namespace Window

variable {n : Nat} {turns : List Turn} {history : List Entry}

theorem concat (h : Window n turns history) (turn : Turn) : Window n (turns ++ [turn]) history := by
  obtain ⟨hlength, block, hblock, rfl⟩ := h
  refine ⟨hlength, block, ?_, rfl⟩
  rw [List.dropLast_concat]
  exact hblock.trans (List.dropLast_prefix turns).isInfix

/-- The history that the next `_reply` takes. -/
theorem of_whole (h : Whole n turns = true) (turn : Turn) : Window n (turns ++ [turn]) ((entries turns).rtake (n * 2)) := by
  obtain ⟨block, hblock, heq⟩ := exists_block_of_whole h
  refine ⟨length_rtake_le .., block, ?_, heq⟩
  rw [List.dropLast_concat]
  exact hblock.isInfix

/-- The last turn may still be answered. -/
theorem of_last {last last' : Turn} (h : Window n (turns ++ [last]) history) : Window n (turns ++ [last']) history := by
  obtain ⟨hlength, block, hblock, rfl⟩ := h
  refine ⟨hlength, block, ?_, rfl⟩
  rw [List.dropLast_concat] at hblock ⊢
  exact hblock

theorem wellFormed (h : Window n turns history) : WellFormed n turns history := by
  obtain ⟨hlength, block, hblock, rfl⟩ := h
  refine ⟨hlength, ?_, block, hblock.trans (List.dropLast_prefix turns).isInfix, rfl⟩
  intro entry hentry
  cases block with
  | nil => cases hentry
  | cons turn block =>
      simp only [entries, List.flatMap_cons, Turn.entries, List.cons_append, List.head?_cons, Option.some.injEq] at hentry
      rw [← hentry]

end Window

/-- `_remember` moves the window on. -/
theorem remembered_rtake (cfg : Config) (all : List Entry) (entry : Entry) :
    remembered cfg (all.rtake (cfg.historyTurns * 2)) entry = (all ++ [entry]).rtake (cfg.historyTurns * 2) := by
  unfold remembered
  split
  · rename_i hzero
    rw [hzero, Nat.zero_mul, List.rtake_zero, List.rtake_zero]
  · rw [← rtake_rtake_concat]
    rfl

namespace Dialogue

structure Kept (cfg : Config) (d : Dialogue) : Prop where
  recorded : d.session.history = (entries d.turns).rtake (cfg.historyTurns * 2)
  tickets : (d.turns.map Turn.ticket).Nodup
  below : ∀ turn ∈ d.turns, turn.ticket < d.session.begun
  waiting : ∀ me history k, d.session.snapshotAt me = some (history, k) →
    k < d.session.begun ∧ Window cfg.historyTurns d.turns history
  apart : ∀ me me' history history' k, d.session.snapshotAt me = some (history, k) →
    d.session.snapshotAt me' = some (history', k) → me = me'
  asked : ∀ g k, d.asked g = some k →
    g < d.session.llm.count ∧ k < d.session.begun ∧ ∀ me history, d.session.snapshotAt me ≠ some (history, k)
  once : ∀ g g' k, d.asked g = some k → d.asked g' = some k → g = g'
  answered : ∀ turn ∈ d.turns, turn.answer ≠ none → ∃ g, d.asked g = some turn.ticket ∧ d.session.llm.task g = .done
  given : ∀ g r prompt history userSpeaking, .generation g r prompt history userSpeaking ∈ d.session.trace →
    Window cfg.historyTurns d.turns history

/-- The call of `_reply` has not started its generation, and is not suspended before it. -/
structure Unasked (d : Dialogue) (ticket : Nat) : Prop where
  below : ticket < d.session.begun
  asked : ∀ g, d.asked g ≠ some ticket
  snapshot : ∀ me history, d.session.snapshotAt me ≠ some (history, ticket)

namespace Kept

variable {d : Dialogue}

theorem fresh (cfg : Config) : Kept cfg (fresh cfg) where
  recorded := (List.rtake_nil _).symm
  tickets := List.nodup_nil
  below := by simp [Dialogue.fresh]
  waiting := fun _ _ _ h => nomatch h
  apart := fun _ _ _ _ _ h => nomatch h
  asked := fun _ _ h => nomatch h
  once := fun _ _ _ h => nomatch h
  answered := by simp [Dialogue.fresh]
  given := by simp [Dialogue.fresh, Session.fresh]

theorem unsaid (h : Kept cfg d) (hu : Unsaid d.session t) : Kept cfg { d with session := t } where
  recorded := hu.history.trans h.recorded
  tickets := h.tickets
  below turn hturn := (h.below turn hturn).trans_le hu.begun
  waiting me history k hk := by
    obtain ⟨hbelow, hwindow⟩ := h.waiting me history k (hu.snapshot me _ hk)
    exact ⟨hbelow.trans_le hu.begun, hwindow⟩
  apart me me' history history' k hk hk' :=
    h.apart me me' history history' k (hu.snapshot me _ hk) (hu.snapshot me' _ hk')
  asked g k hg := by
    obtain ⟨hcount, hbelow, hnot⟩ := h.asked g k hg
    refine ⟨hu.count ▸ hcount, hbelow.trans_le hu.begun, fun me history hk => ?_⟩
    exact hnot me history (hu.snapshot me _ hk)
  once := h.once
  answered turn hturn hanswer := by
    obtain ⟨g, hg, hdone⟩ := h.answered turn hturn hanswer
    exact ⟨g, hg, hu.ended g hdone⟩
  given g r prompt history userSpeaking hmem := by
    obtain ⟨es, htrace, hes⟩ := hu.trace
    have hmem' : .generation g r prompt history userSpeaking ∈ t.trace := hmem
    rw [htrace] at hmem'
    rcases List.mem_append.mp hmem' with hmem' | hmem'
    · exact h.given g r prompt history userSpeaking hmem'
    · cases hes _ hmem'

/-- `_reply` records its turn. -/
theorem records (h : Kept cfg d) (turn : UserTurnCompleted) :
    Kept cfg { d with
      session := d.session.replyBegins cfg turn
      turns := d.turns ++ [{ ticket := d.session.begun, prompt := Text.strip turn.transcript }] } where
  recorded := by
    rw [replyBegins_history, h.recorded, remembered_rtake, entries_append]
    rfl
  tickets := by
    rw [List.map_append, List.nodup_append]
    refine ⟨h.tickets, List.pairwise_singleton _ _, fun k hk k' hk' heq => ?_⟩
    obtain ⟨old, hold, rfl⟩ := List.mem_map.mp hk
    rw [List.map_singleton, List.mem_singleton] at hk'
    have hbelow := h.below old hold
    rw [heq, hk'] at hbelow
    exact lt_irrefl _ hbelow
  below old hold := by
    rw [replyBegins_begun]
    rcases List.mem_append.mp hold with hold | hold
    · exact Nat.lt_succ_of_lt (h.below old hold)
    · rw [List.mem_singleton.mp hold]
      exact Nat.lt_succ_self _
  waiting me history k hk := by
    obtain ⟨hbelow, hwindow⟩ := h.waiting me history k hk
    exact ⟨Nat.lt_succ_of_lt hbelow, hwindow.concat _⟩
  apart := h.apart
  asked g k hg := by
    obtain ⟨hcount, hbelow, hnot⟩ := h.asked g k hg
    exact ⟨hcount, Nat.lt_succ_of_lt hbelow, hnot⟩
  once := h.once
  answered old hold hanswer := by
    rcases List.mem_append.mp hold with hold | hold
    · exact h.answered old hold hanswer
    · rw [List.mem_singleton.mp hold] at hanswer
      exact absurd rfl hanswer
  given g r prompt history userSpeaking hmem := by
    rw [replyBegins_trace] at hmem
    rcases List.mem_append.mp hmem with hmem | hmem
    · exact (h.given g r prompt history userSpeaking hmem).concat _
    · simp at hmem

/-- `_reply` waits in `tts.begin`. -/
theorem waits (h : Kept cfg d) {ticket : Nat} {turn : UserTurnCompleted} {history : List Entry} (hunasked : d.Unasked ticket)
    (hwindow : Window cfg.historyTurns d.turns history) (me : Handler) (r : Nat) (hadAudio : Bool) (tts : Tts.Consumer Unit) :
    Kept cfg { d with
      session := { d.session with tts }.park me (.stopping r hadAudio (.reply turn history ticket)) } := by
  have hat : ∀ other, ({ d.session with tts }.park me (.stopping r hadAudio (.reply turn history ticket))).snapshotAt other =
      if other = me then some (history, ticket) else d.session.snapshotAt other :=
    snapshotAt_update (s := d.session) (c := .await (.stopping r hadAudio (.reply turn history ticket))) rfl
  refine { h with waiting := ?_, apart := ?_, asked := ?_ }
  · intro other history' k hk
    rw [hat] at hk
    split at hk
    · cases hk
      exact ⟨hunasked.below, hwindow⟩
    · exact h.waiting other history' k hk
  · intro other other' history₁ history₂ k hk hk'
    rw [hat] at hk hk'
    split at hk <;> split at hk'
    · rename_i heq heq'
      exact heq.trans heq'.symm
    · cases hk
      exact absurd hk' (hunasked.snapshot _ _)
    · cases hk'
      exact absurd hk (hunasked.snapshot _ _)
    · exact h.apart other other' history₁ history₂ k hk hk'
  · intro g k hg
    obtain ⟨hcount, hbelow, hnot⟩ := h.asked g k hg
    refine ⟨hcount, hbelow, fun other history' hk => ?_⟩
    rw [hat] at hk
    split at hk
    · cases hk
      exact hunasked.asked g hg
    · exact hnot other history' hk

/-- `_reply` starts its generation. -/
theorem asks (h : Kept cfg d) {ticket : Nat} {history : List Entry} (hunasked : d.Unasked ticket)
    (hwindow : Window cfg.historyTurns d.turns history) (me : Handler) (turn : UserTurnCompleted) :
    Kept cfg { d with
      session := d.session.replyBegun me turn history ticket
      asked := Function.update d.asked d.session.llm.count (some ticket) } := by
  have hat : ∀ other x, (d.session.replyBegun me turn history ticket).snapshotAt other = some x →
      d.session.snapshotAt other = some x := by
    intro other x hx
    have hhandler : (d.session.replyBegun me turn history ticket).handler = Function.update d.session.handler me .done := rfl
    rw [snapshotAt_update hhandler] at hx
    split at hx
    · cases hx
    · exact hx
  have hasked : ∀ g k, Function.update d.asked d.session.llm.count (some ticket) g = some k →
      g = d.session.llm.count ∧ k = ticket ∨ g < d.session.llm.count ∧ d.asked g = some k := by
    intro g k hg
    by_cases heq : g = d.session.llm.count
    · rw [heq, Function.update_self] at hg
      exact Or.inl ⟨heq, (Option.some.inj hg).symm⟩
    · rw [Function.update_of_ne heq] at hg
      exact Or.inr ⟨(h.asked g k hg).1, hg⟩
  refine ⟨h.recorded, h.tickets, h.below, ?_, ?_, ?_, ?_, ?_, ?_⟩
  · intro other history' k hk
    exact h.waiting other history' k (hat other _ hk)
  · intro other other' history₁ history₂ k hk hk'
    exact h.apart other other' history₁ history₂ k (hat other _ hk) (hat other' _ hk')
  · intro g k hg
    rcases hasked g k hg with ⟨rfl, rfl⟩ | ⟨-, hg⟩
    · refine ⟨Nat.lt_succ_self _, hunasked.below, fun other history' hk => ?_⟩
      exact hunasked.snapshot other history' (hat other _ hk)
    · obtain ⟨hcount, hbelow, hnot⟩ := h.asked g k hg
      exact ⟨Nat.lt_succ_of_lt hcount, hbelow, fun other history' hk => hnot other history' (hat other _ hk)⟩
  · intro g g' k hg hg'
    rcases hasked g k hg with ⟨rfl, rfl⟩ | ⟨-, hg⟩ <;> rcases hasked g' k hg' with ⟨rfl, heq⟩ | ⟨-, hg'⟩
    · rfl
    · exact absurd hg' (hunasked.asked g')
    · exact absurd (heq ▸ hg) (hunasked.asked g)
    · exact h.once g g' k hg hg'
  · intro old hold hanswer
    obtain ⟨g, hg, hdone⟩ := h.answered old hold hanswer
    have hne : g ≠ d.session.llm.count := Nat.ne_of_lt (h.asked g _ hg).1
    refine ⟨g, ?_, ?_⟩
    · show Function.update d.asked d.session.llm.count (some ticket) g = some old.ticket
      rwa [Function.update_of_ne hne]
    · show Function.update d.session.llm.cancel.task d.session.llm.count _ g = .done
      rw [Function.update_of_ne hne]
      exact Unsaid.ended_cancel hdone
  · intro g r prompt history' userSpeaking hmem
    have hmem' : Event.generation g r prompt history' userSpeaking ∈
        (d.session.trace ++ [.opened ticket d.session.tts.count]) ++ [.generation d.session.llm.count d.session.tts.count
          (Text.strip turn.transcript) history d.session.state.isUserSpeaking] := hmem
    rcases List.mem_append.mp hmem' with hmem' | hmem'
    · rcases List.mem_append.mp hmem' with hmem' | hmem'
      · exact h.given g r prompt history' userSpeaking hmem'
      · cases List.mem_singleton.mp hmem'
    · cases List.mem_singleton.mp hmem'
      exact hwindow

/-- The generation of the last turn calls `on_complete`: nothing has been remembered for it before. -/
theorem answers (h : Kept cfg d) {g : Nat} {w : Wake Llm.Item} (hs : Speaks cfg g w d.session t) {text : Text}
    (htext : d.session.answerOf g w = some text) {turns : List Turn} {last : Turn} (hturns : d.turns = turns ++ [last])
    (hlast : d.asked g = some last.ticket) :
    Kept cfg { d with session := t, turns := turns ++ [{ last with answer := some text }] } := by
  have hnone : last.answer = none := by
    by_contra hsome
    obtain ⟨g', hg', hdone⟩ := h.answered last (by simp [hturns]) hsome
    rw [h.once g' g last.ticket hg' hlast] at hdone
    exact hs.alive hdone
  have hat : ∀ me, t.snapshotAt me = d.session.snapshotAt me := by
    intro me
    rw [Session.snapshotAt, hs.aside.handler]
    rfl
  have hmem : ∀ turn ∈ turns, turn ∈ d.turns := fun turn hturn => hturns ▸ List.mem_append_left _ hturn
  have hwindow : ∀ history, Window cfg.historyTurns d.turns history →
      Window cfg.historyTurns (turns ++ [{ last with answer := some text }]) history := by
    intro history hw
    rw [hturns] at hw
    exact hw.of_last
  refine ⟨?_, ?_, ?_, ?_, ?_, ?_, h.once, ?_, ?_⟩
  · have hentries : entries (turns ++ [{ last with answer := some text }]) = entries d.turns ++ [⟨.assistant, text⟩] := by
      rw [hturns, entries_append, entries_append, List.append_assoc]
      simp [entries, Turn.entries, hnone]
    rw [hentries, ← remembered_rtake, ← h.recorded, hs.history, htext]
    rfl
  · have htickets := h.tickets
    rw [hturns, List.map_append] at htickets
    rw [List.map_append]
    exact htickets
  · intro turn hturn
    have hbegun : t.begun = d.session.begun := hs.aside.begun
    rw [hbegun]
    rcases List.mem_append.mp hturn with hturn | hturn
    · exact h.below turn (hmem turn hturn)
    · rw [List.mem_singleton.mp hturn]
      exact h.below last (by simp [hturns])
  · intro me history k hk
    have hk' : d.session.snapshotAt me = some (history, k) := (hat me).symm.trans hk
    obtain ⟨hbelow, hw⟩ := h.waiting me history k hk'
    exact ⟨hbelow.trans_le (le_of_eq hs.aside.begun.symm), hwindow history hw⟩
  · intro me me' history history' k hk hk'
    exact h.apart me me' history history' k ((hat me).symm.trans hk) ((hat me').symm.trans hk')
  · intro g' k hg'
    obtain ⟨hcount, hbelow, hnot⟩ := h.asked g' k hg'
    refine ⟨hs.count ▸ hcount, hbelow.trans_le (le_of_eq hs.aside.begun.symm), fun me history hk => ?_⟩
    exact hnot me history ((hat me).symm.trans hk)
  · intro turn hturn hanswer
    rcases List.mem_append.mp hturn with hturn | hturn
    · obtain ⟨g', hg', hdone⟩ := h.answered turn (hmem turn hturn) hanswer
      exact ⟨g', hg', hs.ended g' hdone⟩
    · rw [List.mem_singleton.mp hturn]
      exact ⟨g, hlast, hs.completes text htext⟩
  · intro g' r prompt history userSpeaking hmem'
    obtain ⟨es, htrace, hes⟩ := hs.aside.trace
    have hold : .generation g' r prompt history userSpeaking ∈ t.trace := hmem'
    rw [htrace] at hold
    rcases List.mem_append.mp hold with hold | hold
    · exact hwindow history (h.given g' r prompt history userSpeaking hold)
    · cases (hes _ hold).not_said

end Kept

/-! ## Steps and runs -/

variable {d : Dialogue} {l : Label}

theorem answered_of_ne (hl : ∀ g w, l ≠ .generation g w) : d.answered l = d.turns := by
  cases l <;> first | rfl | exact absurd rfl (hl _ _)

theorem since_of_append {es : List Event} (htrace : t.trace = s.trace ++ es) : s.since t = es := by
  rw [Session.since, htrace, List.drop_left]

theorem asking_of_generation {es : List Event} (hes : es.findSome? Event.generation? = none) : d.asking es = d.asked := by
  unfold asking
  rw [hes]
  split
  · rename_i hg
    cases hg
  · rfl

theorem generation?_of_unsaid {es : List Event} (hes : ∀ e ∈ es, e.said = false) : es.findSome? Event.generation? = none := by
  refine List.findSome?_eq_none_iff.mpr (fun e he => ?_)
  have hnot := hes e he
  cases e <;> first | rfl | cases hnot

theorem turns_of_unsaid {es : List Event} (hes : ∀ e ∈ es, e.said = false) (k : Nat) : es.filterMap (Event.turn? k) = [] := by
  refine List.filterMap_eq_nil_iff.mpr (fun e he => ?_)
  have hnot := hes e he
  cases e <;> first | rfl | cases hnot

/-- The step says nothing that is recorded. -/
theorem next_of_unsaid {es : List Event} (htrace : t.trace = d.session.trace ++ es) (hes : ∀ e ∈ es, e.said = false) :
    d.next l t = { d with session := t, turns := d.answered l } := by
  unfold next
  rw [since_of_append htrace, turns_of_unsaid hes, asking_of_generation (generation?_of_unsaid hes), List.append_nil]

/-- The turn that a call of `_reply` records now. -/
def recording (d : Dialogue) (turn : UserTurnCompleted) : Turn :=
  { ticket := d.session.begun, prompt := Text.strip turn.transcript }

section Replies

variable {es : List Event} {turn : UserTurnCompleted} {userSpeaking userSpeaking' : Bool} {ticket ticket' r g : Nat}
  {prompt : Text} {history : List Entry}

/-- The step calls `_reply`, which waits. -/
theorem next_of_reply (hl : ∀ g w, l ≠ .generation g w) (hes : ∀ e ∈ es, e.said = false)
    (htrace : t.trace = d.session.trace ++ (es ++ [.reply turn userSpeaking, .begin ticket userSpeaking])) :
    d.next l t = { d with session := t, turns := d.turns ++ [d.recording turn] } := by
  have hnone : (es ++ [Event.reply turn userSpeaking, .begin ticket userSpeaking]).findSome? Event.generation? = none := by
    rw [List.findSome?_append, generation?_of_unsaid hes]
    rfl
  unfold next
  rw [since_of_append htrace, List.filterMap_append, turns_of_unsaid hes, asking_of_generation hnone, answered_of_ne hl]
  rfl

/-- The step calls `_reply`, which starts its generation at once. -/
theorem next_of_reply_begun (hl : ∀ g w, l ≠ .generation g w) (hes : ∀ e ∈ es, e.said = false)
    (hticket : ∀ e ∈ es, e.ticket? = none)
    (htrace : t.trace = d.session.trace ++ (es ++ [.reply turn userSpeaking, .begin ticket' userSpeaking, .opened ticket r,
      .generation g r prompt history userSpeaking'])) :
    d.next l t = { session := t, turns := d.turns ++ [d.recording turn], asked := Function.update d.asked g (some ticket) } := by
  have hnone : es.findSome? Event.ticket? = none := List.findSome?_eq_none_iff.mpr hticket
  unfold next
  rw [since_of_append htrace, List.filterMap_append, turns_of_unsaid hes, answered_of_ne hl, asking, List.findSome?_append,
    List.findSome?_append, hnone, generation?_of_unsaid hes]
  rfl

/-- The step starts the generation of a `_reply` that has waited. -/
theorem next_of_begun (hl : ∀ g w, l ≠ .generation g w)
    (htrace : t.trace = d.session.trace ++ [.opened ticket r, .generation g r prompt history userSpeaking]) :
    d.next l t = { session := t, turns := d.turns, asked := Function.update d.asked g (some ticket) } := by
  unfold next
  rw [since_of_append htrace, answered_of_ne hl,
    show [Event.opened ticket r, .generation g r prompt history userSpeaking].filterMap (Event.turn? d.session.begun) = [] from rfl,
    List.append_nil]
  rfl

end Replies

namespace Kept

theorem reply (h : Kept cfg d) (hl : ∀ g w, l ≠ .generation g w) (hwhole : Whole cfg.historyTurns d.turns = true)
    (hu : Unsaid d.session u) (hbegun : u.begun = d.session.begun) {es : List Event} (htrace : u.trace = d.session.trace ++ es)
    (hticket : ∀ e ∈ es, e.ticket? = none) (me : Handler) (turn : UserTurnCompleted) :
    Kept cfg (d.next l (u.reply cfg me turn)) := by
  have hes : ∀ e ∈ es, e.said = false := by
    obtain ⟨es', htrace', hes'⟩ := hu.trace
    rwa [List.append_cancel_left (htrace.symm.trans htrace')]
  have hkept : Kept cfg { d with session := u } := h.unsaid hu
  have hrecorded := hkept.records turn
  have hwindow : Window cfg.historyTurns (d.turns ++ [d.recording turn]) u.history := by
    rw [hkept.recorded]
    exact .of_whole hwhole _
  have hturn : d.recording turn = { ticket := u.begun, prompt := Text.strip turn.transcript } := by
    rw [recording, hbegun]
  rw [hturn] at hwindow
  have hunasked : Unasked { d with
      session := u.replyBegins cfg turn
      turns := d.turns ++ [{ ticket := u.begun, prompt := Text.strip turn.transcript }] } u.begun := by
    refine ⟨Nat.lt_succ_self _, fun g hg => ?_, fun other history hk => ?_⟩
    · exact lt_irrefl _ (hkept.asked g _ hg).2.1
    · exact lt_irrefl _ (hkept.waiting other history _ hk).1
  unfold Session.reply Session.ttsStop
  split
  · have htrace' : ((u.replyBegins cfg turn).replyBegun me turn u.history u.begun).trace = d.session.trace ++
        (es ++ [.reply turn u.state.isUserSpeaking, .begin u.begun u.state.isUserSpeaking, .opened u.begun u.tts.count,
          .generation u.llm.count u.tts.count (Text.strip turn.transcript) u.history u.state.isUserSpeaking]) := by
      simp [Session.replyBegun, htrace]
    rw [next_of_reply_begun hl hes hticket htrace', hturn]
    exact hrecorded.asks hunasked hwindow me turn
  · rename_i r hactive
    generalize ht : Session.park me { u.replyBegins cfg turn with tts := (u.replyBegins cfg turn).tts.cancel r }
      (.stopping r u.tts.audioSent (.reply turn u.history u.begun)) = t
    have htrace' : t.trace = d.session.trace ++
        (es ++ [.reply turn u.state.isUserSpeaking, .begin u.begun u.state.isUserSpeaking]) := by
      simp [← ht, htrace]
    have hkept' : Kept cfg (d.next l t) := by
      rw [next_of_reply hl hes htrace', hturn, ← ht]
      exact hrecorded.waits hunasked hwindow me r _ _
    exact ht ▸ hkept'

theorem begins (h : Kept cfg d) (hl : ∀ g w, l ≠ .generation g w) {history : List Entry} {ticket : Nat}
    (hsnapshot : d.session.snapshotAt me = some (history, ticket)) (turn : UserTurnCompleted) :
    Kept cfg (d.next l ((d.session.leave me).replyBegun me turn history ticket)) := by
  have hat : ∀ other, (d.session.leave me).snapshotAt other = if other = me then none else d.session.snapshotAt other :=
    snapshotAt_update (s := d.session) (c := .done) rfl
  have hleft : Unsaid d.session (d.session.leave me) :=
    .of_update (c := .done) rfl (fun _ hx => nomatch hx) (Or.inl rfl) rfl le_rfl (List.append_nil _).symm (by simp)
  obtain ⟨hbelow, hwindow⟩ := h.waiting me history ticket hsnapshot
  have hunasked : Unasked { d with session := d.session.leave me } ticket := by
    refine ⟨hbelow, fun g hg => (h.asked g ticket hg).2.2 me history hsnapshot, fun other history' hk => ?_⟩
    rw [hat] at hk
    split at hk
    · cases hk
    · rename_i hne
      exact hne (h.apart other me history' history ticket hk hsnapshot)
  have htrace : ((d.session.leave me).replyBegun me turn history ticket).trace = d.session.trace ++
      [.opened ticket d.session.tts.count, .generation d.session.llm.count d.session.tts.count (Text.strip turn.transcript)
        history d.session.state.isUserSpeaking] := by
    simp [Session.replyBegun]
  rw [next_of_begun hl htrace]
  exact (h.unsaid hleft).asks hunasked hwindow me turn

/-- A call into the session takes a step. -/
theorem tells (h : Kept cfg d) (hl : ∀ g w, l ≠ .generation g w)
    (hwhole : d.session.callsReply cfg l = true → Whole cfg.historyTurns d.turns = true) (ht : Tells cfg d.session l t) :
    Kept cfg (d.next l t) := by
  cases ht with
  | silent hu =>
      obtain ⟨es, htrace, hes⟩ := hu.trace
      rw [next_of_unsaid htrace hes, answered_of_ne hl]
      exact h.unsaid hu
  | @replies me u es hcalls hu hbegun htrace hes turn =>
      exact h.reply hl (hwhole hcalls) hu hbegun htrace hes me turn
  | begins hsnapshot => exact h.begins hl hsnapshot _

/-- A generation takes a step. -/
theorem generation (h : Kept cfg d) {g : Nat} {w : Wake Llm.Item}
    (hlast : d.session.answerOf g w ≠ none → d.answersLast g = true) (hs : Speaks cfg g w d.session t) :
    Kept cfg (d.next (.generation g w) t) := by
  obtain ⟨es, htrace, hes⟩ := hs.aside.trace
  rw [next_of_unsaid htrace (fun e he => (hes e he).not_said)]
  cases htext : d.session.answerOf g w with
  | none =>
      have hsame : d.answered (.generation g w) = d.turns := by
        unfold Dialogue.answered
        simp only [htext]
      have hunsaid : Unsaid d.session t := by
        refine ⟨by rw [hs.history, htext]; rfl, le_of_eq hs.aside.begun.symm, hs.count, hs.ended, fun me x hx => ?_, es, htrace,
          fun e he => (hes e he).not_said⟩
        rwa [Session.snapshotAt, hs.aside.handler] at hx
      rw [hsame]
      exact h.unsaid hunsaid
  | some text =>
      have hlast' := hlast (by simp [htext])
      unfold answersLast at hlast'
      obtain ⟨last, hgetLast, hasked⟩ := (Option.any_eq_true _ _).mp hlast'
      have hasked' : d.asked g = some last.ticket := of_decide_eq_true hasked
      obtain ⟨turns, hturns⟩ : ∃ turns, d.turns = turns ++ [last] := List.getLast?_eq_some_iff.mp hgetLast
      have hothers : ∀ turn ∈ turns, turn.ticket ≠ last.ticket := by
        intro turn hturn heq
        have htickets := h.tickets
        rw [hturns, List.map_append, List.nodup_append] at htickets
        exact htickets.2.2 turn.ticket (List.mem_map_of_mem hturn) last.ticket (by simp) heq
      have hanswered : d.answered (.generation g w) = turns ++ [{ last with answer := some text }] := by
        unfold Dialogue.answered
        simp only [htext, hasked']
        rw [hturns, answer, List.map_append, ← answer, answer_of_forall_ne hothers]
        simp
      rw [hanswered]
      exact h.answers hs htext hturns hasked'

theorem step (h : Kept cfg d) (ht : Typed d.session) (hok : AnsweredInTurn cfg d l = true) (hstep : Voice.step cfg d.session l = some t) :
    Kept cfg (d.next l t) := by
  unfold AnsweredInTurn at hok
  rw [Bool.and_eq_true] at hok
  obtain ⟨hwhole, hlast⟩ := hok
  by_cases hl : ∃ g w, l = .generation g w
  · obtain ⟨g, w, rfl⟩ := hl
    refine h.generation (fun hsome => ?_) (.of_resume hstep)
    simpa [Option.isNone_iff_eq_none, hsome] using hlast
  · have hne : ∀ g w, l ≠ .generation g w := fun g w heq => hl ⟨g, w, heq⟩
    have hcalls : d.session.callsReply cfg l = true → Whole cfg.historyTurns d.turns = true := by
      intro hcalls
      simpa [hcalls] using hwhole
    cases Stepped.of_step ht hstep with
    | called hc => exact h.tells hne hcalls (.of_called hc)
    | generation => exact absurd rfl (hne _ _)
    | reply hreply => exact h.tells hne hcalls (.silent (.of_resumeReply hreply))

end Kept

/-- The histories that the generations have been given. -/
def histories (trace : List Event) : List (List Entry) :=
  trace.filterMap fun e => match e with
    | .generation _ _ _ history _ => some history
    | _ => none

/-- Every generation has been given a well-formed history. -/
def HistoryWellFormed (cfg : Config) (d : Dialogue) : Prop :=
  ∀ history ∈ histories d.session.trace, WellFormed cfg.historyTurns d.turns history

instance (cfg : Config) (d : Dialogue) : Decidable (HistoryWellFormed cfg d) :=
  inferInstanceAs (Decidable (∀ history ∈ histories d.session.trace, WellFormed cfg.historyTurns d.turns history))

/-- **The history is well formed**, in every run that answers each turn before the next one is recorded and
records no turn while the window cuts one. -/
theorem historyWellFormed_of_answeredInTurn (cfg : Config) {ls : List Label} {d : Dialogue}
    (h : Run (step cfg) (fun d l => AnsweredInTurn cfg d l = true) (Dialogue.fresh cfg) ls d) : HistoryWellFormed cfg d := by
  have hkept : Typed d.session ∧ Kept cfg d := by
    refine h.invariant (I := fun d => Typed d.session ∧ Kept cfg d) ⟨Typed.fresh cfg, Kept.fresh cfg⟩ ?_
    rintro d d' l ⟨ht, hk⟩ hok hstep
    obtain ⟨t, ht', rfl⟩ := Option.map_eq_some_iff.mp hstep
    exact ⟨ht.step ht', hk.step ht hok ht'⟩
  intro history hmem
  obtain ⟨e, he, hhistory⟩ := List.mem_filterMap.mp hmem
  cases e with
  | generation g r prompt given userSpeaking =>
      cases hhistory
      exact (hkept.2.given g r prompt history userSpeaking he).wellFormed
  | _ => cases hhistory

/-! ## Runs -/

/-- The last step of a barge-in that finds no audio sent, with the call of `_reply` after it. -/
def bargedIn (r : Nat) : List Label := [.reply r .cancelled, .handler .stt (.ok ()), .handler .stt (.ok ())]

/-- A generation that says one word and completes. -/
def saysHello (g : Nat) : List Label :=
  [.generation g (.ok .none), .generation g (.ok (.token "Hello.".toList 0)), .generation g (.ok .none),
    .generation g (.ok .none), .generation g (.ok .none)]

/-- The second turn is interrupted in the middle of its answer, which is remembered in time. -/
def answeredTurns : List Label :=
  .transcript .stt ⟨.FINAL, anId, "Good morning.".toList⟩ :: saysHello 0 ++
    .transcript .stt ⟨.FINAL, anId, "Hello?".toList⟩ :: bargedIn 0 ++
    [.generation 1 (.ok .none), .generation 1 (.ok (.token "Yes.".toList 0)),
      .transcript .stt ⟨.FINAL, anId, "Are you there?".toList⟩, .generation 1 .cancelled, .generation 1 (.ok .none)] ++
    bargedIn 1

theorem historyWellFormed_answeredTurns : ∃ d,
    Run (step {}) (fun d l => AnsweredInTurn {} d l = true) (Dialogue.fresh {}) answeredTurns d ∧ HistoryWellFormed {} d ∧
      (histories d.session.trace).getLast? = some [⟨.user, "Good morning.".toList⟩, ⟨.assistant, "Hello.".toList⟩,
        ⟨.user, "Hello?".toList⟩, ⟨.assistant, "Yes.".toList⟩] := by
  obtain ⟨d, hrun, hlast⟩ := Run.exists_of_exec
    (P := fun d => (histories d.session.trace).getLast? == some [⟨.user, "Good morning.".toList⟩,
      ⟨.assistant, "Hello.".toList⟩, ⟨.user, "Hello?".toList⟩, ⟨.assistant, "Yes.".toList⟩]) (s := Dialogue.fresh {})
    (show (exec (step {}) (fun d l => AnsweredInTurn {} d l = true) _ answeredTurns).any _ = true by decide +kernel)
  exact ⟨d, hrun, historyWellFormed_of_answeredInTurn {} hrun, by simpa using hlast⟩

/-- The first turn is interrupted in the middle of its answer, and the cancelled generation ends when the
second turn has been recorded. -/
def lateAnswer : List Label :=
  [.transcript .stt ⟨.FINAL, anId, "Good morning.".toList⟩, .generation 0 (.ok .none),
    .generation 0 (.ok (.token "Hello.".toList 0)), .transcript .stt ⟨.FINAL, anId, "Hello?".toList⟩] ++ bargedIn 0 ++
    [.generation 0 .cancelled, .generation 0 (.ok .none), .transcript .stt ⟨.FINAL, anId, "Are you there?".toList⟩] ++
    bargedIn 1

/-- The answer to the first turn stands after the second one. -/
theorem lateAnswer_not_historyWellFormed : ∃ d,
    Run (step {}) (fun _ l => l.plain = true) (Dialogue.fresh {}) lateAnswer d ∧ ¬ HistoryWellFormed {} d := by
  obtain ⟨d, hrun, hnot⟩ := Run.exists_of_exec
    (P := fun d => !decide (HistoryWellFormed {} d)) (s := Dialogue.fresh {})
    (show (exec (step {}) (fun _ l => l.plain = true) _ lateAnswer).any _ = true by decide +kernel)
  exact ⟨d, hrun, by simpa using hnot⟩

/-- The second turn is interrupted before its answer has begun. -/
def unansweredTurn : List Label :=
  .transcript .stt ⟨.FINAL, anId, "Good morning.".toList⟩ :: saysHello 0 ++
    .transcript .stt ⟨.FINAL, anId, "Hello?".toList⟩ :: bargedIn 0 ++
    .transcript .stt ⟨.FINAL, anId, "Are you there?".toList⟩ :: bargedIn 1

/-- With room for one turn, the third generation is given an answer without its question. -/
theorem unansweredTurn_not_historyWellFormed : ∃ d,
    Run (step { historyTurns := 1 }) (fun _ l => l.plain = true) (Dialogue.fresh { historyTurns := 1 }) unansweredTurn d ∧
      ¬ HistoryWellFormed { historyTurns := 1 } d := by
  obtain ⟨d, hrun, hnot⟩ := Run.exists_of_exec
    (P := fun d => !decide (HistoryWellFormed { historyTurns := 1 } d)) (s := Dialogue.fresh { historyTurns := 1 })
    (show (exec (step { historyTurns := 1 }) (fun _ l => l.plain = true) _ unansweredTurn).any _ = true by decide +kernel)
  exact ⟨d, hrun, by simpa using hnot⟩

end Dialogue

end Voxera.Voice
