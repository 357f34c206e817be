import Voxera.EventLoop.Run
import Voxera.Since
import Voxera.Table
import Voxera.Text
import Mathlib.Data.Rat.Defs

/-!
# `VoxeraState`: what the page shows of a conversation

* `Turn` : a bubble of the conversation; `upsertSystemTurn` : the bubble of a reply is made or changed;
* `ServerEvent` : a JSON message of the server, with its fields read;
* `VoxeraState.onJson` : the `setState` calls of the handler of these messages, at `Date.now()`.

The state of the socket, the microphone and the player are not read by what is here.
-/

namespace Voxera.Web

/-- What `trim()` removes at the ends. -/
def isJsSpace (c : Char) : Bool :=
  let n := c.toNat
  (0x09 ≤ n && n ≤ 0x0D) || n == 0x20 || n == 0xA0 || n == 0x1680 || (0x2000 ≤ n && n ≤ 0x200A) || n == 0x2028 ||
    n == 0x2029 || n == 0x202F || n == 0x205F || n == 0x3000 || n == 0xFEFF

/-- `!text.trim()` -/
def blank (text : Text) : Bool := text.all isJsSpace

inductive Role where
  | user
  | system
  deriving DecidableEq, Repr

structure Turn where
  id : Text
  role : Role
  text : Text
  isPartial : Bool := false
  cancelled : Bool := false
  utteranceId : Option Text := none
  timestamp : ℕ
  deriving DecidableEq, Repr

/-- What the messages of the LLM change in the bubble of their reply. -/
inductive Patch where
  /-- `llm_partial`, with `accumulated`. -/
  | token (accumulated : Text)
  /-- `llm_final` -/
  | final (text : Text)
  /-- `llm_cancelled` -/
  | cancelled (text : Text)
  deriving DecidableEq, Repr

/-- `{ ...turn, ...patch }` -/
def Patch.apply : Patch → Turn → Turn
  | .token accumulated, turn => { turn with text := accumulated, isPartial := true }
  | .final text, turn => { turn with text, isPartial := false, cancelled := false }
  | .cancelled text, turn => { turn with text, isPartial := false, cancelled := true }

/-- `sys-${utteranceId}` -/
def systemId (utteranceId : Text) : Text := "sys-".toList ++ utteranceId

/-- `usr-partial-${utteranceId}` -/
def partialId (utteranceId : Text) : Text := "usr-partial-".toList ++ utteranceId

/-- `usr-${utteranceId}` -/
def userId (utteranceId : Text) : Text := "usr-".toList ++ utteranceId

/-- The new bubble of a reply. -/
def systemTurn (utteranceId : Text) (now : ℕ) : Turn :=
  { id := systemId utteranceId, role := .system, text := [], utteranceId := some utteranceId, timestamp := now }

def upsertSystemTurn (turns : List Turn) (utteranceId : Text) (patch : Patch) (now : ℕ) : List Turn :=
  Table.upsert (fun t => t.id = systemId utteranceId) patch.apply (patch.apply (systemTurn utteranceId now)) turns

/-- `partial`, of a transcript that is not blank. -/
def upsertPartial (turns : List Turn) (utteranceId : Option Text) (transcript : Text) (now : ℕ) : List Turn :=
  let id := partialId (utteranceId.getD "live".toList)
  Table.upsert (fun t => t.id = id) (fun t => { t with text := transcript, isPartial := true })
    { id, role := .user, text := transcript, isPartial := true, timestamp := now } turns

/-- The bubble that a final transcript replaces. -/
def liveBubble (turns : List Turn) (utteranceId : Text) : Option ℕ :=
  (turns.findIdx? (fun t => t.id = partialId utteranceId)).or (turns.findIdx? (fun t => t.role = .user ∧ t.isPartial = true))

/-- `usr-${utteranceId}`, or a longer id where this one is taken. -/
def finalId (turns : List Turn) (utteranceId : Text) : Text :=
  if turns.any (fun t => t.id = userId utteranceId) then userId utteranceId ++ '-' :: Nat.toDigits 10 turns.length
  else userId utteranceId

/-- `final` -/
def applyFinal (turns : List Turn) (utteranceId : Text) (text : Text) (now : ℕ) : List Turn :=
  match liveBubble turns utteranceId with
  | some i =>
    if blank text then turns.eraseIdx i
    else turns.modify i (fun old =>
      { id := finalId turns utteranceId, role := .user, text, utteranceId := some utteranceId, timestamp := old.timestamp })
  | none =>
    if blank text then turns
    else turns ++ [{ id := finalId turns utteranceId, role := .user, text, utteranceId := some utteranceId, timestamp := now }]

structure LlmMetrics where
  timeToFirstTokenMs : Option ℚ
  totalGenerationMs : Option ℚ
  tokenCount : Option ℚ
  tokensPerSecond : Option ℚ
  deriving DecidableEq, Repr

structure TtsMetrics where
  timeToFirstAudioMs : Option ℚ
  totalAudioMs : Option ℚ
  frameCount : Option ℚ
  framesPerSecond : Option ℚ
  deriving DecidableEq, Repr

structure TurnMetrics where
  utteranceId : Text
  transcriptFinalToLlmFirstTokenMs : Option ℚ
  transcriptFinalToFirstAudioMs : Option ℚ
  llmFirstTokenToFirstAudioMs : Option ℚ
  deriving DecidableEq, Repr

/-- `toTtsMetrics`: a message without any number is none. -/
def TtsMetrics.known (m : TtsMetrics) : Bool :=
  m.timeToFirstAudioMs.isSome || m.totalAudioMs.isSome || m.frameCount.isSome || m.framesPerSecond.isSome

/-- `MAX_METRIC_HISTORY` -/
def maxMetricHistory : ℕ := 30

/-- `[...history, x].slice(-MAX_METRIC_HISTORY)` -/
def remember {α : Type} (history : List α) (x : α) : List α :=
  (history ++ [x]).drop ((history ++ [x]).length - maxMetricHistory)

/-- A JSON message of the server, with its fields read: `stringOrNull`, `numberOrNull`, `toLlmMetrics`. -/
inductive ServerEvent where
  | connection (status : Text) (conversationId : Option Text)
  | llmToken (utteranceId accumulated : Text)
  | llmFinal (utteranceId text : Text) (metrics : Option LlmMetrics)
  | llmCancelled (utteranceId partialText : Text) (metrics : Option LlmMetrics)
  | ttsStart
  | ttsEnd
  | ttsClear (reason : Option Text)
  | ttsMetrics (metrics : TtsMetrics)
  | turnMetrics (metrics : TurnMetrics)
  | error (code message : Option Text)
  /-- `partial`; `none` where `transcript` is no string. -/
  | transcriptPartial (utteranceId transcript : Option Text)
  /-- `final`, where a `transcript` that is no string counts as empty. -/
  | transcriptFinal (utteranceId transcript : Text)
  /-- `ping`, `pong` and the types that the page does not know. -/
  | other
  deriving DecidableEq, Repr

structure VoxeraState where
  conversationId : Option Text := none
  turns : List Turn := []
  userSpeaking : Bool := false
  bargeIn : Bool := false
  lastLlmMetrics : Option LlmMetrics := none
  lastTtsMetrics : Option TtsMetrics := none
  lastTurnMetrics : Option TurnMetrics := none
  llmMetricHistory : List LlmMetrics := []
  ttsMetricHistory : List TtsMetrics := []
  serverError : Option (Text × Text) := none
  deriving DecidableEq, Repr

namespace VoxeraState

/-- The metrics of a reply, where they came with its end. -/
def llmMetrics (s : VoxeraState) : Option LlmMetrics → VoxeraState
  | none => s
  | some m => { s with lastLlmMetrics := some m, llmMetricHistory := remember s.llmMetricHistory m }

/-- The handler of the JSON messages, at `Date.now()`. -/
def onJson (s : VoxeraState) (now : ℕ) : ServerEvent → VoxeraState
  | .connection status conversationId =>
    if status ≠ "connected".toList then { s with conversationId := none, userSpeaking := false }
    else { s with conversationId := conversationId.or s.conversationId }
  | .llmToken u accumulated => { s with turns := upsertSystemTurn s.turns u (.token accumulated) now }
  | .llmFinal u text metrics => { s with turns := upsertSystemTurn s.turns u (.final text) now }.llmMetrics metrics
  | .llmCancelled u text metrics =>
    { s with turns := upsertSystemTurn s.turns u (.cancelled text) now, bargeIn := true }.llmMetrics metrics
  | .ttsClear reason => if reason = some "barge_in".toList then { s with bargeIn := true } else s
  | .ttsMetrics m =>
    if m.known then { s with lastTtsMetrics := some m, ttsMetricHistory := remember s.ttsMetricHistory m } else s
  | .turnMetrics m => { s with lastTurnMetrics := some m }
  | .error code message =>
    { s with
      serverError :=
        some (code.getD "unknown".toList, message.getD "The server reported an error without a message.".toList) }
  | .transcriptPartial u transcript =>
    match transcript with
    | none => s
    | some text => if blank text then s else { s with turns := upsertPartial s.turns u text now, userSpeaking := true }
  | .transcriptFinal u text => { s with turns := applyFinal s.turns u text now, userSpeaking := false }
  | .ttsStart | .ttsEnd | .other => s

/-- `sendDevTestTranscript` -/
def devTestTranscript (s : VoxeraState) (text : Text) (now : ℕ) : VoxeraState :=
  { s with turns := s.turns ++ [{ id := userId (Nat.toDigits 10 now), role := .user, text, timestamp := now }] }

/-- `clearConversation` -/
def clearConversation (s : VoxeraState) : VoxeraState :=
  { s with
    turns := []
    lastLlmMetrics := none
    lastTtsMetrics := none
    lastTurnMetrics := none
    llmMetricHistory := []
    ttsMetricHistory := [] }

end VoxeraState

/-- What changes the conversation, at `Date.now()`. -/
inductive StateLabel where
  | json (e : ServerEvent) (now : ℕ)
  | devTestTranscript (text : Text) (now : ℕ)
  | clearConversation
  /-- `setState(defaultState)` -/
  | disconnect
  /-- The timer of `flagBargeIn` runs out. -/
  | bargeInOver
  | dismissServerError
  deriving DecidableEq, Repr

namespace VoxeraState

def step (s : VoxeraState) : StateLabel → Option VoxeraState
  | .json e now => some (s.onJson now e)
  | .devTestTranscript text now => some (s.devTestTranscript text now)
  | .clearConversation => some s.clearConversation
  | .disconnect => some {}
  | .bargeInOver => some { s with bargeIn := false }
  | .dismissServerError => some { s with serverError := none }

end VoxeraState

end Voxera.Web
