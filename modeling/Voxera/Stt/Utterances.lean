import Voxera.Naming
import Voxera.Stt.Finalize

/-!
# The ids of the utterances

Both engines give each event an id: that of the utterance, which `process_audio` takes from `uuid4` where there is none, and a fresh one
where no audio has come since the last FINAL event. Audio, messages and resets come in any order.

* `DeepgramEngine.utterances`, `TranscribeEngine.utterances` : the engines as `Namer`s;
* `DeepgramEngine.sameTurn_iff`, `TranscribeEngine.sameUtterance_iff` : which events share an id;
* `TranscribeEngine.receive_eq` : a message of Transcribe is a run over its results.
-/

namespace Voxera.Stt

open Namer (Use fresh)

theorem notFinal_iff {event : SttEvent} : decide (event.type = .FINAL) = false ↔ event.type = .PARTIAL := by
  cases event.type <;> simp

namespace DeepgramEngine

/-- `reset` -/
def reset (_ : DeepgramEngine) : DeepgramEngine := {}

section Message
variable {e : DeepgramEngine} {uuid : Text} {payload : Payload}

/-- A message that gives no event leaves the id. -/
theorem utteranceId_of_silent (h : (e.parseResult uuid payload).1 = none) : (e.parseResult uuid payload).2.utteranceId = e.utteranceId := by
  unfold parseResult at h ⊢
  grind [finalEvent]

/-- The id of an event is that of the utterance or the fresh one, and a FINAL event ends the utterance. -/
theorem utteranceId_of_event {event : SttEvent} (h : (e.parseResult uuid payload).1 = some event) :
    event.utteranceId = e.utteranceId.getD uuid ∧
    (e.parseResult uuid payload).2.utteranceId = if event.type = .FINAL then none else e.utteranceId := by
  unfold parseResult at h ⊢
  grind [finalEvent]

end Message

def utterances : Namer DeepgramEngine Payload SttEvent Text where
  take := processAudio
  mark := parseResult
  drop := reset
  held := (·.utteranceId)
  name := (·.utteranceId)
  closes event := event.type = .FINAL
  held_take _ _ := rfl
  held_drop _ := rfl
  held_silent _ _ _ := utteranceId_of_silent
  held_out _ _ _ _ h := by simpa using (utteranceId_of_event h).2
  name_out _ _ _ _ h := (utteranceId_of_event h).1

/-- **The ids of two events**: they are equal exactly when audio had come in the turn of the first, this one is no FINAL event, and
neither a reset nor a FINAL event stands between them. -/
theorem sameTurn_iff {before between : List (Use Payload Text)} {uuid uuid' : Text} {payload payload' : Payload} {event event' : SttEvent}
    (hfresh : (fresh (before ++ .mark uuid payload :: (between ++ [.mark uuid' payload']))).Nodup)
    (hevent : ((utterances.after {} before).parseResult uuid payload).1 = some event)
    (hevent' : ((utterances.after {} (before ++ .mark uuid payload :: between)).parseResult uuid' payload').1 = some event') :
    event.utteranceId = event'.utteranceId ↔ utterances.InHand {} before ∧ event.type = .PARTIAL ∧
      utterances.Keeps (utterances.after {} (before ++ [.mark uuid payload])) between := by
  rw [← notFinal_iff]
  exact utterances.name_eq_iff (s := {}) rfl hfresh hevent hevent'

def spoken : Alternative where
  transcript := some "where is".toList
  confidence := some 1

/-- The message of an interim result, and the one that ends the turn. -/
def interimPayload : Payload where
  alternatives := [spoken]

def finalPayload : Payload where
  alternatives := [spoken]
  isFinal := true
  speechFinal := true

theorem sameTurn_iff_oneTurn : ∃ event event' : SttEvent,
    ((utterances.after {} [.take "a".toList]).parseResult "b".toList interimPayload).1 = some event ∧
    ((utterances.after {} [.take "a".toList, .mark "b".toList interimPayload]).parseResult "c".toList finalPayload).1 = some event' ∧
    event.utteranceId = event'.utteranceId ∧ event'.type = .FINAL := by
  have hevent : ((utterances.after {} [.take "a".toList]).parseResult "b".toList interimPayload).1 =
      some { type := .PARTIAL, utteranceId := "a".toList, transcript := "where is".toList, confidence := 1 } := by decide +kernel
  have hevent' : ((utterances.after {} [.take "a".toList, .mark "b".toList interimPayload]).parseResult "c".toList finalPayload).1 =
      some { type := .FINAL, utteranceId := "a".toList, transcript := "where is".toList, confidence := 1 } := by decide +kernel
  refine ⟨_, _, hevent, hevent', ?_, rfl⟩
  exact (@sameTurn_iff [.take "a".toList] [] _ _ _ _ _ _ (by decide) hevent hevent').mpr
    ⟨⟨[], "a".toList, [], rfl, Namer.keeps_nil⟩, rfl, Namer.keeps_nil⟩

end DeepgramEngine

namespace TranscribeEngine

/-- `reset` -/
def reset (_ : TranscribeEngine) : TranscribeEngine := {}

/-- What `process_audio` does to the id of the utterance. -/
def processAudio (e : TranscribeEngine) (uuid : Text) : TranscribeEngine :=
  { e with utteranceId := some (e.utteranceId.getD uuid) }

/-- `parse_results`, on one of the results. -/
def parseResult (e : TranscribeEngine) (uuid : Text) (result : TranscribeResult) : Option SttEvent × TranscribeEngine :=
  match result.alternatives with
  | [] => (none, e)
  | alternative :: _ =>
    let transcript := Text.strip alternative
    if transcript.isEmpty then (none, e)
    else
      let utteranceId := e.utteranceId.getD uuid
      if result.isPartial then (some { type := .PARTIAL, utteranceId, transcript, confidence := 1 / 2 }, e)
      else (some { type := .FINAL, utteranceId, transcript, confidence := 1 }, { e with utteranceId := none })

section Result
variable {e : TranscribeEngine} {uuid : Text} {result : TranscribeResult}

theorem utteranceId_of_silent (h : (e.parseResult uuid result).1 = none) : (e.parseResult uuid result).2 = e := by
  unfold parseResult at h ⊢
  grind

theorem utteranceId_of_event {event : SttEvent} (h : (e.parseResult uuid result).1 = some event) :
    event.utteranceId = e.utteranceId.getD uuid ∧
    (e.parseResult uuid result).2.utteranceId = if event.type = .FINAL then none else e.utteranceId := by
  unfold parseResult at h ⊢
  grind

end Result

def utterances : Namer TranscribeEngine TranscribeResult SttEvent Text where
  take := processAudio
  mark := parseResult
  drop := reset
  held := (·.utteranceId)
  name := (·.utteranceId)
  closes event := event.type = .FINAL
  held_take _ _ := rfl
  held_drop _ := rfl
  held_silent _ _ _ h := congrArg utteranceId (utteranceId_of_silent h)
  held_out _ _ _ _ h := by simpa using (utteranceId_of_event h).2
  name_out _ _ _ _ h := (utteranceId_of_event h).1

theorem parseResults_cons {e : TranscribeEngine} {uuid : Text} {result : TranscribeResult} {results : List (Text × TranscribeResult)} :
    e.parseResults ((uuid, result) :: results) = ((e.parseResult uuid result).1.toList ++
      ((e.parseResult uuid result).2.parseResults results).1, ((e.parseResult uuid result).2.parseResults results).2) := by
  cases halternatives : result.alternatives with
  | nil => simp [parseResults, parseResult, halternatives]
  | cons alternative rest =>
      by_cases hempty : (Text.strip alternative).isEmpty = true
      · simp [parseResults, parseResult, halternatives, hempty]
      · cases hpartial : result.isPartial <;> simp [parseResults, parseResult, halternatives, hempty, hpartial]

/-- The results of a message, each with its `uuid4`, as steps of a run. -/
def uses (results : List (Text × TranscribeResult)) : List (Use TranscribeResult Text) := results.map fun r => .mark r.1 r.2

/-- A message is a run over its results. -/
theorem receive_eq {e : TranscribeEngine} (h : e.receiverDone = false) (results : List (Text × TranscribeResult)) :
    e.receive (.transcript results) = (utterances.outs e (uses results), utterances.after e (uses results)) := by
  rw [receive, if_neg (by simp [h])]
  clear h
  induction results generalizing e with
  | nil => rfl
  | cons r results ih =>
      rw [parseResults_cons, ih]
      rfl

/-- **The ids of two events**, of one message or of two. -/
theorem sameUtterance_iff {before between : List (Use TranscribeResult Text)} {uuid uuid' : Text} {result result' : TranscribeResult}
    {event event' : SttEvent} (hfresh : (fresh (before ++ .mark uuid result :: (between ++ [.mark uuid' result']))).Nodup)
    (hevent : ((utterances.after {} before).parseResult uuid result).1 = some event)
    (hevent' : ((utterances.after {} (before ++ .mark uuid result :: between)).parseResult uuid' result').1 = some event') :
    event.utteranceId = event'.utteranceId ↔ utterances.InHand {} before ∧ event.type = .PARTIAL ∧
      utterances.Keeps (utterances.after {} (before ++ [.mark uuid result])) between := by
  rw [← notFinal_iff]
  exact utterances.name_eq_iff (s := {}) rfl hfresh hevent hevent'

/-- An interim result, and one that ends the turn. -/
def interimResult : TranscribeResult where
  alternatives := ["where".toList]

def finalResult : TranscribeResult where
  alternatives := ["where is".toList]
  isPartial := false

theorem sameUtterance_iff_oneTurn : ∃ event event' : SttEvent,
    ((utterances.after {} [.take "a".toList]).parseResult "b".toList interimResult).1 = some event ∧
    ((utterances.after {} [.take "a".toList, .mark "b".toList interimResult]).parseResult "c".toList finalResult).1 = some event' ∧
    event.utteranceId = event'.utteranceId ∧ event'.type = .FINAL := by
  have hevent : ((utterances.after {} [.take "a".toList]).parseResult "b".toList interimResult).1 =
      some { type := .PARTIAL, utteranceId := "a".toList, transcript := "where".toList, confidence := 1 / 2 } := by decide +kernel
  have hevent' : ((utterances.after {} [.take "a".toList, .mark "b".toList interimResult]).parseResult "c".toList finalResult).1 =
      some { type := .FINAL, utteranceId := "a".toList, transcript := "where is".toList, confidence := 1 } := by decide +kernel
  refine ⟨_, _, hevent, hevent', ?_, rfl⟩
  exact (@sameUtterance_iff [.take "a".toList] [] _ _ _ _ _ _ (by decide) hevent hevent').mpr
    ⟨⟨[], "a".toList, [], rfl, Namer.keeps_nil⟩, rfl, Namer.keeps_nil⟩

end TranscribeEngine

end Voxera.Stt
