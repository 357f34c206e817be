import Voxera.Conversation
import Mathlib.Algebra.Order.Ring.Unbundled.Rat

/-!
# `DeepgramStreamingSTTEngine`: segments and turns

The recogniser finishes a turn segment by segment. A message may fix a segment (`is_final`), may end the turn
(`speech_final`, or the message `UtteranceEnd`), and may do both or neither.

* `DeepgramEngine.parseResult` : `_parse_result`, with the text of a fresh `uuid4`;
* `Input` : what happens to the segments and the id of the utterance: a message, or `process_audio`;
* `finals`, `fixed` : the texts of the FINAL events, and the segments that the messages fixed;
* `assembles` : the events say what the segments say.
-/

namespace Voxera.Stt

/-- One of the `alternatives` of a channel. -/
structure Alternative where
  transcript : Option Text := none
  confidence : Option ℚ := none

/-- A message of the recogniser; what it has no field for is empty. -/
structure Payload where
  type : Option Text := none
  /-- `channel["alternatives"]` -/
  alternatives : List Alternative := []
  isFinal : Bool := false
  speechFinal : Bool := false

/-- A `TranscriptEvent` with its confidence. -/
structure SttEvent extends TranscriptEvent where
  confidence : ℚ
  deriving DecidableEq, Repr

structure DeepgramEngine where
  /-- `_utterance_id` -/
  utteranceId : Option Text := none
  /-- `_segments` -/
  segments : List Text := []

def Payload.utteranceEnd : Text := "UtteranceEnd".toList

/-- `(alternatives[0].get("transcript") or "").strip()` -/
def Alternative.text (a : Alternative) : Text := Text.strip (a.transcript.getD [])

/-- `min(1.0, max(0.0, float(alternatives[0].get("confidence") or 0.0)))` -/
def Alternative.level (a : Alternative) : ℚ := min 1 (max 0 (a.confidence.getD 0))

namespace DeepgramEngine

/-- `_final_event` -/
def finalEvent (e : DeepgramEngine) (utteranceId : Text) (confidence : ℚ) : SttEvent × DeepgramEngine :=
  ({ type := .FINAL, utteranceId, transcript := Text.joinSpaces e.segments, confidence },
    { utteranceId := none, segments := [] })

/-- `_parse_result`; `fresh` is the `uuid4` that it may take. -/
def parseResult (e : DeepgramEngine) (fresh : Text) (payload : Payload) : Option SttEvent × DeepgramEngine :=
  let utteranceId := e.utteranceId.getD fresh
  if payload.type = some Payload.utteranceEnd then
    if e.segments.isEmpty then (none, e)
    else
      let (event, e) := e.finalEvent utteranceId 1
      (some event, e)
  else
    match payload.alternatives with
    | [] => (none, e)
    | alternative :: _ =>
      let transcript := alternative.text
      let e := if payload.isFinal && !transcript.isEmpty then { e with segments := e.segments ++ [transcript] } else e
      if payload.speechFinal then
        if e.segments.isEmpty then (none, e)
        else
          let (event, e) := e.finalEvent utteranceId alternative.level
          (some event, e)
      else if transcript.isEmpty then (none, e)
      else
        let text := if payload.isFinal then Text.joinSpaces e.segments else Text.joinSpaces (e.segments ++ [transcript])
        (some { type := .PARTIAL, utteranceId, transcript := text, confidence := alternative.level }, e)

/-- What `process_audio` does to the id of the utterance. -/
def processAudio (e : DeepgramEngine) (fresh : Text) : DeepgramEngine :=
  { e with utteranceId := some (e.utteranceId.getD fresh) }

end DeepgramEngine

/-- A message, or a frame of audio; with the `uuid4` that it may take. -/
inductive Input where
  | message (fresh : Text) (payload : Payload)
  | audio (fresh : Text)

/-- The text that a message has for the current segment. -/
def Payload.current (payload : Payload) : Text :=
  match payload.alternatives with
  | [] => []
  | alternative :: _ => alternative.text

/-- The segment that a message fixes. -/
def Payload.fixed (payload : Payload) : List Text :=
  if payload.type ≠ some Payload.utteranceEnd ∧ payload.isFinal = true ∧ payload.current ≠ [] then [payload.current]
  else []

namespace DeepgramEngine

def step (e : DeepgramEngine) : Input → Option SttEvent × DeepgramEngine
  | .message fresh payload => e.parseResult fresh payload
  | .audio fresh => (none, e.processAudio fresh)

def after (e : DeepgramEngine) : List Input → DeepgramEngine
  | [] => e
  | input :: inputs => after (e.step input).2 inputs

/-- The events that are put into the queue. -/
def events (e : DeepgramEngine) : List Input → List SttEvent
  | [] => []
  | input :: inputs => (e.step input).1.toList ++ events (e.step input).2 inputs

/-- The texts of the FINAL events. -/
def finals (e : DeepgramEngine) (inputs : List Input) : List Text :=
  ((e.events inputs).filter (fun event => event.type = .FINAL)).map (·.transcript)

end DeepgramEngine

/-- The segments that the messages fix. -/
def fixed (inputs : List Input) : List Text :=
  inputs.flatMap fun
    | .message _ payload => payload.fixed
    | .audio _ => []

/-! ## One message -/

section ParseResult
variable {e : DeepgramEngine} {fresh : Text} {payload : Payload}

open DeepgramEngine

/-- What a message does: it adds the segment that it fixes, and ends the turn or not. -/
inductive Parsed (e : DeepgramEngine) (payload : Payload) : Option SttEvent × DeepgramEngine → Prop where
  | silent (e' : DeepgramEngine) (h : e'.segments = e.segments ++ payload.fixed) : Parsed e payload (none, e')
  | partialText (event : SttEvent) (e' : DeepgramEngine) (h : e'.segments = e.segments ++ payload.fixed)
      (htype : event.type = .PARTIAL) (hne : payload.current ≠ [])
      (htext : event.transcript = Text.joinSpaces (e.segments ++ [payload.current])) : Parsed e payload (some event, e')
  | finalText (event : SttEvent) (e' : DeepgramEngine) (h : e'.segments = []) (htype : event.type = .FINAL)
      (hne : e.segments ++ payload.fixed ≠ [])
      (htext : event.transcript = Text.joinSpaces (e.segments ++ payload.fixed)) : Parsed e payload (some event, e')

theorem fixed_of_utteranceEnd (h : payload.type = some Payload.utteranceEnd) : payload.fixed = [] :=
  if_neg (fun hc => hc.1 h)

/-- The turn ends with all of its segments. -/
theorem parsed_finalEvent {e' : DeepgramEngine} (h : e'.segments = e.segments ++ payload.fixed) (hne : e'.segments ≠ [])
    (utteranceId : Text) (confidence : ℚ) :
    Parsed e payload (some (e'.finalEvent utteranceId confidence).1, (e'.finalEvent utteranceId confidence).2) := by
  refine .finalText _ _ rfl rfl ?_ ?_
  · rw [← h]
    exact hne
  · rw [← h]
    rfl

theorem parsed (e : DeepgramEngine) (fresh : Text) (payload : Payload) :
    Parsed e payload (e.parseResult fresh payload) := by
  unfold parseResult
  dsimp only
  by_cases hend : payload.type = some Payload.utteranceEnd
  · have hfixed := fixed_of_utteranceEnd hend
    rw [if_pos hend]
    split
    · exact .silent e (by rw [hfixed, List.append_nil])
    · next hne => exact parsed_finalEvent (by rw [hfixed, List.append_nil]) (by simpa using hne) _ _
  · rw [if_neg hend]
    cases halternatives : payload.alternatives with
    | nil =>
        have hfixed : payload.fixed = [] := if_neg (fun hc => hc.2.2 (by rw [Payload.current, halternatives]))
        exact .silent e (by rw [hfixed, List.append_nil])
    | cons alternative alternatives =>
        have hcurrent : payload.current = alternative.text := by rw [Payload.current, halternatives]
        dsimp only
        -- The segments after the message's own one is added, if it has one.
        have hadd : (if payload.isFinal && !alternative.text.isEmpty then
            { e with segments := e.segments ++ [alternative.text] } else e).segments = e.segments ++ payload.fixed := by
          unfold Payload.fixed
          rw [hcurrent]
          by_cases hfix : payload.isFinal = true ∧ alternative.text ≠ []
          · rw [if_pos (by simpa using hfix), if_pos ⟨hend, hfix⟩]
          · rw [if_neg (by simpa using hfix), if_neg (fun hc => hfix hc.2), List.append_nil]
        generalize (if payload.isFinal && !alternative.text.isEmpty then
          { e with segments := e.segments ++ [alternative.text] } else e) = e' at hadd ⊢
        split
        · split
          · exact .silent e' hadd
          · next hne => exact parsed_finalEvent hadd (by simpa using hne) _ _
        · split
          · exact .silent e' hadd
          · next hne =>
            have htext : alternative.text ≠ [] := by simpa using hne
            refine .partialText _ _ hadd rfl (by rw [hcurrent]; exact htext) ?_
            dsimp only
            rw [hcurrent]
            unfold Payload.fixed at hadd
            rw [hcurrent] at hadd
            split
            · next hfinal => rw [hadd, if_pos ⟨hend, hfinal, htext⟩]
            · next hfinal => rw [hadd, if_neg (fun hc => hfinal hc.2.1), List.append_nil]

end ParseResult

/-! ## Sequences -/

section Sequences
variable {e : DeepgramEngine} {inputs : List Input}

open DeepgramEngine

/-- The segments that are kept are no empty texts. -/
def Pending (e : DeepgramEngine) : Prop := ∀ segment ∈ e.segments, segment ≠ []

theorem fixed_ne_nil (payload : Payload) : ∀ segment ∈ payload.fixed, segment ≠ [] := by
  intro segment h
  unfold Payload.fixed at h
  split at h
  · next hfix =>
    rw [List.mem_singleton.mp h]
    exact hfix.2.2
  · exact nomatch h

theorem mem_fixed_ne_nil : ∀ segment ∈ fixed inputs, segment ≠ [] := by
  intro segment h
  obtain ⟨input, -, hin⟩ := List.mem_flatMap.mp h
  cases input with
  | message fresh payload => exact fixed_ne_nil payload segment hin
  | audio fresh => exact nomatch hin

theorem Pending.append (h : Pending e) (payload : Payload) : ∀ segment ∈ e.segments ++ payload.fixed, segment ≠ [] := by
  intro segment hsegment
  exact (List.mem_append.mp hsegment).elim (h segment) (fixed_ne_nil payload segment)

theorem Pending.step (h : Pending e) (input : Input) : Pending (e.step input).2 := by
  cases input with
  | audio fresh => exact h
  | message fresh payload =>
      have hparsed := parsed e fresh payload
      rw [DeepgramEngine.step]
      generalize e.parseResult fresh payload = result at hparsed ⊢
      cases hparsed with
      | silent e' hsegments => rw [Pending, hsegments]; exact h.append payload
      | partialText event e' hsegments => rw [Pending, hsegments]; exact h.append payload
      | finalText event e' hsegments => rw [Pending, hsegments]; exact fun _ hin => nomatch hin

theorem Pending.after (h : Pending e) (inputs : List Input) : Pending (e.after inputs) := by
  induction inputs generalizing e with
  | nil => exact h
  | cons input inputs ih => exact ih (h.step input)

theorem finals_cons (e : DeepgramEngine) (input : Input) (inputs : List Input) :
    e.finals (input :: inputs) =
      ((e.step input).1.toList.filter (fun event => event.type = .FINAL)).map (·.transcript) ++
        (e.step input).2.finals inputs := by
  rw [finals, events, List.filter_append, List.map_append]
  rfl

theorem fixed_cons (input : Input) (inputs : List Input) : fixed (input :: inputs) = fixed [input] ++ fixed inputs := by
  simp [fixed]

theorem finals_ne_nil (h : Pending e) : ∀ text ∈ e.finals inputs, text ≠ [] := by
  induction inputs generalizing e with
  | nil => exact fun _ hin => nomatch hin
  | cons input inputs ih =>
      intro text htext
      rw [finals_cons] at htext
      rcases List.mem_append.mp htext with htext | htext
      · cases input with
        | audio fresh => exact nomatch htext
        | message fresh payload =>
            have hparsed := parsed e fresh payload
            rw [DeepgramEngine.step] at htext
            generalize e.parseResult fresh payload = result at hparsed htext
            cases hparsed with
            | silent e' hsegments => exact nomatch htext
            | partialText event e' hsegments htype => simp [htype] at htext
            | finalText event e' hsegments htype hne hevent =>
                have heq : text = event.transcript := by simpa [htype] using htext
                rw [heq, hevent]
                exact Text.joinSpaces_ne_nil hne (h.append payload)
      · exact ih (h.step input) text htext

/-- The texts of the turns and the segments that are left are the segments that were fixed. -/
theorem finals_join (h : Pending e) (inputs : List Input) :
    Text.joinSpaces (e.finals inputs ++ (e.after inputs).segments) = Text.joinSpaces (e.segments ++ fixed inputs) := by
  induction inputs generalizing e with
  | nil => simp [finals, events, after, fixed]
  | cons input inputs ih =>
      have hstep := h.step input
      have hrest := ih hstep
      have hbehind : ∀ text ∈ (e.step input).2.finals inputs ++ (e.after (input :: inputs)).segments, text ≠ [] :=
        fun text htext => (List.mem_append.mp htext).elim (finals_ne_nil hstep text) (hstep.after inputs text)
      rw [finals_cons, fixed_cons, List.append_assoc]
      cases input with
      | audio fresh => exact hrest
      | message fresh payload =>
          have hfixed : fixed [.message fresh payload] = payload.fixed := by simp [fixed]
          have hparsed := parsed e fresh payload
          rw [DeepgramEngine.after] at hbehind ⊢
          rw [DeepgramEngine.step] at hrest hbehind ⊢
          rw [hfixed, ← List.append_assoc e.segments]
          generalize e.parseResult fresh payload = result at hparsed hrest hbehind ⊢
          cases hparsed with
          | silent e' hsegments =>
              rw [← hsegments]
              exact hrest
          | partialText event e' hsegments htype =>
              rw [← hsegments]
              simpa [htype] using hrest
          | finalText event e' hsegments htype hne hevent =>
              have hsaid : event.transcript ≠ [] := by
                rw [hevent]
                exact Text.joinSpaces_ne_nil hne (h.append payload)
              rw [hsegments, List.nil_append] at hrest
              rw [Text.joinSpaces_append (h.append payload) mem_fixed_ne_nil, ← hevent, ← hrest,
                ← Text.joinSpaces_cons hsaid hbehind]
              simp [htype]

end Sequences

/-- What the engine makes of a sequence of messages. -/
structure Assembles (e : DeepgramEngine) (inputs : List Input) : Prop where
  /-- No speech is lost, repeated or moved. -/
  conserved : Text.joinSpaces (e.finals inputs ++ (e.after inputs).segments) = Text.joinSpaces (fixed inputs)
  nonempty : ∀ text ∈ e.finals inputs, text ≠ []
  /-- A PARTIAL event says the pending segments and what is being said; it extends the pending segments. -/
  shown : ∀ before fresh payload rest event, inputs = before ++ .message fresh payload :: rest →
    ((e.after before).parseResult fresh payload).1 = some event → event.type = .PARTIAL →
    event.transcript = Text.joinSpaces ((e.after before).segments ++ [payload.current]) ∧
      Text.joinSpaces (e.after before).segments <+: event.transcript

/-- A new engine assembles every sequence of messages. -/
theorem assembles (inputs : List Input) : Assembles {} inputs := by
  have hpending : Pending {} := fun _ h => nomatch h
  refine ⟨finals_join hpending inputs, finals_ne_nil hpending, ?_⟩
  intro before fresh payload rest event _ hevent htype
  have hparsed := parsed (({} : DeepgramEngine).after before) fresh payload
  generalize (({} : DeepgramEngine).after before).parseResult fresh payload = result at hparsed hevent
  cases hparsed with
  | silent e' hsegments => exact absurd hevent (by simp)
  | finalText event' e' hsegments htype' =>
      obtain rfl := Option.some.inj hevent
      exact absurd (htype.symm.trans htype') (by decide)
  | partialText event' e' hsegments htype' hne htext =>
      obtain rfl := Option.some.inj hevent
      refine ⟨htext, ?_⟩
      rw [htext]
      by_cases hsegs : (({} : DeepgramEngine).after before).segments = []
      · rw [hsegs]
        exact List.nil_prefix
      · rw [Text.joinSpaces_concat hsegs]
        exact List.prefix_append _ _

end Voxera.Stt
