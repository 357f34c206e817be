import Voxera.Stt.Utterances

/-!
# What a connection relies on

Both engines turn messages of a provider into events: the FINAL events say what the messages have fixed, word for word, and
each FINAL event bears an id of its own.

* `Recogniser` : an engine with its `Namer`, what a message fixes, what is fixed and not yet said, and the laws;
* `Recogniser.receive` : `_receive_loop` on one message;
* `DeepgramEngine.recogniser`, `TranscribeEngine.recogniser` : the engines.
-/

namespace Voxera.Stt

open Namer (Use)

/-- The texts of the FINAL events. -/
def finalTexts (events : List SttEvent) : List Text := (events.filter (fun event => event.type = .FINAL)).map (·.transcript)

/-- What the messages of a run fix. -/
def saidBy {M : Type} (said : M → List Text) (uses : List (Use M Text)) : List Text :=
  uses.flatMap fun
    | .mark _ m => said m
    | _ => []

@[simp] theorem finalTexts_append (a b : List SttEvent) : finalTexts (a ++ b) = finalTexts a ++ finalTexts b := by
  simp [finalTexts]

@[simp] theorem saidBy_append {M : Type} (said : M → List Text) (a b : List (Use M Text)) :
    saidBy said (a ++ b) = saidBy said a ++ saidBy said b := List.flatMap_append

/-- A text of its own, without blanks around it. -/
structure Whole (text : Text) : Prop where
  stripped : Text.Stripped text
  ne_nil : text ≠ []

/-- Whole texts with spaces between them. -/
theorem whole_joinSpaces {texts : List Text} (hne : texts ≠ []) (h : ∀ text ∈ texts, Whole text) :
    Whole (Text.joinSpaces texts) := by
  induction texts with
  | nil => exact absurd rfl hne
  | cons text texts ih =>
      cases texts with
      | nil => exact h text List.mem_cons_self
      | cons next texts =>
          have hrest := ih (List.cons_ne_nil _ _) (fun text htext => h text (List.mem_cons_of_mem _ htext))
          have hfirst := h text List.mem_cons_self
          have hstripped := Text.stripped_joinSpace hfirst.stripped hrest.stripped hfirst.ne_nil hrest.ne_nil
          exact ⟨hstripped, Text.joinSpace_ne_nil _ _⟩

/-- An engine: its results `M` are the messages of the provider, or the parts of one. -/
structure Recogniser (σ M : Type) where
  init : σ
  namer : Namer σ M SttEvent Text
  /-- The texts that a result fixes. -/
  said : M → List Text
  /-- The fixed texts that no FINAL event has said. -/
  pending : σ → List Text
  name_eq (event : SttEvent) : namer.name event = event.utteranceId
  closes_eq (event : SttEvent) : namer.closes event = decide (event.type = .FINAL)
  held_init : namer.held init = none
  whole_final (uses : List (Use M Text)) : .drop ∉ uses → ∀ text ∈ finalTexts (namer.outs init uses), Whole text
  whole_pending (uses : List (Use M Text)) : .drop ∉ uses → ∀ text ∈ pending (namer.after init uses), Whole text
  /-- The FINAL events and what is pending are what the results fixed. -/
  conserves (uses : List (Use M Text)) : .drop ∉ uses →
    Text.joinSpaces (finalTexts (namer.outs init uses) ++ pending (namer.after init uses)) =
      Text.joinSpaces (saidBy said uses)

namespace Recogniser

variable {σ M : Type} (R : Recogniser σ M)

/-- The results of one message, each with its `uuid4`. -/
def uses (results : List (Text × M)) : List (Use M Text) := results.map fun r => .mark r.1 r.2

/-- `_receive_loop` on one message. -/
def receive (e : σ) (results : List (Text × M)) : List SttEvent × σ :=
  (R.namer.outs e (uses results), R.namer.after e (uses results))

variable {R}

/-- No two FINAL events of a run bear one id. -/
theorem finalIds_nodup {uses : List (Use M Text)} (hfresh : (Namer.fresh uses).Nodup) :
    (((R.namer.outs R.init uses).filter (fun event => event.type = .FINAL)).map (·.utteranceId)).Nodup := by
  have hsub : (((R.namer.outs R.init uses).filter R.namer.closes).map R.namer.name).Sublist
      ((R.namer.held R.init).toList ++ Namer.fresh uses) := Namer.closing_sublist
  rw [R.held_init] at hsub
  have hcloses : R.namer.closes = fun event => decide (event.type = .FINAL) := funext R.closes_eq
  have hname : R.namer.name = fun event => event.utteranceId := funext R.name_eq
  rw [hcloses, hname] at hsub
  exact hsub.nodup hfresh

/-- Every id of a run is a text of `uuid4`. -/
theorem id_mem_fresh {uses : List (Use M Text)} {event : SttEvent} (h : event ∈ R.namer.outs R.init uses) :
    event.utteranceId ∈ Namer.fresh uses := by
  have hmem := Namer.name_mem h
  rw [R.held_init, R.name_eq] at hmem
  exact hmem

end Recogniser

/-! ## Deepgram -/

namespace DeepgramEngine

/-- A use of the engine as an input. -/
def input : Use Payload Text → List Input
  | .take uuid => [.audio uuid]
  | .mark uuid payload => [.message uuid payload]
  | .drop => []

theorem outs_eq {e : DeepgramEngine} {uses : List (Use Payload Text)} (h : .drop ∉ uses) :
    utterances.outs e uses = e.events (uses.flatMap input) ∧ utterances.after e uses = e.after (uses.flatMap input) := by
  induction uses generalizing e with
  | nil => exact ⟨rfl, rfl⟩
  | cons use uses ih =>
      obtain ⟨huse, huses⟩ := List.ne_and_not_mem_of_not_mem_cons h
      cases use with
      | take uuid =>
          obtain ⟨houts, hafter⟩ := ih (e := e.processAudio uuid) huses
          exact ⟨houts, hafter⟩
      | mark uuid payload =>
          obtain ⟨houts, hafter⟩ := ih (e := (e.parseResult uuid payload).2) huses
          refine ⟨?_, hafter⟩
          exact congrArg ((e.parseResult uuid payload).1.toList ++ ·) houts
      | drop => exact absurd rfl huse

theorem fixed_inputs (uses : List (Use Payload Text)) : fixed (uses.flatMap input) = saidBy Payload.fixed uses := by
  induction uses with
  | nil => rfl
  | cons use uses ih =>
      rw [List.flatMap_cons, show saidBy Payload.fixed (use :: uses) =
        saidBy Payload.fixed [use] ++ saidBy Payload.fixed uses from saidBy_append _ [use] uses, ← ih]
      cases use <;> simp [input, fixed, saidBy]

theorem whole_fixed (payload : Payload) : ∀ text ∈ payload.fixed, Whole text := by
  intro text htext
  refine ⟨?_, fixed_ne_nil payload text htext⟩
  unfold Payload.fixed at htext
  split at htext
  · rw [List.mem_singleton.mp htext, Payload.current]
    split
    · exact Text.stripped_nil
    · exact Text.stripped_strip _
  · exact absurd htext List.not_mem_nil

/-- The segments that are kept are whole texts. -/
def WholeSegments (e : DeepgramEngine) : Prop := ∀ segment ∈ e.segments, Whole segment

theorem WholeSegments.step {e : DeepgramEngine} (h : e.WholeSegments) (input : Input) :
    (e.step input).2.WholeSegments ∧ ∀ text ∈ finalTexts (e.step input).1.toList, Whole text := by
  cases input with
  | audio fresh => exact ⟨h, fun _ hin => absurd hin List.not_mem_nil⟩
  | message fresh payload =>
      have hadded : ∀ segment ∈ e.segments ++ payload.fixed, Whole segment := fun segment hsegment =>
        (List.mem_append.mp hsegment).elim (h segment) (whole_fixed payload segment)
      have hparsed := parsed e fresh payload
      rw [DeepgramEngine.step]
      generalize e.parseResult fresh payload = result at hparsed ⊢
      cases hparsed with
      | silent e' hsegments =>
          refine ⟨by rw [WholeSegments, hsegments]; exact hadded, fun text hin => ?_⟩
          exact absurd hin List.not_mem_nil
      | partialText event e' hsegments htype =>
          refine ⟨by rw [WholeSegments, hsegments]; exact hadded, fun text hin => ?_⟩
          simp [finalTexts, htype] at hin
      | finalText event e' hsegments htype hne htext =>
          refine ⟨by rw [WholeSegments, hsegments]; exact fun _ hin => absurd hin List.not_mem_nil, fun text hin => ?_⟩
          have heq : text = event.transcript := by simpa [finalTexts, htype] using hin
          rw [heq, htext]
          exact whole_joinSpaces hne hadded

theorem WholeSegments.run {e : DeepgramEngine} (h : e.WholeSegments) (inputs : List Input) :
    (e.after inputs).WholeSegments ∧ ∀ text ∈ e.finals inputs, Whole text := by
  induction inputs generalizing e with
  | nil => exact ⟨h, fun _ hin => absurd hin List.not_mem_nil⟩
  | cons input inputs ih =>
      obtain ⟨hstep, hout⟩ := h.step input
      obtain ⟨hafter, hfinals⟩ := ih hstep
      refine ⟨hafter, fun text htext => ?_⟩
      rw [finals_cons] at htext
      exact (List.mem_append.mp htext).elim (hout text) (hfinals text)

/-- A new engine; a message has one result. -/
def recogniser : Recogniser DeepgramEngine Payload where
  init := {}
  namer := utterances
  said := Payload.fixed
  pending := segments
  name_eq _ := rfl
  closes_eq _ := rfl
  held_init := rfl
  whole_final uses h := by
    have hrun := WholeSegments.run (e := {}) (fun _ hin => absurd hin List.not_mem_nil) (uses.flatMap input)
    rw [(outs_eq h).1]
    exact hrun.2
  whole_pending uses h := by
    have hrun := WholeSegments.run (e := {}) (fun _ hin => absurd hin List.not_mem_nil) (uses.flatMap input)
    rw [(outs_eq h).2]
    exact hrun.1
  conserves uses h := by
    have hjoin := finals_join (e := {}) (fun _ hin => absurd hin List.not_mem_nil) (uses.flatMap input)
    rw [(outs_eq h).1, (outs_eq h).2, ← fixed_inputs]
    exact hjoin

theorem receive_recogniser (e : DeepgramEngine) (m : DeepgramMessage) :
    recogniser.receive e [m] = deepgramReceiver.receive e m := by
  simp [Recogniser.receive, Recogniser.uses, Namer.outs, Namer.after, Namer.step, recogniser, utterances, deepgramReceiver]

end DeepgramEngine

/-! ## Transcribe -/

namespace TranscribeEngine

/-- The text that a result fixes. -/
def fixed (result : TranscribeResult) : List Text :=
  match result.alternatives with
  | [] => []
  | alternative :: _ => if result.isPartial || (Text.strip alternative).isEmpty then [] else [Text.strip alternative]

/-- A result gives a FINAL event for what it fixes. -/
theorem finalTexts_parseResult (e : TranscribeEngine) (uuid : Text) (result : TranscribeResult) :
    finalTexts (e.parseResult uuid result).1.toList = fixed result := by
  unfold parseResult fixed
  cases result.alternatives with
  | nil => rfl
  | cons alternative rest =>
      dsimp only
      cases hempty : (Text.strip alternative).isEmpty <;> cases hpartial : result.isPartial <;> simp [finalTexts]

theorem finalTexts_outs (e : TranscribeEngine) (uses : List (Use TranscribeResult Text)) :
    finalTexts (utterances.outs e uses) = saidBy fixed uses := by
  induction uses generalizing e with
  | nil => rfl
  | cons use uses ih =>
      rw [Namer.outs, finalTexts_append, ih, show saidBy fixed (use :: uses) = saidBy fixed [use] ++ saidBy fixed uses from
        saidBy_append _ [use] uses]
      cases use with
      | mark uuid result =>
          have hone := finalTexts_parseResult e uuid result
          rw [show saidBy fixed [.mark uuid result] = fixed result from List.append_nil _, ← hone]
          rfl
      | take uuid => rfl
      | drop => rfl

theorem whole_saidBy (uses : List (Use TranscribeResult Text)) : ∀ text ∈ saidBy fixed uses, Whole text := by
  intro text htext
  obtain ⟨use, -, htext⟩ := List.mem_flatMap.mp htext
  cases use with
  | mark uuid result =>
      dsimp only [fixed] at htext
      split at htext
      · exact absurd htext List.not_mem_nil
      · split at htext
        · exact absurd htext List.not_mem_nil
        · next hne =>
          rw [List.mem_singleton.mp htext]
          refine ⟨Text.stripped_strip _, fun hnil => hne ?_⟩
          simp [hnil]
  | take uuid => exact absurd htext List.not_mem_nil
  | drop => exact absurd htext List.not_mem_nil

/-- A new engine, up to the end of its stream. -/
def recogniser : Recogniser TranscribeEngine TranscribeResult where
  init := {}
  namer := utterances
  said := fixed
  pending _ := []
  name_eq _ := rfl
  closes_eq _ := rfl
  held_init := rfl
  whole_final uses _ := by
    rw [finalTexts_outs]
    exact whole_saidBy uses
  whole_pending _ _ := fun _ hin => absurd hin List.not_mem_nil
  conserves uses _ := by rw [finalTexts_outs, List.append_nil]

theorem receive_recogniser {e : TranscribeEngine} (h : e.receiverDone = false) (results : List (Text × TranscribeResult)) :
    recogniser.receive e results = e.receive (.transcript results) := (receive_eq h results).symm

end TranscribeEngine

end Voxera.Stt
