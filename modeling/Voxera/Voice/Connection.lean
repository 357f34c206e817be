import Voxera.Stt.Recogniser
import Voxera.Streaming.Inbound
import Voxera.Voice.Answered

/-!
# One browser connection

The endpoint puts the parts together: the receive loop feeds the audio queue, the dispatcher gives each frame to
`process_audio_frame` and then to the `STTConsumer`, whose loop gives it to the engine and each event of the engine to
`transcript_callback`, which sends it to the client and calls `process_transcript_event`. The connection stands here from the
start of its tasks up to the `finally` of the endpoint, without the development messages.

* `Connection.step` : the parts of the connection, any of which may go on next;
* `Parts` : a run of the connection is a run of the session and one of the engine, and the events that pass between them
  (`parts_of_run`);
* `Conversed` : where the words of the user are (`conversed_of_run`);
* `repliesApart_of_run` : no two calls of `_reply` bear one id.
-/

namespace Voxera.Voice

open EventLoop
open Streaming (Inbound LoopPc SttConsumer)
open Stt (SttEvent Recogniser)
open Namer (Use)

/-- What `transcript_callback` awaits. -/
inductive Callback where
  /-- `send_json` of the event. -/
  | sending (event : SttEvent)
  /-- `process_transcript_event` -/
  | processing

structure Connection (σ : Type) where
  /-- The audio queue, the dispatcher and the STT consumer. -/
  inbound : Inbound
  engine : σ
  /-- `_event_queue` -/
  events : List SttEvent := []
  /-- `process_audio` has come to its `send`. -/
  hearing : Bool := false
  callback : Option Callback := none
  session : Session

inductive ConnectionLabel (M : Type) where
  /-- The provider sends a message; each of its results with the `uuid4` that it may take. -/
  | message (results : List (Text × M))
  /-- The client sends a frame. -/
  | receive (frame : Bytes) (frameId : Option ℤ)
  /-- `_dispatch_loop` runs on. -/
  | dispatch
  /-- `_process_loop` runs on from its start or from `get`. -/
  | getFrame
  /-- `process_audio` is through `_connect`. -/
  | hears (uuid : Text)
  /-- `process_audio` returns, or raises. -/
  | recognised (raised : Bool)
  /-- `send_json` returns to `transcript_callback`, or raises. -/
  | sent (raised : Bool)
  /-- `process_transcript_event` returns to `transcript_callback`. -/
  | processed
  /-- A task of the session runs on. -/
  | session (l : Label)

namespace Connection

variable {σ M : Type} (cfg : Config) (R : Recogniser σ M) (c : Connection σ)

/-- The connection when its tasks have been created. -/
def init : Connection σ where
  inbound := {
    audio := { maxSize := 50 }
    stt := { maxQueueSize := 50, hasErrorCallback := false, running := true, task := some (.await .created) } }
  engine := R.init
  session := .fresh cfg

/-- Where `_process_loop` is suspended. -/
def loopPc : Option LoopPc := c.inbound.stt.task.bind (·.pc?)

/-- `_process_loop` runs on. -/
def loop (event : Bool) : Option (Connection σ) :=
  (c.inbound.step (.stt (.loop (.ok event)))).map fun inbound => { c with inbound }

/-- The session takes a step. -/
def sessionStep (l : Label) : Option (Connection σ) := (Voice.step cfg c.session l).map fun session => { c with session }

/-- A task of the session runs on; its calls are begun by the other parts. -/
def ofTask : Label → Bool
  | .handler _ _ | .generation _ _ | .reply _ _ => true
  | _ => false

def step (c : Connection σ) : ConnectionLabel M → Option (Connection σ)
  | .message results =>
    let (events, engine) := R.receive c.engine results
    some { c with engine, events := c.events ++ events }
  | .receive frame frameId => (c.inbound.step (.receive frame frameId)).map fun inbound => { c with inbound }
  | .dispatch =>
    -- the callback has returned when the session's call has
    if c.inbound.inCallback.isSome && !c.session.idle .dispatcher then none
    else (c.inbound.step (.dispatch (.ok ()))).bind fun inbound =>
      match inbound.inCallback with
      | some frame => { c with inbound }.sessionStep cfg (.frame frame.frame)
      | none => some { c with inbound }
  | .getFrame => if c.loopPc = some .created ∨ c.loopPc = some .queueGet then c.loop false else none
  | .hears uuid =>
    if c.inbound.stt.inHand.isSome && !c.hearing then
      some { c with engine := R.namer.take c.engine uuid, hearing := true }
    else none
  | .recognised true =>
    if c.inbound.stt.inHand.isSome then
      (c.inbound.step (.stt (.loop .raised))).map fun inbound => { c with inbound, hearing := false }
    else none
  | .recognised false =>
    if c.inbound.stt.inHand.isSome && c.hearing then
      match c.events with
      | [] => { c with hearing := false }.loop false
      | event :: events => { c with hearing := false, events, callback := some (.sending event) }.loop true
    else none
  | .sent raised =>
    match c.callback with
    | some (.sending event) =>
      -- what it raises is logged
      if raised then { c with callback := none }.loop false
      else { c with callback := some .processing }.sessionStep cfg (.transcript .stt event.toTranscriptEvent)
    | _ => none
  | .processed =>
    match c.callback with
    | some .processing => if c.session.idle .stt then { c with callback := none }.loop false else none
    | _ => none
  | .session l => if ofTask l then c.sessionStep cfg l else none

/-- The events that have not come to the session. -/
def undelivered : List SttEvent :=
  match c.callback with
  | some (.sending event) => event :: c.events
  | _ => c.events

end Connection

/-- What a step does to the engine. -/
def ConnectionLabel.uses {M : Type} : ConnectionLabel M → List (Use M Text)
  | .message results => Recogniser.uses results
  | .hears uuid => [.take uuid]
  | _ => []

/-- The frame that the client sends in a step. -/
def ConnectionLabel.frame? {M : Type} : ConnectionLabel M → Option Bytes
  | .receive frame _ => some frame
  | _ => none

/-- What a run has done to the engine. -/
def engineUses {M : Type} (ls : List (ConnectionLabel M)) : List (Use M Text) := ls.flatMap (·.uses)

/-- `uuid4` gives a UUID. -/
def ConnectionLabel.identified {M : Type} (l : ConnectionLabel M) : Bool := (Namer.fresh l.uses).all Text.isUuid

/-- `send_json` does not raise. -/
def ConnectionLabel.delivers {M : Type} : ConnectionLabel M → Bool
  | .sent raised => !raised
  | _ => true

variable {σ M : Type} {cfg : Config} {R : Recogniser σ M} {c t : Connection σ} {ls : List (ConnectionLabel M)}
  {l : ConnectionLabel M} {vs : List Label} {given : List SttEvent}

/-! ## What a step can do -/

/-- `_process_loop` awaits `transcript_callback` while that is at work. -/
structure Wired (c : Connection σ) : Prop where
  hasCallback : c.inbound.stt.hasTranscriptCallback = true
  awaited : c.callback.isSome → c.loopPc = some .transcriptCallback

theorem Wired.callback_eq_none (h : Wired c) {pc : LoopPc} (hpc : c.loopPc = some pc) (hne : pc ≠ .transcriptCallback) :
    c.callback = none := by
  cases hcallback : c.callback with
  | none => rfl
  | some callback =>
      have hawaited := h.awaited (by rw [hcallback]; rfl)
      exact absurd (Option.some.inj (hpc.symm.trans hawaited)) hne

namespace Connection

theorem undelivered_events (c : Connection σ) (engine : σ) (events : List SttEvent) :
    undelivered { c with engine, events := c.events ++ events } = c.undelivered ++ events := by
  unfold undelivered
  cases c.callback with
  | none => rfl
  | some callback => cases callback <;> rfl

theorem loopPc_of_inHand (h : c.inbound.stt.inHand.isSome = true) : ∃ frame, c.loopPc = some (.processAudio frame) := by
  unfold SttConsumer.inHand at h
  split at h
  · rename_i frame cancelling htask
    exact ⟨frame, by rw [loopPc, htask]; rfl⟩
  · cases h

/-- What a step can do. -/
inductive StepTo (cfg : Config) (R : Recogniser σ M) (c : Connection σ) : ConnectionLabel M → Connection σ → Prop
  | message (results : List (Text × M)) : StepTo cfg R c (.message results) { c with
      engine := (R.receive c.engine results).2, events := c.events ++ (R.receive c.engine results).1 }
  | receive {frame : Bytes} {frameId : Option ℤ} {inbound : Inbound} :
      c.inbound.step (.receive frame frameId) = some inbound → StepTo cfg R c (.receive frame frameId) { c with inbound }
  /-- The dispatcher calls `process_audio_frame`. -/
  | frame {inbound : Inbound} {frame : Streaming.FrameWithId} {session : Session} :
      c.inbound.step (.dispatch (.ok ())) = some inbound → inbound.inCallback = some frame →
      Voice.step cfg c.session (.frame frame.frame) = some session → StepTo cfg R c .dispatch { c with inbound, session }
  /-- The dispatcher goes on to another await. -/
  | dispatch {inbound : Inbound} : c.inbound.step (.dispatch (.ok ())) = some inbound → inbound.inCallback = none →
      StepTo cfg R c .dispatch { c with inbound }
  | hears (uuid : Text) : StepTo cfg R c (.hears uuid) { c with engine := R.namer.take c.engine uuid, hearing := true }
  /-- The loop goes on, with no event of its own in hand. -/
  | loop {l : ConnectionLabel M} {w : Wake Bool} {inbound : Inbound} (hearing : Bool) : l.uses = [] → l.frame? = none →
      c.undelivered = c.events → c.inbound.step (.stt (.loop w)) = some inbound →
      StepTo cfg R c l { c with inbound, hearing, callback := none }
  /-- The loop calls `transcript_callback`. -/
  | calls {frame : Bytes} {event : SttEvent} {events : List SttEvent} {inbound : Inbound} :
      c.loopPc = some (.processAudio frame) → c.events = event :: events → c.callback = none →
      c.inbound.step (.stt (.loop (.ok true))) = some inbound →
      StepTo cfg R c (.recognised false) { c with inbound, hearing := false, events, callback := some (.sending event) }
  /-- The send has failed. -/
  | loses {event : SttEvent} {w : Wake Bool} {inbound : Inbound} : c.callback = some (.sending event) →
      c.inbound.step (.stt (.loop w)) = some inbound → StepTo cfg R c (.sent true) { c with inbound, callback := none }
  | delivers {event : SttEvent} {session : Session} : c.callback = some (.sending event) →
      Voice.step cfg c.session (.transcript .stt event.toTranscriptEvent) = some session →
      StepTo cfg R c (.sent false) { c with callback := some .processing, session }
  | session {v : Label} {session : Session} : ofTask v = true → Voice.step cfg c.session v = some session →
      StepTo cfg R c (.session v) { c with session }

theorem StepTo.of_step (hwired : Wired c) (hstep : c.step cfg R l = some t) : StepTo cfg R c l t := by
  -- the loop goes on from a place where it awaits no callback
  have hloop : ∀ {l : ConnectionLabel M} {pc : LoopPc} {w : Wake Bool} {inbound : Inbound} (hearing : Bool),
      c.loopPc = some pc → pc ≠ .transcriptCallback → l.uses = [] → l.frame? = none →
      c.inbound.step (.stt (.loop w)) = some inbound → StepTo cfg R c l { c with inbound, hearing } := by
    intro l pc w inbound hearing hpc hne huses hframe hinbound
    have hcallback := hwired.callback_eq_none hpc hne
    have hstepTo : StepTo cfg R c l { c with inbound, hearing, callback := none } :=
      .loop hearing huses hframe (by rw [undelivered, hcallback]) hinbound
    rwa [← hcallback] at hstepTo
  cases l with
  | message results =>
      cases hstep
      exact .message results
  | receive frame frameId =>
      simp only [step] at hstep
      obtain ⟨inbound, hinbound, rfl⟩ := Option.map_eq_some_iff.mp hstep
      exact .receive hinbound
  | dispatch =>
      simp only [step] at hstep
      split at hstep
      · cases hstep
      · obtain ⟨inbound, hinbound, hnext⟩ := Option.bind_eq_some_iff.mp hstep
        split at hnext
        · rename_i frame hframe
          obtain ⟨session, hsession, rfl⟩ := Option.map_eq_some_iff.mp hnext
          exact .frame hinbound hframe hsession
        · rename_i hframe
          cases hnext
          exact .dispatch hinbound hframe
  | getFrame =>
      simp only [step, Option.ite_none_right_eq_some] at hstep
      obtain ⟨hpc, hnext⟩ := hstep
      obtain ⟨inbound, hinbound, rfl⟩ := Option.map_eq_some_iff.mp hnext
      rcases hpc with hpc | hpc
      · exact hloop c.hearing hpc (by simp) rfl rfl hinbound
      · exact hloop c.hearing hpc (by simp) rfl rfl hinbound
  | hears uuid =>
      simp only [step, Option.ite_none_right_eq_some, Option.some.injEq] at hstep
      obtain ⟨-, rfl⟩ := hstep
      exact .hears uuid
  | recognised raised =>
      cases raised with
      | true =>
          simp only [step, Option.ite_none_right_eq_some] at hstep
          obtain ⟨hhand, hnext⟩ := hstep
          obtain ⟨frame, hpc⟩ := loopPc_of_inHand hhand
          obtain ⟨inbound, hinbound, rfl⟩ := Option.map_eq_some_iff.mp hnext
          exact hloop false hpc (by simp) rfl rfl hinbound
      | false =>
          simp only [step, Option.ite_none_right_eq_some, Bool.and_eq_true] at hstep
          obtain ⟨⟨hhand, -⟩, hnext⟩ := hstep
          obtain ⟨frame, hpc⟩ := loopPc_of_inHand hhand
          split at hnext
          · obtain ⟨inbound, hinbound, rfl⟩ := Option.map_eq_some_iff.mp hnext
            exact hloop false hpc (by simp) rfl rfl hinbound
          · rename_i event events hevents
            obtain ⟨inbound, hinbound, rfl⟩ := Option.map_eq_some_iff.mp hnext
            exact .calls hpc hevents (hwired.callback_eq_none hpc (by simp)) hinbound
  | sent raised =>
      simp only [step] at hstep
      split at hstep
      · rename_i event hcallback
        cases raised with
        | true =>
            obtain ⟨inbound, hinbound, rfl⟩ := Option.map_eq_some_iff.mp hstep
            exact .loses hcallback hinbound
        | false =>
            obtain ⟨session, hsession, rfl⟩ := Option.map_eq_some_iff.mp hstep
            exact .delivers hcallback hsession
      · cases hstep
  | processed =>
      simp only [step] at hstep
      split at hstep
      · rename_i hcallback
        obtain ⟨-, hnext⟩ := Option.ite_none_right_eq_some.mp hstep
        obtain ⟨inbound, hinbound, rfl⟩ := Option.map_eq_some_iff.mp hnext
        exact .loop c.hearing rfl rfl (by rw [undelivered, hcallback]) hinbound
      · cases hstep
  | session v =>
      simp only [step, Option.ite_none_right_eq_some] at hstep
      obtain ⟨htask, hnext⟩ := hstep
      obtain ⟨session, hsession, rfl⟩ := Option.map_eq_some_iff.mp hnext
      exact .session htask hsession

end Connection

namespace Wired

theorem init (cfg : Config) (R : Recogniser σ M) : Wired (.init cfg R) := ⟨rfl, fun h => nomatch h⟩

/-- The loop has run on, and `transcript_callback` has not begun. -/
theorem loop {w : Wake Bool} {inbound : Inbound} (h : Wired c) (hstep : c.inbound.step (.stt (.loop w)) = some inbound)
    (ht : t.inbound = inbound) (hcallback : t.callback = none) : Wired t := by
  obtain ⟨stt, hloop, rfl⟩ := Option.map_eq_some_iff.mp hstep
  obtain ⟨pc, cancelling, -, -, rfl⟩ := SttConsumer.loop_of_step hloop
  refine ⟨?_, fun hsome => by rw [hcallback] at hsome; cases hsome⟩
  rw [ht]
  exact (SttConsumer.hasTranscriptCallback_loopResume _ _ _).trans h.hasCallback

/-- The loop calls `transcript_callback`. -/
theorem calls (h : Wired c) {frame : Bytes} (hpc : c.loopPc = some (.processAudio frame)) {inbound : Inbound}
    (hstep : c.inbound.step (.stt (.loop (.ok true))) = some inbound) (ht : t.inbound = inbound) : Wired t := by
  obtain ⟨stt, hloop, rfl⟩ := Option.map_eq_some_iff.mp hstep
  obtain ⟨pc, cancelling, htask, -, rfl⟩ := SttConsumer.loop_of_step hloop
  have hframe : pc = .processAudio frame := by
    rw [Connection.loopPc, htask] at hpc
    exact Option.some.inj hpc
  subst hframe
  have hresume : c.inbound.stt.loopResume (.processAudio frame) (.ok true) =
      { c.inbound.stt with task := some (.await .transcriptCallback) } := by
    rw [SttConsumer.loopResume, if_pos ⟨rfl, h.hasCallback⟩]
  refine ⟨?_, fun _ => ?_⟩
  · rw [ht, hresume]
    exact h.hasCallback
  · rw [Connection.loopPc, ht, hresume]
    rfl

/-- The dispatcher leaves the loop alone. -/
theorem dispatch (h : Wired c) {inbound : Inbound} (hstep : c.inbound.step (.dispatch (.ok ())) = some inbound)
    (ht : t.inbound = inbound) (hcallback : t.callback = c.callback) : Wired t := by
  obtain ⟨htask, hhas⟩ := Inbound.stt_dispatch hstep
  refine ⟨by rw [ht, hhas]; exact h.hasCallback, fun hsome => ?_⟩
  rw [hcallback] at hsome
  rw [Connection.loopPc, ht, htask]
  exact h.awaited hsome

theorem step (h : Wired c) (hstep : c.step cfg R l = some t) : Wired t := by
  cases Connection.StepTo.of_step h hstep with
  | message | hears | session => exact ⟨h.hasCallback, h.awaited⟩
  | receive hinbound =>
      cases hinbound
      exact ⟨h.hasCallback, h.awaited⟩
  | frame hinbound => exact h.dispatch hinbound rfl rfl
  | dispatch hinbound => exact h.dispatch hinbound rfl rfl
  | loop _ _ _ _ hinbound => exact h.loop hinbound rfl rfl
  | calls hpc _ _ hinbound => exact h.calls hpc hinbound rfl
  | loses _ hinbound => exact h.loop hinbound rfl rfl
  | delivers hcallback => exact ⟨h.hasCallback, fun _ => h.awaited (by rw [hcallback]; rfl)⟩

end Wired

/-! ## The parts of a run -/

/-- The connection after `ls`, of whose session the steps are `vs`, with the events that were `given` to it. -/
structure Parts (cfg : Config) (R : Recogniser σ M) (ls : List (ConnectionLabel M)) (c : Connection σ) (vs : List Label)
    (given : List SttEvent) : Prop where
  session : Run (Voice.step cfg) (fun _ l => (l.plain && l.identified) = true) (.fresh cfg) vs c.session
  engine : c.engine = R.namer.after R.init (engineUses ls)
  turns : finalTurns vs = given.flatMap fun event => finalTurns [.transcript .stt event.toTranscriptEvent]
  /-- The events are given in their order. -/
  inOrder : (given ++ c.undelivered).Sublist (R.namer.outs R.init (engineUses ls))
  /-- All of them, unless a send has failed. -/
  complete : (∀ l ∈ ls, l.delivers = true) → given ++ c.undelivered = R.namer.outs R.init (engineUses ls)
  identified : ∀ uuid ∈ Namer.fresh (engineUses ls), Text.isUuid uuid = true

namespace Parts

theorem init (cfg : Config) (R : Recogniser σ M) : Parts cfg R [] (.init cfg R) [] [] where
  session := .nil
  engine := rfl
  turns := rfl
  inOrder := List.Sublist.slnil
  complete _ := rfl
  identified _ h := absurd h List.not_mem_nil

/-- A step, with what the session does in it and is given, and what the engine puts out. -/
theorem next (h : Parts cfg R ls c vs given) {vs' : List Label} (given' : List SttEvent) (hl : l.identified = true)
    (hsession : Run (Voice.step cfg) (fun _ l => (l.plain && l.identified) = true) (.fresh cfg) (vs ++ vs') t.session)
    (hengine : t.engine = R.namer.after c.engine l.uses)
    (hturns : finalTurns vs' = given'.flatMap fun event => finalTurns [.transcript .stt event.toTranscriptEvent])
    (hinOrder : (given' ++ t.undelivered).Sublist (c.undelivered ++ R.namer.outs c.engine l.uses))
    (hcomplete : l.delivers = true → given' ++ t.undelivered = c.undelivered ++ R.namer.outs c.engine l.uses) :
    Parts cfg R (ls ++ [l]) t (vs ++ vs') (given ++ given') := by
  have huses : engineUses (ls ++ [l]) = engineUses ls ++ l.uses := by simp [engineUses]
  have houts : R.namer.outs R.init (engineUses (ls ++ [l])) =
      R.namer.outs R.init (engineUses ls) ++ R.namer.outs c.engine l.uses := by
    rw [huses, Namer.outs_append, ← h.engine]
  refine {
    session := hsession
    engine := ?_
    turns := ?_
    inOrder := ?_
    complete := ?_
    identified := ?_ }
  · rw [huses, Namer.after_append, ← h.engine]
    exact hengine
  · rw [finalTurns_append, h.turns, hturns, List.flatMap_append]
  · rw [houts, List.append_assoc]
    refine (hinOrder.append_left given).trans ?_
    rw [← List.append_assoc]
    exact h.inOrder.append_right _
  · intro hall
    rw [houts, List.append_assoc, hcomplete (hall l (by simp)), ← List.append_assoc,
      h.complete fun l hl => hall l (List.mem_append_left _ hl)]
  · intro uuid huuid
    rw [huses, Namer.fresh_append] at huuid
    exact (List.mem_append.mp huuid).elim (h.identified uuid) (List.all_eq_true.mp hl uuid)

/-- A step in which the session stands still and no event is lost. -/
theorem still (h : Parts cfg R ls c vs given) (hl : l.identified = true) (hsession : t.session = c.session)
    (hengine : t.engine = R.namer.after c.engine l.uses)
    (hevents : t.undelivered = c.undelivered ++ R.namer.outs c.engine l.uses) : Parts cfg R (ls ++ [l]) t vs given := by
  have hrun : Run (Voice.step cfg) (fun _ l => (l.plain && l.identified) = true) (.fresh cfg) (vs ++ []) t.session := by
    rw [List.append_nil, hsession]
    exact h.session
  have hnext := h.next [] hl hrun hengine rfl (hevents ▸ List.Sublist.refl _) (fun _ => hevents)
  rwa [List.append_nil, List.append_nil] at hnext

/-- A step that the engine takes no part in either. -/
theorem aside (h : Parts cfg R ls c vs given) (huses : l.uses = []) (hsession : t.session = c.session)
    (hengine : t.engine = c.engine) (hevents : t.undelivered = c.undelivered) : Parts cfg R (ls ++ [l]) t vs given := by
  refine h.still (by rw [ConnectionLabel.identified, huses]; rfl) hsession ?_ ?_
  · rw [hengine, huses]
    rfl
  · rw [hevents, huses, Namer.outs, List.append_nil]

/-- The session takes a step, and the engine none. -/
theorem calls (h : Parts cfg R ls c vs given) {v : Label} (given' : List SttEvent) (huses : l.uses = []) (hv : (v.plain && v.identified) = true)
    (hstep : Voice.step cfg c.session v = some t.session) (hengine : t.engine = c.engine)
    (hturns : finalTurns [v] = given'.flatMap fun event => finalTurns [.transcript .stt event.toTranscriptEvent])
    (hevents : given' ++ t.undelivered = c.undelivered) : Parts cfg R (ls ++ [l]) t (vs ++ [v]) (given ++ given') := by
  have hall : given' ++ t.undelivered = c.undelivered ++ R.namer.outs c.engine l.uses := by
    rw [hevents, huses, Namer.outs, List.append_nil]
  refine h.next given' (by rw [ConnectionLabel.identified, huses]; rfl) (h.session.snoc hv hstep) ?_ hturns
    (hall ▸ List.Sublist.refl _) (fun _ => hall)
  rw [hengine, huses]
  rfl

/-- A send has failed, and its event is lost. -/
theorem loses (h : Parts cfg R ls c vs given) (hsession : t.session = c.session) (hengine : t.engine = c.engine)
    (hevents : t.undelivered.Sublist c.undelivered) : Parts cfg R (ls ++ [.sent true]) t vs given := by
  have hrun : Run (Voice.step cfg) (fun _ l => (l.plain && l.identified) = true) (.fresh cfg) (vs ++ []) t.session := by
    rw [List.append_nil, hsession]
    exact h.session
  have hnext := h.next (l := .sent true) [] rfl hrun hengine rfl
    (by rw [List.nil_append]; exact hevents.trans (List.sublist_append_left _ _)) (fun hdelivers => by cases hdelivers)
  rwa [List.append_nil, List.append_nil] at hnext

/-- Every event of the engine has a UUID. -/
theorem isUuid (h : Parts cfg R ls c vs given) {event : SttEvent} (hevent : event ∈ c.undelivered) :
    Text.isUuid event.utteranceId = true :=
  h.identified _ (Recogniser.id_mem_fresh (h.inOrder.subset (List.mem_append_right _ hevent)))

/-- **A step of the connection** is a step of some of its parts. -/
theorem step (h : Parts cfg R ls c vs given) (hwired : Wired c) (hl : l.identified = true) (hstep : c.step cfg R l = some t) :
    ∃ vs' given', Parts cfg R (ls ++ [l]) t vs' given' := by
  cases Connection.StepTo.of_step hwired hstep with
  | message results => exact ⟨vs, given, h.still hl rfl rfl (Connection.undelivered_events c _ _)⟩
  | receive => exact ⟨vs, given, h.aside rfl rfl rfl rfl⟩
  | frame _ _ hsession => exact ⟨_, _, h.calls [] rfl rfl hsession rfl rfl rfl⟩
  | dispatch => exact ⟨vs, given, h.aside rfl rfl rfl rfl⟩
  | hears uuid => exact ⟨vs, given, h.still hl rfl rfl (List.append_nil _).symm⟩
  | loop _ huses _ hundelivered => exact ⟨vs, given, h.aside huses rfl rfl hundelivered.symm⟩
  | calls _ hevents hcallback =>
      refine ⟨vs, given, h.aside rfl rfl rfl ?_⟩
      rw [Connection.undelivered, Connection.undelivered, hcallback, hevents]
  | @loses event _ _ hcallback =>
      refine ⟨vs, given, h.loses rfl rfl ?_⟩
      have hundelivered : c.undelivered = event :: c.events := by rw [Connection.undelivered, hcallback]
      rw [hundelivered]
      exact List.sublist_cons_self _ _
  | @delivers event _ hcallback hsession =>
      have hundelivered : c.undelivered = event :: c.events := by rw [Connection.undelivered, hcallback]
      have hid := h.isUuid (show event ∈ c.undelivered by rw [hundelivered]; exact List.mem_cons_self)
      refine ⟨_, _, h.calls [event] rfl ?_ hsession rfl (List.append_nil _).symm hundelivered.symm⟩
      simpa [Label.plain, Label.identified] using hid
  | @session v _ htask hsession =>
      refine ⟨_, _, h.calls [] rfl ?_ hsession rfl ?_ rfl⟩
      · cases v <;> first | rfl | cases htask
      · cases v <;> first | rfl | cases htask

end Parts

/-- **A run of the connection is a run of each of its parts.** -/
theorem parts_of_run (h : Run (Connection.step cfg R) (fun _ l => l.identified = true) (.init cfg R) ls c) :
    ∃ vs given, Parts cfg R ls c vs given := by
  have hinv := h.invariant₂ (I := fun ls c => Wired c ∧ ∃ vs given, Parts cfg R ls c vs given)
    ⟨Wired.init cfg R, [], [], Parts.init cfg R⟩
    (fun ⟨hwired, _, _, hparts⟩ hl hstep => ⟨hwired.step hstep, hparts.step hwired hl hstep⟩)
  exact hinv.2

/-! ## The words and the ids -/

/-- The FINAL events as turns. -/
def finalEvents (events : List SttEvent) : List UserTurnCompleted :=
  (events.filter (fun event => event.type = .FINAL)).map fun event => ⟨event.utteranceId, event.transcript⟩

theorem finalEvents_texts (events : List SttEvent) : (finalEvents events).map (·.transcript) = Stt.finalTexts events := by
  rw [finalEvents, List.map_map]
  rfl

theorem finalEvents_ids (events : List SttEvent) :
    (finalEvents events).map (·.utteranceId) = (events.filter (fun event => event.type = .FINAL)).map (·.utteranceId) := by
  rw [finalEvents, List.map_map]
  rfl

theorem finalEvents_append (a b : List SttEvent) : finalEvents (a ++ b) = finalEvents a ++ finalEvents b := by
  simp [finalEvents]

/-- The connection resets no engine. -/
theorem drop_not_mem (ls : List (ConnectionLabel M)) : .drop ∉ engineUses ls := by
  intro hmem
  obtain ⟨l, -, hdrop⟩ := List.mem_flatMap.mp hmem
  cases l with
  | message results =>
      obtain ⟨result, -, hresult⟩ := List.mem_map.mp hdrop
      cases hresult
  | hears uuid => simp [ConnectionLabel.uses] at hdrop
  | _ => exact absurd hdrop List.not_mem_nil

/-- A FINAL event with a whole text is a turn of its own. -/
theorem finalTurns_of_whole {events : List SttEvent} (h : ∀ text ∈ Stt.finalTexts events, Stt.Whole text) :
    (events.flatMap fun event => finalTurns [.transcript .stt event.toTranscriptEvent]) = finalEvents events := by
  induction events with
  | nil => rfl
  | cons event events ih =>
      rw [← List.singleton_append, Stt.finalTexts_append] at h
      have hrest := ih fun text htext => h text (List.mem_append_right _ htext)
      rw [List.flatMap_cons, hrest, ← List.singleton_append (l := events), finalEvents_append]
      congr 1
      obtain ⟨⟨type, utteranceId, transcript⟩, confidence⟩ := event
      cases type with
      | PARTIAL => rfl
      | FINAL =>
          have hwhole := h transcript (List.mem_append_left _ (List.mem_singleton_self _))
          have hstrip := Text.strip_eq_self hwhole.stripped
          have hspoken : spokenTurn ⟨utteranceId, transcript⟩ = [⟨utteranceId, transcript⟩] := by
            rw [spokenTurn_of_ne_nil (by rw [hstrip]; exact hwhole.ne_nil), stripped, hstrip]
          exact (List.append_nil _).trans hspoken

namespace Parts

theorem whole (h : Parts cfg R ls c vs given) : ∀ text ∈ Stt.finalTexts (given ++ c.undelivered), Stt.Whole text := by
  intro text htext
  have hsub := (h.inOrder.filter fun event => event.type = .FINAL).map (·.transcript)
  exact R.whole_final _ (drop_not_mem ls) text (hsub.subset htext)

/-- The turns of the session are the FINAL events that it was given. -/
theorem turns_eq (h : Parts cfg R ls c vs given) : finalTurns vs = finalEvents given := by
  rw [h.turns]
  refine finalTurns_of_whole fun text htext => h.whole text ?_
  rw [Stt.finalTexts_append]
  exact List.mem_append_left _ htext

/-- The turns of the session, and the event whose barge-in is awaited, say what it was given. -/
theorem said (h : Parts cfg R ls c vs given) :
    (∀ turn ∈ c.session.turnsTaken ++ c.session.after.toList.flatMap turnAfter, turn.transcript ≠ []) ∧
      Text.joinSpaces ((c.session.turnsTaken ++ c.session.after.toList.flatMap turnAfter).map (·.transcript)) =
        Text.joinSpaces (Stt.finalTexts given) := by
  obtain ⟨-, hturns, -⟩ := taken_of_run h.session
  obtain ⟨taken, htaken, hbooked⟩ := hturns.booked
  rw [h.turns_eq] at htaken
  have hne : ∀ turn ∈ finalEvents given, turn.transcript ≠ [] := by
    intro turn hturn
    refine (h.whole turn.transcript ?_).ne_nil
    rw [Stt.finalTexts_append, ← finalEvents_texts]
    exact List.mem_append_left _ (List.mem_map_of_mem hturn)
  rw [← htaken] at hne
  obtain ⟨hnonempty, hjoined⟩ := hbooked.gathered.joined fun turn hturn => hne turn (List.mem_append_left _ hturn)
  have hafter : ∀ turn ∈ c.session.after.toList.flatMap turnAfter, turn.transcript ≠ [] :=
    fun turn hturn => hne turn (List.mem_append_right _ hturn)
  have htexts : ∀ {turns : List UserTurnCompleted}, (∀ turn ∈ turns, turn.transcript ≠ []) →
      ∀ text ∈ turns.map (·.transcript), text ≠ [] := by
    intro turns hturns text htext
    obtain ⟨turn, hturn, rfl⟩ := List.mem_map.mp htext
    exact hturns turn hturn
  refine ⟨fun turn hturn => (List.mem_append.mp hturn).elim (hnonempty turn) (hafter turn), ?_⟩
  rw [← finalEvents_texts, ← htaken, List.map_append, List.map_append,
    Text.joinSpaces_append (htexts hnonempty) (htexts hafter), hjoined,
    Text.joinSpaces_append (htexts fun turn hturn => hne turn (List.mem_append_left _ hturn)) (htexts hafter)]

end Parts

/-- The words of the user, by where they are: in the calls of `_reply`, in the held turn, in the event whose barge-in is
awaited, in the FINAL events on their way to the session, and in the engine. -/
def Connection.words (R : Recogniser σ M) (c : Connection σ) : List Text :=
  (c.session.turnsTaken ++ c.session.after.toList.flatMap turnAfter).map (·.transcript) ++
    Stt.finalTexts c.undelivered ++ R.pending c.engine

/-- What the user has said, and what the model is asked. -/
structure Conversed (R : Recogniser σ M) (ls : List (ConnectionLabel M)) (c : Connection σ) : Prop where
  /-- No word that the provider has fixed is lost, said twice or out of order. -/
  words : Text.joinSpaces (c.words R) = Text.joinSpaces (Stt.saidBy R.said (engineUses ls))
  /-- The prompts handed over, and those of the calls of `_reply` that wait in `tts.begin`, are those of the calls of
  `_reply`. -/
  prompted : ∃ pending, PromptsWait c.session pending ∧
    (prompts c.session.trace ++ pending.map Prod.snd).Perm ((replied c.session.trace).map (·.transcript))

/-- **What the provider has fixed is what the user is answered to**, word for word, while no send fails. -/
theorem conversed_of_run (cfg : Config) (R : Recogniser σ M)
    (h : Run (Connection.step cfg R) (fun _ l => (l.identified && l.delivers) = true) (.init cfg R) ls c) :
    Conversed R ls c := by
  have hdelivers : ∀ l ∈ ls, l.delivers = true := by
    refine h.invariant₂ (I := fun ls _ => ∀ l ∈ ls, l.delivers = true) (fun _ hl => absurd hl List.not_mem_nil) ?_
    intro ls t u last hls hlast _ l hmem
    rcases List.mem_append.mp hmem with hmem | hmem
    · exact hls l hmem
    · rw [List.mem_singleton.mp hmem]
      exact (Bool.and_eq_true_iff.mp hlast).2
  obtain ⟨vs, given, hparts⟩ := parts_of_run (h.mono fun _ _ hl => (Bool.and_eq_true_iff.mp hl).1)
  obtain ⟨-, -, hprompted⟩ := taken_of_run hparts.session
  refine ⟨?_, hprompted⟩
  obtain ⟨hne, hsaid⟩ := hparts.said
  have hpending : ∀ text ∈ R.pending c.engine, text ≠ [] := by
    rw [hparts.engine]
    exact fun text htext => (R.whole_pending _ (drop_not_mem ls) text htext).ne_nil
  have hfinal : ∀ text ∈ Stt.finalTexts (given ++ c.undelivered), text ≠ [] := fun text htext => (hparts.whole text htext).ne_nil
  have hconserves := R.conserves _ (drop_not_mem ls)
  rw [← hparts.engine, ← hparts.complete hdelivers, Text.joinSpaces_append hfinal hpending, Stt.finalTexts_append] at hconserves
  rw [Stt.finalTexts_append] at hfinal
  have hgiven : ∀ text ∈ Stt.finalTexts given, text ≠ [] := fun text htext => hfinal text (List.mem_append_left _ htext)
  have hcoming : ∀ text ∈ Stt.finalTexts c.undelivered, text ≠ [] :=
    fun text htext => hfinal text (List.mem_append_right _ htext)
  have htaken : ∀ text ∈ (c.session.turnsTaken ++ c.session.after.toList.flatMap turnAfter).map (·.transcript), text ≠ [] := by
    intro text htext
    obtain ⟨turn, hturn, rfl⟩ := List.mem_map.mp htext
    exact hne turn hturn
  have hboth : ∀ text ∈ (c.session.turnsTaken ++ c.session.after.toList.flatMap turnAfter).map (·.transcript) ++
      Stt.finalTexts c.undelivered, text ≠ [] :=
    fun text htext => (List.mem_append.mp htext).elim (htaken text) (hcoming text)
  rw [Connection.words, Text.joinSpaces_append hboth hpending, Text.joinSpaces_append htaken hcoming, hsaid,
    ← Text.joinSpaces_append hgiven hcoming]
  exact hconserves

/-- The text of a UUID. -/
def uuidOf (c : Char) : Text := "00000000-0000-0000-0000-00000000000".toList ++ [c]

/-- The message that fixes a segment and ends the turn. -/
def lastSegment (text : Text) : Stt.Payload where
  alternatives := [{ transcript := some text }]
  isFinal := true
  speechFinal := true

/-- The parts of a turn around a pause, and the next turn on its way. -/
def pausedSpeech : List (ConnectionLabel Stt.Payload) :=
  [.getFrame, .receive [1, 0] none, .dispatch, .dispatch, .getFrame, .hears (uuidOf '0'),
    .message [(uuidOf '1', lastSegment "I am calling for".toList)], .recognised false, .sent false, .session (.handler .stt (.ok ())),
    .processed, .receive [2, 0] none, .dispatch, .dispatch, .getFrame, .hears (uuidOf '2'),
    .message [(uuidOf '3', lastSegment "my order.".toList)], .recognised false, .message [(uuidOf '4', lastSegment "Hello?".toList)],
    .sent false, .session (.generation 0 (.ok .none))]

theorem conversed_of_run_pausedSpeech : ∃ c,
    Run (Connection.step {} Stt.DeepgramEngine.recogniser) (fun _ l => (l.identified && l.delivers) = true)
        (.init {} Stt.DeepgramEngine.recogniser) pausedSpeech c ∧
      c.words Stt.DeepgramEngine.recogniser = ["I am calling for my order.".toList, "Hello?".toList] ∧
      Conversed Stt.DeepgramEngine.recogniser pausedSpeech c := by
  obtain ⟨c, hrun, hc⟩ := Run.exists_of_exec
    (P := fun c => c.words Stt.DeepgramEngine.recogniser == ["I am calling for my order.".toList, "Hello?".toList])
    (show (exec (Connection.step {} Stt.DeepgramEngine.recogniser) (fun _ l => (l.identified && l.delivers) = true)
      (.init {} Stt.DeepgramEngine.recogniser) pausedSpeech).any _ = true by decide +kernel)
  exact ⟨c, hrun, beq_iff_eq.mp hc, conversed_of_run {} Stt.DeepgramEngine.recogniser hrun⟩

/-- **No two calls of `_reply` bear one id**, nor one with the held turn, whatever is lost on the way. -/
theorem repliesApart_of_run (cfg : Config) (R : Recogniser σ M)
    (h : Run (Connection.step cfg R) (fun _ l => l.identified = true) (.init cfg R) ls c)
    (hfresh : (Namer.fresh (engineUses ls)).Nodup) : (c.session.turnsTaken.map (·.utteranceId)).Nodup := by
  obtain ⟨vs, given, hparts⟩ := parts_of_run h
  obtain ⟨-, hturns, -⟩ := taken_of_run hparts.session
  obtain ⟨taken, htaken, hbooked⟩ := hturns.booked
  rw [hparts.turns_eq] at htaken
  have htakenIds : (taken.map (·.utteranceId)).Sublist ((finalEvents given).map (·.utteranceId)) := by
    rw [← htaken, List.map_append]
    exact List.sublist_append_left _ _
  have hgiven : given.Sublist (R.namer.outs R.init (engineUses ls)) :=
    (List.sublist_append_left given c.undelivered).trans hparts.inOrder
  have hgivenIds := (hgiven.filter fun event => event.type = .FINAL).map (·.utteranceId)
  rw [finalEvents_ids] at htakenIds
  exact ((hbooked.gathered.ids.trans htakenIds).trans hgivenIds).nodup (Recogniser.finalIds_nodup hfresh)

/-- The same speech; the next turn interrupts the reply to the first one, and is answered. -/
def twoTurns : List (ConnectionLabel Stt.Payload) :=
  pausedSpeech ++ [.session (.reply 0 (.ok .none)), .processed, .receive [3, 0] none, .dispatch, .dispatch, .getFrame,
    .hears (uuidOf '5'), .recognised false, .sent false, .session (.generation 0 .cancelled), .session (.reply 0 .cancelled),
    .session (.generation 0 (.ok .none)), .session (.reply 0 (.ok .none)), .session (.reply 0 (.ok .none)),
    .session (.handler .stt (.ok ())), .session (.handler .stt (.ok ()))]

/-- A turn goes by the id of its first event. -/
theorem repliesApart_of_run_twoTurns : ∃ c : Connection Stt.DeepgramEngine,
    c.session.turnsTaken.map (·.utteranceId) = [uuidOf '0', uuidOf '4'] ∧
      (c.session.turnsTaken.map (·.utteranceId)).Nodup := by
  obtain ⟨c, hrun, hc⟩ := Run.exists_of_exec
    (P := fun c => c.session.turnsTaken.map (·.utteranceId) == [uuidOf '0', uuidOf '4'])
    (show (exec (Connection.step {} Stt.DeepgramEngine.recogniser) (fun _ l => l.identified = true)
      (.init {} Stt.DeepgramEngine.recogniser) twoTurns).any _ = true by decide +kernel)
  exact ⟨c, beq_iff_eq.mp hc, repliesApart_of_run {} Stt.DeepgramEngine.recogniser hrun (by decide +kernel)⟩

end Voxera.Voice
