import Voxera.EventLoop.Run
import Voxera.Since
import Voxera.Web.Pcm16Player

/-!
# `MicCapture`: the microphone in the browser

The capture with what the browser holds for it. The calls of `start` wait in their `await`s at the same time; the promises,
the tracks, the contexts and the worklets come in any order. The callbacks of the capture do not call it back.

* `Start` : a call of `start` with its variables;
* `MicCapture.step` : the capture from one event to the next;
* `MicCapture.Overtaken` : a call that a `stop` or a later `start` has overtaken.

The numbers of the calls and `trace` are a record that the source does not have and nothing reads.
-/

namespace Voxera.Web

open EventLoop Since

/-- What is thrown. -/
inductive Thrown where
  | domException (name message : String)
  | error (message : String)
  /-- Something that is no `Error`, as a text. -/
  | other (text : String)
  deriving DecidableEq, Repr

/-- `describeError` -/
def describeError : Thrown → String
  | .domException name message =>
    if name = "NotAllowedError" ∨ name = "SecurityError" then
      "Microphone permission denied. Allow microphone access for this page to use voice."
    else if name = "NotFoundError" ∨ name = "OverconstrainedError" then "No usable microphone was found."
    else if name = "NotReadableError" then "The microphone is in use by another application or could not be opened."
    else "Microphone error: " ++ (if message = "" then name else message)
  | .error message => "Microphone error: " ++ message
  | .other text => "Microphone error: " ++ text

/-- `FRAME_BYTES` -/
def frameBytes : ℕ := 640

/-- `ANTI_ALIAS_HZ` -/
def antiAliasHz : ℚ := 7000

/-- What `getUserMedia` gives: its tracks, with whether they are live, and whether `handleTrackEnded` listens to them. -/
structure MediaStream where
  tracks : List Bool
  listening : Bool := false
  deriving DecidableEq, Repr

/-- The tracks are stopped. -/
def MediaStream.stop (s : MediaStream) : MediaStream := { s with tracks := s.tracks.map (fun _ => false) }

def MediaStream.live (s : MediaStream) : Bool := s.tracks.any id

/-- An `AudioContext`; `closing` once `close()` has been called. -/
structure CaptureContext where
  state : ContextState
  sampleRate : ℚ
  closing : Bool := false
  deriving DecidableEq, Repr

/-- `if (ctx.state !== "closed") await ctx.close()` -/
def CaptureContext.close (ctx : CaptureContext) : CaptureContext :=
  if ctx.state = .closed then ctx else { ctx with closing := true }

/-- The context has been closed, or will be. -/
def CaptureContext.ended (ctx : CaptureContext) : Bool := ctx.closing || ctx.state = .closed

/-- The `AudioWorkletNode` behind the low-pass filter; `listening` while `onmessage` and `onprocessorerror` are set. -/
structure WorkletNode where
  cutoff : ℚ
  listening : Bool := true
  deriving DecidableEq, Repr

/-- Where a call of `start` is: in one of its `await`s, or settled with the message it has thrown, if it has. -/
inductive Start.Pc where
  | getUserMedia
  | addModule
  | resume
  /-- At `abandon()`, with what is thrown after it. -/
  | abandoning (error : Option String)
  | settled (error : Option String)
  deriving DecidableEq, Repr

/-- In an `await` of the `try`. -/
def Start.Pc.inFlight : Start.Pc → Bool
  | .getUserMedia | .addModule | .resume => true
  | _ => false

/-- A call of `start`. -/
structure Start where
  generation : ℕ
  pc : Start.Pc
  stream : Option MediaStream := none
  ctx : Option CaptureContext := none
  node : Option WorkletNode := none
  deriving DecidableEq, Repr

namespace Start

/-- `abandon` up to its `await`. -/
def abandon (st : Start) : Start :=
  { st with stream := st.stream.map MediaStream.stop, ctx := st.ctx.map CaptureContext.close }

/-- The `catch` of `start`. -/
def fail (st : Start) (err : Thrown) : Start := { st.abandon with pc := .abandoning (some (describeError err)) }

/-- `return abandon()` -/
def overtaken (st : Start) : Start := { st.abandon with pc := .abandoning none }

/-- The graph is complete. -/
def connected (st : Start) : Start :=
  { st with
    stream := st.stream.map (fun stream => { stream with listening := true })
    node := st.ctx.map (fun ctx => { cutoff := min antiAliasHz (ctx.sampleRate / 2) })
    pc := .settled none }

/-- `teardown`, of the graph of this call. -/
def teardown (st : Start) : Start :=
  { st with
    stream := st.stream.map (fun stream => { stream.stop with listening := false })
    ctx := st.ctx.map CaptureContext.close
    node := st.node.map (fun node => { node with listening := false }) }

/-- A microphone is live for the call, or a context open. -/
def holds (st : Start) : Bool := st.stream.any MediaStream.live || st.ctx.any (fun ctx => !ctx.ended)

end Start

/-- What has happened, in order. -/
inductive MicEvent where
  /-- The `call`th call of `start` begins. -/
  | started (call : ℕ)
  | stopped
  /-- `onFrame` -/
  | frame (call : ℕ) (pcm : Bytes)
  /-- `onLevel` -/
  | level (call : ℕ) (rms : ℚ)
  /-- `onEnded` -/
  | ended (call : ℕ) (reason : String)
  deriving DecidableEq, Repr

/-- What can happen to the calls of `start` and to what the browser holds for them; `call` is the number of the call. -/
inductive MicLabel where
  /-- `start` is called, with whether the page has `getUserMedia` and `AudioWorkletNode`. -/
  | start (mediaDevices workletNode : Bool)
  | stop
  /-- `getUserMedia` settles, with the number of the tracks; `ctor` is what `new AudioContext()` gives, where it is called. -/
  | userMedia (call : ℕ) (result : Except Thrown ℕ) (ctor : Except Thrown CaptureContext)
  /-- `addModule` settles; `build` is what the construction of the graph throws, where it is reached. -/
  | moduleAdded (call : ℕ) (result : Except Thrown Unit) (build : Option Thrown)
  /-- `ctx.resume()` settles. -/
  | resumed (call : ℕ) (result : Except Thrown Unit) (build : Option Thrown)
  /-- `abandon()` settles. -/
  | abandoned (call : ℕ)
  /-- A track ends by itself. -/
  | trackEnded (call track : ℕ)
  | processorError (call : ℕ)
  /-- A message of the worklet. -/
  | message (call : ℕ) (isFrame : Bool) (pcm : Bytes) (rms : ℚ)
  /-- The context shows another state of itself. -/
  | context (call : ℕ) (state : ContextState)
  deriving Repr

structure MicCapture where
  generation : ℕ := 0
  /-- `stream`, `ctx`, `source`, `filter`, `node` and `sink`, which are stored and cleared together: those of this call. -/
  graph : Option ℕ := none
  starts : List Start := []
  trace : List MicEvent := []
  deriving DecidableEq, Repr

namespace MicCapture

def emit (m : MicCapture) (es : List MicEvent) : MicCapture := { m with trace := m.trace ++ es }

def put (m : MicCapture) (call : ℕ) (st : Start) : MicCapture := { m with starts := m.starts.set call st }

/-- The call, if it waits at `pc`. -/
def waiting (m : MicCapture) (call : ℕ) (pc : Start.Pc) : Option Start := m.starts[call]?.filter (fun st => st.pc = pc)

/-- A call of `start` is at `pc`. -/
def enter (m : MicCapture) (pc : Start.Pc) : MicCapture :=
  { m.emit [.started m.starts.length] with starts := m.starts ++ [{ generation := m.generation, pc }] }

/-- `start` up to its first `await`. -/
def start (m : MicCapture) (mediaDevices workletNode : Bool) : MicCapture :=
  if m.graph.isSome then m.enter (.settled none)
  else
    let m := { m with generation := m.generation + 1 }
    if !mediaDevices then m.enter (.settled (some "Microphone access needs a secure page (https or localhost)."))
    else if !workletNode then m.enter (.settled (some "This browser does not support AudioWorklet."))
    else m.enter .getUserMedia

/-- `start` from `await getUserMedia` to the next `await`. -/
def gotUserMedia (m : MicCapture) (call : ℕ) (st : Start) (result : Except Thrown ℕ) (ctor : Except Thrown CaptureContext) :
    MicCapture :=
  match result with
  | .error err => m.put call (st.fail err)
  | .ok tracks =>
    let st := { st with stream := some { tracks := List.replicate tracks true } }
    if st.generation ≠ m.generation then m.put call st.overtaken
    else
      match ctor with
      | .error err => m.put call (st.fail err)
      | .ok ctx => m.put call { st with ctx := some ctx, pc := .addModule }

/-- `start` from the second `generation !== this.generation` to its end. -/
def complete (m : MicCapture) (call : ℕ) (st : Start) (build : Option Thrown) : MicCapture :=
  if st.generation ≠ m.generation then m.put call st.overtaken
  else
    match build with
    | some err => m.put call (st.fail err)
    | none => { m.put call st.connected with graph := some call }

/-- `start` from `await ctx.audioWorklet.addModule(..)` on. -/
def moduleAdded (m : MicCapture) (call : ℕ) (st : Start) (result : Except Thrown Unit) (build : Option Thrown) : MicCapture :=
  match result with
  | .error err => m.put call (st.fail err)
  | .ok () =>
    if st.ctx.any (fun ctx => ctx.state ≠ .running) then m.put call { st with pc := .resume }
    else m.complete call st build

/-- `start` from `await ctx.resume()` on. -/
def resumed (m : MicCapture) (call : ℕ) (st : Start) (result : Except Thrown Unit) (build : Option Thrown) : MicCapture :=
  match result with
  | .error err => m.put call (st.fail err)
  | .ok () => m.complete call st build

/-- `teardown` up to its `await`. -/
def teardown (m : MicCapture) : MicCapture :=
  match m.graph with
  | none => m
  | some call => { m with graph := none, starts := m.starts.modify call Start.teardown }

/-- `stop` up to its `await`. -/
def stop (m : MicCapture) : MicCapture := ({ m with generation := m.generation + 1 }.emit [.stopped]).teardown

/-- `handleTrackEnded`, which listens to a track of the call. -/
def handleTrackEnded (m : MicCapture) (call : ℕ) : MicCapture :=
  if m.graph.isNone then m else (m.emit [.ended call "The microphone was disconnected."]).stop

/-- A track ends. -/
def endTrack (m : MicCapture) (call track : ℕ) (st : Start) (stream : MediaStream) : Option MicCapture :=
  if stream.tracks[track]? = some true then
    let m := m.put call { st with stream := some { stream with tracks := stream.tracks.set track false } }
    some (if stream.listening then m.handleTrackEnded call else m)
  else none

/-- `onprocessorerror`, where it is set. -/
def processorError (m : MicCapture) (call : ℕ) (node : WorkletNode) : MicCapture :=
  if node.listening then (m.emit [.ended call "The microphone audio processor failed."]).stop else m

/-- `port.onmessage`, where it is set. -/
def message (m : MicCapture) (call : ℕ) (node : WorkletNode) (isFrame : Bool) (pcm : Bytes) (rms : ℚ) : MicCapture :=
  if node.listening ∧ isFrame ∧ pcm.length = frameBytes then m.emit [.frame call pcm, .level call rms] else m

def step (m : MicCapture) : MicLabel → Option MicCapture
  | .start mediaDevices workletNode => some (m.start mediaDevices workletNode)
  | .stop => some m.stop
  | .userMedia call result ctor => (m.waiting call .getUserMedia).map (fun st => m.gotUserMedia call st result ctor)
  | .moduleAdded call result build => (m.waiting call .addModule).map (fun st => m.moduleAdded call st result build)
  | .resumed call result build => (m.waiting call .resume).map (fun st => m.resumed call st result build)
  | .abandoned call =>
    m.starts[call]?.bind (fun st =>
      match st.pc with
      | .abandoning error => some (m.put call { st with pc := .settled error })
      | _ => none)
  | .trackEnded call track => m.starts[call]?.bind (fun st => st.stream.bind (m.endTrack call track st))
  | .processorError call => m.starts[call]?.bind (fun st => st.node.map (m.processorError call))
  | .message call isFrame pcm rms =>
    m.starts[call]?.bind (fun st => st.node.map (fun node => m.message call node isFrame pcm rms))
  | .context call state =>
    m.starts[call]?.bind (fun st =>
      st.ctx.bind (fun ctx =>
        if ctx.state = .closed then none else some (m.put call { st with ctx := some { ctx with state } })))

def isStopped : MicEvent → Bool
  | .stopped => true
  | _ => false

/-- `stop` or a later `start` was called after the call. -/
def Overtaken (m : MicCapture) (call : ℕ) : Prop :=
  .started call ∉ since isStopped m.trace ∨ call + 1 < m.starts.length

end MicCapture

end Voxera.Web
