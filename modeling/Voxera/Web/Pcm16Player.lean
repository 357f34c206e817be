import Voxera.EventLoop.Run
import Voxera.Numbers
import Voxera.Pcm16
import Voxera.Since

/-!
# `PCM16Player`: the audio of a reply in the browser

The player with what the browser holds for it. Times are exact. An `AudioContext` changes its state and its clock by
itself; the callbacks of the player do not call it back.

* `Speaker` : the audio that the player holds, the source nodes and the timers; `Act` : what is done to it;
* `Page` : the rest of the player, its contexts and the `async` functions that wait in an `await`;
* `Page.step` : the page from one event to the next;
* `Plays` : what a listener is promised; `Page.inTurn` : the events that keep to the promise.

`trace`, the numbers of chunks and streams and the counters are a record that the source does not have and nothing reads.
A stream begins with `beginStream()`, and after a `clear()`.
-/

namespace Voxera.Web

open EventLoop Since

inductive PlaybackState where
  | idle
  | playing
  deriving DecidableEq, Repr

/-- The bytes of one `push`, the `number`th of all, in the stream `stream`. -/
structure Chunk where
  number : ℕ
  stream : ℕ
  bytes : Bytes
  deriving DecidableEq, Repr

/-- A source as it is scheduled: `buffer` plays from `start` on; `now` is the clock that was read for it. -/
structure Source where
  chunk : Chunk
  buffer : List ℚ
  start : ℚ
  now : ℚ
  deriving DecidableEq, Repr

/-- An `AudioBufferSourceNode` that has not ended; `onended` when the handler is set. -/
structure Node where
  id : ℕ
  source : Source
  onended : Bool := true
  stopped : Bool := false
  deriving DecidableEq, Repr

/-- A timer of `setTimeout` that runs, for the source that plays `chunk`. -/
structure Timer where
  id : ℕ
  chunk : Chunk
  heardAtMs : ℚ
  delayMs : ℚ
  deriving DecidableEq, Repr

inductive Event where
  | pushed (chunk : Chunk)
  | cleared
  /-- `src.start(start)` -/
  | scheduled (source : Source)
  /-- `onStateChange` -/
  | stateChange (state : PlaybackState)
  /-- `onFirstAudio`, for the source that plays `chunk`. -/
  | firstAudio (chunk : Chunk) (heardAtMs : ℚ)
  /-- The context was refused: the queued audio is dropped, in these streams. -/
  | refused (streams : List ℕ)
  deriving DecidableEq, Repr

inductive ContextState where
  | suspended
  | running
  | interrupted
  | closed
  deriving DecidableEq, Repr

/-- What an `AudioContext` shows of itself. -/
structure AudioContext where
  state : ContextState
  currentTime : ℚ := 0
  outputLatency : Option ℚ := none
  baseLatency : Option ℚ := none
  deriving DecidableEq, Repr

/-- `SAMPLE_RATE` -/
def sampleRate : ℚ := 16000

/-- `JITTER_BUFFER_S` -/
def jitterBufferS : ℚ := 8 / 100

/-- `buf.duration` -/
def Source.duration (s : Source) : ℚ := s.buffer.length / sampleRate

/-- When the source has played. -/
def Source.finish (s : Source) : ℚ := s.start + s.duration

/-! ## The audio -/

structure Speaker where
  /-- `sources`, in the order of insertion. -/
  sources : List ℕ := []
  pending : List Chunk := []
  carry : Option UInt8 := none
  nextStartTime : ℚ := 0
  state : PlaybackState := .idle
  awaitingFirstAudio : Bool := false
  firstAudioTimer : Option ℕ := none
  frameCount : ℕ := 0
  /-- The nodes that have been started and have not ended. -/
  nodes : List Node := []
  timers : List Timer := []
  pushes : ℕ := 0
  streams : ℕ := 0
  nodesMade : ℕ := 0
  timersMade : ℕ := 0
  trace : List Event := []
  deriving DecidableEq, Repr

/-- The samples of whole PCM16 values; a last odd byte is left out. -/
def floats (bytes : Bytes) : List ℚ := (samples bytes).map (fun x : ℤ => (x : ℚ) / 32768)

/-- `decode`; the samples, and `carry` after it. -/
def decode (carry : Option UInt8) (pcm16 : Bytes) : List ℚ × Option UInt8 :=
  let (bytes, odd) := splitOdd (carry.toList ++ pcm16)
  (floats bytes, odd.head?)

namespace Speaker

def emit (sp : Speaker) (e : Event) : Speaker := { sp with trace := sp.trace ++ [e] }

/-- `setState` -/
def setState (sp : Speaker) (state : PlaybackState) : Speaker :=
  if sp.state = state then sp else ({ sp with state } : Speaker).emit (.stateChange state)

/-- The source for the samples, where the queue ran dry with the jitter buffer in front of it. -/
def source (sp : Speaker) (ctx : AudioContext) (chunk : Chunk) (buffer : List ℚ) : Source :=
  let now := ctx.currentTime
  { chunk, buffer, start := if sp.nextStartTime < now then now + jitterBufferS else sp.nextStartTime, now }

/-- `this.sources.add(src)`, with the time at which the next source starts. -/
def addSource (sp : Speaker) (source : Source) : Speaker :=
  { sp with
    nextStartTime := source.finish
    nodes := sp.nodes ++ [({ id := sp.nodesMade, source } : Node)]
    nodesMade := sp.nodesMade + 1
    sources := sp.sources ++ [sp.nodesMade] }

/-- `schedule` from `createBufferSource` to `setState("playing")`. -/
def play (sp : Speaker) (source : Source) : Speaker := ((sp.addSource source).emit (.scheduled source)).setState .playing

/-- `if (this.awaitingFirstAudio)` -/
def reportFirstAudio (sp : Speaker) (ctx : AudioContext) (performanceNow : ℚ) (source : Source) : Speaker :=
  if sp.awaitingFirstAudio then
    let outputLatencyS := orDefault ctx.outputLatency (orDefault ctx.baseLatency 0)
    let delayMs := (source.start - source.now + outputLatencyS) * 1000
    { sp with
      awaitingFirstAudio := false
      firstAudioTimer := some sp.timersMade
      timersMade := sp.timersMade + 1
      timers := sp.timers ++ [{ id := sp.timersMade, chunk := source.chunk, heardAtMs := performanceNow + delayMs, delayMs }] }
  else sp

/-- `schedule`, in a player that has a context. -/
def schedule (ctx : AudioContext) (performanceNow : ℚ) (sp : Speaker) (pcm16 : Chunk) : Speaker :=
  let (buffer, carry) := decode sp.carry pcm16.bytes
  let sp := { sp with carry }
  if buffer = [] then sp
  else
    let source := sp.source ctx pcm16 buffer
    (sp.play source).reportFirstAudio ctx performanceNow source

/-- `flushPending`, in a player that has a context. -/
def flushPending (sp : Speaker) (ctx : AudioContext) (performanceNow : ℚ) : Speaker :=
  sp.pending.foldl (schedule ctx performanceNow) { sp with pending := [] }

/-- The chunk that is pushed next. -/
def chunk (sp : Speaker) (bytes : Bytes) : Chunk := { number := sp.pushes, stream := sp.streams, bytes }

/-- A chunk arrives; the source keeps no record of it. -/
def arrive (sp : Speaker) (bytes : Bytes) : Speaker :=
  ({ sp with pushes := sp.pushes + 1 } : Speaker).emit (.pushed (sp.chunk bytes))

/-- `this.pending.push(pcm16)` -/
def wait (sp : Speaker) (bytes : Bytes) : Speaker :=
  { sp.arrive bytes with pending := sp.pending ++ [sp.chunk bytes] }

/-- `this.pending = []` where the context is refused. -/
def drop (sp : Speaker) : Speaker :=
  { sp.emit (.refused (sp.streams :: sp.pending.map Chunk.stream)) with pending := [] }

/-- `beginStream` -/
def beginStream (sp : Speaker) : Speaker :=
  { sp with
    carry := none
    awaitingFirstAudio := sp.awaitingFirstAudio || sp.firstAudioTimer.isNone
    streams := sp.streams + 1 }

/-- `src.onended = null` and `src.stop()` on the nodes in `sources`. -/
def silence (sp : Speaker) (node : Node) : Node :=
  if node.id ∈ sp.sources then { node with onended := false, stopped := true } else node

/-- `clear` up to `setState("idle")`. -/
def stopAll (sp : Speaker) : Speaker :=
  { sp with
    pending := []
    carry := none
    awaitingFirstAudio := false
    timers := sp.timers.filter (fun timer => sp.firstAudioTimer ≠ some timer.id)
    firstAudioTimer := none
    sources := []
    nodes := sp.nodes.map sp.silence
    nextStartTime := 0
    streams := sp.streams + 1 }

/-- `clear` -/
def clear (sp : Speaker) : Speaker := (sp.stopAll.emit .cleared).setState .idle

/-- The handler `onended` of the source `id`. -/
def onended (sp : Speaker) (id : ℕ) : Speaker :=
  if id ∈ sp.sources then
    let sp := { sp with sources := sp.sources.erase id, frameCount := sp.frameCount + 1 }
    if sp.sources = [] then sp.setState .idle else sp
  else sp

/-- The node `id` ends. -/
def ended (sp : Speaker) (id : ℕ) : Option Speaker :=
  (sp.nodes.find? (fun node => node.id = id)).map (fun node =>
    let sp := { sp with nodes := sp.nodes.filter (fun node => node.id ≠ id) }
    if node.onended then sp.onended id else sp)

/-- The timer `id` runs out. -/
def timeout (sp : Speaker) (id : ℕ) : Option Speaker :=
  (sp.timers.find? (fun timer => timer.id = id)).map (fun timer =>
    ({ sp with firstAudioTimer := none, timers := sp.timers.filter (fun timer => timer.id ≠ id) } : Speaker).emit
      (.firstAudio timer.chunk timer.heardAtMs))

end Speaker

/-- What is done to the audio, by a page with the context `ctx` where it needs one. -/
inductive Act where
  | wait (bytes : Bytes)
  | play (bytes : Bytes) (ctx : AudioContext) (performanceNow : ℚ)
  | flush (ctx : AudioContext) (performanceNow : ℚ)
  | drop
  | beginStream
  | clear
  /-- `this._frameCount = 0` -/
  | resetCount
  | ended (id : ℕ)
  | timeout (id : ℕ)

def Speaker.act (sp : Speaker) : Act → Option Speaker
  | .wait bytes => some (sp.wait bytes)
  | .play bytes ctx performanceNow => some ((sp.arrive bytes).schedule ctx performanceNow (sp.chunk bytes))
  | .flush ctx performanceNow => some (sp.flushPending ctx performanceNow)
  | .drop => some sp.drop
  | .beginStream => some sp.beginStream
  | .clear => some sp.clear
  | .resetCount => some { sp with frameCount := 0 }
  | .ended id => sp.ended id
  | .timeout id => sp.timeout id

/-! ## The page -/

/-- An `async` function that waits in an `await`; the numbers are those of a context and of a call of `init`. -/
inductive Task where
  /-- `open`, at `await ctx.resume()`. -/
  | opening (ctx init : ℕ)
  /-- `open` has thrown, and the `catch` of `init` has not run yet. -/
  | failed (init : ℕ)
  /-- `ensureRunning`, at `await ctx.resume()`. -/
  | resuming (ctx : ℕ)
  /-- `ensureRunning`, at `return this.init()`. -/
  | awaiting (init : ℕ)
  deriving DecidableEq, Repr

structure Page extends Speaker where
  ctx : Option ℕ := none
  initPromise : Option ℕ := none
  closed : Bool := false
  /-- The contexts that have been created. -/
  contexts : List AudioContext := []
  /-- The calls of `init`, with whether their promise is fulfilled or rejected once it is settled. -/
  inits : List (Option Bool) := []
  tasks : List Task := []
  /-- `performance.now()` -/
  performanceNow : ℚ := 0
  deriving DecidableEq, Repr

/-- What can happen. Where a context may be created, `ctor` is what the constructor gives, with the rate or without; `none`
when both raise. -/
inductive PageLabel where
  | init (ctor : Option AudioContext)
  | push (pcm16 : Bytes) (ctor : Option AudioContext)
  | beginStream
  | clear
  | reset
  | close
  /-- What the `i`th task waits for is fulfilled or rejected, and the task runs on. -/
  | settled (i : ℕ) (fulfilled : Bool)
  /-- The context `i` shows something else of itself. -/
  | context (i : ℕ) (ctx : AudioContext)
  | performance (now : ℚ)
  | ended (id : ℕ)
  | timeout (id : ℕ)
  deriving DecidableEq, Repr

namespace Page

/-- `this.ctx` -/
def context (w : Page) : Option AudioContext := w.ctx.bind (fun i => w.contexts[i]?)

/-- `this.ctx?.state === "running"` -/
def running (w : Page) : Bool := w.context.any (fun ctx => ctx.state = .running)

/-- `schedule` -/
def schedule (w : Page) (pcm16 : Chunk) : Page :=
  match w.context with
  | none => w
  | some ctx => { w with toSpeaker := w.toSpeaker.schedule ctx w.performanceNow pcm16 }

/-- `flushPending` -/
def flushPending (w : Page) : Page := w.pending.foldl schedule { w with pending := [] }

def settle (w : Page) (init : ℕ) (fulfilled : Bool) : Page := { w with inits := w.inits.set init (some fulfilled) }

/-- `open` up to its `await`, in the call `init` of `init`. -/
def openContext (w : Page) (ctor : Option AudioContext) (init : ℕ) : Page :=
  if w.closed then w.settle init true
  else
    match ctor with
    | none => { w with tasks := w.tasks ++ [.failed init] }
    | some ctx =>
      let i := w.contexts.length
      let w := { w with ctx := some i, contexts := w.contexts ++ [ctx] }
      if ctx.state ≠ .running then { w with tasks := w.tasks ++ [.opening i init] }
      else w.flushPending.settle init true

/-- `init`; the number of the promise that it returns. -/
def init (w : Page) (ctor : Option AudioContext) : ℕ × Page :=
  match w.initPromise with
  | some init => (init, w)
  | none =>
    let init := w.inits.length
    (init, { ({ w with inits := w.inits ++ [none] } : Page).openContext ctor init with initPromise := some init })

/-- `ensureRunning` up to its `await`. -/
def ensureRunning (w : Page) (ctor : Option AudioContext) : Page :=
  match w.ctx with
  | none =>
    let (init, w) := w.init ctor
    { w with tasks := w.tasks ++ [.awaiting init] }
  | some ctx => { w with tasks := w.tasks ++ [.resuming ctx] }

/-- `push` -/
def push (w : Page) (pcm16 : Bytes) (ctor : Option AudioContext) : Page :=
  if w.closed ∨ pcm16 = [] then w
  else if w.running then ({ w with toSpeaker := w.toSpeaker.arrive pcm16 } : Page).schedule (w.chunk pcm16)
  else ({ w with toSpeaker := w.toSpeaker.wait pcm16 } : Page).ensureRunning ctor

/-- `close`; what the browser makes of `ctx.close()` it shows in the context. -/
def close (w : Page) : Page := { w with toSpeaker := w.toSpeaker.clear, closed := true, ctx := none, initPromise := none }

/-- A task from its `await` on. -/
def resume (w : Page) (fulfilled : Bool) : Task → Option Page
  | .opening ctx init =>
    if fulfilled then
      some ((if w.closed ∨ w.ctx ≠ some ctx then w else w.flushPending).settle init true)
    else some { w with tasks := w.tasks ++ [.failed init] }
  | .failed init => if fulfilled then none else some { w.settle init false with initPromise := none }
  | .resuming ctx =>
    if fulfilled then some (if w.ctx = some ctx then w.flushPending else w)
    else some { w with toSpeaker := w.toSpeaker.drop }
  | .awaiting init =>
    if w.inits[init]? = some (some fulfilled) then
      some (if fulfilled then w else { w with toSpeaker := w.toSpeaker.drop })
    else none

def step (w : Page) : PageLabel → Option Page
  | .init ctor => some (w.init ctor).2
  | .push pcm16 ctor => some (w.push pcm16 ctor)
  | .beginStream => some { w with toSpeaker := w.toSpeaker.beginStream }
  | .clear => some { w with toSpeaker := w.toSpeaker.clear }
  | .reset => some { w with toSpeaker := { w.toSpeaker.clear with frameCount := 0 } }
  | .close => some w.close
  | .settled i fulfilled =>
    w.tasks[i]?.bind (fun task => ({ w with tasks := w.tasks.eraseIdx i } : Page).resume fulfilled task)
  | .context i ctx =>
    w.contexts[i]?.bind (fun old =>
      if old.currentTime ≤ ctx.currentTime then some { w with contexts := w.contexts.set i ctx } else none)
  | .performance now => if w.performanceNow ≤ now then some { w with performanceNow := now } else none
  | .ended id => (w.toSpeaker.ended id).map (fun sp => { w with toSpeaker := sp })
  | .timeout id => (w.toSpeaker.timeout id).map (fun sp => { w with toSpeaker := sp })

end Page

/-! ## What a listener is promised -/

def Event.isCleared : Event → Bool
  | .cleared => true
  | _ => false

def Event.pushed? : Event → Option Chunk
  | .pushed chunk => some chunk
  | _ => none

def Event.scheduled? : Event → Option Source
  | .scheduled source => some source
  | _ => none

def Event.refusals : Event → List ℕ
  | .refused streams => streams
  | _ => []

/-- The bytes of the chunks of a stream. -/
def bytesIn (stream : ℕ) (chunks : List Chunk) : Bytes := (chunks.filter (fun c => c.stream = stream)).flatMap Chunk.bytes

/-- The samples of the sources of a stream. -/
def samplesIn (stream : ℕ) (sources : List Source) : List ℚ :=
  (sources.filter (fun s => s.chunk.stream = stream)).flatMap Source.buffer

namespace Speaker

/-- The chunks pushed since the last `clear()`. -/
def pushed (sp : Speaker) : List Chunk := (since Event.isCleared sp.trace).filterMap Event.pushed?

/-- The sources created since the last `clear()`. -/
def scheduled (sp : Speaker) : List Source := (since Event.isCleared sp.trace).filterMap Event.scheduled?

/-- The streams in which the context was refused. -/
def refusals (sp : Speaker) : List ℕ := sp.trace.flatMap Event.refusals

end Speaker

/-- The source plays its chunk, behind the byte left over from a chunk before it, if there is one. -/
def Source.Made (pushed : List Chunk) (s : Source) : Prop :=
  s.chunk ∈ pushed ∧ ∃ half : Option UInt8, (∀ b ∈ half, ∃ c ∈ pushed, b ∈ c.bytes) ∧
    s.buffer = floats (half.toList ++ s.chunk.bytes)

structure Plays (sp : Speaker) : Prop where
  /-- The sources are in the order of their chunks. -/
  ordered : (sp.scheduled.map Source.chunk).Sublist sp.pushed
  /-- Each of them starts after the one before it. -/
  apart : sp.scheduled.Pairwise (fun a b => a.finish ≤ b.start)
  inTime : ∀ s ∈ sp.scheduled, s.now ≤ s.start
  /-- They are made of what was pushed since the last `clear()`. -/
  made : ∀ s ∈ sp.scheduled, s.Made sp.pushed
  /-- Where the context was not refused, a stream sounds as it was sent, as far as it is not pending. -/
  decoded : ∀ stream, stream ∉ sp.refusals → ∃ played, bytesIn stream sp.pushed = played ++ bytesIn stream sp.pending ∧
    samplesIn stream sp.scheduled = floats played
  playing : sp.state = .playing ↔ ∃ node ∈ sp.nodes, node.stopped = false
  /-- Nothing pushed before a `clear()` is scheduled or reported after it, or plays on. -/
  dropped : ∀ front back, sp.trace = front ++ .cleared :: back → ∀ chunk, .pushed chunk ∈ front →
    (∀ s, .scheduled s ∈ back → s.chunk ≠ chunk) ∧ (∀ heardAtMs, .firstAudio chunk heardAtMs ∉ back) ∧
      ∀ node ∈ sp.nodes, node.stopped = false → node.source.chunk ≠ chunk

/-- A half sample that is carried, or that is left over at the end of what is pending. -/
def Speaker.half (sp : Speaker) : Bool := sp.carry.isSome || (sp.pending.flatMap Chunk.bytes).length % 2 = 1

/-- A chunk is played at once, or a stream begun, only while nothing is pending; a stream may also begin behind pending
chunks that leave no half sample. -/
def Speaker.inTurn (sp : Speaker) : Act → Bool
  | .play _ _ _ => sp.pending = []
  | .beginStream => sp.pending = [] || !sp.half
  | _ => true

/-- The same of the events of the page. -/
def Page.inTurn (w : Page) : PageLabel → Bool
  | .push pcm16 _ => pcm16 = [] || !w.running || w.pending = []
  | .beginStream => w.pending = [] || !w.half
  | _ => true

end Voxera.Web
