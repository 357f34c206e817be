import Voxera.Web.Microphone
import Voxera.Web.VoxeraState

/-!
# `VoxeraProvider`: the sessions, the microphone and the player of the page

The callbacks of the provider with the objects that they make: a `VoxeraWebSocket` and a player for each session, and a
`MicCapture` for each time that the microphone is turned on. The browser and the server act in any order.

* `Session` : a `VoxeraWebSocket`, its `WebSocket`, and what the player of the session was told to do;
* `Mic` : a `MicCapture` and the call of `startMic` that waits for it;
* `Provider.onJson`, `Provider.onMicEvent` : what the callbacks do;
* `Provider.step` : the page from one event to the next.

`inbox` and the numbers of the sessions and of the captures are a record that the source does not have and nothing reads.
-/

namespace Voxera.Web

open EventLoop

/-- The calls of a `PCM16Player`. -/
inductive PlayerCall where
  | init
  | push (bytes : Bytes)
  | beginStream
  | clear
  | reset
  | close
  deriving DecidableEq, Repr

inductive ReadyState where
  | connecting
  | opened
  | closing
  | closed
  deriving DecidableEq, Repr

/-- What is sent; a frame with the capture that it came from. -/
inductive Outbound where
  | frame (mic : ℕ) (pcm : Bytes)
  | json (text : Text)
  deriving DecidableEq, Repr

/-- A message that the handlers of a socket get. -/
inductive Inbound where
  | json (e : ServerEvent)
  | binary (bytes : Bytes)
  deriving DecidableEq, Repr

/-- `MAX_BUFFERED_BYTES` -/
def maxBufferedBytes : ℕ := 32000

structure Session where
  readyState : ReadyState := .connecting
  /-- `onopen`, `onmessage` and `onclose` are set. -/
  attached : Bool := true
  /-- `this.ws` is set. -/
  ws : Bool := true
  connecting : Bool := true
  connected : Bool := false
  bufferedAmount : ℕ := 0
  sent : List Outbound := []
  inbox : List Inbound := []
  player : List PlayerCall := [.init]
  deriving DecidableEq, Repr

namespace Session

/-- `get connected` -/
def isConnected (s : Session) : Bool := s.connected && s.ws && s.readyState = .opened

/-- `VoxeraWebSocket.disconnect` -/
def disconnect (s : Session) : Session :=
  if s.ws then
    { s with
      connecting := false
      connected := false
      ws := false
      attached := false
      readyState := if s.readyState = .closed then .closed else .closing }
  else { s with connecting := false, connected := false }

/-- `sendBinary` -/
def sendBinary (s : Session) (mic : ℕ) (pcm : Bytes) : Session :=
  if s.isConnected ∧ s.bufferedAmount ≤ maxBufferedBytes then
    { s with sent := s.sent ++ [.frame mic pcm], bufferedAmount := s.bufferedAmount + pcm.length }
  else s

/-- `sendJson` -/
def sendJson (s : Session) (text : Text) : Session :=
  if s.isConnected then { s with sent := s.sent ++ [.json text] } else s

/-- The player of the session is called. -/
def call (s : Session) (c : PlayerCall) : Session := { s with player := s.player ++ [c] }

end Session

/-- A capture; `waiting` while the call of `startMic` waits for `mic.start()`. -/
structure Mic where
  capture : MicCapture
  waiting : Bool := true
  deriving DecidableEq, Repr

inductive MicStatus where
  | off
  | starting
  | on
  deriving DecidableEq, Repr

inductive ConnectionStatus where
  | connecting
  | connected
  | disconnected
  deriving DecidableEq, Repr

structure Provider where
  sessions : List Session := []
  wsRef : Option ℕ := none
  playerRef : Option ℕ := none
  mics : List Mic := []
  micRef : Option ℕ := none
  dropAudio : Bool := false
  /-- `bargeInTimeoutRef` -/
  bargeInTimeout : Bool := false
  connectionStatus : ConnectionStatus := .disconnected
  connectionError : Option String := none
  micStatus : MicStatus := .off
  micError : Option String := none
  /-- The rest of the state that is shown. -/
  page : VoxeraState := {}
  deriving DecidableEq, Repr

/-- What can happen: what the user does, and what happens to the `WebSocket` of a session or to a capture. -/
inductive ProviderLabel where
  | connect
  | disconnect
  | startMic (mediaDevices workletNode : Bool)
  | stopMic
  | sendJson (text : Text)
  | devTestTranscript (text : Text) (now : ℕ) (json : Text)
  | clearConversation
  | dismissServerError
  | opened (session now : ℕ)
  | message (session : ℕ) (e : ServerEvent) (now : ℕ)
  | binary (session : ℕ) (bytes : Bytes)
  /-- The server or the network begins to close the socket. -/
  | closing (session : ℕ)
  | closed (session now : ℕ)
  | buffered (session amount : ℕ)
  | mic (mic : ℕ) (l : MicLabel)
  /-- `await mic.start()` comes back. -/
  | micStarted (mic : ℕ)
  | bargeInOver
  deriving Repr

namespace Provider

def session (p : Provider) (k : ℕ) (f : Session → Session) : Provider := { p with sessions := p.sessions.modify k f }

def capture (p : Provider) (m : ℕ) (f : MicCapture → MicCapture) : Provider :=
  { p with mics := p.mics.modify m (fun mic => { mic with capture := f mic.capture }) }

/-- `void mic?.stop()`, for the capture in `micRef`, which is cleared. -/
def releaseMic (p : Provider) : Provider :=
  match p.micRef with
  | none => p
  | some m => { p.capture m MicCapture.stop with micRef := none }

/-- `stopMic` -/
def stopMic (p : Provider) : Provider := { p.releaseMic with micStatus := .off }

/-- `flagBargeIn` -/
def flagBargeIn (p : Provider) : Provider := { p with bargeInTimeout := true }

/-- The handler of the JSON messages of the session `k`. -/
def onJson (p : Provider) (k now : ℕ) (e : ServerEvent) : Provider :=
  let p := { p with page := p.page.onJson now e }
  match e with
  | .connection status _ =>
    if status ≠ "connected".toList then
      let p := ({ p with wsRef := none, playerRef := none }.session k (·.call .close)).stopMic
      { p with
        connectionStatus := .disconnected
        connectionError := if p.connectionStatus = .connecting then some "Could not connect to server" else p.connectionError }
    else { p with connectionStatus := .connected, connectionError := none }
  | .llmCancelled _ _ _ => p.flagBargeIn
  | .ttsStart => { p with dropAudio := false }.session k (·.call .beginStream)
  | .ttsClear reason =>
    let p := { p with dropAudio := true }.session k (·.call .clear)
    if reason = some "barge_in".toList then p.flagBargeIn else p
  | _ => p

/-- The handlers of the session `k` get a message. -/
def receive (p : Provider) (k now : ℕ) : Inbound → Provider
  | .json e => (p.session k (fun s => { s with inbox := s.inbox ++ [.json e] })).onJson k now e
  | .binary bytes =>
    let p := p.session k (fun s => { s with inbox := s.inbox ++ [.binary bytes] })
    if p.dropAudio then p else p.session k (·.call (.push bytes))

/-- `connect` -/
def connect (p : Provider) : Provider :=
  if p.wsRef.isSome then p
  else
    { p with
      connectionStatus := .connecting
      connectionError := none
      sessions := p.sessions ++ [{}]
      wsRef := some p.sessions.length
      playerRef := some p.sessions.length
      dropAudio := false }

/-- `disconnect` -/
def disconnect (p : Provider) : Provider :=
  let p := { p with bargeInTimeout := false }.releaseMic
  let p := p.wsRef.elim p (fun k => p.session k Session.disconnect)
  let p := p.playerRef.elim p (fun k => p.session k (·.call .close))
  { p with
    wsRef := none
    playerRef := none
    connectionStatus := .disconnected
    connectionError := none
    micStatus := .off
    micError := none
    page := {} }

/-- The session in `wsRef` is connected. -/
def isConnected (p : Provider) : Bool := (p.wsRef.bind (fun k => p.sessions[k]?)).any Session.isConnected

/-- `startMic` up to its `await` -/
def startMic (p : Provider) (mediaDevices workletNode : Bool) : Provider :=
  if !p.isConnected || p.micRef.isSome then p
  else
    { p with
      mics := p.mics ++ [{ capture := ({} : MicCapture).start mediaDevices workletNode }]
      micRef := some p.mics.length
      micStatus := .starting
      micError := none }

/-- The rest of `startMic`, when `mic.start()` has settled. -/
def micStarted (p : Provider) (m : ℕ) (error : Option String) : Provider :=
  let p := { p with mics := p.mics.modify m (fun mic => { mic with waiting := false }) }
  if p.micRef ≠ some m then p
  else
    match error with
    | none => { p with micStatus := .on }
    | some message => { p with micRef := none, micStatus := .off, micError := some message }

/-- The callbacks of the capture `m`. -/
def onMicEvent (m : ℕ) (p : Provider) : MicEvent → Provider
  | .frame _ pcm => p.wsRef.elim p (fun k => p.session k (·.sendBinary m pcm))
  | .ended _ reason =>
    if p.micRef ≠ some m then p else { p with micRef := none, micStatus := .off, micError := some reason }
  | .level _ _ | .started _ | .stopped => p

/-- Something happens to the capture `m`, and its callbacks are called. -/
def micEvent (p : Provider) (m : ℕ) (old new : MicCapture) : Provider :=
  (new.trace.drop old.trace.length).foldl (onMicEvent m) (p.capture m (fun _ => new))

/-- The events of the browser; `start` and `stop` are called by the provider only. -/
def browser : MicLabel → Bool
  | .start _ _ | .stop => false
  | _ => true

/-- The handlers of an open socket get a message, if they are set. -/
def deliver (p : Provider) (k now : ℕ) (message : Inbound) : Option Provider :=
  p.sessions[k]?.bind (fun s =>
    if s.readyState = .opened ∨ s.readyState = .closing then some (if s.attached then p.receive k now message else p) else none)

/-- `ws.onopen` -/
def opened (p : Provider) (k now : ℕ) : Option Provider :=
  p.sessions[k]?.bind (fun s =>
    if s.readyState = .connecting then
      let p := p.session k (fun s => { s with readyState := .opened })
      some (if s.attached then
        (p.session k (fun s => { s with connecting := false, connected := true })).onJson k now (.connection "connected".toList none)
        else p)
    else none)

/-- `ws.onclose` -/
def closed (p : Provider) (k now : ℕ) : Option Provider :=
  p.sessions[k]?.bind (fun s =>
    if s.readyState = .closed then none
    else
      let p := p.session k (fun s => { s with readyState := .closed })
      some (if s.attached then
        (p.session k (fun s => { s with connecting := false, connected := false, ws := false })).onJson k now
          (.connection "disconnected".toList none)
        else p))

def step (p : Provider) : ProviderLabel → Option Provider
  | .connect => some p.connect
  | .disconnect => some p.disconnect
  | .startMic mediaDevices workletNode => some (p.startMic mediaDevices workletNode)
  | .stopMic => some p.stopMic
  | .sendJson text => some (p.wsRef.elim p (fun k => p.session k (·.sendJson text)))
  | .devTestTranscript text now json =>
    let p := { p with page := p.page.devTestTranscript text now }
    some (p.wsRef.elim p (fun k => p.session k (·.sendJson json)))
  | .clearConversation =>
    let p := { p with page := p.page.clearConversation }
    some (p.playerRef.elim p (fun k => p.session k (·.call .reset)))
  | .dismissServerError => some { p with page := { p.page with serverError := none } }
  | .opened k now => p.opened k now
  | .message k e now => p.deliver k now (.json e)
  | .binary k bytes => p.deliver k 0 (.binary bytes)
  | .closing k =>
    p.sessions[k]?.bind (fun s =>
      if s.readyState = .closed then none else some (p.session k (fun s => { s with readyState := .closing })))
  | .closed k now => p.closed k now
  | .buffered k amount =>
    p.sessions[k]?.bind (fun s =>
      if amount ≤ s.bufferedAmount then some (p.session k (fun s => { s with bufferedAmount := amount })) else none)
  | .mic m l =>
    p.mics[m]?.bind (fun mic => if browser l then (mic.capture.step l).map (p.micEvent m mic.capture) else none)
  | .micStarted m =>
    p.mics[m]?.bind (fun mic =>
      match mic.waiting, mic.capture.starts.map Start.pc with
      | true, [.settled error] => some (p.micStarted m error)
      | _, _ => none)
  | .bargeInOver =>
    if p.bargeInTimeout then some { p with bargeInTimeout := false, page := { p.page with bargeIn := false } } else none

/-- The server announces no other status than `connected`. -/
def serverFair : ProviderLabel → Bool
  | .message _ (.connection status _) _ => status = "connected".toList
  | _ => true

end Provider

end Voxera.Web
