import Voxera.EventLoop.Run
import Voxera.Telephony.SessionRegistry

/-!
# The Media Streams endpoint

Any number of WebSocket connections, each served by one run of `twilio_stream_websocket`, over one
registry. A step is what one handler does between two of its awaits; whatever a `CallSession` does while
its handler awaits it stays behind the label that resumes the handler.

* `Handler` : a connection's local variables and the `await` it is suspended at;
* `Server.onMessage`, `Server.onStarted`, `Server.feed`, `Server.teardown`, `Server.leave` : the pieces of
  the loop's body and of its `except` clauses;
* `step` : the server's step, `none` when the label is not enabled.

`trace` lists which connection created which call, and which connection took which record out of the
registry.
-/

namespace Voxera.Telephony

/-- A `CallSession`, as far as the handler reads it; the conversations are numbered. -/
structure Call where
  callSid : Json
  streamSid : Json
  conversationId : Nat

/-- What `register` is given for a call. -/
def Call.record (c : Call) : ActiveCallRecord where
  callSid := c.callSid
  streamSid := c.streamSid
  conversationId := c.conversationId

/-- The awaits of the handler. -/
inductive Pc where
  /-- `websocket.receive_text` -/
  | receive
  /-- `websocket.close(code=4403)`: the call is not the one the token is for. -/
  | refusing
  /-- `call_session.start`, on a message that gave the chunk. -/
  | starting (chunk : Option (List UInt8))
  /-- `call_session.feed_mulaw` -/
  | feeding
  /-- `call_session.stop`, on a message whose event is `"stop"`. -/
  | stopping (payload : Json)
  /-- `call_session.stop`, once the stream's session is cleared. -/
  | clearing
  /-- `call_session.stop`, in an `except` clause of the loop. -/
  | leaving
  /-- The handler has returned. -/
  | done

structure Handler where
  expectedCallSid : Option Text
  session : Option TwilioStreamSession := none
  callSession : Option Call := none
  pc : Pc := .receive

/-- The connection's live call: its `start` is over and its `stop` has not been called. -/
def Handler.live (h : Handler) : Option Call :=
  match h.pc with
  | .starting _ | .stopping _ | .clearing | .leaving => none
  | _ => h.callSession

/-- Between messages, or gone. -/
def Handler.AtRest (h : Handler) : Prop :=
  match h.pc with
  | .receive | .done => True
  | _ => False

inductive Event where
  /-- The connection `n` creates the call. -/
  | created (n : Nat) (call : Call)
  /-- The connection `n` takes the record out of the registry, or overwrites it. -/
  | removed (n : Nat) (record : ActiveCallRecord)

structure Server where
  registry : CallSessionRegistry := ∅
  handlers : List Handler := []
  /-- The calls created so far. -/
  calls : Nat := 0
  trace : List Event := []

namespace Server

/-- The live calls of all connections. -/
def live (s : Server) : List Call := s.handlers.filterMap Handler.live

def set (s : Server) (n : Nat) (h : Handler) : Server := { s with handlers := s.handlers.set n h }

/-- `call_session_registry.register`, called by the connection `n`. -/
def register (max : Nat) (s : Server) (n : Nat) (record : ActiveCallRecord) : Option Server :=
  (s.registry.register max record).map fun registry => { s with
    registry
    trace := s.trace ++ ((s.registry.get record.callSid).join.map (Event.removed n)).toList }

/-- `call_session_registry.unregister`, called by the connection `n`. -/
def unregister (s : Server) (n : Nat) (callSid : Json) : Option Server :=
  (s.registry.unregister callSid).map fun registry => { s with
    registry
    trace := s.trace ++ ((s.registry.get callSid).join.map (Event.removed n)).toList }

/-- A new `CallSession` of the connection `n`, for the stream; its `start` is awaited. -/
def create (s : Server) (n : Nat) (h : Handler) (stream : TwilioStreamSession) (chunk : Option (List UInt8)) : Server :=
  let call : Call := { callSid := stream.callSid, streamSid := stream.streamSid, conversationId := s.calls }
  { s with
    handlers := s.handlers.set n { h with callSession := some call, pc := .starting chunk }
    calls := s.calls + 1
    trace := s.trace ++ [.created n call] }

/-- The call is torn down when the stream's session was cleared. -/
def teardown (s : Server) (n : Nat) (h : Handler) : Server :=
  match h.session, h.callSession with
  | none, some call =>
      match s.unregister n call.callSid with
      | none => s.set n { h with pc := .receive }
      | some t => t.set n { h with pc := .clearing }
  | _, _ => s.set n { h with pc := .receive }

/-- The decoded chunk is fed to the call. `heartbeat` and `update_state` look the call up first. -/
def feed (s : Server) (n : Nat) (h : Handler) (chunk : Option (List UInt8)) : Server :=
  match chunk, h.callSession with
  | some (_ :: _), some call =>
      match s.registry.get call.callSid with
      | none => s.set n { h with pc := .receive }
      | some _ => s.set n { h with pc := .feeding }
  | _, _ => s.teardown n h

/-- The rest of a message, once `call_session.start` has returned. -/
def onStarted (max : Nat) (s : Server) (n : Nat) (h : Handler) (chunk : Option (List UInt8)) : Server :=
  match h.callSession with
  | none => s.set n { h with pc := .receive }
  | some call =>
      match s.register max n call.record with
      | none => s.set n { h with pc := .receive }
      | some t => t.feed n h chunk

/-- The rest of a message whose event is `"stop"`, the call being stopped. -/
def onStopped (s : Server) (n : Nat) (h : Handler) (payload : Json) : Server :=
  match handleTwilioEvent payload h.session with
  | none => s.set n { h with callSession := none, pc := .receive }
  | some (session, _) => s.set n { h with session, callSession := none, pc := .receive }

/-- `(payload or {}).get("event")` -/
def eventOf (payload : Json) : Option Json := (payload.or (.obj [])).get "event".toList

/-- The event is literally `"stop"`. -/
def isStop (payload : Json) : Bool :=
  match eventOf payload with
  | some (.str event) => event = "stop".toList
  | _ => false

/-- `expected_call_sid and session.call_sid != expected_call_sid` -/
def mismatch (expectedCallSid : Option Text) (callSid : Json) : Bool :=
  match expectedCallSid, callSid with
  | none, _ => false
  | some expected, .str sid => expected ≠ [] && sid ≠ expected
  | some expected, _ => expected ≠ []

/-- The rest of a message, once the stream's session is what the message has left. -/
def onSession (s : Server) (n : Nat) (h : Handler) (chunk : Option (List UInt8)) : Server :=
  match h.session, h.callSession with
  | some stream, none =>
      if mismatch h.expectedCallSid stream.callSid then s.set n { h with pc := .refusing }
      else s.create n h stream chunk
  | _, _ => s.feed n h chunk

/-- One message. An exception of the body is logged, and the next message is awaited. -/
def onMessage (s : Server) (n : Nat) (h : Handler) (payload : Json) : Server :=
  match payload with
  | .null => s
  | payload =>
      if (eventOf payload).isNone then s
      else if isStop payload then
        match h.callSession with
        | some _ => s.set n { h with pc := .stopping payload }
        | none => s.onStopped n h payload
      else
        match handleTwilioEvent payload h.session with
        | none => s
        | some (session, chunk) => s.onSession n { h with session } chunk

/-- `except WebSocketDisconnect`, and `except Exception` around the loop: both unregister the call and stop
it, and neither stops it when `unregister` raises. -/
def leave (s : Server) (n : Nat) (h : Handler) : Server :=
  match h.callSession with
  | none => s.set n { h with pc := .done }
  | some call =>
      match s.unregister n call.callSid with
      | none => s.set n { h with callSession := none, pc := .done }
      | some t => t.set n { h with pc := .leaving }

end Server

inductive Label where
  /-- A connection is accepted. -/
  | connect (expectedCallSid : Option Text)
  /-- The connection `n` receives a text that `json.loads` reads as the payload. -/
  | message (n : Nat) (payload : Json)
  /-- The connection `n` receives a text that is blank or no JSON. -/
  | garbled (n : Nat)
  /-- `receive_text` raises in the connection `n`, or reading the JSON does: a `WebSocketDisconnect`, or
  another exception. -/
  | disconnect (n : Nat)
  /-- The await of the connection `n` returns, or raises an exception. -/
  | resume (n : Nat) (raised : Bool)

/-- The await that the handler `n` is suspended at comes back. `stop` never raises. -/
def Server.onResume (max : Nat) (s : Server) (n : Nat) (h : Handler) (raised : Bool) : Option Server :=
  match h.pc, raised with
  | .refusing, false => some (s.set n { h with pc := .done })
  | .refusing, true => some (s.set n { h with pc := .receive })
  | .starting chunk, false => some (s.onStarted max n h chunk)
  | .starting _, true => some (s.set n { h with pc := .receive })
  | .feeding, false => some (s.teardown n h)
  | .feeding, true => some (s.set n { h with pc := .receive })
  | .stopping payload, false => some (s.onStopped n h payload)
  | .clearing, false => some (s.set n { h with callSession := none, pc := .receive })
  | .leaving, false => some (s.set n { h with callSession := none, pc := .done })
  | _, _ => none

/-- One step of the server, under the limit `max`. -/
def step (max : Nat) (s : Server) : Label → Option Server
  | .connect expectedCallSid => some { s with handlers := s.handlers ++ [{ expectedCallSid }] }
  | .message n payload =>
      match s.handlers[n]? with
      | some ⟨expected, session, call, .receive⟩ => some (s.onMessage n ⟨expected, session, call, .receive⟩ payload)
      | _ => none
  | .garbled n =>
      match s.handlers[n]? with
      | some ⟨_, _, _, .receive⟩ => some s
      | _ => none
  | .disconnect n =>
      match s.handlers[n]? with
      | some ⟨expected, session, call, .receive⟩ => some (s.leave n ⟨expected, session, call, .receive⟩)
      | _ => none
  | .resume n raised =>
      match s.handlers[n]? with
      | some h => s.onResume max n h raised
      | none => none

end Voxera.Telephony
