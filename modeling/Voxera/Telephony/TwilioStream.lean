import Voxera.Text
import Mathlib.Algebra.Order.Ring.Unbundled.Rat

/-!
# Twilio Media Streams: messages and the state of a stream

* `Json` : what `json.loads` returns; `Json.truthy`, `Json.or`, `Json.get` are Python's `bool`, `or` and
  `.get` on such a value;
* `b64decode` : `base64.b64decode(s, validate=True)`;
* `handleTwilioEvent` : one message.

What the source raises is `none`.
-/

namespace Voxera.Telephony

/-- The names that `json.loads` reads as a `float`. -/
inductive Constant where
  | nan
  | infinity
  | negInfinity
  deriving DecidableEq, Repr

/-- A value of `json.loads`. An `int` and a finite `float` are their value; the last of several members of an
object under one name is the one that counts. -/
inductive Json where
  | null
  | bool (b : Bool)
  | num (q : ℚ)
  | constant (c : Constant)
  | str (t : Text)
  | arr (items : List Json)
  | obj (members : List (Text × Json))

namespace Json

/-- `bool(v)`. -/
def truthy : Json → Bool
  | null => false
  | bool b => b
  | num q => q != 0
  | constant _ => true
  | str t => !t.isEmpty
  | arr items => !items.isEmpty
  | obj members => !members.isEmpty

/-- `v or d`. -/
def or (v d : Json) : Json := if v.truthy then v else d

/-- `v.get(name)`; an `AttributeError` when `v` is no `dict`. -/
def get (name : Text) : Json → Option Json
  | obj members => some ((members.reverse.lookup name).getD null)
  | _ => none

/-- The text of a `str`; `.strip()` is an `AttributeError` on everything else. -/
def text? : Json → Option Text
  | str t => some t
  | _ => none

end Json

/-! ## base64 -/

/-- The place of a character in the base64 alphabet. -/
def b64value (c : Char) : Option Nat :=
  if 'A' ≤ c ∧ c ≤ 'Z' then some (c.toNat - 'A'.toNat)
  else if 'a' ≤ c ∧ c ≤ 'z' then some (c.toNat - 'a'.toNat + 26)
  else if '0' ≤ c ∧ c ≤ '9' then some (c.toNat - '0'.toNat + 52)
  else if c = '+' then some 62
  else if c = '/' then some 63
  else none

/-- The three bytes of four characters. -/
def b64quad (a b c d : Nat) : List UInt8 :=
  [UInt8.ofNat (a * 4 + b / 16), UInt8.ofNat (b * 16 + c / 4), UInt8.ofNat (c * 64 + d)]

/-- `base64.b64decode(s, validate=True)`: groups of four characters of the alphabet, the last of which may
end in one `=` or two. -/
def b64decode : Text → Option (List UInt8)
  | [] => some []
  | [a, b, '=', '='] => do
      let a ← b64value a
      let b ← b64value b
      some ((b64quad a b 0 0).take 1)
  | [a, b, c, '='] => do
      let a ← b64value a
      let b ← b64value b
      let c ← b64value c
      some ((b64quad a b c 0).take 2)
  | a :: b :: c :: d :: s => do
      let a ← b64value a
      let b ← b64value b
      let c ← b64value c
      let d ← b64value d
      let rest ← b64decode s
      some (b64quad a b c d ++ rest)
  | _ => none

example : b64decode "TWFuTQ==".toList = some [77, 97, 110, 77] := by decide
example : b64decode "TWE=TWFu".toList = none := by decide

/-! ## One message -/

/-- `TwilioStreamSession`, without `on_audio_chunk`, which nothing sets. -/
structure TwilioStreamSession where
  streamSid : Json
  callSid : Json
  accountSid : Json
  tracks : Json
  mediaFormat : Json
  decodedAudio : List UInt8 := []

/-- `handle_twilio_event`: the session that is left, and the chunk of audio decoded. -/
def handleTwilioEvent (payload : Json) (session : Option TwilioStreamSession) :
    Option (Option TwilioStreamSession × Option (List UInt8)) := do
  let event := Text.lower (Text.strip (← ((← payload.get "event".toList).or (.str [])).text?))
  let streamSid := (← payload.get "streamSid".toList).or (.str [])
  if event = "connected".toList then
    some (session, none)
  else if event = "start".toList then
    let start := (← payload.get "start".toList).or (.obj [])
    let callSid := (← start.get "callSid".toList).or (.str [])
    let accountSid := (← start.get "accountSid".toList).or (.str [])
    let tracks := (← start.get "tracks".toList).or (.arr [])
    let mediaFormat := (← start.get "mediaFormat".toList).or (.obj [])
    some (some { streamSid, callSid, accountSid, tracks, mediaFormat }, none)
  else if event = "media".toList then
    let media := (← payload.get "media".toList).or (.obj [])
    let b64 ← media.get "payload".toList
    match b64.truthy, session with
    | true, some stream =>
        -- `b64decode` raises on anything but a well formed text, and the handler of that returns no chunk
        match b64.text?.bind b64decode with
        | none => some (session, none)
        | some decoded => some (some { stream with decodedAudio := stream.decodedAudio ++ decoded }, some decoded)
    | _, _ => some (session, none)
  else if event = "stop".toList then
    let stop := (← payload.get "stop".toList).or (.obj [])
    let _callSid ← stop.get "callSid".toList
    some (none, none)
  else
    some (session, none)

end Voxera.Telephony
