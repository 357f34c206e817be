import Voxera.Text

/-!
# Turn-taking: `ConversationState` and `TurnManager`

`TurnManager.process_transcript_event` awaits the session's callbacks, and what it does next depends
on the state as it finds it when a callback has returned. So it is given in pieces: what it does up
to the first callback (`processTranscriptEvent`), and what it does from each callback's return up to
the next one (`resume`); `Next` is the callback it awaits, `After` the place it goes on from.
-/

namespace Voxera

inductive TranscriptType where
  | PARTIAL
  | FINAL
  deriving DecidableEq, Repr

/-- One event of the speech recogniser. -/
structure TranscriptEvent where
  type : TranscriptType
  utteranceId : Text
  transcript : Text
  deriving DecidableEq, Repr

/-- The event "the caller's turn is complete". -/
structure UserTurnCompleted where
  utteranceId : Text
  transcript : Text
  deriving DecidableEq, Repr

structure ConversationState where
  currentUtteranceId : Option Text := none
  isUserSpeaking : Bool := false
  isSystemSpeaking : Bool := false
  turnCount : Nat := 0
  deriving DecidableEq, Repr

namespace ConversationState

/-- `none` where `UUID(utterance_id)` raises `ValueError`, before any field is written. -/
def startUserTurn (s : ConversationState) (utteranceId : Text) : Option ConversationState :=
  if Text.isUuid utteranceId then
    some { s with currentUtteranceId := some utteranceId, isUserSpeaking := true }
  else none

def completeUserTurn (s : ConversationState) : ConversationState :=
  { s with isUserSpeaking := false, currentUtteranceId := none, turnCount := s.turnCount + 1 }

def startSystemTurn (s : ConversationState) : ConversationState := { s with isSystemSpeaking := true }

def completeSystemTurn (s : ConversationState) : ConversationState := { s with isSystemSpeaking := false }

def interruptUser (s : ConversationState) : ConversationState :=
  if s.isUserSpeaking then { s with isUserSpeaking := false, currentUtteranceId := none } else s

theorem startUserTurn_eq_some {s t : ConversationState} {u : Text} (h : s.startUserTurn u = some t) :
    t = { s with currentUtteranceId := some u, isUserSpeaking := true } := by
  unfold startUserTurn at h
  split at h
  · exact (Option.some.inj h).symm
  · cases h

theorem isUuid_of_startUserTurn {s t : ConversationState} {u : Text} (h : s.startUserTurn u = some t) :
    Text.isUuid u = true := by
  unfold startUserTurn at h
  split at h
  · assumption
  · cases h

@[simp] theorem isUserSpeaking_completeUserTurn (s : ConversationState) :
    s.completeUserTurn.isUserSpeaking = false := rfl
@[simp] theorem isSystemSpeaking_completeUserTurn (s : ConversationState) :
    s.completeUserTurn.isSystemSpeaking = s.isSystemSpeaking := rfl
@[simp] theorem isUserSpeaking_startSystemTurn (s : ConversationState) :
    s.startSystemTurn.isUserSpeaking = s.isUserSpeaking := rfl
@[simp] theorem isSystemSpeaking_startSystemTurn (s : ConversationState) :
    s.startSystemTurn.isSystemSpeaking = true := rfl
@[simp] theorem isUserSpeaking_completeSystemTurn (s : ConversationState) :
    s.completeSystemTurn.isUserSpeaking = s.isUserSpeaking := rfl
@[simp] theorem isSystemSpeaking_completeSystemTurn (s : ConversationState) :
    s.completeSystemTurn.isSystemSpeaking = false := rfl
@[simp] theorem isUserSpeaking_interruptUser (s : ConversationState) :
    s.interruptUser.isUserSpeaking = false := by unfold interruptUser; split <;> simp_all
@[simp] theorem isSystemSpeaking_interruptUser (s : ConversationState) :
    s.interruptUser.isSystemSpeaking = s.isSystemSpeaking := by unfold interruptUser; split <;> rfl

end ConversationState

namespace TurnManager

/-- The place `process_transcript_event` goes on from when a callback has returned. -/
inductive After where
  /-- PARTIAL: `handle_interruption` has returned. -/
  | partialInterrupted (ev : TranscriptEvent)
  /-- PARTIAL: `on_user_turn_started` has returned. -/
  | partialStarted
  /-- FINAL with no user turn open: `handle_interruption` has returned. -/
  | finalInterrupted (ev : TranscriptEvent)
  /-- FINAL with no user turn open: `on_user_turn_started` has returned. -/
  | finalStarted (ev : TranscriptEvent)
  /-- FINAL: `on_user_turn_completed` has returned. -/
  | completed
  deriving DecidableEq, Repr

/-- `handle_interruption` is awaited. -/
def After.interrupted : After → Bool
  | .partialInterrupted _ | .finalInterrupted _ => true
  | _ => false

/-- What `process_transcript_event` does next: await a callback, return, or raise. -/
inductive Next where
  | onUserInterrupted (k : After)
  | onUserTurnStarted (utteranceId : Text) (k : After)
  | onUserTurnCompleted (turn : UserTurnCompleted) (k : After)
  | returned
  | raised
  deriving DecidableEq, Repr

/-- `handle_interruption` up to its callback; `none` when the system is not speaking and it does
nothing. -/
def handleInterruption (s : ConversationState) : Option ConversationState :=
  if s.isSystemSpeaking then some s.interruptUser.completeSystemTurn else none

theorem handleInterruption_eq_some {s t : ConversationState} (h : handleInterruption s = some t) :
    s.isSystemSpeaking = true ∧ t.isUserSpeaking = false ∧ t.isSystemSpeaking = false := by
  unfold handleInterruption at h
  split at h
  · rename_i hs
    cases h
    exact ⟨hs, by simp, by simp⟩
  · cases h

theorem handleInterruption_eq_none {s : ConversationState} (h : handleInterruption s = none) :
    s.isSystemSpeaking = false := by
  unfold handleInterruption at h
  split at h
  · cases h
  · simp_all

/-- The PARTIAL branch after the barge-in check. -/
def partialTurn (ev : TranscriptEvent) (s : ConversationState) : ConversationState × Next :=
  if s.isUserSpeaking then (s, .returned)
  else match s.startUserTurn ev.utteranceId with
    | some s' => (s', .onUserTurnStarted ev.utteranceId .partialStarted)
    | none => (s, .raised)

/-- The FINAL branch without an open user turn, after the barge-in check. -/
def finalTurn (ev : TranscriptEvent) (s : ConversationState) : ConversationState × Next :=
  match s.startUserTurn ev.utteranceId with
  | some s' => (s', .onUserTurnStarted ev.utteranceId (.finalStarted ev))
  | none => (s, .raised)

def turnCompleted (ev : TranscriptEvent) (s : ConversationState) : ConversationState × Next :=
  (s.completeUserTurn, .onUserTurnCompleted ⟨ev.utteranceId, ev.transcript⟩ .completed)

/-- `process_transcript_event` up to its first callback. -/
def processTranscriptEvent (ev : TranscriptEvent) (s : ConversationState) : ConversationState × Next :=
  match ev.type with
  | .PARTIAL =>
    match handleInterruption s with
    | some s' => (s', .onUserInterrupted (.partialInterrupted ev))
    | none => partialTurn ev s
  | .FINAL =>
    if s.isUserSpeaking then turnCompleted ev s
    else if Text.strip ev.transcript ≠ [] then
      match handleInterruption s with
      | some s' => (s', .onUserInterrupted (.finalInterrupted ev))
      | none => finalTurn ev s
    else (s, .returned)

/-- `process_transcript_event` from the return of a callback up to the next one. -/
def resume (k : After) (s : ConversationState) : ConversationState × Next :=
  match k with
  | .partialInterrupted ev => partialTurn ev s
  | .partialStarted => (s, .returned)
  | .finalInterrupted ev => finalTurn ev s
  | .finalStarted ev => turnCompleted ev s
  | .completed => (s, .returned)

end TurnManager

end Voxera
