import Voxera.EventLoop.Run
import Voxera.EventLoop.Coroutine
import Voxera.Text
import Voxera.Numbers
import Voxera.Decimal
import Voxera.Conversation
import Voxera.SentenceChunker
import Voxera.EndOfTurn
import Voxera.Vad
import Voxera.LlmConsumer
import Voxera.Generation
import Voxera.TtsConsumer
import Voxera.Speech
import Voxera.Playback
import Voxera.Wire
import Voxera.Voice.Session
import Voxera.Voice.Frame
import Voxera.Voice.Calls
import Voxera.Voice.HeldTurn
import Voxera.Voice.Turns
import Voxera.Voice.Steps
import Voxera.Voice.Tasks
import Voxera.Voice.Isolation
import Voxera.Voice.SystemTurn
import Voxera.Voice.Silence
import Voxera.Voice.Cleared
import Voxera.Voice.History
import Voxera.Voice.Close
import Voxera.Voice.Answered
import Voxera.Telephony.TwilioStream
import Voxera.Telephony.SessionRegistry
import Voxera.Telephony.TwilioHandler
import Voxera.Telephony.Accounting
import Voxera.EventLoop.Lock
import Voxera.Call.Session
import Voxera.Call.Places
import Voxera.Call.Moves
import Voxera.Call.Audio
import Voxera.Call.Turns
import Voxera.Call.Deadlock
import Voxera.Call.Replies
import Voxera.Call.Outbound
import Voxera.Call.States
import Voxera.Call.Interrupting
import Voxera.Call.Silence
import Voxera.Call.Quiescence
import Voxera.Incremental
import Voxera.Sentences
import Voxera.Positions
import Voxera.Pcm16
import Voxera.Resampler
import Voxera.Pacing
import Voxera.Ledger
import Voxera.Streaming.AudioQueue
import Voxera.Streaming.SttConsumer
import Voxera.Streaming.Inbound
import Voxera.Raising
import Voxera.PathTemplate
import Voxera.Iam.Schemas
import Voxera.Iam.RbacEngine
import Voxera.Iam.TokenService
import Voxera.Iam.AuthenticationService
import Voxera.Iam.Middleware
import Voxera.Iam.OrgRouter
import Voxera.Iam.Isolation
import Voxera.Iam.IamService
import Voxera.Iam.ApiKeys
import Voxera.SlidingWindow
import Voxera.Telephony.AudioConvert
import Voxera.Stt.DeepgramEngine
import Voxera.Stt.Finalize
import Voxera.Naming
import Voxera.Stt.Utterances
import Voxera.Stt.Recogniser
import Voxera.Runs
import Voxera.Onsets
import Voxera.Voice.Connection
import Voxera.Voice.Hearing
import Voxera.Framing
import Voxera.TtsEngines
import Voxera.RateLimit.Counter
import Voxera.RateLimit.Middleware
import Voxera.Telephony.StreamAuth
import Voxera.Web.PcmCapture
import Voxera.Since
import Voxera.Web.Pcm16Player
import Voxera.Web.Feed
import Voxera.Web.InOrder
import Voxera.Web.Speaker
import Voxera.Web.Page
import Voxera.Web.MicCapture
import Voxera.Web.Microphone
import Voxera.Table
import Voxera.Web.VoxeraState
import Voxera.Web.Turns
import Voxera.Web.Transcript
import Voxera.Web.Provider
import Voxera.Web.Sessions
import Voxera.Web.Traffic
import Voxera.Dashboard.ApiClient
import Voxera.Core.Requests
import Voxera.Llm.BedrockEngine
import Voxera.Llm.FailoverEngine
