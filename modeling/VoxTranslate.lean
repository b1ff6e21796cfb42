import VoxTranslate.Lib.Place
import VoxTranslate.Lib.Quantise
import VoxTranslate.Lib.Run
import VoxTranslate.Lib.Table
import VoxTranslate.Lib.Arith
import VoxTranslate.Base
import VoxTranslate.Business.Credits
import VoxTranslate.Voip.State
import VoxTranslate.Voip.Pricing
import VoxTranslate.Voip.Reservation
import VoxTranslate.Voip.PoolRuns
import VoxTranslate.Voip.Consent
import VoxTranslate.Voip.Calls
import VoxTranslate.Voip.Webhook
import VoxTranslate.Voip.Settlement
import VoxTranslate.Voip.Lifecycle
import VoxTranslate.Voip.Disclosure
import VoxTranslate.Lib.Assoc
import VoxTranslate.Rooms.Manager
import VoxTranslate.Rooms.Departure
import VoxTranslate.Rooms.Routing
import VoxTranslate.Engine.Registry
import VoxTranslate.Engine.Turn
import VoxTranslate.Lib.Fair
import VoxTranslate.Engine.Sessions
import VoxTranslate.Engine.Pool
import VoxTranslate.Engine.Reconcile
import VoxTranslate.Metering.Connection
import VoxTranslate.Metering.ListenerPays
import VoxTranslate.Metering.SpeakerPays
import VoxTranslate.Metering.GuestCap
import VoxTranslate.Rooms.Admission
import VoxTranslate.Lib.Text
import VoxTranslate.Engine.Qwen
import VoxTranslate.Webinar.Captions
import VoxTranslate.Webinar.Primary
import VoxTranslate.Engine.Fanout
import VoxTranslate.Engine.EchoRole
import VoxTranslate.Engine.Recording
import VoxTranslate.Talk.Direction
import VoxTranslate.Talk.Utterance
import VoxTranslate.Talk.EchoSafety
import VoxTranslate.Talk.Gate
import VoxTranslate.Talk.Verdicts
import VoxTranslate.Talk.Sentences
import VoxTranslate.Lib.Json
import VoxTranslate.Business.Billing
import VoxTranslate.Business.FirstSubscription
import VoxTranslate.Business.Replay
import VoxTranslate.Ai.Jobs
import VoxTranslate.Translation.Glossary
import VoxTranslate.Lib.Join
import VoxTranslate.Translation.CacheKey
import VoxTranslate.Limits.RateLimiter
import VoxTranslate.Voip.Numbers
import VoxTranslate.Voip.Inbound
import VoxTranslate.Voip.InboundCharge
import VoxTranslate.Voip.Purchase
import VoxTranslate.Voip.Release
import VoxTranslate.Voip.Companding
import VoxTranslate.Voip.Columns
import VoxTranslate.Voip.Answering
import VoxTranslate.Voip.NoAnswer
import VoxTranslate.Voip.Caps
import VoxTranslate.Lib.Distinct
import VoxTranslate.Voip.Redelivery
import VoxTranslate.Voip.RecordingOrder
import VoxTranslate.Voip.Overrun
import VoxTranslate.Voip.Costs
import VoxTranslate.Webinar.Presence
import VoxTranslate.Rooms.Ledger
import VoxTranslate.Rooms.Lifetimes
import VoxTranslate.Rooms.Orphans
import VoxTranslate.Metering.Streams
import VoxTranslate.Voip.LiveCalls
import VoxTranslate.Voip.MediaTickets
import VoxTranslate.Voip.Requirements
import VoxTranslate.Voip.GroupBooks
import VoxTranslate.Voip.GroupMirror
import VoxTranslate.Lib.Ledger
import VoxTranslate.Metering.Wallet
import VoxTranslate.Voip.MediaPump
import VoxTranslate.Voip.BargeIn
import VoxTranslate.Client.SessionMachine
import VoxTranslate.Client.Microphone
import VoxTranslate.Client.Conversation
import VoxTranslate.Client.Reconnect
import VoxTranslate.Client.OpenMic
import VoxTranslate.Client.Teardown
import VoxTranslate.Client.Speech
import VoxTranslate.Client.SpeechStop
import VoxTranslate.Client.Negotiation
import VoxTranslate.Client.Glare
import VoxTranslate.Client.PeerOperations
import VoxTranslate.Client.PeersSettle
import VoxTranslate.Lib.Roster
import VoxTranslate.Client.TtsPlayback
import VoxTranslate.Client.Cartesia
import VoxTranslate.Client.Whiteboard
import VoxTranslate.Client.WhiteboardReplay
import VoxTranslate.Lib.Sequencer
import VoxTranslate.Client.WhiteboardEditor
import VoxTranslate.Client.WhiteboardSheet
import VoxTranslate.Client.WhiteboardConverge
import VoxTranslate.Client.TicTacToe
import VoxTranslate.Client.GameRoom
import VoxTranslate.Webinar.Metrics
import VoxTranslate.Webinar.Lifecycle
import VoxTranslate.Webinar.Finalize
import VoxTranslate.Webinar.Audience
import VoxTranslate.Business.Members
import VoxTranslate.Account.Erasure
import VoxTranslate.Account.Friends
import VoxTranslate.Lib.Entries
import VoxTranslate.Client.Quiz
import VoxTranslate.Client.QuizRoom
import VoxTranslate.Client.HlsPlayer
import VoxTranslate.Voip.Margin
import VoxTranslate.Voip.RateDeck
import VoxTranslate.Voip.Repricing
import VoxTranslate.Business.FractionalCharges
import VoxTranslate.Voip.Hours
import VoxTranslate.Voip.Resampler
import VoxTranslate.Voip.Codec
import VoxTranslate.Voip.Negotiated
import VoxTranslate.Metering.Extension
import VoxTranslate.Lib.Handles
import VoxTranslate.Client.WhipPublisher
import VoxTranslate.Voip.Onset
import VoxTranslate.Voip.ByteOrder
import VoxTranslate.Voip.E164
import VoxTranslate.Rooms.Membership
import VoxTranslate.Talk.Preview
import VoxTranslate.Lib.Rounding
import VoxTranslate.Talk.Prior
import VoxTranslate.Client.JitterBuffer
import VoxTranslate.Client.SelfAudio
import VoxTranslate.Client.VoicePacks
import VoxTranslate.Client.PcmGraph
import VoxTranslate.Client.Transcripts
import VoxTranslate.Client.Exhaustion
import VoxTranslate.Lib.Ring
import VoxTranslate.Client.SeatRotation
import VoxTranslate.Translation.GlossaryEditor
import VoxTranslate.Webinar.CostIntegral
import VoxTranslate.Lib.Greatest
import VoxTranslate.Business.SpeakerNames
import VoxTranslate.Business.TranscriptTranslation
import VoxTranslate.Webinar.RecapEmails
import VoxTranslate.Lib.OldestFirst
import VoxTranslate.Business.Retention
import VoxTranslate.Lib.Fields
import VoxTranslate.Observability.RedactIp
import VoxTranslate.Engine.SegmentOffsets
import VoxTranslate.Lib.SortedMap
import VoxTranslate.Transcripts.Export
import VoxTranslate.Ai.Sentiment
import VoxTranslate.Translation.GlossaryImport
import VoxTranslate.Lib.Shares
import VoxTranslate.Transcripts.Subtitles
import VoxTranslate.Transcripts.SubtitleTiming
import VoxTranslate.Lib.Decimal
import VoxTranslate.Lib.Cut
import VoxTranslate.Transcripts.SubtitleFiles
import VoxTranslate.Ai.Correction
import VoxTranslate.Lib.Pdf
import VoxTranslate.Client.PdfExport
import VoxTranslate.Client.PdfWellFormed
import VoxTranslate.Transcripts.Recorder
import VoxTranslate.Transcripts.Purge
import VoxTranslate.Lib.Blocks
import VoxTranslate.Client.Denoiser
import VoxTranslate.Lib.Markup
import VoxTranslate.Client.ReportMd
import VoxTranslate.Webinar.Chat
import VoxTranslate.Client.ChatPanel
import VoxTranslate.Webinar.ChatDelivery
import VoxTranslate.Webinar.ChatHistory
import VoxTranslate.Webinar.ChatRate
import VoxTranslate.Ai.Pseudonyms
import VoxTranslate.Lib.Gather
import VoxTranslate.Business.Chunks
import VoxTranslate.Business.EmbeddingIndex
import VoxTranslate.Business.Backfill
