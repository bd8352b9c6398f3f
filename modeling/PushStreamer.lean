import PushStreamer.Lib.Machine
import PushStreamer.Lib.Prog
import PushStreamer.Model.Text
import PushStreamer.Model.Json
import PushStreamer.Input.Hid
import PushStreamer.Input.Driver
import PushStreamer.Input.Buttons
import PushStreamer.Input.Joystick
import PushStreamer.Model.Ini
import PushStreamer.Input.KeyMapper
import PushStreamer.Input.KeyBoardThread
import PushStreamer.Input.MessageSafety
import PushStreamer.Input.FocusGate
import PushStreamer.Session.Handlers
import PushStreamer.Lib.Polling
import PushStreamer.Session.Effects
import PushStreamer.Session.StartGame
import PushStreamer.Session.Rejected
import PushStreamer.Lib.Safety
import PushStreamer.Session.Replay
import PushStreamer.Lib.Register
import PushStreamer.Lib.LastWriter
import PushStreamer.Session.LastCommand
import PushStreamer.Socket.WsService
import PushStreamer.Socket.Connection
import PushStreamer.Session.Dispatcher
import PushStreamer.Session.Overlap
import PushStreamer.Session.Watchdog
import PushStreamer.Session.OneWatchdog
import PushStreamer.Session.Undo
import PushStreamer.Session.Record
import PushStreamer.Input.Consumer
import PushStreamer.Input.Facade
import PushStreamer.Input.Teardown
import PushStreamer.Input.Stop
import PushStreamer.Input.ButtonBounds
import PushStreamer.Lib.Strokes
import PushStreamer.Input.Rollover
import PushStreamer.Input.Modifiers
import PushStreamer.Input.FullKeyboard
import PushStreamer.Socket.Endpoint
import PushStreamer.Input.KeyPing
import PushStreamer.Socket.Heartbeat
import PushStreamer.Input.Mouse
import PushStreamer.Input.Directions
import PushStreamer.Input.Hat
import PushStreamer.Lib.Scale
import PushStreamer.Input.Axes
import PushStreamer.Input.KeyText
import PushStreamer.Session.LaunchScript
import PushStreamer.Session.OtherGames
import PushStreamer.Session.CanFinish
import PushStreamer.Input.LookupCache
import PushStreamer.Model.JsonWriter
import PushStreamer.Session.Resolution
import PushStreamer.Session.GamePid
import PushStreamer.Lib.Mutex
import PushStreamer.Session.Singletons
import PushStreamer.Lib.Runs
import PushStreamer.Model.Tokens
import PushStreamer.Lib.Occurrences
import PushStreamer.Model.Replacement
import PushStreamer.Session.Nonce
import PushStreamer.Lib.Utf8
import PushStreamer.Socket.Utf8Validator
import PushStreamer.Lib.Words
import PushStreamer.Socket.FrameHeader
import PushStreamer.Socket.Masking
import PushStreamer.Lib.Loop
import PushStreamer.Socket.Processor
import PushStreamer.Lib.Transducer
import PushStreamer.Socket.ReadFrame
import PushStreamer.Socket.Frames
import PushStreamer.Socket.MessageSize
import PushStreamer.Socket.Prepare
import PushStreamer.Socket.Dispatch
import PushStreamer.Socket.Fragmented
import PushStreamer.Socket.WriteQueue
import PushStreamer.Lib.Results
import PushStreamer.Model.JsonReader
import PushStreamer.Model.JsonNumbers
import PushStreamer.Model.JsonRoundTrip
import PushStreamer.Model.JsonEscapes
import PushStreamer.Session.VendoredJson
import PushStreamer.Lib.Lines
import PushStreamer.Socket.HandshakeKey
import PushStreamer.Lib.Sha1
import PushStreamer.Socket.HandshakeHash
import PushStreamer.Socket.HttpResponse
import PushStreamer.Socket.Opening
