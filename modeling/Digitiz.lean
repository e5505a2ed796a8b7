import Digitiz.AbsoluteCoord
import Digitiz.AdbTransport
import Digitiz.AppLink
import Digitiz.AppRestart
import Digitiz.AppRuns
import Digitiz.AppSettings
import Digitiz.AppTouch
import Digitiz.AppUi
import Digitiz.Arith
import Digitiz.BatchCoverage
import Digitiz.BitFields
import Digitiz.BlockBits
import Digitiz.BlockFit
import Digitiz.ButtonCalls
import Digitiz.ButtonFile
import Digitiz.ButtonStore
import Digitiz.ButtonStrip
import Digitiz.Bytes
import Digitiz.CaptureRecovery
import Digitiz.Carousel
import Digitiz.Cheapest
import Digitiz.CleanTiles
import Digitiz.Codec
import Digitiz.CommandLine
import Digitiz.CutSave
import Digitiz.EncoderBuffers
import Digitiz.Etc2
import Digitiz.Etc2Compute
import Digitiz.Etc2Decode
import Digitiz.Etc2Format
import Digitiz.Etc2RoundTrip
import Digitiz.ExactOps
import Digitiz.ForegroundWatcher
import Digitiz.FrameReceiver
import Digitiz.FrameSender
import Digitiz.Framer
import Digitiz.FramerRun
import Digitiz.Geometry
import Digitiz.GuestFlag
import Digitiz.GuestStream
import Digitiz.Heartbeat
import Digitiz.HeldInput
import Digitiz.HostApp
import Digitiz.HostArith
import Digitiz.InputInjector
import Digitiz.KeyNames
import Digitiz.KeyWire
import Digitiz.Lap
import Digitiz.LatencyStats
import Digitiz.MessageCodecs
import Digitiz.Messages
import Digitiz.NoOverflow
import Digitiz.OnScreens
import Digitiz.PenDown
import Digitiz.Phrases
import Digitiz.Picture
import Digitiz.PictureRegion
import Digitiz.PinchPin
import Digitiz.PointerPipeline
import Digitiz.PointerTrack
import Digitiz.PresetInUse
import Digitiz.PresetMatch
import Digitiz.PresetOffer
import Digitiz.Reassembly
import Digitiz.ReleaseAll
import Digitiz.Rescale
import Digitiz.Restart
import Digitiz.RingCells
import Digitiz.Rounds
import Digitiz.Ruler
import Digitiz.Runs
import Digitiz.SafeBatches
import Digitiz.SameBatch
import Digitiz.SameBlock
import Digitiz.SameGrid
import Digitiz.Scan
import Digitiz.Scatter
import Digitiz.ScreenRenderer
import Digitiz.ScreenStream
import Digitiz.SendQueue
import Digitiz.SendQueueRun
import Digitiz.SenderSteps
import Digitiz.SentBatches
import Digitiz.Session
import Digitiz.SessionBytes
import Digitiz.SessionClock
import Digitiz.SessionView
import Digitiz.Settings
import Digitiz.SettingsFile
import Digitiz.Shortcuts
import Digitiz.SideMenu
import Digitiz.SlideMotion
import Digitiz.Spans
import Digitiz.SplinePath
import Digitiz.SplineSmoother
import Digitiz.StoreInvariant
import Digitiz.StreamReset
import Digitiz.StripGeometry
import Digitiz.StripRelease
import Digitiz.StripScroll
import Digitiz.StripTouch
import Digitiz.StrokeJoin
import Digitiz.StrokeRelease
import Digitiz.Strokes
import Digitiz.Sweep
import Digitiz.TextCuts
import Digitiz.TextLines
import Digitiz.TileCover
import Digitiz.TileNumbers
import Digitiz.TileSampling
import Digitiz.TileScheduler
import Digitiz.Tiling
import Digitiz.TouchLanguage
import Digitiz.TouchRouter
import Digitiz.TouchStrokes
import Digitiz.Transfer
import Digitiz.Utf8
import Digitiz.ViewTransform
import Digitiz.WantedViewport
import Digitiz.Win32InputInjector
import Digitiz.Wire
