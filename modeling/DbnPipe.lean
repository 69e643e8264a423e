import DbnPipe.Library.Runs
import DbnPipe.Library.Chunks
import DbnPipe.Library.Framing
import DbnPipe.Library.Journal
import DbnPipe.Library.Callbacks
import DbnPipe.Library.Intervals
import DbnPipe.Library.Json
import DbnPipe.Library.JsonText
import DbnPipe.Library.JsonMachine
import DbnPipe.Stream.BufferChain
import DbnPipe.Stream.SegmentStore
import DbnPipe.Stream.StoreOperations
import DbnPipe.Stream.ChainRefinement
import DbnPipe.Stream.ZeroCopy
import DbnPipe.Stream.Component
import DbnPipe.Stream.TcpSocket
import DbnPipe.Stream.SocketBackpressure
import DbnPipe.Stream.WriteQueue
import DbnPipe.Stream.Backpressure
import DbnPipe.Stream.TlsTransport
import DbnPipe.Stream.TlsWrite
import DbnPipe.Stream.TlsSession
import DbnPipe.Stream.TlsRead
import DbnPipe.Stream.EpollEventLoop
import DbnPipe.Dbn.Convert
import DbnPipe.Dbn.Parser
import DbnPipe.Dbn.ParserFraming
import DbnPipe.Dbn.ConvertedRecords
import DbnPipe.Dbn.SplitIndependence
import DbnPipe.Dbn.ParseErrors
import DbnPipe.Dbn.DeliveredRecords
import DbnPipe.Dbn.VersionTwo
import DbnPipe.Dbn.OneShot
import DbnPipe.Dbn.RecordIsolation
import DbnPipe.Dbn.ParserFollows
import DbnPipe.Http.HttpClient
import DbnPipe.Http.EndOfStream
import DbnPipe.Http.BodyConservation
import DbnPipe.Http.OneSignal
import DbnPipe.Live.CramAuthUtils
import DbnPipe.Stream.Lifecycle
import DbnPipe.Live.CramAuth
import DbnPipe.Live.CramRules
import DbnPipe.Live.Inert
import DbnPipe.Live.InertAfterError
import DbnPipe.Live.HandshakeCutting
import DbnPipe.Live.StreamConservation
import DbnPipe.Live.CommandOrder
import DbnPipe.Live.Subscriptions
import DbnPipe.Stream.ZstdConservation
import DbnPipe.Stream.ZstdPieces
import DbnPipe.Pipeline.Teardown
import DbnPipe.Pipeline.ParserLink
import DbnPipe.Pipeline.StreamToParser
import DbnPipe.Pipeline.Truncation
import DbnPipe.Pipeline.Prompt
import DbnPipe.Pipeline.MetadataFits
import DbnPipe.Api.RetryProtocol
import DbnPipe.Api.ResponseRecords
import DbnPipe.Api.BestEffort
import DbnPipe.Storage.InstrumentMap
import DbnPipe.Storage.EmptyIntervals
import DbnPipe.Library.Calendar
import DbnPipe.Storage.FromNanoseconds
import DbnPipe.Client.TerminalStates
import DbnPipe.Client.Silence
import DbnPipe.Stream.EpollDispatch
import DbnPipe.Stream.NoLostWakeup
import DbnPipe.Stream.Timer
import DbnPipe.Library.PercentEncoding
import DbnPipe.Library.HttpMessage
import DbnPipe.Api.ApiRequest
import DbnPipe.Api.PathTemplate
import DbnPipe.Api.RetryAfter
import DbnPipe.Api.RootMembers
import DbnPipe.Pg.CopyFormat
import DbnPipe.Stream.SegmentOwnership
import DbnPipe.DbWriter.BatchWriter
import DbnPipe.Storage.LruCache
import DbnPipe.Stream.NestedResume
import DbnPipe.Http.HttpRequestBuilder
import DbnPipe.Http.HistoricalProtocol
import DbnPipe.Stream.Handlers
import DbnPipe.Stream.BufferBounds
import DbnPipe.Stream.ZstdBounds
import DbnPipe.Stream.TlsReentrant
import DbnPipe.Stream.TlsBounds
import DbnPipe.Http.HttpBounds
import DbnPipe.Live.CramBounds
import DbnPipe.Pipeline.Limits
import DbnPipe.Http.HeaderFragments
import DbnPipe.Http.Base64Encode
import DbnPipe.Library.Conninfo
import DbnPipe.DbWriter.ConnectionString
import DbnPipe.Library.SqlText
import DbnPipe.Storage.ParseRanges
import DbnPipe.Storage.DownloadProgress
import DbnPipe.Library.SqlNames
import DbnPipe.DbWriter.SqlCommands
import DbnPipe.DbWriter.SqlStatements
import DbnPipe.DbWriter.SchemaValidator
import DbnPipe.DbWriter.CopyWriter
import DbnPipe.DbWriter.PostgresDatabase
import DbnPipe.DbWriter.WriteBatch
import DbnPipe.DbWriter.BatchQueue
import DbnPipe.DbWriter.AsioEventLoop
import DbnPipe.Stream.EpollTimers
