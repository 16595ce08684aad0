import HttpServer.ListSearch
import HttpServer.LineBlocks
import HttpServer.MeasuredLoop
import HttpServer.CheckedArithmetic
import HttpServer.LexicalPath
import HttpServer.HttpUtils
import HttpServer.HexNumerals
import HttpServer.HttpRequest
import HttpServer.HttpResponse
import HttpServer.HttpParser
import HttpServer.ParserTermination
import HttpServer.ParserResume
import HttpServer.ParserFraming
import HttpServer.StaticFiles
import HttpServer.ClientConnection
import HttpServer.TransitionSystem
import HttpServer.MessageStreams
import HttpServer.ParserPrefix
import HttpServer.ClientHandling
import HttpServer.ConnectionFragments
import HttpServer.ConnectionSession
import HttpServer.SessionExclusion
import HttpServer.SessionMessages
import HttpServer.SessionResponses
import HttpServer.TcpServer
import HttpServer.DescriptorOwnership
import HttpServer.DescriptorRuns
import HttpServer.WaitingWorkers
import HttpServer.ConnectionAttendance
import HttpServer.Census
import HttpServer.PipelinedRequests
import HttpServer.RingBuffer
import HttpServer.ThreadPool
import HttpServer.ThreadPoolInvariant
import HttpServer.StreamDecoding
import HttpServer.WebSocketStream
import HttpServer.Http2Isolation
import HttpServer.FieldLines
import HttpServer.RequestLine
import HttpServer.FrontEnds
import HttpServer.Http2Pool
import HttpServer.Http2Deadlock
import HttpServer.GuardChain
import HttpServer.Router
import HttpServer.RouterDispatch
import HttpServer.UserController
import HttpServer.UserGuard
import HttpServer.App
import HttpServer.ResponseStream
import HttpServer.ParserLimits
import HttpServer.RequestRendering
import HttpServer.WorkerLifetime
import HttpServer.UserCollection
import HttpServer.UserLogin
import HttpServer.RateLimiter
import HttpServer.RateLimiterExpiry
import HttpServer.RateLimiterWindows
import HttpServer.ClientSend
import HttpServer.TelemetryBroadcaster
import HttpServer.ChunkedBody
import HttpServer.ChunkSizes
import HttpServer.CheckedParser
import HttpServer.ParserInvariant
import HttpServer.AcceptedMessages
import HttpServer.ParserBuffering
import HttpServer.WebSocketFrames
import HttpServer.UrlDecoding
import HttpServer.QueryStrings
import HttpServer.ResponseReading
import HttpServer.HeaderMultimap
import HttpServer.Http2Responses
import HttpServer.UpgradeDecision
import HttpServer.RouteParameters
import HttpServer.ControllerAnswers
import HttpServer.Http2Requests
import HttpServer.Http2StreamTable
import HttpServer.ThreadPoolShutdown
import HttpServer.PendingTasks
import HttpServer.PoolDrain
import HttpServer.Http2Answers
import HttpServer.RequestSequence
import HttpServer.ConversationEnds
import HttpServer.UserRecords
import HttpServer.FrameSequence
import HttpServer.ConnectionViews
import HttpServer.ConnectionCount
import HttpServer.RelatedRuns
import HttpServer.HashSecrecy
import HttpServer.DescriptorLeaks
import HttpServer.EnvParser
import HttpServer.ConnectionIsolation
import HttpServer.IdleConnections
import HttpServer.ServerShutdown
import HttpServer.PooledServer
import HttpServer.PooledServerInvariant
