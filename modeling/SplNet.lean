import SplNet.Foundations.LabelledRun
import SplNet.Foundations.IteratorSearch
import SplNet.Foundations.ConcurrentMap
import SplNet.Foundations.BlockGraph
import SplNet.Foundations.Ownership
import SplNet.Foundations.ExclusiveGrant
import SplNet.Foundations.WordRuns
import SplNet.Foundations.LoopRun
import SplNet.Java.Text
import SplNet.Java.WordFilter
import SplNet.Java.Decimal
import SplNet.Java.Utf8
import SplNet.Api.User
import SplNet.Api.MessageEncoderDecoderImpl
import SplNet.Client.ConnectionHandler
import SplNet.Client.CommandLines
import SplNet.Foundations.StreamReader
import SplNet.Client.MessageReader
import SplNet.Foundations.SegmentedStream
import SplNet.Client.SocketPieces
import SplNet.Client.LogoutWait
import SplNet.Client.SocketThread
import SplNet.Client.SocketReads
import SplNet.Api.DecoderArray
import SplNet.Api.ConnectionsImpl
import SplNet.Api.BidiMessagingProtocolImpl
import SplNet.Api.Spec.Sending
import SplNet.Client.Answers
import SplNet.Api.Spec.Accounts
import SplNet.Api.Spec.Graph
import SplNet.Api.Spec.Messages
import SplNet.Api.Spec.Mentions
import SplNet.Api.Spec.Frames
import SplNet.Api.Spec.Exceptions
import SplNet.Srv.BaseServer
import SplNet.Srv.ServerEffect
import SplNet.Srv.StoreInvariant
import SplNet.Srv.History
import SplNet.Srv.ClientRequests
import SplNet.Srv.ConnectionLifetime
import SplNet.Srv.Reactor
import SplNet.Srv.WritePath
import SplNet.Srv.ContinueWrite
import SplNet.Srv.ActorThreadPool
import SplNet.Srv.ReadPath
import SplNet.Srv.Handlers
import SplNet.Srv.HandlersAlone
import SplNet.Srv.HandlerEffect
import SplNet.Srv.HandlerInvariant
import SplNet.Srv.PostAndLogin
import SplNet.Properties.Replies
import SplNet.Properties.FollowGraph
import SplNet.Properties.Sessions
import SplNet.Properties.Unauthenticated
import SplNet.Properties.OfflinePosts
import SplNet.Properties.PrivateMessages
import SplNet.Properties.Blocking
import SplNet.Properties.DeadConnections
import SplNet.Properties.FrameLaw
import SplNet.Properties.ServerModes
import SplNet.Properties.SelectionLoop
import SplNet.Properties.WritePath
import SplNet.Properties.WriteTermination
import SplNet.Properties.StreamCut
import SplNet.Properties.LogoutReplies
import SplNet.Properties.LogstatRecord
import SplNet.Properties.ActorPool
import SplNet.Properties.ClientToServer
import SplNet.Properties.ServerToClient
import SplNet.Properties.ReadPath
import SplNet.Properties.ConcurrentAccounts
import SplNet.Properties.PostDuringLogin
import SplNet.Properties.CommandInjection
import SplNet.Properties.NamedUsers
import SplNet.Properties.PmText
import SplNet.Properties.WellFormedCommands
import SplNet.Properties.PostNotifications
import SplNet.Properties.FollowCounter
import SplNet.Properties.ServerFraming
import SplNet.Foundations.RunHistory
import SplNet.Foundations.RunExtension
import SplNet.Srv.HandlersFinish
import SplNet.System.Network
import SplNet.System.Uplink
import SplNet.System.Replies
import SplNet.System.Messages
import SplNet.System.Progress
import SplNet.Properties.EndToEnd
import SplNet.Properties.Delivery
import SplNet.Srv.GraphHandlers
import SplNet.Srv.GraphHandlersAlone
import SplNet.Properties.SerialRuns
import SplNet.Properties.PoolProgress
import SplNet.System.Directory
import SplNet.System.DirectoryServer
import SplNet.Properties.DirectoryRefinement
import SplNet.Properties.Statistics
import SplNet.Srv.GraphEffect
import SplNet.Properties.BlockRace
import SplNet.Client.Keyboard
import SplNet.Properties.KeyboardInput
import SplNet.Properties.MessagePieces
