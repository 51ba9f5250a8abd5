import LoginServer.Verified.LittleEndian
import LoginServer.Verified.ByteMemory
import LoginServer.Verified.BlockLoop
import LoginServer.Verified.PartialRun
import LoginServer.Utils.Tools
import LoginServer.Network.NetworkMessage
import LoginServer.Network.OutputMessage
import LoginServer.Utils.Xtea
import LoginServer.Utils.Rsa
import LoginServer.Script.LuaMessage
import LoginServer.Network.BufferBounds
import LoginServer.Network.Protocol
import LoginServer.Network.Connection
import LoginServer.Network.AuthenticationGate
import LoginServer.Network.ReceiveBounds
import LoginServer.Network.EncryptedFrame
import LoginServer.Script.OutputLifetime
import LoginServer.Network.PayloadReads
import LoginServer.Network.WireRoundTrip
import LoginServer.Network.FrameDelivery
import LoginServer.Network.PayloadBounds
import LoginServer.Core.Server
import LoginServer.Network.LoginFields
import LoginServer.Network.LoginResidue
import LoginServer.Verified.InOrderDelivery
import LoginServer.Verified.LiveVector
import LoginServer.Core.Module
import LoginServer.Core.Subscriptions
import LoginServer.Core.Emit
import LoginServer.Core.RegistryChange
import LoginServer.Core.EmitTurns
import LoginServer.Core.EmitDelivery
import LoginServer.Core.EmitArguments
import LoginServer.Network.OutputStream
import LoginServer.Network.Framings
import LoginServer.Core.RegistryConsistency
import LoginServer.Core.History
import LoginServer.Core.RegistryLedger
import LoginServer.Core.References
import LoginServer.Core.OnceMarks
import LoginServer.Core.CallNumbers
import LoginServer.Core.OnceConnections
import LoginServer.Script.LoginRequests
import LoginServer.Network.ConnectionIds
import LoginServer.Utils.Sha1
import LoginServer.Database.DBResult
import LoginServer.Verified.Quoting
import LoginServer.Database.Database
import LoginServer.Database.Tables
import LoginServer.Database.ValidAccounts
import LoginServer.Network.LoginReply
import LoginServer.Core.Dispatcher
import LoginServer.Core.DispatcherOrder
import LoginServer.Core.DispatcherShutdown
import LoginServer.Network.Watchdog
import LoginServer.Network.WriteWatchdog
import LoginServer.Network.ReadWatchdog
import LoginServer.Core.AcceptLoop
import LoginServer.Core.EmitExclusion
import LoginServer.Core.JoinOnSignal
import LoginServer.Core.ModuleDependencies
import LoginServer.Core.FailedLoad
import LoginServer.Script.DisconnectClosure
import LoginServer.Core.RemoveById
import LoginServer.Core.FreeConnections
import LoginServer.Utils.XteaInverse
import LoginServer.Utils.Adler32
import LoginServer.Verified.BlockHash
import LoginServer.Verified.SecureHash
import LoginServer.Utils.Sha1Digest
import LoginServer.Database.ResultAccess
import LoginServer.Script.AllOrNothing
import LoginServer.Script.Relay
import LoginServer.Core.EmitResults
import LoginServer.Script.BalancedCalls
import LoginServer.Verified.OneBased
import LoginServer.Lib.JsonDecode
import LoginServer.Lib.JsonGrammar
import LoginServer.Lib.JsonStrings
import LoginServer.Lib.JsonParse
import LoginServer.Lib.JsonErrors
import LoginServer.Verified.PathMarks
import LoginServer.Lib.JsonEncode
import LoginServer.Lib.JsonDocument
import LoginServer.Verified.KeyedEntries
import LoginServer.Lib.JsonRoundTrip
import LoginServer.Lib.JsonCopies
import LoginServer.Lib.JsonUnicode
import LoginServer.Script.CentralLink
import LoginServer.Script.GameServerHost
import LoginServer.Script.HostReplies
import LoginServer.Network.LoginSession
import LoginServer.Script.HostQuestion
import LoginServer.Redis.Publications
