import DtnDht.Lib.Occurrence
import DtnDht.Lib.CString
import DtnDht.Lib.Records
import DtnDht.Lib.Trie
import DtnDht.Lib.BigEndian
import DtnDht.Lib.Bloom
import DtnDht.Lib.Tiling
import DtnDht.Lib.Modify
import DtnDht.Lib.LazyBucket
import DtnDht.Lib.RotatingKeys
import DtnDht.Id
import DtnDht.Sockaddr
import DtnDht.DtnMessage
import DtnDht.DtnQuery
import DtnDht.DtnReply
import DtnDht.Send
import DtnDht.Blacklist
import DtnDht.RoutingTable
import DtnDht.Maintenance
import DtnDht.RoutingInvariant
import DtnDht.RoutingRun
import DtnDht.Rating
import DtnDht.Table
import DtnDht.Callback
import DtnDht.BootstrappingConf
import DtnDht.Search
import DtnDht.Storage
import DtnDht.Token
import DtnDht.ClosestNodes
import DtnDht.ParseMessage
import DtnDht.World
import DtnDht.Periodic
import DtnDht.RateLimit
import DtnDht.Frame
import DtnDht.TokenRun
import DtnDht.SearchStep
import DtnDht.SearchIds
import DtnDht.Api
import DtnDht.Lib.Registry
import DtnDht.Advertised
import DtnDht.Cancels
import DtnDht.Completions
import DtnDht.Lib.Runs
import DtnDht.Stuck
import DtnDht.RatingRun
import DtnDht.TokenHome
import DtnDht.BytewiseMessage
import DtnDht.Encoded
import DtnDht.LocalArrays
import DtnDht.SearchNodes
import DtnDht.ClosestBuffer
import DtnDht.CleanUp
import DtnDht.SearchRestart
import DtnDht.LookupAtomic
import DtnDht.Init
import DtnDht.LayerGrammar
import DtnDht.LayerOwnership
import DtnDht.Eviction
import DtnDht.Restart
import DtnDht.RoundTrip
import DtnDht.BucketRange
import DtnDht.GetNodes
import DtnDht.Splits
import DtnDht.RequestBucket
import DtnDht.EidRecords
import DtnDht.BlacklistSize
import DtnDht.RatingCalls
import DtnDht.PeersAnswer
import DtnDht.StorageArray
import DtnDht.Silence
import DtnDht.SilentSteps
import DtnDht.BlacklistRing
import DtnDht.Lib.Blocks
import DtnDht.Lib.Deadlines
import DtnDht.Lib.Potential
import DtnDht.Sha1
import DtnDht.Sha1Digest
import DtnDht.Hmac
import DtnDht.Writes
import DtnDht.Clock
import DtnDht.WellFormed
import DtnDht.Leases
import DtnDht.Awake
import DtnDht.Progress
import DtnDht.InfoExchange
import DtnDht.Lib.Network
import DtnDht.Requests
import DtnDht.Answers
import DtnDht.Reports
import DtnDht.Discovery
import DtnDht.Upkeep
