import RoflCommon.Lib.Runs
import RoflCommon.Lib.Wordset
import RoflCommon.Lib.Frames
import RoflCommon.Lib.Classes
import RoflCommon.Lib.Outbox
import RoflCommon.Lib.Oset
import RoflCommon.Lib.Octets
import RoflCommon.Lib.Record
import RoflCommon.Lib.Tlv
import RoflCommon.Lib.Store
import RoflCommon.Cthread
import RoflCommon.Cthread.TimerMap
import RoflCommon.Cthread.RunLoop
import RoflCommon.Openflow
import RoflCommon.Openflow.Versionbitmap
import RoflCommon.Openflow.Coxmatch
import RoflCommon.Openflow.Coxmatches
import RoflCommon.Openflow.Cofmatch
import RoflCommon.Crofconn.Fsm
import RoflCommon.Crofconn.Negotiation
import RoflCommon.Crofconn.Reconnect
import RoflCommon.Cbuffer
import RoflCommon.Crofsock.Parse
import RoflCommon.Crofsock.Recv
import RoflCommon.Crofsock.Framing
import RoflCommon.Crofqueue
import RoflCommon.Crofsock.Send
import RoflCommon.Crofsock.Stream
import RoflCommon.Crofsock.Reopen
import RoflCommon.Crofsock.TxWakeup
import RoflCommon.Crofconn.RxThreads
import RoflCommon.Crofconn.RxWakeup
import RoflCommon.Crofconn.RxThrottle
import RoflCommon.Crofconn.Isolation
import RoflCommon.Crofconn.Events
import RoflCommon.Crofconn.Timers
import RoflCommon.Crofconn.Cleanup
import RoflCommon.Crofconn.Opening
import RoflCommon.Crofconn.Overtaking
import RoflCommon.Crofconn.Closed
import RoflCommon.Crofconn.Segmentation
import RoflCommon.Crofconn.Reassembly
import RoflCommon.Crofconn.Roundtrip
import RoflCommon.Crofconn.Requests
import RoflCommon.Crofconn.SendMessage
import RoflCommon.Crofconn.WrongVersion
import RoflCommon.Crofctl
import RoflCommon.Crofbase
import RoflCommon.Crofbase.Roles
import RoflCommon.Crofctl.Recv
import RoflCommon.Crofctl.Async
import RoflCommon.Crofchan
import RoflCommon.Crofchan.Headed
import RoflCommon.Crofchan.Versions
import RoflCommon.Crofbase.Broadcast
import RoflCommon.Crofbase.Datapaths
import RoflCommon.Openflow.Prerequisites
import RoflCommon.Openflow.OfpMatch
import RoflCommon.Openflow.CopyMatches
import RoflCommon.Openflow.OxmTlvs
import RoflCommon.Openflow.Widening
import RoflCommon.Openflow.Confined
import RoflCommon.Openflow.Coftables
import RoflCommon.Openflow.StatsArrays
import RoflCommon.Openflow.Cofpacketqueues
import RoflCommon.Lib.Bitrows
import RoflCommon.Openflow.TableMapping
import RoflCommon.Openflow.Cofhelloelems
import RoflCommon.Openflow.TextArrays
import RoflCommon.Openflow.Cofdescstats
import RoflCommon.Openflow.Cofports
import RoflCommon.Openflow.Coftablestats
import RoflCommon.Openflow.TextFields
import RoflCommon.Lib.Window
import RoflCommon.Openflow.Cofaction
import RoflCommon.Openflow.Cofactions
import RoflCommon.Openflow.CofmsgPacketOut
import RoflCommon.Openflow.MatchEquality
import RoflCommon.Lib.Iterate
import RoflCommon.Openflow.Cofmeterbands
import RoflCommon.Openflow.Cofgroupstats
import RoflCommon.Openflow.ActionPack
import RoflCommon.Openflow.ActionMaps
import RoflCommon.Openflow.FeatureProps
import RoflCommon.Openflow.Cofinstructions
import RoflCommon.Openflow.InstructionPack
import RoflCommon.Openflow.InstructionSets
import RoflCommon.Openflow.Cofbuckets
import RoflCommon.Crofchan.Allocation
import RoflCommon.Openflow.VersionSets
import RoflCommon.Crofbase.Listening
import RoflCommon.Crofsock.Backoff
import RoflCommon.Ctimespec
import RoflCommon.Cmemory
import RoflCommon.Openflow.CoxmatchExp
import RoflCommon.Openflow.SetVersion
import RoflCommon.Crofctl.Answers
import RoflCommon.Crofsock.Congestion
import RoflCommon.Lib.Mirror
import RoflCommon.Crofconn.Encryption
import RoflCommon.Crofdpt
import RoflCommon.Crofdpt.Mirror
import RoflCommon.Cetherswitch
import RoflCommon.Cetherswitch.Learning
import RoflCommon.Cetherswitch.FlowTables
import RoflCommon.Openflow.CofmsgFlowMod
import RoflCommon.Crofconn.Delivery
