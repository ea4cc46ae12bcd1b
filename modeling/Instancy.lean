import Instancy.Communication.PeerLinkOrder
import Instancy.Communication.TransportRoundTrip
import Instancy.Dataflow.ChannelSink
import Instancy.Dataflow.Channels.FanoutTree
import Instancy.Dataflow.Channels.NetworkInboundLoss
import Instancy.Dataflow.Channels.SpscInvariant
import Instancy.Dataflow.ExternalInputOrder
import Instancy.Dataflow.FailedCall
import Instancy.Dataflow.NotifyPairing
import Instancy.Dataflow.PerTimeRun
import Instancy.Progress.CapabilityAccounting
import Instancy.Progress.Reachability.IdentityCycle
import Instancy.Progress.Reachability.Termination
import Instancy.Progress.Reachability.ZeroTracking
import Instancy.Progress.Subgraph.ScopeSound
import Instancy.Progress.Subgraph.SplitCommit
import Instancy.Progress.TimestampLaws
import Instancy.Runtime.CancellationCalls
import Instancy.Runtime.ExecutorOwnership
import Instancy.Runtime.LifecycleLoss
import Instancy.Runtime.WorkerPoolExit
import Instancy.Communication.ChannelIds
import Instancy.Communication.DataflowOwner
import Instancy.Runtime.ForwardedReason
import Instancy.Progress.ChangeBatchRun
import Instancy.Dataflow.Graph
