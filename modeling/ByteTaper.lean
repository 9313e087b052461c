import ByteTaper.Cache.CacheEntryCodec
import ByteTaper.Coalescing.ActiveWaiterLimits
import ByteTaper.Compression.CompressionDecision
import ByteTaper.ControlPlane.BootstrapDrift
import ByteTaper.ControlPlane.PolicyLifecycle
import ByteTaper.ControlPlane.PolicyUpdateDelivery
import ByteTaper.ExtProc.CoalescingIsolation
import ByteTaper.ExtProc.DenylistCompleteness
import ByteTaper.ExtProc.FailClosed
import ByteTaper.ExtProc.LeaderSettles
import ByteTaper.ExtProc.MutationExchange
import ByteTaper.ExtProc.ObserveMode
import ByteTaper.ExtProc.RouteSelection
import ByteTaper.ExtProc.SelectionSoundness
import ByteTaper.Hash.SipHash
import ByteTaper.JsonTransform.BoundedWriter
import ByteTaper.Operational.ActivationCoverage
import ByteTaper.Operational.NamespaceCleanup
import ByteTaper.Runtime.AnalyzedRoutes
import ByteTaper.Runtime.WorkerQueueBodies
import ByteTaper.Runtime.WorkerQueueShutdown
import ByteTaper.RuntimePolicy.LocalMirror
import ByteTaper.Stages.AcceptedInvalidation
import ByteTaper.Stages.Promotion
import ByteTaper.TaperQuery.ApplyAudit
