import BucketCluster.CommandId
import BucketCluster.Main
import BucketCluster.Proofs.Command
import BucketCluster.Proofs.Coordination.AllOrError
import BucketCluster.Proofs.Coordination.LateEffects
import BucketCluster.Proofs.Coordination.Locality
import BucketCluster.Proofs.Executor.Quiescence
import BucketCluster.Proofs.Executor.Waking
import BucketCluster.Proofs.Json.Value
import BucketCluster.Proofs.Network.ConcurrentMerges
import BucketCluster.Proofs.Operators.Builtin
import BucketCluster.Proofs.Operators.Numeric
import BucketCluster.Proofs.Predicate
import BucketCluster.Proofs.Routing.Acceptance
import BucketCluster.Proofs.Routing.LastCalls
import BucketCluster.Proofs.Schema.Truncation
import BucketCluster.Proofs.Service
import BucketCluster.Proofs.Store.Backup
import BucketCluster.Proofs.Store.Conditions
import BucketCluster.Proofs.Store.Export
import BucketCluster.Proofs.Store.Frame
import BucketCluster.Proofs.Store.Import
import BucketCluster.Proofs.Store.Reading
import BucketCluster.Proofs.Store.Redelivery
import BucketCluster.Proofs.Store.UnknownOperators
