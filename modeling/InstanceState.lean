import InstanceState.Main
import InstanceState.Model.Encoding
import InstanceState.Sink.Memory
import InstanceState.Sink.Trace
import InstanceState.Files.Tree
import InstanceState.Proofs.Hierarchy.Reachability
import InstanceState.Proofs.Generation.Protocol
import InstanceState.Proofs.Generation.Retention
import InstanceState.Proofs.Resolution.Arrays
import InstanceState.Proofs.Resolution.Commands
import InstanceState.Proofs.Source.Quoted
import InstanceState.Proofs.Source.SuperState
import InstanceState.Proofs.Files.Path
import InstanceState.Proofs.Sink.Directory
import InstanceState.Proofs.Generation.Placement
import InstanceState.Proofs.Generation.Isolation
import InstanceState.Proofs.Generation.Accounts
import InstanceState.Proofs.Generation.Independence
import InstanceState.Proofs.Generation.Exclusion
import InstanceState.Proofs.Generation.Declaration
import InstanceState.Proofs.Generation.Atomicity
import InstanceState.Proofs.Sink.Handles
import InstanceState.Proofs.Hierarchy.Edges
import InstanceState.Proofs.Resolution.Members
import InstanceState.Proofs.Resolution.Retrieval
import InstanceState.Proofs.Hierarchy.Comparison
import InstanceState.Proofs.Resolution.Growth
import InstanceState.Proofs.Generation.Ancestry
import InstanceState.Proofs.Sink.Emission
import InstanceState.Proofs.Source.Namespaces
import InstanceState.Proofs.Splits
import InstanceState.Proofs.Sink.Paths
import InstanceState.Proofs.Generation.Packages
import InstanceState.Proofs.Generation.Spelling
import InstanceState.Proofs.Resolution.Forms
import InstanceState.Proofs.Histories
import InstanceState.Proofs.Generation.Demands
import InstanceState.Proofs.Source.Blocks
import InstanceState.Proofs.Json.Spelling
import InstanceState.Proofs.Model.RoundTrip
