import ObjectPath.Bulk
import ObjectPath.Examples.World
import ObjectPath.Lint.Node
import ObjectPath.Outline
import ObjectPath.Path.Operations
import ObjectPath.Predicate
import ObjectPath.Proofs.Rewrite
import ObjectPath.Member.Record
import ObjectPath.Path.Object
import ObjectPath.Predicate.Object
import ObjectPath.Proofs.Arguments
import ObjectPath.Proofs.Grammar
import ObjectPath.Proofs.Registries
import ObjectPath.Proofs.Interning
import ObjectPath.Proofs.Splitting
import ObjectPath.Proofs.StaticStarts
import ObjectPath.Proofs.Unbinding
import ObjectPath.Text.Held
import ObjectPath.Proofs.Bringing
import ObjectPath.Proofs.Concluding
import ObjectPath.Proofs.Instances
import ObjectPath.Proofs.Preservation
import ObjectPath.Proofs.Surveying
import ObjectPath.Proofs.JoinedReads
import ObjectPath.Proofs.JoinedWrites
import ObjectPath.Proofs.Strictness
import ObjectPath.Proofs.Harvest
import ObjectPath.Proofs.Validating
import ObjectPath.Proofs.Appending
import ObjectPath.Proofs.Safety
import ObjectPath.Proofs.Discerning
import ObjectPath.Proofs.Barring
import ObjectPath.Proofs.Settling
import ObjectPath.Proofs.Faltering
import ObjectPath.Proofs.Chains
import ObjectPath.Proofs.Listing
import ObjectPath.Proofs.Elements
import ObjectPath.Proofs.Deepening
import ObjectPath.Proofs.JoinedWalks
import ObjectPath.Proofs.Rooting
import ObjectPath.Proofs.Ranking
import ObjectPath.Proofs.Formatting
import ObjectPath.Proofs.Sources
import ObjectPath.Proofs.Deferring
import ObjectPath.Proofs.Declaring
import ObjectPath.Proofs.Linting
import ObjectPath.Proofs.Balancing
import ObjectPath.Proofs.Rebinding
import ObjectPath.Proofs.Recalling
