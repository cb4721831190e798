import Koschei.Mir.VariantSafety
import Koschei.Lowering.Containers
import Koschei.Lanes.Literal
import Koschei.Go.ParallelMap
import Koschei.Types.Sensitivity
import Koschei.Types.Reading
import Koschei.Authorization.Consumption
import Koschei.Authorization.Claims
import Koschei.Authorization.Succession
import Koschei.Authorization.Grants
import Koschei.Execution.Fencing
import Koschei.Execution.ReplayRefinement
import Koschei.Recovery.Checkpoints
import Koschei.Recovery.Effects
import Koschei.Recovery.Containment
import Koschei.ObjectStore.Atomicity
import Koschei.Runner.Accounting
import Koschei.Ownership.Soundness
import Koschei.Modules.Declarations
import Koschei.Integrity.Returns
import Koschei.Values.Range
import Koschei.Values.Confinement
import Koschei.Workspace.Builds
import Koschei.Workspace.Order
import Koschei.Tasks.Lanes
import Koschei.Horizon.Monotone
import Koschei.Kernel.Substitution
import Koschei.Kernel.Admission
import Koschei.Kernel.Topology
import Koschei.Tasks.BoundedQueue
import Koschei.Go.DecimalTexts
import Koschei.Go.Structure
import Koschei.Go.Literals
import Koschei.ObjectStore.Temporal
