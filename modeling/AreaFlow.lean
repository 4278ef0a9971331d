import AreaFlow.Proof.RoleBindings
import AreaFlow.Proof.ExactlyOnce
import AreaFlow.Proof.Grants
import AreaFlow.Proof.Freshness
import AreaFlow.Proof.Restoration
import AreaFlow.Proof.Links
import AreaFlow.Proof.Stores
import AreaFlow.Proof.Stream
import AreaFlow.Proof.Gating
import AreaFlow.Proof.Lockout
import AreaFlow.Proof.Regrants
import AreaFlow.Proof.History
import AreaFlow.Proof.Acceptance
import AreaFlow.Proof.MigrationTargets
import AreaFlow.Proof.ObjectKeys
import AreaFlow.Proof.Integrity
import AreaFlow.Proof.Schedule
import AreaFlow.Proof.ImportMirror
import AreaFlow.Proof.NormalForms
import AreaFlow.Proof.RateBounds
import AreaFlow.Proof.ReturnTo
