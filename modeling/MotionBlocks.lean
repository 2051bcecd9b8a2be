import MotionBlocks.Number.Double
import MotionBlocks.Number.Decimal
import MotionBlocks.Number.Numeral
import MotionBlocks.Number.Layout
import MotionBlocks.Number.Angle
import MotionBlocks.Text.Blank
import MotionBlocks.Json.Value
import MotionBlocks.Json.Writer
import MotionBlocks.Json.Reader
import MotionBlocks.Json.Library
import MotionBlocks.Json.Record
import MotionBlocks.Json.Strict
import MotionBlocks.Table
import MotionBlocks.Registry
import MotionBlocks.Config
import MotionBlocks.Block.Id
import MotionBlocks.Block.Kind
import MotionBlocks.Block.Field
import MotionBlocks.Block.Basic
import MotionBlocks.Program.Step
import MotionBlocks.Program.Basic
import MotionBlocks.Program.Legal
import MotionBlocks.Program.Exchange
import MotionBlocks.Workspace.Change
import MotionBlocks.Workspace.Store
import MotionBlocks.Workspace.Basic
import MotionBlocks.Workspace.Edit
import MotionBlocks.Compile.Value
import MotionBlocks.Compile.Warning
import MotionBlocks.Compile.Motion
import MotionBlocks.Compile.Chain
import MotionBlocks.Rebuild
import MotionBlocks.Sync.Timer
import MotionBlocks.Sync.Coordinator
import MotionBlocks.Session
import MotionBlocks.Proofs.Forest.Runs
import MotionBlocks.Proofs.Unrolling.Correctness
import MotionBlocks.Proofs.Unrolling.Legality
import MotionBlocks.Proofs.Unrolling.Locality
import MotionBlocks.Proofs.Rebuilding.Restored
import MotionBlocks.Proofs.Json.Exchange
import MotionBlocks.Proofs.Session.Activation
import MotionBlocks.Proofs.Session.Silence
import MotionBlocks.Proofs.Session.Echo
import MotionBlocks.Proofs.Session.Snapshot
import MotionBlocks.Proofs.Session.Turns
import MotionBlocks.Proofs.Session.OnTime
import MotionBlocks.Proofs.Forest.Refusals
import MotionBlocks.Proofs.Unrolling.Budget
import MotionBlocks.Proofs.Forest.Insertion
import MotionBlocks.Proofs.Forest.Deletion
import MotionBlocks.Proofs.Forest.Plugging
import MotionBlocks.Proofs.Forest.AllOrNothing
import MotionBlocks.Proofs.Program.Blame
import MotionBlocks.Proofs.Program.Identity
import MotionBlocks.Proofs.Rebuilding.Replacement
import MotionBlocks.Proofs.Rebuilding.Flattening
