import MotionBlocks.Compile.Motion
import MotionBlocks.Config
import MotionBlocks.Program.Basic

namespace MotionBlocks

/-!
# Compiling chains

A program is what the chain behind the start block does, with every loop
unrolled.  A loop's body is compiled once and counts through its copies; the
copies are limited by the most rounds of one loop and by what is left of the
steps that unrolling may produce.  Blocks that mean nothing in a chain are
skipped with a warning, so every workspace has a program.

The recursion goes along the chain and into the bodies of loops.  Every block met
is remembered, and a chain that comes back to one is left there with a warning.
Since no block is gone into twice, no recursion is deeper than there are blocks,
and their number bounds it.
-/

/-- A program with what was noticed while it was compiled. -/
structure Compilation where
  program : Program
  warnings : Array CompileWarning

namespace Workspace

/-- The rounds that a loop with a number is allowed by the limit on single loops.
Rounds are compared as doubles, like the number itself. -/
def allowedRounds (options : CompileOptions) (times : Float) : Nat :=
  if Number.ofNat options.maxRepeat < Number.floorPositive times then options.maxRepeat
  else Number.saturated (Number.wholePart times)

/-- The copies of a loop's body that fit, for a number of rounds asked for.

The body has been counted as emitted already; it is taken back and counted once
for each copy, and each copy has identifiers of its own. -/
def unroll (options : CompileOptions) (id : BlockId) (times : Float) (body : List Step) :
    Compiling (List Step) := do
  let requested := Number.floorPositive times
  let allowed := allowedRounds options times
  Compiling.recount (· - body.length)
  let remaining := options.maxSteps - (← get).emitted
  let count := if body.isEmpty then allowed else min allowed (remaining / body.length)
  if Number.ofNat count < requested then
    Compiling.warn (.repeatClamped id requested count)
  Compiling.recount (· + body.length * count)
  if body.isEmpty then
    return []
  else
    Compiling.supply ((List.replicate count body).flatten.mapM Step.renew)

/-- The steps of one block of a chain, given how to compile its nested chain. -/
def blockSteps (workspace : Workspace) (options : CompileOptions) (id : BlockId) (block : Block)
    (nested : Compiling (List Step)) : Compiling (List Step) := do
  match block.kind with
  | .move | .rotate | .scale | .pause =>
    match ← workspace.motion id block with
    | none => return []
    | some motion =>
      let step ← Compiling.supply (Step.build motion)
      Compiling.recount (· + 1)
      return [step]
  | .loop =>
    let times ← workspace.parameter id block SlotName.times Defaults.times
    let body ← nested
    unroll options id times body
  | .start =>
    Compiling.warn (.unexpectedStart id)
    return []
  | .numberLiteral =>
    Compiling.warn (.unexpectedBlock id block.kind)
    return []
  | .custom name =>
    Compiling.warn (.unknownKind id name)
    return []

/-- The steps of the chain from a block on, and of the bodies in it, to a
depth. -/
def chainSteps (workspace : Workspace) (options : CompileOptions) :
    Nat → Option BlockId → Compiling (List Step)
  | 0, _ => return []
  | _, none => return []
  | depth + 1, some id =>
    match workspace.block? id with
    | none => return []
    | some block => do
      if ← Compiling.visit id then
        let own ← workspace.blockSteps options id block
          (workspace.chainSteps options depth block.body)
        let rest ← workspace.chainSteps options depth block.next
        return own ++ rest
      else
        Compiling.warn (.cycleDetected id)
        return []

/-- The start blocks that hang from no other block, in the order of creation. -/
def starts (workspace : Workspace) : List (BlockId × Block) :=
  workspace.tops.filter fun (_, block) => block.kind = .start

/-- The steps of the program of a workspace.  Of several start blocks the first
one counts. -/
def steps (workspace : Workspace) (options : CompileOptions) : Compiling (List Step) := do
  match workspace.starts with
  | [] => return []
  | (id, start) :: others =>
    if !others.isEmpty then
      Compiling.warn (.multipleStarts (others.length + 1) id)
    let _ ← Compiling.visit id
    workspace.chainSteps options workspace.size start.next

/-- Identifies steps by index and kind. -/
def structuralSteps (steps : List Step) : List Step :=
  steps.zipIdx.map fun (step, index) =>
    { step with id := index.repr ++ ":" ++ step.motion.kind.name }

/-- The program of a workspace.  Structural identifiers replace those that have
been taken from the supply. -/
def compile (workspace : Workspace) (options : CompileOptions) (ids : StepIds) :
    Compilation × StepIds :=
  let (steps, state) := StateT.run (workspace.steps options) (.initial ids)
  let identified :=
    match options.idPolicy with
    | .fresh => steps
    | .structural => structuralSteps steps
  (⟨⟨identified⟩, state.warnings⟩, state.ids)

end Workspace
end MotionBlocks
