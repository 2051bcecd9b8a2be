import MotionBlocks.Config
import MotionBlocks.Program.Basic
import MotionBlocks.Registry
import MotionBlocks.Sync.Timer
import MotionBlocks.Workspace.Change

namespace MotionBlocks

/-!
# Coordination

The part of a session that decides when to compile and when to rebuild, apart
from the workspace itself.  Changes made by people restart a debounce, so that
a burst of them leads to one compilation.  While a rebuild settles, the
coordinator is suppressed and drops every change, so that a rebuild never leads
to a compilation.

Only the state decides about dropping.  The origin of a change is looked at
when the host asks for it, and then in addition.
-/

/-- Whether changes count. -/
inductive Phase where
  | idle
  | suppressed
deriving DecidableEq, Repr

/-- The work that waits for a deadline, in the order in which equal deadlines
are met. -/
inductive Task where
  /-- Changes count again. -/
  | grace
  /-- The queued program is built into blocks. -/
  | rebuild
  /-- The workspace is compiled and published. -/
  | debounce
deriving DecidableEq, Repr

structure Coordinator where
  config : SyncConfig
  options : CompileOptions
  phase : Phase
  /-- The time since the beginning, in nanoseconds. -/
  clock : Nat
  debounce : Timer
  grace : Timer
  rebuild : Timer
  /-- The program that waits for its rebuild. -/
  queued : Option Program
  /-- The program that the workspace stands for, as last rebuilt or published. -/
  installed : Option Program
  /-- The program that was compiled or rebuilt last. -/
  current : Program
  listeners : Registry Unit
  disposed : Bool

namespace Coordinator

def ofConfig (config : SessionConfig) : Coordinator where
  config := config.sync
  options := config.compile
  phase := .idle
  clock := 0
  debounce := .unset
  grace := .unset
  rebuild := .unset
  queued := none
  installed := none
  current := .empty
  listeners := .empty
  disposed := false

/-- Whether a change restarts the debounce. -/
def accepts (sync : Coordinator) (change : Change) : Bool :=
  !sync.disposed && sync.phase == .idle
    && !(change.origin == .programmatic && sync.config.ignoreProgrammatic)

/-- Takes note of a change and tells whether it counted.  From then on the
workspace may differ from the program it stood for. -/
def handle (sync : Coordinator) (change : Change) : Bool × Coordinator :=
  if sync.accepts change then
    (true,
      { sync with
        installed := none
        debounce := .schedule sync.clock sync.config.debounce })
  else (false, sync)

/-- Whether a program is the one that is queued, or is what the workspace
already stands for with nothing queued. -/
def represents (sync : Coordinator) (program : Program) : Bool :=
  match sync.queued with
  | some queued => queued == program
  | none => sync.installed == some program

/-- Queues a program for a rebuild after the delay, unless that would change
nothing. -/
def activate (sync : Coordinator) (program : Program) : Coordinator :=
  if sync.disposed || sync.represents program then sync
  else
    { sync with
      queued := some program
      rebuild := .schedule sync.clock sync.config.rebuildDelay }

/-- The deadline of a task. -/
def deadline (sync : Coordinator) : Task → Option Nat
  | .grace => sync.grace.due
  | .rebuild => sync.rebuild.due
  | .debounce => sync.debounce.due

/-- The earlier one of two due tasks; the first one if they are due together. -/
def earlier : Option (Nat × Task) → Option (Nat × Task) → Option (Nat × Task)
  | none, second => second
  | first, none => first
  | some first, some second => if second.1 < first.1 then some second else some first

/-- The task that is due first, if one is due until a time. -/
def nextDue (sync : Coordinator) (limit : Nat) : Option (Nat × Task) :=
  let due := fun task =>
    ((sync.deadline task).filter fun time => decide (time ≤ limit)).map fun time => (time, task)
  earlier (earlier (due .grace) (due .rebuild)) (due .debounce)

/-- Drops changes from now on, and forgets what is pending for earlier ones. -/
def suppress (sync : Coordinator) : Coordinator :=
  { sync with phase := .suppressed, debounce := .unset, grace := .unset }

/-- Starts the grace window, at whose end changes count again. -/
def beginGrace (sync : Coordinator) : Coordinator :=
  { sync with grace := .schedule sync.clock sync.config.graceWindow }

/-- Lets changes count again. -/
def endGrace (sync : Coordinator) : Coordinator :=
  { sync with grace := (sync.grace.take sync.clock).2, phase := .idle }

/-- Uses up the deadline of the rebuild. -/
def takeRebuild (sync : Coordinator) : Coordinator :=
  { sync with rebuild := (sync.rebuild.take sync.clock).2 }

/-- Puts the rebuild off by its delay. -/
def postponeRebuild (sync : Coordinator) : Coordinator :=
  { sync with rebuild := .schedule sync.clock sync.config.rebuildDelay }

/-- Uses up the deadline of the debounce. -/
def takeDebounce (sync : Coordinator) : Coordinator :=
  { sync with debounce := (sync.debounce.take sync.clock).2 }

/-- Takes a program for what the workspace stands for. -/
def adopt (program : Program) (sync : Coordinator) : Coordinator :=
  { sync with current := program, installed := some program }

/-- Drops a queued program and its rebuild. -/
def dropQueued (sync : Coordinator) : Coordinator :=
  { sync with rebuild := .unset, queued := none }

/-- Stops all pending work for good. -/
def dispose (sync : Coordinator) : Coordinator :=
  if sync.disposed then sync
  else
    { sync with
      debounce := .unset
      grace := .unset
      rebuild := .unset
      queued := none
      listeners := sync.listeners.clear
      disposed := true }

/-- Registers a listener for compiled programs and gives its number. -/
def listen (sync : Coordinator) : Nat × Coordinator :=
  let (number, listeners) := sync.listeners.register ()
  (number, { sync with listeners })

/-- Removes a listener and tells whether it was there. -/
def unlisten (number : Nat) (sync : Coordinator) : Bool × Coordinator :=
  let (found, listeners) := sync.listeners.remove number
  (found, { sync with listeners })

end Coordinator
end MotionBlocks
