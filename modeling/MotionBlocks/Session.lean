import MotionBlocks.Compile.Chain
import MotionBlocks.Program.Exchange
import MotionBlocks.Rebuild
import MotionBlocks.Sync.Coordinator

namespace MotionBlocks

/-!
# Editor sessions

A workspace with the coordinator that watches it.  People edit the workspace,
the host activates programs and asks for play, and time passes only when the
host says so.  What the listeners are given is collected in order, so a session
is a value and its operations are functions.
-/

/-- A program as given to one listener. -/
structure Publication where
  listener : Nat
  program : Program

structure Session where
  workspace : Workspace
  sync : Coordinator
  ids : StepIds
  /-- The session's own observer of the workspace. -/
  observer : Option Nat
  /-- What the listeners have been given, in order. -/
  published : Array Publication

/-- Why there is nothing to play. -/
inductive PlayError where
  | emptyProgram
deriving DecidableEq, Repr

namespace PlayError

def message : PlayError → String
  | .emptyProgram => "no program to play: add a Start block followed by at least one step"

end PlayError

namespace Session

/-- A session that does not watch its workspace yet. -/
def detached (config : SessionConfig) (ids : StepIds) : Session where
  workspace := .empty
  sync := .ofConfig config
  ids := ids
  observer := none
  published := #[]

/-- Lets changes of the workspace wait for the session, and gives the number of
the observer that does so. -/
def attach (session : Session) : Nat × Session :=
  let (number, workspace) := session.workspace.subscribe .session
  (number, { session with workspace })

/-- A session that watches its workspace. -/
def ofConfig (config : SessionConfig) (ids : StepIds) : Session :=
  let (number, session) := (detached config ids).attach
  { session with observer := some number }

/-- Runs an action on the workspace as the user does. -/
def edit {α : Type} (action : Workspace → α × Workspace) (session : Session) : α × Session :=
  let (result, workspace) := action session.workspace
  (result, { session with workspace })

/-- Changes what the coordinator knows, and nothing else. -/
def coordinate (change : Coordinator → Coordinator) (session : Session) : Session :=
  { session with sync := change session.sync }

/-- Gives out the publications since the last time. -/
def takePublished (session : Session) : Array Publication × Session :=
  (session.published, { session with published := #[] })

/-- Takes note of all changes that wait. -/
def pump (session : Session) : Session :=
  let (changes, workspace) := session.workspace.takeInbox
  { session with
    workspace
    sync := changes.foldl (fun sync change => (sync.handle change).2) session.sync }

/-- Compiles the workspace as the settings say. -/
def compile (session : Session) : Program × Session :=
  let (compilation, ids) := session.workspace.compile session.sync.options session.ids
  (compilation.program, { session with ids })

/-! ## Rebuilding and publishing -/

/-- Runs an action that replaces the blocks, dropping every change it makes and
every change until the grace window has passed. -/
def runSuppressed (action : Workspace → Workspace) (session : Session) : Session :=
  let suppressed := session.coordinate .suppress
  { suppressed with workspace := action suppressed.workspace }.pump.coordinate .beginGrace

/-- Builds a program into blocks. -/
def install (program : Program) (session : Session) : Session :=
  (session.runSuppressed fun workspace => (workspace.rebuild program).2).coordinate (.adopt program)

/-- Builds the queued program, if there is one. -/
def installQueued (session : Session) : Session :=
  match session.sync.queued with
  | none => session
  | some program =>
    (session.coordinate fun sync => { sync with queued := none }).install program

/-- Gives a program to all listeners in the order of their registration. -/
def publish (program : Program) (session : Session) : Session :=
  { session.coordinate (.adopt program) with
    published :=
      session.sync.listeners.entries.foldl
        (fun published listener => published.push ⟨listener.1, program⟩) session.published }

/-! ## Time -/

/-- Does the work of a task whose deadline has come. -/
def fire (task : Task) (session : Session) : Session :=
  match task, session.sync.phase with
  | .grace, _ => session.coordinate .endGrace
  | .rebuild, .suppressed => session.coordinate .postponeRebuild
  | .rebuild, .idle => (session.coordinate .takeRebuild).installQueued
  | .debounce, .suppressed => session.coordinate .takeDebounce
  | .debounce, .idle =>
    let (program, session) := (session.coordinate .takeDebounce).compile
    session.publish program

/-- Moves the clock to the deadline of a task and does its work. -/
def fireAt (due : Nat) (task : Task) (session : Session) : Session :=
  ((session.coordinate fun sync => { sync with clock := due }).fire task).pump

/-- Does the tasks that are due until a time one after the other, up to a
number of them. -/
def fireUntil (limit : Nat) : Nat → Session → Session
  | 0, session => session
  | tasks + 1, session =>
    match session.sync.nextDue limit with
    | none => session
    | some (due, task) => fireUntil limit tasks (session.fireAt due task)

/-- How many tasks can come due while the clock moves by a time.  The queued
program is put off once for each delay at most, and besides there are one
compilation, one rebuild and the ends of two grace windows. -/
def taskBound (session : Session) (duration : Nat) : Nat :=
  duration / session.sync.config.rebuildDelay + 4

/-- Moves the clock, doing all that comes due on the way in the order of the
deadlines. -/
def advance (duration : Nat) (session : Session) : Session :=
  if session.sync.disposed then session
  else
    let limit := session.sync.clock + duration
    (fireUntil limit (session.taskBound duration) session.pump).coordinate fun sync =>
      { sync with clock := limit }

/-! ## Requests of the host -/

/-- Queues a program of the host. -/
def activate (program : Program) (session : Session) : Session :=
  session.coordinate fun sync => sync.activate program

/-- Queues a program of the host given as text. -/
def activateText (library : JsonLibrary) (text : String) (session : Session) :
    Except ProgramError Unit × Session :=
  match Program.ofText library text with
  | .ok program => (.ok (), session.activate program)
  | .error error => (.error error, session)

/-- Builds a queued program now instead of later. -/
def installPending (session : Session) : Session :=
  let (pending, rebuild) := session.sync.rebuild.cancel
  let session := session.coordinate fun sync => { sync with rebuild }
  if pending then session.installQueued else session

/-- Builds a queued program at once and compiles the workspace for play. -/
def requestPlay (session : Session) : Except PlayError Program × Session :=
  let settled := if session.sync.disposed then session else session.pump.installPending
  let (program, session) := settled.compile
  (if program.isEmpty then .error .emptyProgram else .ok program,
    session.coordinate fun sync => { sync with current := program })

/-- Empties the workspace; nothing is published. -/
def clear (session : Session) : Session :=
  if session.sync.disposed then { session with workspace := session.workspace.clear }
  else
    ((session.coordinate .dropQueued).runSuppressed Workspace.clear).coordinate (.adopt .empty)

/-- Registers a listener for compiled programs and gives its number. -/
def listen (session : Session) : Nat × Session :=
  let (number, sync) := session.sync.listen
  (number, { session with sync })

/-- Removes a listener and tells whether it was there. -/
def unlisten (number : Nat) (session : Session) : Bool × Session :=
  let (found, sync) := session.sync.unlisten number
  (found, { session with sync })

/-- Stops watching the workspace and drops all pending work. -/
def dispose (session : Session) : Session :=
  let workspace :=
    match session.observer with
    | none => session.workspace
    | some number => (session.workspace.unsubscribe number).2
  let workspace := if session.sync.disposed then workspace else workspace.takeInbox.2
  { session with workspace, sync := session.sync.dispose, observer := none }

end Session
end MotionBlocks
