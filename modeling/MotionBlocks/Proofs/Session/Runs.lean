import MotionBlocks.Proofs.Forest.Runs
import MotionBlocks.Proofs.Session.Due
import MotionBlocks.Session

namespace MotionBlocks

/-!
# Runs of a session

People edit the workspace of a session, the host activates programs, asks for
play and lets time pass.  Whatever the order, a program is queued exactly while
its rebuild is scheduled, so a request for play never misses a queued program
and never rebuilds without one.
-/

namespace Coordinator

/-- A program is queued if and only if its rebuild is scheduled. -/
def Coherent (sync : Coordinator) : Prop :=
  sync.queued.isSome = sync.rebuild.isPending

section

variable {sync : Coordinator}

theorem Coherent.congr {other : Coordinator} (coherent : sync.Coherent)
    (sameQueued : other.queued = sync.queued) (sameRebuild : other.rebuild = sync.rebuild) :
    other.Coherent := by
  rwa [Coherent, sameQueued, sameRebuild]

/-- Taking note of a change touches the snapshot of the workspace and the debounce
only. -/
theorem handle_eq (sync : Coordinator) (change : Change) :
    ∃ installed debounce, (sync.handle change).2 = { sync with installed, debounce } := by
  unfold handle
  split
  · exact ⟨none, _, rfl⟩
  · exact ⟨sync.installed, sync.debounce, rfl⟩

theorem foldl_handle_eq (changes : List Change) (sync : Coordinator) :
    ∃ installed debounce, changes.foldl (fun sync change => (sync.handle change).2) sync =
      { sync with installed, debounce } := by
  induction changes generalizing sync with
  | nil => exact ⟨sync.installed, sync.debounce, rfl⟩
  | cons change changes ih =>
    rcases sync.handle_eq change with ⟨installed, debounce, first⟩
    rw [List.foldl_cons, first]
    exact ih _

/-- A suppressed coordinator takes note of nothing. -/
theorem handle_of_suppressed (suppressed : sync.phase = .suppressed) (change : Change) :
    (sync.handle change).2 = sync := by
  unfold handle
  simp [accepts, suppressed]

theorem foldl_handle_of_suppressed (suppressed : sync.phase = .suppressed)
    (changes : List Change) :
    changes.foldl (fun sync change => (sync.handle change).2) sync = sync := by
  induction changes with
  | nil => rfl
  | cons change changes ih =>
    rw [List.foldl_cons, handle_of_suppressed suppressed]
    exact ih

theorem Coherent.adopt (coherent : sync.Coherent) (program : Program) :
    (sync.adopt program).Coherent :=
  coherent

theorem Coherent.withCurrent (coherent : sync.Coherent) (program : Program) :
    Coherent { sync with current := program } :=
  coherent

theorem Coherent.withClock (coherent : sync.Coherent) (clock : Nat) :
    Coherent { sync with clock := clock } :=
  coherent

theorem Coherent.activate (coherent : sync.Coherent) (program : Program) :
    (sync.activate program).Coherent := by
  unfold Coordinator.activate
  split
  · exact coherent
  · rfl

theorem Coherent.dispose (coherent : sync.Coherent) : sync.dispose.Coherent := by
  unfold Coordinator.dispose
  split
  · exact coherent
  · rfl

end

end Coordinator

namespace Session

section

variable {session : Session}

/-! ## What single steps change -/

/-- Taking note of the waiting changes leaves the blocks and what is queued as they
are. -/
theorem pump_eq (session : Session) : ∃ installed debounce, session.pump =
    { session with
      workspace := session.workspace.takeInbox.2
      sync := { session.sync with installed, debounce } } := by
  rcases Coordinator.foldl_handle_eq session.workspace.inbox.toList session.sync with
    ⟨installed, debounce, handled⟩
  rw [Array.foldl_toList] at handled
  refine ⟨installed, debounce, ?_⟩
  rw [← handled]
  rfl

theorem pump_coherent (coherent : session.sync.Coherent) : session.pump.sync.Coherent := by
  rcases session.pump_eq with ⟨installed, debounce, pumped⟩
  rw [pumped]
  exact coherent.congr rfl rfl

theorem pump_of_suppressed (suppressed : session.sync.phase = .suppressed) :
    session.pump = { session with workspace := session.workspace.takeInbox.2 } := by
  have ignored := Coordinator.foldl_handle_of_suppressed suppressed session.workspace.inbox.toList
  rw [Array.foldl_toList] at ignored
  simp only [pump, Workspace.takeInbox, ignored]

/-- What replaces the blocks starts a new grace window and leaves what is queued as
it is. -/
theorem runSuppressed_eq (action : Workspace → Workspace) (session : Session) :
    session.runSuppressed action =
      { session with
        workspace := (action session.workspace).takeInbox.2
        sync := session.sync.suppress.beginGrace } := by
  let suppressed := { session.coordinate .suppress with workspace := action session.workspace }
  have ignored : suppressed.pump =
      { suppressed with workspace := suppressed.workspace.takeInbox.2 } := pump_of_suppressed rfl
  exact congrArg (coordinate .beginGrace) ignored

/-- Building a program into blocks leaves what is queued as it is. -/
theorem install_eq (program : Program) (session : Session) :
    session.install program =
      { session with
        workspace := (session.workspace.rebuild program).2.takeInbox.2
        sync := session.sync.suppress.beginGrace.adopt program } := by
  rw [install, runSuppressed_eq]
  rfl

/-- Compiling only uses up identifiers of steps. -/
theorem compile_eq (session : Session) :
    session.compile =
      ((session.workspace.compile session.sync.options session.ids).1.program,
        { session with
          ids := (session.workspace.compile session.sync.options session.ids).2 }) := by
  unfold compile
  generalize session.workspace.compile session.sync.options session.ids = outcome
  rfl

/-- What a request for play answers, and what it makes of the session, is read off
the compilation of a session without anything queued. -/
theorem requestPlay_eq (session : Session) :
    session.requestPlay =
      let settled := if session.sync.disposed then session else session.pump.installPending
      (if settled.compile.1.isEmpty then .error .emptyProgram else .ok settled.compile.1,
        settled.compile.2.coordinate fun sync => { sync with current := settled.compile.1 }) := by
  unfold requestPlay
  generalize (if session.sync.disposed = true then session
    else session.pump.installPending) = settled
  dsimp only

/-! ## What no request breaks -/

theorem publish_coherent (coherent : session.sync.Coherent) (program : Program) :
    (session.publish program).sync.Coherent :=
  coherent.adopt program

theorem compile_coherent (coherent : session.sync.Coherent) :
    session.compile.2.sync.Coherent := by
  rw [compile_eq]
  exact coherent

theorem installQueued_of_none (empty : session.sync.queued = none) :
    session.installQueued = session := by
  unfold installQueued
  rw [empty]

theorem installQueued_of_some {program : Program} (queued : session.sync.queued = some program) :
    session.installQueued =
      (session.coordinate fun sync => { sync with queued := none }).install program := by
  unfold installQueued
  rw [queued]

/-- Without a scheduled rebuild, building the queued program leaves nothing
queued. -/
theorem installQueued_coherent (unset : session.sync.rebuild = .unset) :
    session.installQueued.sync.Coherent := by
  cases queued : session.sync.queued with
  | none =>
    rw [installQueued_of_none queued, Coordinator.Coherent, queued, unset]
    rfl
  | some program =>
    rw [installQueued_of_some queued, install_eq]
    show Option.isSome none = session.sync.rebuild.isPending
    rw [unset]
    rfl

theorem fire_coherent (coherent : session.sync.Coherent) {task : Task}
    (deadline : session.sync.deadline task = some session.sync.clock) :
    (session.fire task).sync.Coherent := by
  unfold fire
  cases task with
  | grace => exact coherent
  | debounce =>
    cases session.sync.phase with
    | suppressed => exact coherent
    | idle =>
      have taken : (session.coordinate .takeDebounce).sync.Coherent := coherent
      exact publish_coherent (compile_coherent taken) _
  | rebuild =>
    have scheduled : session.sync.rebuild.due = some session.sync.clock := deadline
    cases session.sync.phase with
    | suppressed =>
      have queued : session.sync.queued.isSome = true := by
        rw [coherent, Timer.isPending, scheduled]
        rfl
      exact queued
    | idle =>
      refine installQueued_coherent ?_
      simp [coordinate, Coordinator.takeRebuild, Timer.take, Timer.isDue, scheduled]

theorem fireAt_coherent (coherent : session.sync.Coherent) {limit due : Nat} {task : Task}
    (next : session.sync.nextDue limit = some (due, task)) :
    (session.fireAt due task).sync.Coherent := by
  have deadline : session.sync.deadline task = some due :=
    (Coordinator.nextDue_eq_some_iff.mp next).1
  have moved : (session.coordinate fun sync => { sync with clock := due }).sync.Coherent :=
    coherent.withClock due
  refine pump_coherent (fire_coherent moved ?_)
  cases task <;> exact deadline

theorem fireUntil_coherent (coherent : session.sync.Coherent) (limit tasks : Nat) :
    (fireUntil limit tasks session).sync.Coherent := by
  induction tasks generalizing session with
  | zero => exact coherent
  | succ tasks ih =>
    unfold fireUntil
    cases next : session.sync.nextDue limit with
    | none => exact coherent
    | some outcome =>
      rcases outcome with ⟨due, task⟩
      exact ih (fireAt_coherent coherent next)

theorem advance_coherent (coherent : session.sync.Coherent) (duration : Nat) :
    (session.advance duration).sync.Coherent := by
  unfold advance
  split
  · exact coherent
  · have moved := fireUntil_coherent (pump_coherent coherent)
      (session.sync.clock + duration) (session.taskBound duration)
    exact moved.withClock _

theorem installPending_coherent (coherent : session.sync.Coherent) :
    session.installPending.sync.Coherent := by
  unfold installPending
  dsimp only [Timer.cancel]
  split
  · exact installQueued_coherent rfl
  · rename_i idle
    have empty : session.sync.queued.isSome = false := by
      rw [coherent]
      simpa using idle
    exact empty

theorem requestPlay_coherent (coherent : session.sync.Coherent) :
    session.requestPlay.2.sync.Coherent := by
  rw [requestPlay_eq]
  have settled : (if session.sync.disposed then session
      else session.pump.installPending).sync.Coherent := by
    split
    · exact coherent
    · exact installPending_coherent (pump_coherent coherent)
  exact (compile_coherent settled).withCurrent _

theorem activateText_coherent (coherent : session.sync.Coherent) (library : JsonLibrary)
    (text : String) : (session.activateText library text).2.sync.Coherent := by
  unfold activateText
  cases Program.ofText library text with
  | ok program => exact coherent.activate program
  | error error => exact coherent

theorem clear_coherent (coherent : session.sync.Coherent) : session.clear.sync.Coherent := by
  unfold clear
  split
  · exact coherent
  · rw [runSuppressed_eq]
    rfl

/-! ## Requests -/

/-- One request to a session, or an edit of its workspace. -/
inductive Request where
  | edit (command : Workspace.Command)
  | advance (duration : Nat)
  | activate (program : Program)
  | activateText (library : JsonLibrary) (text : String)
  | requestPlay
  | clear
  | listen
  | unlisten (number : Nat)
  | takePublished
  | compile
  | dispose

namespace Request

/-- What a request makes of a session. -/
def run (session : Session) : Request → Session
  | .edit command => { session with workspace := command.run session.workspace }
  | .advance duration => session.advance duration
  | .activate program => session.activate program
  | .activateText library text => (session.activateText library text).2
  | .requestPlay => session.requestPlay.2
  | .clear => session.clear
  | .listen => session.listen.2
  | .unlisten number => (session.unlisten number).2
  | .takePublished => session.takePublished.2
  | .compile => session.compile.2
  | .dispose => session.dispose

end Request

/-- A session after a number of requests. -/
def after (session : Session) (requests : List Request) : Session :=
  requests.foldl Request.run session

theorem run_coherent (coherent : session.sync.Coherent) (request : Request) :
    (request.run session).sync.Coherent := by
  cases request with
  | edit command => exact coherent
  | advance duration => exact advance_coherent coherent duration
  | activate program => exact coherent.activate program
  | activateText library text => exact activateText_coherent coherent library text
  | requestPlay => exact requestPlay_coherent coherent
  | clear => exact clear_coherent coherent
  | listen => exact coherent
  | unlisten number => exact coherent
  | takePublished => exact coherent
  | compile => exact compile_coherent coherent
  | dispose => exact coherent.dispose

/-- Whatever is asked of a new session, a program is queued if and only if its
rebuild is scheduled. -/
theorem coherent_after (config : SessionConfig) (ids : StepIds) (requests : List Request) :
    ((ofConfig config ids).after requests).sync.Coherent := by
  have initially : (ofConfig config ids).sync.Coherent := rfl
  generalize ofConfig config ids = session at initially ⊢
  induction requests generalizing session with
  | nil => exact initially
  | cons request requests ih => exact ih _ (run_coherent initially request)

end

end Session
end MotionBlocks
