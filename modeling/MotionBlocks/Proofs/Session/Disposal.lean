import MotionBlocks.Proofs.Session.Balance

namespace MotionBlocks

/-!
# Disposal is final

A host that disposes of a session may go on using it.  People still edit the blocks
and the host still asks for play, but nothing that was pending comes about any more,
nothing new becomes pending, and nobody is told of a program.  What becomes of the
blocks can be read off the requests alone, without a look at the session.

Each request checks for itself whether the session has been disposed of.  A request
for play and a deletion of all blocks go on after that check, so for these two one
has to see what they leave out.
-/

namespace Coordinator

/-- Nothing is pending, and nothing will be. -/
structure Retired (sync : Coordinator) : Prop where
  disposed : sync.disposed = true
  debounce : sync.debounce = .unset
  grace : sync.grace = .unset
  rebuild : sync.rebuild = .unset
  queued : sync.queued = none

section

variable {sync : Coordinator}

theorem activate_of_disposed (disposed : sync.disposed = true) (program : Program) :
    sync.activate program = sync := by
  simp [activate, disposed]

theorem dispose_of_disposed (disposed : sync.disposed = true) : sync.dispose = sync := by
  simp [dispose, disposed]

theorem retired_dispose (live : sync.disposed = false) : sync.dispose.Retired := by
  unfold dispose
  rw [if_neg (by simp [live])]
  exact ⟨rfl, rfl, rfl, rfl, rfl⟩

theorem disposed_activate (sync : Coordinator) (program : Program) :
    (sync.activate program).disposed = sync.disposed := by
  unfold activate
  split <;> rfl

theorem phase_dispose (sync : Coordinator) : sync.dispose.phase = sync.phase := by
  unfold dispose
  split <;> rfl

theorem clock_dispose (sync : Coordinator) : sync.dispose.clock = sync.clock := by
  unfold dispose
  split <;> rfl

end

end Coordinator

namespace Session

namespace Request

/-- What a request does to the blocks by itself, whatever is pending. -/
def command? : Request → Option Workspace.Command
  | .edit command => some command
  | .clear => some .clear
  | _ => none

/-- Whether a request is a disposal. -/
def disposes : Request → Bool
  | .dispose => true
  | _ => false

end Request

section

variable {session : Session}

/-! ## Only a disposal disposes -/

theorem disposed_pump (session : Session) :
    session.pump.sync.disposed = session.sync.disposed := by
  rcases session.pump_eq with ⟨installed, debounce, pumped⟩
  rw [pumped]

theorem disposed_installQueued (session : Session) :
    session.installQueued.sync.disposed = session.sync.disposed := by
  cases queued : session.sync.queued with
  | none => rw [installQueued_of_none queued]
  | some program =>
    rw [installQueued_of_some queued, install_eq]
    rfl

theorem disposed_installPending (session : Session) :
    session.installPending.sync.disposed = session.sync.disposed := by
  unfold installPending
  dsimp only
  split
  · rw [disposed_installQueued]
    rfl
  · rfl

theorem disposed_fire (session : Session) (task : Task) :
    (session.fire task).sync.disposed = session.sync.disposed := by
  unfold fire
  cases task with
  | grace => rfl
  | rebuild =>
    cases session.sync.phase with
    | suppressed => rfl
    | idle =>
      rw [disposed_installQueued]
      rfl
  | debounce =>
    cases session.sync.phase with
    | suppressed => rfl
    | idle =>
      rw [compile_eq]
      rfl

theorem disposed_fireUntil (limit tasks : Nat) (session : Session) :
    (fireUntil limit tasks session).sync.disposed = session.sync.disposed := by
  induction tasks generalizing session with
  | zero => rfl
  | succ tasks ih =>
    unfold fireUntil
    cases session.sync.nextDue limit with
    | none => rfl
    | some found =>
      rcases found with ⟨due, task⟩
      rw [ih, fireAt, disposed_pump, disposed_fire]
      rfl

theorem disposed_fireUntil_clock (limit tasks clock : Nat) (session : Session) :
    ((fireUntil limit tasks session).coordinate fun sync => { sync with clock }).sync.disposed =
      session.sync.disposed :=
  disposed_fireUntil limit tasks session

theorem disposed_advance (duration : Nat) (session : Session) :
    (session.advance duration).sync.disposed = session.sync.disposed := by
  unfold advance
  split
  · rfl
  · exact (disposed_fireUntil_clock (session.sync.clock + duration) (session.taskBound duration)
      (session.sync.clock + duration) session.pump).trans (disposed_pump session)

theorem disposed_requestPlay (session : Session) :
    session.requestPlay.2.sync.disposed = session.sync.disposed := by
  rw [requestPlay_eq]
  dsimp only
  rw [compile_eq]
  show (if session.sync.disposed then session
    else session.pump.installPending).sync.disposed = session.sync.disposed
  split
  · rfl
  · rw [disposed_installPending, disposed_pump]

/-- No request but a disposal has a part in whether a session has been disposed of. -/
theorem disposed_run_of_not {request : Request} (keeps : request.disposes = false) :
    (request.run session).sync.disposed = session.sync.disposed := by
  cases request with
  | edit | listen | unlisten | takePublished => rfl
  | advance duration => exact disposed_advance duration session
  | activate program => exact session.sync.disposed_activate program
  | activateText library text =>
    simp only [Request.run, activateText]
    cases Program.ofText library text with
    | ok program => exact session.sync.disposed_activate program
    | error error => rfl
  | requestPlay => exact disposed_requestPlay session
  | clear =>
    simp only [Request.run, clear]
    split
    · rfl
    · rw [runSuppressed_eq]
      rfl
  | compile => simp only [Request.run, compile_eq]
  | dispose => cases keeps

/-- What has been disposed of stays so. -/
theorem disposed_run (disposed : session.sync.disposed = true) (request : Request) :
    (request.run session).sync.disposed = true := by
  cases disposes : request.disposes with
  | false => exact (disposed_run_of_not disposes).trans disposed
  | true =>
    cases request with
    | dispose => exact Coordinator.disposed_dispose session.sync
    | _ => cases disposes

theorem disposed_after (disposed : session.sync.disposed = true) (requests : List Request) :
    (session.after requests).sync.disposed = true := by
  induction requests generalizing session with
  | nil => exact disposed
  | cons request requests ih => exact ih (disposed_run disposed request)

/-! ## One request -/

/-- A session that has been disposed of and no longer watches its workspace. -/
structure Over (session : Session) : Prop where
  retired : session.sync.Retired
  unwatched : session.observer = none

/-- What a request leaves of a session that is over.  The program played last and the
list of listeners are all that the coordinator may change. -/
structure Leaves (session : Session) (request : Request) (after : Session) : Prop where
  sync : ∃ current listeners, after.sync = { session.sync with current, listeners }
  observer : after.observer = session.observer
  workspace : after.workspace = session.workspace.after request.command?.toList
  published : request ≠ .takePublished → after.published = session.published

theorem Over.leaves (ended : Over session) (request : Request) :
    Leaves session request (request.run session) := by
  have disposed := ended.retired.disposed
  have unchanged : ∀ {quiet : Request}, quiet.command? = none → Leaves session quiet session := by
    intro quiet none
    exact ⟨⟨_, _, rfl⟩, rfl, by rw [none]; rfl, fun _ => rfl⟩
  have activated : ∀ program, session.activate program = session := by
    intro program
    rw [activate, coordinate, Coordinator.activate_of_disposed disposed]
  cases request with
  | edit command => exact ⟨⟨_, _, rfl⟩, rfl, rfl, fun _ => rfl⟩
  | advance duration =>
    rw [Request.run, advance, if_pos disposed]
    exact unchanged rfl
  | activate program =>
    rw [Request.run, activated]
    exact unchanged rfl
  | activateText library text =>
    rw [Request.run, activateText]
    cases Program.ofText library text with
    | ok program =>
      dsimp only
      rw [activated]
      exact unchanged rfl
    | error error => exact unchanged rfl
  | requestPlay =>
    -- The blocks are compiled as they are: what waits is neither looked at nor built.
    rw [Request.run, requestPlay_eq, if_pos disposed]
    dsimp only
    rw [compile_eq]
    exact ⟨⟨_, _, rfl⟩, rfl, rfl, fun _ => rfl⟩
  | clear =>
    rw [Request.run, clear, if_pos disposed]
    exact ⟨⟨_, _, rfl⟩, rfl, rfl, fun _ => rfl⟩
  | listen => exact ⟨⟨_, _, rfl⟩, rfl, rfl, fun _ => rfl⟩
  | unlisten number => exact ⟨⟨_, _, rfl⟩, rfl, rfl, fun _ => rfl⟩
  | takePublished => exact ⟨⟨_, _, rfl⟩, rfl, rfl, fun other => absurd rfl other⟩
  | compile =>
    rw [Request.run, compile_eq]
    exact ⟨⟨_, _, rfl⟩, rfl, rfl, fun _ => rfl⟩
  | dispose =>
    have same : session.dispose = session := by
      simp only [dispose, ended.unwatched, disposed, if_true,
        Coordinator.dispose_of_disposed disposed]
      rw [← ended.unwatched]
    rw [Request.run, same]
    exact unchanged rfl

theorem Leaves.ended {request : Request} {after : Session} (leaves : Leaves session request after)
    (ended : Over session) : Over after := by
  rcases leaves.sync with ⟨current, listeners, same⟩
  have retired := ended.retired
  refine ⟨?_, leaves.observer.trans ended.unwatched⟩
  rw [same]
  exact ⟨retired.disposed, retired.debounce, retired.grace, retired.rebuild, retired.queued⟩

/-- A session that has been disposed of stays so. -/
theorem Over.run (ended : Over session) (request : Request) : Over (request.run session) :=
  (ended.leaves request).ended ended

/-! ## All requests -/

theorem after_append (session : Session) (first rest : List Request) :
    session.after (first ++ rest) = (session.after first).after rest :=
  List.foldl_append

/-- A disposal ends a session at once, and nothing else ends it. -/
theorem over_run (ended : session.sync.disposed = true → Over session) (request : Request)
    (disposed : (request.run session).sync.disposed = true) : Over (request.run session) := by
  cases before : session.sync.disposed with
  | true => exact (ended before).run request
  | false =>
    cases disposes : request.disposes with
    | false =>
      have live : (request.run session).sync.disposed = session.sync.disposed :=
        disposed_run_of_not disposes
      cases (live.trans before).symm.trans disposed
    | true =>
      cases request with
      | dispose => exact ⟨Coordinator.retired_dispose before, rfl⟩
      | _ => cases disposes

theorem over_of_disposed (config : SessionConfig) (ids : StepIds) (requests : List Request)
    (disposed : ((ofConfig config ids).after requests).sync.disposed = true) :
    Over ((ofConfig config ids).after requests) := by
  have initially : (ofConfig config ids).sync.disposed = true → Over (ofConfig config ids) := nofun
  generalize ofConfig config ids = session at initially disposed ⊢
  induction requests generalizing session with
  | nil => exact initially disposed
  | cons request requests ih => exact ih _ (over_run initially request) disposed

theorem over_dispose (config : SessionConfig) (ids : StepIds) (requests : List Request) :
    Over ((ofConfig config ids).after requests).dispose := by
  have again := over_of_disposed config ids (requests ++ [.dispose])
  rw [after_append] at again
  exact again (Coordinator.disposed_dispose _)

theorem Over.after (ended : Over session) (requests : List Request) :
    Over (session.after requests) := by
  induction requests generalizing session with
  | nil => exact ended
  | cons request requests ih => exact ih (ended.run request)

/-- The coordinator of a session that is over stands still. -/
theorem Over.sync_after (ended : Over session) (requests : List Request) :
    ∃ current listeners, (session.after requests).sync =
      { session.sync with current, listeners } := by
  induction requests generalizing session with
  | nil => exact ⟨_, _, rfl⟩
  | cons request requests ih =>
    rcases (ended.leaves request).sync with ⟨current, listeners, here⟩
    rcases ih (ended.run request) with ⟨lastCurrent, lastListeners, later⟩
    refine ⟨lastCurrent, lastListeners, ?_⟩
    rw [here] at later
    exact later

/-- The blocks of a session that is over become what the requests say themselves. -/
theorem Over.workspace_after (ended : Over session) (requests : List Request) :
    (session.after requests).workspace =
      session.workspace.after (requests.filterMap Request.command?) := by
  induction requests generalizing session with
  | nil => rfl
  | cons request requests ih =>
    have here := (ended.leaves request).workspace
    refine (ih (ended.run request)).trans ?_
    rw [here]
    cases own : request.command? with
    | none =>
      rw [List.filterMap_cons_none own]
      rfl
    | some command =>
      rw [List.filterMap_cons_some own]
      rfl

/-- Listeners of a session that is over are given nothing. -/
theorem Over.published_after (ended : Over session) (requests : List Request)
    (kept : ∀ request ∈ requests, request ≠ .takePublished) :
    (session.after requests).published = session.published := by
  induction requests generalizing session with
  | nil => rfl
  | cons request requests ih =>
    rcases List.forall_mem_cons.mp kept with ⟨here, rest⟩
    exact (ih (ended.run request) rest).trans ((ended.leaves request).published here)

theorem store_dispose (session : Session) :
    session.dispose.workspace.store = session.workspace.store := by
  simp only [dispose]
  cases session.observer <;> cases session.sync.disposed <;> rfl

end

/-- Whatever has been asked of a session before it is disposed of, and whatever is asked
of it afterwards, nothing is given to its listeners any more, its phase and its clock
stand still, nothing is pending or queued, and its blocks are changed by the edits
and the deletions that are asked for and by nothing else. -/
theorem final_after_dispose (config : SessionConfig) (ids : StepIds)
    (earlier first rest : List Request)
    (kept : ∀ request ∈ rest, request ≠ .takePublished) :
    let before := (ofConfig config ids).after earlier
    let session := before.dispose.after (first ++ rest)
    session.published = (before.dispose.after first).published ∧
      session.sync.disposed = true ∧
      session.sync.phase = before.sync.phase ∧
      session.sync.clock = before.sync.clock ∧
      (∀ task, session.sync.deadline task = none) ∧
      session.sync.queued = none ∧
      before.dispose.workspace.store = before.workspace.store ∧
      session.workspace =
        before.dispose.workspace.after ((first ++ rest).filterMap Request.command?) := by
  intro before session
  have ended : Over before.dispose := over_dispose config ids earlier
  have last : Over session := ended.after (first ++ rest)
  rcases ended.sync_after (first ++ rest) with ⟨current, listeners, still⟩
  have stands : session.sync = { before.dispose.sync with current, listeners } := still
  have quiet : session.published = (before.dispose.after first).published := by
    show (before.dispose.after (first ++ rest)).published = _
    rw [after_append]
    exact (ended.after first).published_after rest kept
  have idle : ∀ task, session.sync.deadline task = none := by
    intro task
    cases task with
    | grace => exact congrArg Timer.due last.retired.grace
    | rebuild => exact congrArg Timer.due last.retired.rebuild
    | debounce => exact congrArg Timer.due last.retired.debounce
  have phase : session.sync.phase = before.sync.phase := by
    rw [stands]
    exact before.sync.phase_dispose
  have clock : session.sync.clock = before.sync.clock := by
    rw [stands]
    exact before.sync.clock_dispose
  exact ⟨quiet, last.retired.disposed, phase, clock, idle, last.retired.queued,
    before.store_dispose, ended.workspace_after _⟩

/-- A pause waits to be compiled and another program waits to be built. -/
def busy : List Request :=
  [.listen, .edit (.create .start), .edit (.create .pause),
    .edit (.connectNext (.numbered 0) (.numbered 1)), .advance 100000000, .activate .empty]

/-- What a host asks of a session that it has already disposed of. -/
def afterwards : List Request :=
  [.listen, .advance 1000000000, .requestPlay, .edit (.create .pause), .activate .empty,
    .advance 1000000000, .dispose]

/-- Neither the compilation nor the rebuild that was pending comes about: the listeners
are given nothing, and the two blocks are joined by the third one only. -/
theorem final_afterwards :
    ((ofConfig {} .counting).after busy).sync.debounce.isPending = true ∧
      ((ofConfig {} .counting).after busy).sync.rebuild.isPending = true ∧
      (((ofConfig {} .counting).after busy).dispose.after afterwards).published = #[] ∧
      (((ofConfig {} .counting).after busy).dispose.after afterwards).workspace.size = 3 := by
  have kept : ∀ request ∈ afterwards, request ≠ .takePublished := by
    simp [afterwards]
  rcases final_after_dispose {} .counting busy [] afterwards kept with
    ⟨quiet, -, -, -, -, -, -, workspace⟩
  have silent : (((ofConfig {} .counting).after busy).dispose.after []).published = #[] :=
    Array.eq_empty_of_size_eq_zero (by decide +kernel)
  rw [List.nil_append] at quiet workspace
  refine ⟨by decide +kernel, by decide +kernel, quiet.trans silent, ?_⟩
  rw [workspace]
  decide +kernel

end Session
end MotionBlocks
