import MotionBlocks.Proofs.Session.Activation
import MotionBlocks.Proofs.Session.Disposal
import MotionBlocks.Proofs.Session.Notice
import MotionBlocks.Proofs.Unrolling.Legality

namespace MotionBlocks

/-!
# What the installed program says about the blocks

A session remembers the program that its workspace stands for, so as not to rebuild
what is there already.  The memory is sound as long as nothing waits in the inbox:
changes that count make the session forget the program, and changes that are dropped
belong to a rebuild that replaces all the blocks.

Two things are asked of the surroundings.  People change blocks only while changes
count, since what they do in the grace window is dropped along with the changes of
the rebuild.  And the programs of the host come back from a rebuild, since the
session remembers them as they were given.

An activation looks at the memory without looking at the inbox first.  It may
therefore be passed over although the blocks mean something else by now.
-/

namespace Motion

theorem beq_trans_option {first second third : Option Float} (front : (first == second) = true)
    (back : (second == third) = true) : (first == third) = true := by
  cases first <;> cases second <;> cases third <;> simp_all
  exact BEq.trans front back

theorem beq_trans {first second third : Motion} (front : (first == second) = true)
    (back : (second == third) = true) : (first == third) = true := by
  rw [beq_iff] at front back ⊢
  exact ⟨front.1.trans back.1, BEq.trans front.2.1 back.2.1,
    beq_trans_option front.2.2.1 back.2.2.1, beq_trans_option front.2.2.2 back.2.2.2⟩

end Motion

namespace Program

theorem sameEffect_trans {first second third : Program} (front : first.sameEffect second = true)
    (back : second.sameEffect third = true) : first.sameEffect third = true := by
  unfold sameEffect at *
  generalize first.motions = upper at front ⊢
  generalize second.motions = middle at front back
  generalize third.motions = lower at back ⊢
  induction upper generalizing middle lower with
  | nil =>
    cases middle with
    | nil => exact back
    | cons => simp at front
  | cons motion upper ih =>
    cases middle with
    | nil => simp at front
    | cons other middle =>
      cases lower with
      | nil => simp at back
      | cons last lower =>
        simp only [List.cons_beq_cons, Bool.and_eq_true] at front back ⊢
        exact ⟨Motion.beq_trans front.1 back.1, ih middle front.2 lower back.2⟩

/-- A program comes back from a rebuild, up to the identifiers of its steps. -/
def ComesBack (program : Program) : Prop :=
  ∃ commands options ids,
    (((Workspace.empty.after commands).rebuild program).2.compile options
      ids).1.program.sameEffect program = true

end Program

namespace Workspace

section

variable {workspace other : Workspace} {options : CompileOptions} {program : Program}

/-- The blocks mean a program, up to the identifiers of its steps. -/
def Shows (workspace : Workspace) (options : CompileOptions) (program : Program) : Prop :=
  ∀ ids, (workspace.compile options ids).1.program.sameEffect program = true

theorem Shows.congr (shows : workspace.Shows options program)
    (same : other.store = workspace.store) : other.Shows options program := by
  intro ids
  rw [compile_congr same]
  exact shows ids

/-- What comes back from one rebuild comes back from every rebuild. -/
theorem shows_rebuild (comesBack : program.ComesBack) :
    (workspace.rebuild program).2.Shows options program := by
  rcases comesBack with ⟨commands, otherOptions, otherIds, back⟩
  intro ids
  rw [sameEffect_rebuild_iff] at back ⊢
  exact back

theorem shows_clear : workspace.clear.Shows options .empty := by
  intro ids
  have nothing : (workspace.clear.compile options ids).1.program.motions = [] := by
    rw [(workspace.clear.compile_eq options ids).1]
    have none := workspace.clear.starts_eq_nil fun id block found => by simp at found
    rw [run_steps_of_starts_eq_nil none]
    rfl
  rw [Program.sameEffect, nothing]
  rfl

end

end Workspace

namespace Coordinator

/-- Changes that all count make the coordinator forget what the blocks stand for. -/
theorem foldl_handle_of_accepts {sync : Coordinator}
    (accepts : ∀ change, sync.accepts change = true) (changes : List Change) (change : Change) :
    ((change :: changes).foldl (fun sync change => (sync.handle change).2) sync).installed =
      none := by
  induction changes generalizing sync change with
  | nil => simp [handle, accepts]
  | cons next changes ih =>
    rw [List.foldl_cons]
    refine ih (fun other => ?_) next
    simp only [handle, accepts, if_true]
    exact accepts other

theorem accepts_of_listening {sync : Coordinator} (live : sync.disposed = false)
    (idle : sync.phase = .idle) (listens : sync.config.ignoreProgrammatic = false)
    (change : Change) : sync.accepts change = true := by
  simp [accepts, live, idle, listens]

end Coordinator

namespace Session

/-- A session whose memory of the installed program is sound while nothing waits. -/
structure Faithful (options : CompileOptions) (session : Session) : Prop where
  wellFormed : session.workspace.WellFormed
  watched : ∃ number, session.observer = some number ∧ session.workspace.Watched number
  options_eq : session.sync.options = options
  listens : session.sync.config.ignoreProgrammatic = false
  live : session.sync.disposed = false
  queued : ∀ program, session.sync.queued = some program → program.ComesBack
  idle_of_told : session.workspace.Told → session.sync.phase = .idle
  shows : ¬ session.workspace.Told → ∀ program, session.sync.installed = some program →
    session.workspace.Shows options program

section

variable {options : CompileOptions} {session : Session}

theorem not_told_takeInbox (workspace : Workspace) : ¬ workspace.takeInbox.2.Told :=
  fun told => told rfl

/-! ## Looking at what waits -/

theorem Faithful.pump (faithful : Faithful options session) : Faithful options session.pump := by
  by_cases told : session.workspace.Told
  · rcases session.pump_eq with ⟨installed, debounce, pumped⟩
    have forgotten : session.pump.sync.installed = none := by
      have accepts := Coordinator.accepts_of_listening faithful.live (faithful.idle_of_told told)
        faithful.listens
      cases waiting : session.workspace.inbox.toList with
      | nil => exact absurd (Array.toList_eq_nil_iff.mp waiting) told
      | cons change changes =>
        have forgets := Coordinator.foldl_handle_of_accepts accepts changes change
        rw [← waiting, Array.foldl_toList] at forgets
        exact forgets
    have none : installed = none := by
      rw [pumped] at forgotten
      exact forgotten
    rw [pumped, none]
    exact { faithful with
      wellFormed := faithful.wellFormed.congr fun _ => rfl
      idle_of_told := fun told => absurd told (not_told_takeInbox _)
      shows := nofun }
  · have empty : session.workspace.inbox = #[] := not_not.mp told
    rw [pump_of_empty empty]
    exact faithful

/-! ## Replacing all blocks -/

/-- New blocks that mean a program take over, and what they raised is dropped. -/
theorem Faithful.replace (faithful : Faithful options session) {workspace : Workspace}
    (wellFormed : workspace.WellFormed)
    (watched : ∀ number, session.workspace.Watched number → workspace.Watched number)
    {program : Program} (shows : workspace.Shows options program) :
    Faithful options { session with
      workspace := workspace.takeInbox.2
      sync := session.sync.suppress.beginGrace.adopt program } := by
  rcases faithful.watched with ⟨number, own, there⟩
  exact { faithful with
    wellFormed := wellFormed.congr fun _ => rfl
    watched := ⟨number, own, watched number there⟩
    idle_of_told := fun told => absurd told (not_told_takeInbox _)
    shows := by
      rintro - _ ⟨⟩
      exact shows.congr rfl }

theorem Faithful.install (faithful : Faithful options session) {program : Program}
    (comesBack : program.ComesBack) : Faithful options (session.install program) := by
  rw [install_eq]
  refine faithful.replace (Workspace.wellFormed_keptByRequests.run faithful.wellFormed
    (.rebuild program)) (fun number watched => ?_) (Workspace.shows_rebuild comesBack)
  have stays : (Workspace.Command.run session.workspace (.rebuild program)).Watched number :=
    watched.run (by simp)
  exact stays

theorem Faithful.installQueued (faithful : Faithful options session) :
    Faithful options session.installQueued := by
  cases queued : session.sync.queued with
  | none =>
    rw [installQueued_of_none queued]
    exact faithful
  | some program =>
    rw [installQueued_of_some queued]
    have emptied : Faithful options
        (session.coordinate fun sync => { sync with queued := none }) :=
      { faithful with queued := nofun }
    exact emptied.install (faithful.queued program queued)

theorem Faithful.clear (faithful : Faithful options session) : Faithful options session.clear := by
  unfold Session.clear
  rw [if_neg (by simp [faithful.live]), runSuppressed_eq]
  have dropped : Faithful options (session.coordinate .dropQueued) :=
    { faithful with queued := nofun }
  refine dropped.replace (Workspace.wellFormed_keptByRequests.run faithful.wellFormed .clear)
    (fun number watched => ?_) Workspace.shows_clear
  have stays : (Workspace.Command.run session.workspace .clear).Watched number :=
    watched.run (by simp)
  exact stays

/-! ## Time -/

/-- What is published is what the blocks mean. -/
theorem Faithful.publish (faithful : Faithful options session) :
    Faithful options (session.compile.2.publish session.compile.1) := by
  rw [compile_eq]
  exact { faithful with
    shows := by
      rintro - _ ⟨⟩ ids
      rw [faithful.options_eq]
      exact session.workspace.sameEffect_compile options ids session.ids }

theorem Faithful.fire (faithful : Faithful options session) (task : Task) :
    Faithful options (session.fire task) := by
  unfold Session.fire
  cases task with
  | grace => exact { faithful with idle_of_told := fun _ => rfl }
  | rebuild =>
    cases session.sync.phase with
    | suppressed => exact { faithful with }
    | idle =>
      have taken : Faithful options (session.coordinate .takeRebuild) := { faithful with }
      exact taken.installQueued
  | debounce =>
    cases session.sync.phase with
    | suppressed => exact { faithful with }
    | idle =>
      have taken : Faithful options (session.coordinate .takeDebounce) := { faithful with }
      exact taken.publish

theorem Faithful.withClock (faithful : Faithful options session) (clock : Nat) :
    Faithful options (session.coordinate fun sync => { sync with clock := clock }) :=
  { faithful with }

theorem Faithful.fireUntil (faithful : Faithful options session)
    (limit tasks : Nat) : Faithful options (fireUntil limit tasks session) := by
  induction tasks generalizing session with
  | zero => exact faithful
  | succ tasks ih =>
    unfold Session.fireUntil
    cases session.sync.nextDue limit with
    | none => exact faithful
    | some outcome =>
      rcases outcome with ⟨due, task⟩
      exact ih ((faithful.withClock due).fire task).pump

theorem Faithful.advance (faithful : Faithful options session) (duration : Nat) :
    Faithful options (session.advance duration) := by
  unfold Session.advance
  rw [if_neg (by simp [faithful.live])]
  exact (faithful.pump.fireUntil (session.sync.clock + duration)
    (session.taskBound duration)).withClock _

/-! ## Requests -/

theorem Faithful.activate (faithful : Faithful options session) {program : Program}
    (comesBack : program.ComesBack) : Faithful options (session.activate program) := by
  unfold Session.activate coordinate Coordinator.activate
  dsimp only
  split
  · exact faithful
  · exact { faithful with
      queued := by
        rintro _ ⟨⟩
        exact comesBack }

theorem Faithful.installPending (faithful : Faithful options session) :
    Faithful options session.installPending := by
  unfold Session.installPending Timer.cancel
  have cancelled :
      Faithful options (session.coordinate fun sync => { sync with rebuild := .unset }) :=
    { faithful with }
  dsimp only
  split
  · exact cancelled.installQueued
  · exact cancelled

theorem Faithful.requestPlay (faithful : Faithful options session) :
    Faithful options session.requestPlay.2 := by
  rw [requestPlay_eq, if_neg (by simp [faithful.live])]
  dsimp only
  rw [compile_eq]
  exact { faithful.pump.installPending with }

/-- What a request must not do for the memory of a session to stay sound: change
blocks while changes are dropped, empty the inbox unseen, remove the session's
observer, or activate a program that does not come back. -/
def Request.Proper (session : Session) : Request → Prop
  | .edit command =>
    (command.mutates = true → session.sync.phase = .idle) ∧ command ≠ .takeInbox ∧
      ∀ number, session.observer = some number → command ≠ .unsubscribe number
  | .activate program => program.ComesBack
  | .activateText library text =>
    ∀ program, Program.ofText library text = .ok program → program.ComesBack
  | _ => True

theorem Faithful.edit (faithful : Faithful options session) {command : Workspace.Command}
    (proper : Request.Proper session (.edit command)) :
    Faithful options (Request.run session (.edit command)) := by
  rcases proper with ⟨whileIdle, notTaken, notRemoved⟩
  rcases faithful.watched with ⟨number, own, watched⟩
  have wellFormed := Workspace.wellFormed_keptByRequests.run faithful.wellFormed command
  have stays := watched.run (notRemoved number own)
  cases mutates : command.mutates with
  | true =>
    rcases faithful.wellFormed.told_or_same watched mutates with told | same
    · exact { faithful with
        wellFormed := wellFormed
        watched := ⟨number, own, stays⟩
        idle_of_told := fun _ => whileIdle mutates
        shows := fun quiet => absurd told quiet }
    · rw [Request.run, same]
      exact faithful
  | false =>
    cases command with
    | takeInbox => exact absurd rfl notTaken
    | subscribe | unsubscribe | setOrigin | takeDeliveries =>
      exact { faithful with
        wellFormed := wellFormed
        watched := ⟨number, own, stays⟩
        shows := fun quiet program installed => (faithful.shows quiet program installed).congr rfl }
    | _ => cases mutates

theorem Faithful.run (faithful : Faithful options session) {request : Request}
    (proper : request.Proper session) (live : (request.run session).sync.disposed = false) :
    Faithful options (request.run session) := by
  cases request with
  | edit command => exact faithful.edit proper
  | advance duration => exact faithful.advance duration
  | activate program => exact faithful.activate proper
  | activateText library text =>
    simp only [Request.run, activateText]
    cases read : Program.ofText library text with
    | ok program => exact faithful.activate (proper program read)
    | error error => exact faithful
  | requestPlay => exact faithful.requestPlay
  | clear => exact faithful.clear
  | listen | unlisten | takePublished => exact { faithful with }
  | compile =>
    simp only [Request.run, compile_eq]
    exact { faithful with }
  | dispose => cases (Coordinator.disposed_dispose session.sync).symm.trans live

theorem Faithful.after (faithful : Faithful options session) (requests : List Request)
    (proper : ∀ earlier request later, requests = earlier ++ request :: later →
      request.Proper (session.after earlier))
    (live : (session.after requests).sync.disposed = false) :
    Faithful options (session.after requests) := by
  induction requests generalizing session with
  | nil => exact faithful
  | cons request requests ih =>
    have here : (request.run session).sync.disposed = false := by
      by_contra disposed
      have still := disposed_after (by simpa using disposed) requests
      cases live.symm.trans still
    refine ih (faithful.run (proper [] request requests rfl) here) ?_ live
    intro earlier next later split
    exact proper (request :: earlier) next later (by rw [split, List.cons_append])

theorem faithful_ofConfig (config : SessionConfig) (ids : StepIds)
    (listens : config.sync.ignoreProgrammatic = false) :
    Faithful config.compile (ofConfig config ids) where
  wellFormed := Workspace.wellFormed_empty.congr fun _ => rfl
  watched := ⟨0, rfl, List.mem_singleton_self _⟩
  options_eq := rfl
  listens := listens
  live := rfl
  queued := nofun
  idle_of_told := fun told => absurd rfl told
  shows := fun _ => nofun

/-! ## The installed program -/

/-- In a session that counts every change, if people change blocks only while changes
count and all programs of the host come back from a rebuild, then the installed
program is what the blocks mean whenever nothing waits in the inbox.  An activation
that is passed over for being installed already then leaves blocks that mean the
program that was activated. -/
theorem installed_shows (config : SessionConfig) (ids : StepIds)
    (listens : config.sync.ignoreProgrammatic = false) (requests : List Request)
    (proper : ∀ earlier request later, requests = earlier ++ request :: later →
      request.Proper ((ofConfig config ids).after earlier))
    (live : ((ofConfig config ids).after requests).sync.disposed = false)
    (pumped : ((ofConfig config ids).after requests).workspace.inbox = #[]) :
    (∀ program, ((ofConfig config ids).after requests).sync.installed = some program →
      ∀ otherIds, (((ofConfig config ids).after requests).workspace.compile config.compile
        otherIds).1.program.sameEffect program = true) ∧
    ∀ program, ((ofConfig config ids).after requests).sync.queued = none →
      (((ofConfig config ids).after requests).sync.installed == some program) = true →
        ((ofConfig config ids).after requests).activate program =
            (ofConfig config ids).after requests ∧
          ∀ otherIds, (((ofConfig config ids).after requests).workspace.compile config.compile
            otherIds).1.program.sameEffect program = true := by
  have faithful := (faithful_ofConfig config ids listens).after requests proper live
  generalize (ofConfig config ids).after requests = session at *
  have quiet : ¬ session.workspace.Told := not_not.mpr pumped
  refine ⟨faithful.shows quiet, fun program empty represented => ?_⟩
  refine ⟨activate_of_represented empty represented, fun otherIds => ?_⟩
  cases installed : session.sync.installed with
  | none => simp [installed] at represented
  | some remembered =>
    have agree : (remembered == program) = true := by simpa [installed] using represented
    exact Program.sameEffect_trans (faithful.shows quiet remembered installed otherIds)
      (Program.sameEffect_of_beq agree)

end

/-- A turn is built into blocks, and once they have settled a pause is put behind it
and compiled. -/
def pausedTurn : List Request :=
  [.activate Workspace.oneTurn, .advance 1000000000, .edit (.create .pause),
    .edit (.connectNext (.numbered 1) (.numbered 4)), .advance 1000000000]

/-- After the pause has been compiled, the installed program has two steps, and the
blocks mean it. -/
theorem installed_shows_pausedTurn : ∃ program,
    ((ofConfig {} .counting).after pausedTurn).sync.installed = some program ∧ program.length = 2 ∧
      ∀ ids, (((ofConfig {} .counting).after pausedTurn).workspace.compile
        (SessionConfig.compile {}) ids).1.program.sameEffect program = true := by
  have comesBack : Workspace.oneTurn.ComesBack := ⟨[], {}, .counting, by decide +kernel⟩
  have settled : ((ofConfig {} .counting).after (pausedTurn.take 2)).sync.phase = .idle := by
    decide +kernel
  have stillSettled : ((ofConfig {} .counting).after (pausedTurn.take 3)).sync.phase = .idle := by
    decide +kernel
  have proper : ∀ earlier request later, pausedTurn = earlier ++ request :: later →
      request.Proper ((ofConfig {} .counting).after earlier) := by
    intro earlier request later split
    match earlier with
    | [] =>
      cases split
      exact comesBack
    | [_] | [_, _, _, _] =>
      cases split
      trivial
    | [_, _] =>
      cases split
      exact ⟨fun _ => settled, by simp, fun _ _ => by simp⟩
    | [_, _, _] =>
      cases split
      exact ⟨fun _ => stillSettled, by simp, fun _ _ => by simp⟩
    | _ :: _ :: _ :: _ :: _ :: earlier => simp [pausedTurn] at split
  have shows := installed_shows {} .counting rfl pausedTurn proper (by decide +kernel)
    (by decide +kernel)
  have length :
      ((ofConfig {} .counting).after pausedTurn).sync.installed.map Program.length = some 2 := by
    decide +kernel
  generalize ((ofConfig {} .counting).after pausedTurn).sync.installed = remembered
    at shows length ⊢
  cases remembered with
  | none => simp at length
  | some program => exact ⟨program, rfl, by simpa using length, shows.1 program rfl⟩

/-- The empty program comes back from a rebuild and people change blocks only while
changes count, but its second activation is passed over while the blocks mean a pause:
the changes that led there still wait in the inbox. -/
theorem not_shown_pauseUnnoticed :
    (∀ earlier request later, pauseUnnoticed = earlier ++ request :: later →
      request.Proper ((ofConfig {} .counting).after earlier)) ∧
    ((ofConfig {} .counting).after pauseUnnoticed).sync.disposed = false ∧
    ((ofConfig {} .counting).after pauseUnnoticed).activate .empty =
      (ofConfig {} .counting).after pauseUnnoticed ∧
    (((ofConfig {} .counting).after pauseUnnoticed).sync.installed == some .empty) = true ∧
    (((ofConfig {} .counting).after pauseUnnoticed).workspace.compile (SessionConfig.compile {})
      .counting).1.program.sameEffect .empty = false := by
  have comesBack : Program.empty.ComesBack := ⟨[], {}, .counting, by decide +kernel⟩
  have settled : ((ofConfig {} .counting).after (pauseUnnoticed.take 2)).sync.phase = .idle := by
    decide +kernel
  have stillSettled :
      ((ofConfig {} .counting).after (pauseUnnoticed.take 3)).sync.phase = .idle := by
    decide +kernel
  have represented :
      (((ofConfig {} .counting).after pauseUnnoticed).sync.installed == some .empty) = true := by
    decide +kernel
  refine ⟨?_, by decide +kernel, ?_, represented, by decide +kernel⟩
  · intro earlier request later split
    match earlier with
    | [] =>
      cases split
      exact comesBack
    | [_] =>
      cases split
      trivial
    | [_, _] =>
      cases split
      exact ⟨fun _ => settled, by simp, fun _ _ => by simp⟩
    | [_, _, _] =>
      cases split
      exact ⟨fun _ => stillSettled, by simp, fun _ _ => by simp⟩
    | _ :: _ :: _ :: _ :: earlier => simp [pauseUnnoticed] at split
  · have idle : ((ofConfig {} .counting).after pauseUnnoticed).sync.queued.isNone = true := by
      decide +kernel
    exact activate_of_represented (Option.isNone_iff_eq_none.mp idle) represented

end Session
end MotionBlocks
