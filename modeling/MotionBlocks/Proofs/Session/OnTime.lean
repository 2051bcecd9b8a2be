import Mathlib.Data.Nat.Find
import MotionBlocks.Proofs.Session.Debounce
import MotionBlocks.Proofs.Session.Turns

namespace MotionBlocks

/-!
# A queued program is built on time

A host program waits for its deadline, and after that for the grace window of the
rebuild before it.  The session does not wait for the end of the window as such.  It
looks again after each delay, so the program is built at the first of these times at
which the window is over.  A window that ends just then counts as over, since its end
goes first among the tasks that are due together.

This time is fixed as soon as the program is queued: whatever people do to the blocks,
and however the time passes, it stays the same until the program is built.
-/

namespace Coordinator

/-- The time at which the queued program will be built if the host leaves it alone. -/
inductive BuildsAt (sync : Coordinator) : Nat → Prop where
  | idle {due : Nat} : sync.phase = .idle → sync.rebuild.due = some due → BuildsAt sync due
  /-- The first time at which the grace window is over, of the deadline and the times that
  are a number of delays after it. -/
  | suppressed {due close rounds : Nat} : sync.phase = .suppressed →
    sync.rebuild.due = some due → sync.grace.due = some close →
    close ≤ due + rounds * sync.config.rebuildDelay →
    (∀ fewer < rounds, due + fewer * sync.config.rebuildDelay < close) →
    BuildsAt sync (due + rounds * sync.config.rebuildDelay)

/-- The rebuild is still ahead. -/
def Ahead (sync : Coordinator) : Prop :=
  ∀ due, sync.rebuild.due = some due → sync.clock < due

section

variable {sync other : Coordinator} {program : Program} {time : Nat}

theorem ahead_of_none (none : sync.rebuild.due = none) : sync.Ahead := by
  intro due scheduled
  cases none.symm.trans scheduled

theorem BuildsAt.congr (builds : sync.BuildsAt time) (phase : other.phase = sync.phase)
    (rebuild : other.rebuild = sync.rebuild) (grace : other.grace = sync.grace)
    (config : other.config = sync.config) : other.BuildsAt time := by
  cases builds with
  | idle idle scheduled =>
    exact .idle (phase.trans idle) ((congrArg Timer.due rebuild).trans scheduled)
  | suppressed suppressed scheduled settling closed early =>
    rw [← config] at closed early ⊢
    exact .suppressed (phase.trans suppressed) ((congrArg Timer.due rebuild).trans scheduled)
      ((congrArg Timer.due grace).trans settling) closed early

/-- A program that is queued will be built. -/
theorem Balanced.exists_buildsAt (balanced : sync.Balanced)
    (delayed : 0 < sync.config.rebuildDelay) (queued : sync.queued = some program) :
    ∃ time, sync.BuildsAt time := by
  rcases Option.isSome_iff_exists.mp (balanced.rebuild_pending queued) with ⟨due, scheduled⟩
  cases phase : sync.phase with
  | idle => exact ⟨due, .idle phase scheduled⟩
  | suppressed =>
    have pending := balanced.grace_iff.mpr ⟨phase, balanced.live_of_queued queued⟩
    rcases Option.isSome_iff_exists.mp pending with ⟨close, settling⟩
    have closed : ∃ rounds, close ≤ due + rounds * sync.config.rebuildDelay :=
      ⟨close, Nat.le_add_left_of_le (Nat.le_mul_of_pos_right close delayed)⟩
    exact ⟨_, .suppressed phase scheduled settling (Nat.find_spec closed) fun fewer early =>
      Nat.lt_of_not_le (Nat.find_min closed early)⟩

/-- The program is not built before its deadline. -/
theorem BuildsAt.exists_due (builds : sync.BuildsAt time) :
    ∃ due, sync.rebuild.due = some due ∧ due ≤ time := by
  cases builds with
  | idle _ scheduled => exact ⟨_, scheduled, le_rfl⟩
  | suppressed _ scheduled => exact ⟨_, scheduled, Nat.le_add_right _ _⟩

/-- A program is due at once when the grace window ends, if it has been due before. -/
theorem BuildsAt.endGrace (builds : sync.BuildsAt time) (suppressed : sync.phase = .suppressed)
    (ends : sync.grace.due = some sync.clock)
    (ahead : ∀ due, sync.rebuild.due = some due → sync.clock ≤ due) :
    sync.endGrace.BuildsAt time := by
  cases builds with
  | idle idle => cases idle.symm.trans suppressed
  | @suppressed due close rounds _ scheduled settling _ early =>
    obtain rfl : sync.clock = close := Option.some.inj (ends.symm.trans settling)
    have first : rounds = 0 := by
      by_contra later
      have passed := early 0 (Nat.pos_of_ne_zero later)
      have due := ahead due scheduled
      omega
    rw [first, Nat.zero_mul, Nat.add_zero]
    exact .idle rfl scheduled

/-- A rebuild that is put off has one more round behind it and one less to come. -/
theorem BuildsAt.postpone (builds : sync.BuildsAt time) (suppressed : sync.phase = .suppressed)
    (scheduled : sync.rebuild.due = some sync.clock)
    (settling : ∀ close, sync.grace.due = some close → sync.clock < close) :
    sync.postponeRebuild.BuildsAt time := by
  cases builds with
  | idle idle => cases idle.symm.trans suppressed
  | @suppressed due close rounds _ deadline window closed early =>
    obtain rfl : sync.clock = due := Option.some.inj (scheduled.symm.trans deadline)
    have within := settling close window
    cases rounds with
    | zero => omega
    | succ rounds =>
      have split : ∀ count, sync.clock + (count + 1) * sync.config.rebuildDelay =
          sync.clock + sync.config.rebuildDelay + count * sync.config.rebuildDelay := by
        intro count
        rw [Nat.succ_mul]
        omega
      rw [split] at closed ⊢
      refine .suppressed suppressed rfl window closed fun fewer less => ?_
      have before := early (fewer + 1) (Nat.succ_lt_succ less)
      rwa [split] at before

end

end Coordinator

namespace Session

/-- People edit the workspace or time passes. -/
def Request.isEditOrAdvance : Request → Bool
  | .edit _ | .advance _ => true
  | _ => false

/-- The deeds of people and of the passing time. -/
def Deed.hostless : Deed → Bool
  | .edit _ | .collect | .note _ | .wait _ | .fire _ => true
  | _ => false

/-- The blocks of a program take the place of all others, and the session takes note of
it and begins to drop changes. -/
structure Moment.Builds (moment : Moment) (program : Program) : Prop where
  accepted : (moment.before.workspace.rebuild program).1 = .ok ()
  workspace : moment.after.workspace =
    (moment.before.workspace.rebuild program).2.takeInbox.2
  current : moment.after.sync.current = program
  installed : moment.after.sync.installed = some program
  suppressed : moment.after.sync.phase = .suppressed
  quiet : moment.after.sync.debounce.due = none

/-- A program is queued and will be built at a time. -/
structure Awaits (session : Session) (program : Program) (time : Nat) : Prop where
  queued : session.sync.queued = some program
  buildsAt : session.sync.BuildsAt time

section

variable {session after last : Session} {deed : Deed} {moments : List Moment} {time : Nat}
  {program : Program} {task : Task}

/-! ## The rebuild lies ahead -/

theorem Effect.ahead (effect : Effect session deed after) (immediate : deed.immediate = true)
    (delayed : 0 < session.sync.config.rebuildDelay) (ahead : session.sync.Ahead) :
    after.sync.Ahead := by
  cases effect with
  | wait | endGrace | postpone | install | publish => cases immediate
  | activate program =>
    simp only [Session.activate, coordinate, Coordinator.activate]
    split
    · exact ahead
    · intro due scheduled
      obtain rfl : session.sync.clock + session.sync.config.rebuildDelay = due :=
        Option.some.inj scheduled
      exact Nat.lt_add_of_pos_right delayed
  | settle | clear => exact Coordinator.ahead_of_none rfl
  | dispose =>
    simp only [Session.dispose, Coordinator.dispose]
    split
    · exact ahead
    · exact Coordinator.ahead_of_none rfl
  | _ => exact ahead

theorem History.ahead (history : History session moments last) (balanced : session.sync.Balanced)
    (immediate : ∀ moment ∈ moments, moment.deed.immediate = true)
    (delayed : 0 < session.sync.config.rebuildDelay) (ahead : session.sync.Ahead) :
    last.sync.Ahead := by
  induction history with
  | nil => exact ahead
  | cons timely _ ih =>
    rcases List.forall_mem_cons.mp immediate with ⟨here, rest⟩
    have effect := perform_effect balanced timely
    refine ih (effect.balanced balanced timely) rest ?_ (effect.ahead here delayed ahead)
    rwa [effect.settings.1]

/-- Between calls, the rebuild of a queued program lies ahead, since time does not stop
at a deadline without the task being done. -/
theorem ahead_afterCalls (balanced : session.sync.Balanced)
    (delayed : 0 < session.sync.config.rebuildDelay) (ahead : session.sync.Ahead)
    (calls : List Call) : (session.afterCalls calls).sync.Ahead := by
  induction calls generalizing session with
  | nil => exact ahead
  | cons call calls ih =>
    have history := call_history balanced delayed call
    refine ih (history.balanced balanced) ?_ ?_
    · rwa [(history.settings balanced).1]
    · by_cases passes : ∃ duration, call = .request (.advance duration)
      · rcases passes with ⟨duration, rfl⟩
        intro due (deadline : (session.advance duration).sync.deadline .rebuild = some due)
        exact lt_deadline_advance balanced delayed deadline
      · exact history.ahead balanced (session.immediate_moments (not_exists.mp passes)) delayed
          ahead

/-! ## One deed -/

/-- While changes are dropped, no task touches the blocks or the queue. -/
theorem Effect.fire_of_suppressed (effect : Effect session (.fire task) after)
    (suppressed : session.sync.phase = .suppressed) :
    after.workspace = session.workspace ∧ after.sync.queued = session.sync.queued := by
  cases effect with
  | endGrace | postpone => exact ⟨rfl, rfl⟩
  | install idle | publish idle => cases idle.symm.trans suppressed

/-- Until the host asks for something, blocks are touched by people and by the rebuild
only. -/
theorem Effect.store_of_hostless (effect : Effect session deed after)
    (hostless : deed.hostless = true)
    (left : (⟨session, deed⟩ : Moment).installs = false)
    (unedited : (⟨session, deed⟩ : Moment).edits = false) :
    after.workspace.store = session.workspace.store := by
  cases effect with
  | edit => cases unedited
  | install idle queued => simp [Moment.installs, idle, queued] at left
  | collect | ignore | accept | wait | endGrace | postpone | publish => rfl
  | _ => cases hostless

/-- A queued program is built at its time, and until then a deed of people or of the
passing time leaves it queued for that time. -/
theorem Effect.awaits (effect : Effect session deed after) (balanced : session.sync.Balanced)
    (timely : deed.Timely session) (inTurn : deed.InTurn session) (hostless : deed.hostless = true)
    (awaits : Awaits session program time) :
    (⟨session, deed⟩ : Moment).installs = false ∧ Awaits after program time ∨
      (⟨session, deed⟩ : Moment).installs = true ∧ session.sync.clock = time ∧
        after = session.rebuilt program := by
  rcases awaits with ⟨waiting, builds⟩
  cases effect with
  | edit | collect | ignore => exact .inl ⟨rfl, waiting, builds⟩
  | accept | wait => exact .inl ⟨rfl, waiting, builds.congr rfl rfl rfl rfl⟩
  | publish => exact .inl ⟨rfl, waiting, builds.congr rfl rfl rfl rfl⟩
  | endGrace suppressed =>
    exact .inl ⟨rfl, waiting, builds.endGrace suppressed timely fun due scheduled =>
      (balanced.timely .rebuild due scheduled).1⟩
  | postpone suppressed =>
    -- The end of the grace window would have gone first if it were due.
    have settling : ∀ close, session.sync.grace.due = some close → session.sync.clock < close := by
      intro close window
      rcases inTurn.2 .grace close window with before | ⟨-, ranked⟩
      · exact before
      · exact absurd ranked (by decide)
    exact .inl ⟨by simp [Moment.installs, suppressed], waiting,
      builds.postpone suppressed timely settling⟩
  | @install built idle queued =>
    obtain rfl : program = built := Option.some.inj (waiting.symm.trans queued)
    refine .inr ⟨by simp [Moment.installs, idle, queued], ?_, rfl⟩
    cases builds with
    | idle _ scheduled => exact Option.some.inj (timely.symm.trans scheduled)
    | suppressed suppressed => cases suppressed.symm.trans idle
  | _ => cases hostless

/-- With nothing queued, nothing is built until the host asks for it. -/
theorem Effect.empty (effect : Effect session deed after) (hostless : deed.hostless = true)
    (empty : session.sync.queued = none) :
    (⟨session, deed⟩ : Moment).installs = false ∧ after.sync.queued = none := by
  cases effect with
  | edit | collect | ignore | accept | wait | endGrace | publish => exact ⟨rfl, empty⟩
  | postpone suppressed => exact ⟨by simp [Moment.installs, suppressed], empty⟩
  | install idle queued => cases empty.symm.trans queued
  | _ => cases hostless

theorem History.empty (history : History session moments last) (balanced : session.sync.Balanced)
    (hostless : ∀ moment ∈ moments, moment.deed.hostless = true)
    (empty : session.sync.queued = none) : ∀ moment ∈ moments, moment.installs = false := by
  induction history with
  | nil => exact List.forall_mem_nil _
  | cons timely _ ih =>
    rcases List.forall_mem_cons.mp hostless with ⟨here, rest⟩
    have effect := perform_effect balanced timely
    rcases effect.empty here empty with ⟨left, still⟩
    exact List.forall_mem_cons.mpr ⟨left, ih (effect.balanced balanced timely) rest still⟩

/-! ## A run -/

/-- Every deed of a run has one of the known effects. -/
theorem History.effect_of_mem (history : History session moments last)
    (balanced : session.sync.Balanced) {moment : Moment} (listed : moment ∈ moments) :
    Effect moment.before moment.deed moment.after := by
  rcases List.append_of_mem listed with ⟨earlier, later, rfl⟩
  rcases history.split with ⟨reached, timely, -⟩
  exact perform_effect (reached.balanced balanced) timely

/-- A program that waits through a run waits for the same time in the end, or there is one
moment in the run, at that time, at which it is built. -/
theorem History.awaits (history : History session moments last)
    (balanced : session.sync.Balanced)
    (inTurn : ∀ moment ∈ moments, moment.deed.InTurn moment.before)
    (hostless : ∀ moment ∈ moments, moment.deed.hostless = true)
    (awaits : Awaits session program time) :
    (∀ moment ∈ moments, moment.installs = false ∧ moment.before.sync.queued = some program) ∧
        Awaits last program time ∨
      ∃ (earlier : List Moment) (build : Moment) (later : List Moment),
        moments = earlier ++ build :: later ∧
        (∀ moment ∈ earlier,
          moment.installs = false ∧ moment.before.sync.queued = some program) ∧
        build.installs = true ∧ build.clock = time ∧
        build.after = build.before.rebuilt program ∧
        ∀ moment ∈ later, moment.installs = false := by
  induction history with
  | nil => exact .inl ⟨List.forall_mem_nil _, awaits⟩
  | @cons session last deed moments timely rest ih =>
    rcases List.forall_mem_cons.mp inTurn with ⟨turnHere, turnLater⟩
    rcases List.forall_mem_cons.mp hostless with ⟨hostlessHere, hostlessLater⟩
    have effect := perform_effect balanced timely
    have still := effect.balanced balanced timely
    rcases effect.awaits balanced timely turnHere hostlessHere awaits with
      ⟨left, awaitsLater⟩ | ⟨installs, now, rebuilt⟩
    · have waits : (⟨session, deed⟩ : Moment).installs = false ∧
          session.sync.queued = some program := ⟨left, awaits.queued⟩
      rcases ih still turnLater hostlessLater awaitsLater with
        ⟨waitsLater, atLast⟩ | ⟨earlier, build, later, split, waitsLater, built⟩
      · exact .inl ⟨List.forall_mem_cons.mpr ⟨waits, waitsLater⟩, atLast⟩
      · exact .inr ⟨_ :: earlier, build, later, by rw [split, List.cons_append],
          List.forall_mem_cons.mpr ⟨waits, waitsLater⟩, built⟩
    · have nothing : (deed.perform session).sync.queued = none := by
        rw [rebuilt]
        rfl
      exact .inr ⟨[], _, moments, rfl, List.forall_mem_nil _, installs, now, rebuilt,
        rest.empty still hostlessLater nothing⟩

theorem request_hostless {request : Request} (passive : request.isEditOrAdvance = true)
    (session : Session) :
    ∀ moment ∈ (Call.request request).moments session, moment.deed.hostless = true := by
  cases request with
  | edit command => exact List.forall_mem_singleton.mpr rfl
  | advance duration =>
    exact forall_mem_advance session duration (fun _ _ => rfl) (fun _ _ _ _ _ => rfl)
      (fun _ => rfl) (fun _ _ => rfl)
  | _ => cases passive

theorem chronicle_hostless {requests : List Request}
    (passive : ∀ request ∈ requests, request.isEditOrAdvance = true) (session : Session) :
    ∀ moment ∈ session.chronicle (requests.map .request), moment.deed.hostless = true := by
  induction requests generalizing session with
  | nil => exact List.forall_mem_nil _
  | cons request requests ih =>
    rcases List.forall_mem_cons.mp passive with ⟨here, rest⟩
    exact List.forall_mem_append.mpr ⟨request_hostless here session, ih rest _⟩

theorem builds_of_rebuilt {moment : Moment}
    (rebuilt : moment.after = moment.before.rebuilt program) : moment.Builds program := by
  constructor
  · exact (moment.before.workspace.rebuild_motions program {} .counting).1
  all_goals rw [rebuilt]; rfl

/-- What is left to see of a run once it is known whether the program has been built: a
program that still waits is not late, and one that has been built was built in time. -/
theorem History.built (history : History session moments last)
    (balanced : session.sync.Balanced)
    (inTurn : ∀ moment ∈ moments, moment.deed.InTurn moment.before)
    (hostless : ∀ moment ∈ moments, moment.deed.hostless = true)
    (awaits : Awaits session program time) (ahead : last.sync.Ahead) :
    (∀ moment ∈ moments, moment.clock < time →
        moment.installs = false ∧ moment.before.sync.queued = some program) ∧
      (last.sync.clock < time → last.sync.queued = some program) ∧
      (time ≤ last.sync.clock → ∃ build, moments.filter Moment.installs = [build] ∧
        build.clock = time ∧ build.Builds program) := by
  rcases history.awaits balanced inTurn hostless awaits with
    ⟨waits, still⟩ | ⟨earlier, build, later, rfl, waits, installs, now, rebuilt, left⟩
  · refine ⟨fun moment listed _ => waits moment listed, fun _ => still.queued, fun late => ?_⟩
    rcases still.buildsAt.exists_due with ⟨due, scheduled, inTime⟩
    have toCome := ahead due scheduled
    omega
  · have ordered := history.clock_pairwise balanced
    have afterwards := (List.pairwise_cons.mp (List.pairwise_append.mp ordered).2.1).1
    refine ⟨?_, fun early => ?_, fun _ => ⟨build, ?_, now, builds_of_rebuilt rebuilt⟩⟩
    · refine List.forall_mem_append.mpr ⟨fun moment listed _ => waits moment listed,
        List.forall_mem_cons.mpr ⟨fun early => ?_, fun moment listed early => ?_⟩⟩
      · omega
      · have onward := afterwards moment listed
        omega
    · have reached := (history.clock_within balanced build (by simp)).2
      omega
    · have before : earlier.filter Moment.installs = [] :=
        List.filter_eq_nil_iff.mpr fun moment listed => by simp [(waits moment listed).1]
      have behind : later.filter Moment.installs = [] :=
        List.filter_eq_nil_iff.mpr fun moment listed => by simp [left moment listed]
      rw [List.filter_append, before, List.filter_cons_of_pos installs, behind, List.nil_append]

end

/-- No task touches the blocks while changes are dropped.  And a program that is queued
has a time at which it will be built.  As long as people only edit and time only
passes, the program stays queued and nothing is built before that time; once the clock
has reached it, the program has been built exactly once, at that time.  Apart from
that, the blocks change by the edits of people only. -/
theorem built_on_time (config : SessionConfig) (delayed : 0 < config.sync.rebuildDelayMs)
    (start : Session) (fresh : start.sync = .ofConfig config) (calls : List Call) :
    (∀ moment ∈ start.chronicle calls, ∀ task, moment.deed = .fire task →
      moment.before.sync.phase = .suppressed →
        moment.after.workspace = moment.before.workspace ∧
          moment.after.sync.queued = moment.before.sync.queued) ∧
    ∀ program, (start.afterCalls calls).sync.queued = some program →
      ∃ time, (start.afterCalls calls).sync.BuildsAt time ∧
        ∀ requests : List Request, (∀ request ∈ requests, request.isEditOrAdvance = true) →
          let moments := (start.afterCalls calls).chronicle (requests.map .request)
          let last := (start.afterCalls calls).after requests
          (∀ moment ∈ moments, moment.clock < time →
            moment.installs = false ∧ moment.before.sync.queued = some program) ∧
          (last.sync.clock < time → last.sync.queued = some program) ∧
          (time ≤ last.sync.clock → ∃ build, moments.filter Moment.installs = [build] ∧
            build.clock = time ∧ build.Builds program) ∧
          ∀ moment ∈ moments, moment.installs = false → moment.edits = false →
            moment.after.workspace.store = moment.before.workspace.store := by
  have initially : start.sync.Balanced := fresh ▸ Coordinator.balanced_ofConfig config
  constructor
  · rintro ⟨before, deed⟩ listed task rfl suppressed
    have history := afterCalls_history config delayed fresh calls
    exact (history.effect_of_mem initially listed).fire_of_suppressed suppressed
  · intro program queued
    rcases balanced_afterCalls config delayed fresh calls with ⟨balanced, settings⟩
    have nothing : start.sync.Ahead := fresh ▸ Coordinator.ahead_of_none rfl
    have positive : 0 < start.sync.config.rebuildDelay := by
      rw [fresh]
      exact rebuildDelay_pos delayed
    have ahead := ahead_afterCalls initially positive nothing calls
    generalize start.afterCalls calls = session at *
    rw [fresh] at positive
    have delay : 0 < session.sync.config.rebuildDelay := by rwa [settings]
    rcases balanced.exists_buildsAt delay queued with ⟨time, builds⟩
    refine ⟨time, builds, fun requests passive => ?_⟩
    intro moments last
    have history : History session moments last := by
      have through := chronicle_history balanced delay (requests.map .request)
      rwa [show session.afterCalls (requests.map .request) = last from List.foldl_map] at through
    have hostless := chronicle_hostless passive session
    have later : last.sync.Ahead := by
      have onward := ahead_afterCalls balanced delay ahead (requests.map .request)
      rwa [show session.afterCalls (requests.map .request) = last from List.foldl_map] at onward
    rcases history.built balanced (chronicle_inTurn session _) hostless ⟨queued, builds⟩ later with
      ⟨waits, early, late⟩
    refine ⟨waits, early, late, ?_⟩
    intro moment listed left unedited
    exact (history.effect_of_mem balanced listed).store_of_hostless (hostless moment listed) left
      unedited

/-- People create a block in the grace window, and time passes in two parts. -/
def editedWhileQueued : List Request :=
  [.edit (.create .pause), .advance 60000000, .edit (.create .pause), .advance 100000000]

/-- The turn is put off once and built when the grace window ends, not at its deadline.  The
two pauses are gone then, and there is a rotation with its two numbers. -/
theorem built_queuedWhileSettling :
    let session := (ofConfig {} .counting).afterCalls queuedWhileSettling
    ∃ build, (session.chronicle (editedWhileQueued.map .request)).filter Moment.installs =
        [build] ∧ build.clock = 150000000 ∧ build.Builds Workspace.oneTurn ∧
      build.before.workspace.blocks.map (·.2.kind) = [.start, .pause, .pause] ∧
      build.after.workspace.blocks.map (·.2.kind) =
        [.start, .rotate, .numberLiteral, .numberLiteral] := by
  intro session
  have waiting : session.sync.queued = some Workspace.oneTurn := rfl
  rcases (built_on_time {} (by decide) (ofConfig {} .counting) rfl queuedWhileSettling).2 _
    waiting with ⟨time, builds, outcome⟩
  have passive : ∀ request ∈ editedWhileQueued, request.isEditOrAdvance = true := by
    simp [editedWhileQueued, Request.isEditOrAdvance]
  have suppressed : session.sync.phase = .suppressed := by decide +kernel
  have scheduled : session.sync.rebuild.due = some 100000000 := by decide +kernel
  have settling : session.sync.grace.due = some 150000000 := by decide +kernel
  have delay : session.sync.config.rebuildDelay = 50000000 := by decide +kernel
  have now : time = 150000000 := by
    cases builds with
    | idle idle => cases idle.symm.trans suppressed
    | @suppressed due close rounds _ deadline window closed early =>
      obtain rfl : 100000000 = due := Option.some.inj (scheduled.symm.trans deadline)
      obtain rfl : 150000000 = close := Option.some.inj (settling.symm.trans window)
      rw [delay] at closed early ⊢
      have once : rounds ≤ 1 := by
        by_contra more
        have first := early 1 (by omega)
        omega
      omega
  rcases outcome editedWhileQueued passive with ⟨-, -, late, -⟩
  rw [now] at late
  rcases late (by decide +kernel) with ⟨build, only, atTime, built⟩
  have found : ∀ build ∈ (session.chronicle (editedWhileQueued.map .request)).filter
      Moment.installs, build.before.workspace.blocks.map (·.2.kind) = [.start, .pause, .pause] ∧
        build.after.workspace.blocks.map (·.2.kind) =
          [.start, .rotate, .numberLiteral, .numberLiteral] := by
    decide +kernel
  have listed := List.mem_singleton_self build
  rw [← only] at listed
  exact ⟨build, only, atTime, built, found build listed⟩

end Session
end MotionBlocks
