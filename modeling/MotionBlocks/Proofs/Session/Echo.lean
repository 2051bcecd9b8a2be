import MotionBlocks.Proofs.Session.Debounce
import MotionBlocks.Proofs.Unrolling.Legality

namespace MotionBlocks

/-!
# Echoes

A host that is given a program often activates it in turn, only because it holds
its programs in one place.  The session knows the program that it has given out for
the one that the blocks stand for, and it remembers it until a change counts or the
blocks are replaced.  An echo that comes before that does nothing.

What the session remembers is asked only with nothing queued.  While another program
is queued, the blocks are about to stand for that one, and an activation of what was
given out is no echo but the latest wish of the host, which takes the place of the
one before.

All of this holds at any speed of the clock, so that the histories here are not
asked to keep to it.
-/

namespace Program

/-- Without an undefined number a program agrees with itself. -/
theorem beq_self {program : Program} (filled : ∀ motion ∈ program.motions, motion.Filled) :
    (program == program) = true := by
  rcases program with ⟨steps⟩
  show (steps == steps) = true
  induction steps with
  | nil => rfl
  | cons step steps ih =>
    rcases List.forall_mem_cons.mp filled with ⟨here, rest⟩
    have same : (step == step) = true := by
      show (step.id == step.id && step.motion == step.motion) = true
      rw [beq_self_eq_true, here.beq_self]
      rfl
    rw [List.cons_beq_cons, same, ih rest]
    rfl

end Program

namespace Coordinator

/-- A compilation is pending only while changes count. -/
def Awake (sync : Coordinator) : Prop :=
  sync.debounce.isPending = true → sync.phase = .idle

end Coordinator

namespace Session

/-- A task does its work only if there was a deadline for it. -/
def Deed.Scheduled (session : Session) : Deed → Prop
  | .fire task => (session.sync.deadline task).isSome
  | _ => True

/-- Moments lead from one session to another, each finding what the one before it
left, whether the deeds keep to the clock or not. -/
inductive Trail : Session → List Moment → Session → Prop where
  | nil (session : Session) : Trail session [] session
  | cons {session last : Session} {deed : Deed} {moments : List Moment} :
      deed.Scheduled session → Trail (deed.perform session) moments last →
      Trail session (⟨session, deed⟩ :: moments) last

section

variable {session middle last : Session} {deed : Deed} {moment : Moment}
  {moments earlier later : List Moment}

/-! ## Trails -/

theorem Trail.append (first : Trail session earlier middle) (second : Trail middle later last) :
    Trail session (earlier ++ later) last := by
  induction first with
  | nil => exact second
  | cons scheduled _ ih => exact .cons scheduled (ih second)

theorem Trail.single (scheduled : deed.Scheduled session) :
    Trail session [⟨session, deed⟩] (deed.perform session) :=
  .cons scheduled (.nil _)

theorem Trail.split (trail : Trail session (earlier ++ moment :: later) last) :
    Trail session earlier moment.before ∧ moment.deed.Scheduled moment.before ∧
      Trail moment.after later last := by
  induction earlier generalizing session with
  | nil =>
    cases trail with
    | cons scheduled rest => exact ⟨.nil _, scheduled, rest⟩
  | cons first earlier ih =>
    cases trail with
    | cons scheduled rest =>
      rcases ih rest with ⟨before, here, after⟩
      exact ⟨.cons scheduled before, here, after⟩

theorem Deed.Timely.scheduled (timely : deed.Timely session) : deed.Scheduled session := by
  cases deed with
  | fire task => exact Option.isSome_of_eq_some timely
  | _ => trivial

theorem History.trail (history : History session moments last) : Trail session moments last := by
  induction history with
  | nil => exact .nil _
  | cons timely _ ih => exact .cons timely.scheduled ih

theorem firing_trail (limit tasks : Nat) (session : Session) :
    Trail session (firing limit tasks session) (fireUntil limit tasks session) := by
  induction tasks generalizing session with
  | zero => exact .nil _
  | succ tasks ih =>
    unfold firing fireUntil
    cases next : session.sync.nextDue limit with
    | none => exact .nil _
    | some found =>
      rcases found with ⟨due, task⟩
      have scheduled := (fired_timely next).scheduled
      exact .cons trivial (.cons scheduled ((noting_history _).trail.append (ih _)))

theorem call_trail (session : Session) (call : Call) :
    Trail session (call.moments session) (call.run session) := by
  rcases call with
    (command | duration | program | ⟨library, text⟩ | _ | _ | _ | number | _ | _ | _) | _ |
    change
  case request.advance =>
    unfold Call.moments Call.run Request.run advance
    dsimp only
    cases session.sync.disposed with
    | true => exact .nil _
    | false =>
      exact ((noting_history session).trail.append (firing_trail _ _ _)).append (.single trivial)
  case request.activateText =>
    unfold Call.moments Call.run Request.run activateText
    dsimp only
    cases Program.ofText library text with
    | ok program => exact .single trivial
    | error error => exact .nil _
  case request.requestPlay =>
    unfold Call.moments Call.run Request.run
    rw [requestPlay_eq]
    dsimp only
    cases session.sync.disposed with
    | true => exact .single trivial
    | false =>
      exact (noting_history session).trail.append (.cons trivial (.single trivial))
  case pump => exact (noting_history session).trail
  all_goals exact .single trivial

theorem chronicle_trail (session : Session) (calls : List Call) :
    Trail session (session.chronicle calls) (session.afterCalls calls) := by
  induction calls generalizing session with
  | nil => exact .nil _
  | cons call calls ih => exact (call_trail session call).append (ih _)

/-! ## What is pending -/

theorem awake_ofConfig (config : SessionConfig) (ids : StepIds) :
    (ofConfig config ids).sync.Awake :=
  fun _ => rfl

/-- Blocks are replaced while nothing is pending. -/
theorem awake_install (program : Program) (session : Session) :
    (session.install program).sync.Awake := by
  rw [install_eq]
  exact nofun

theorem awake_installQueued (awake : session.sync.Awake) : session.installQueued.sync.Awake := by
  cases queued : session.sync.queued with
  | none => rwa [installQueued_of_none queued]
  | some program =>
    rw [installQueued_of_some queued]
    exact awake_install program _

theorem awake_handle (awake : session.sync.Awake) (change : Change) :
    (session.sync.handle change).2.Awake := by
  unfold Coordinator.handle
  cases accepted : session.sync.accepts change with
  | false => exact awake
  | true => exact fun _ => (Coordinator.attentive_of_accepts accepted).2

theorem awake_fire (awake : session.sync.Awake) (task : Task) :
    (session.fire task).sync.Awake := by
  unfold fire
  cases task with
  | grace => exact fun _ => rfl
  | rebuild =>
    cases session.sync.phase with
    | suppressed => exact awake
    | idle => exact awake_installQueued awake
  | debounce =>
    cases phase : session.sync.phase with
    | suppressed =>
      intro pending
      simp only [coordinate, Coordinator.takeDebounce, Timer.take] at pending
      split at pending
      · cases pending
      · exact awake pending
    | idle =>
      rw [compile_eq]
      exact fun _ => phase

theorem Trail.awake (trail : Trail session moments last) (awake : session.sync.Awake) :
    last.sync.Awake := by
  induction trail with
  | nil => exact awake
  | @cons session last deed moments scheduled _ ih =>
    refine ih ?_
    cases deed with
    | edit | collect | wait | listen | unlisten | takePublished => exact awake
    | note change => exact awake_handle awake change
    | fire task => exact awake_fire awake task
    | activate program =>
      simp only [Deed.perform, Session.activate, coordinate, Coordinator.activate]
      split <;> exact awake
    | settle =>
      simp only [Deed.perform, installPending]
      split
      · exact awake_installQueued awake
      · exact awake
    | answer | compile =>
      simp only [Deed.perform, compile_eq]
      exact awake
    | clear =>
      simp only [Deed.perform, clear]
      split
      · exact awake
      · rw [runSuppressed_eq]
        intro suppressed
        cases suppressed
    | dispose =>
      simp only [Deed.perform, dispose, Coordinator.dispose]
      split
      · exact awake
      · intro suppressed
        cases suppressed

/-! ## What is remembered -/

/-- Nothing happens after which the blocks stand for another program. -/
def Moment.keepsProgram (moment : Moment) : Bool :=
  !moment.accepts && !moment.installs && !moment.clears && !moment.publishes

theorem Moment.keepsProgram_iff {moment : Moment} :
    moment.keepsProgram = true ↔ moment.accepts = false ∧ moment.installs = false ∧
      moment.clears = false ∧ moment.publishes = false := by
  simp [keepsProgram, and_assoc]

theorem Moment.installed_after (keeps : moment.keepsProgram = true) :
    moment.after.sync.installed = moment.before.sync.installed := by
  rcases Moment.keepsProgram_iff.mp keeps with ⟨refused, left, full, silent⟩
  rcases moment with ⟨session, deed⟩
  simp only [Moment.after]
  cases deed with
  | edit | collect | wait | listen | unlisten | takePublished => rfl
  | note change =>
    have ignored : session.sync.accepts change = false := refused
    simp [Deed.perform, coordinate, Coordinator.handle, ignored]
  | fire task =>
    cases task with
    | grace => rfl
    | rebuild =>
      simp only [Deed.perform, fire]
      cases phase : session.sync.phase with
      | suppressed => rfl
      | idle =>
        have queued : session.sync.queued = none := by
          simpa [Moment.installs, phase] using left
        have waiting : (session.coordinate .takeRebuild).sync.queued = none := queued
        dsimp only
        rw [installQueued_of_none waiting]
        rfl
    | debounce => cases silent
  | activate program =>
    simp only [Deed.perform, Session.activate, coordinate, Coordinator.activate]
    split <;> rfl
  | settle =>
    have queued : session.sync.queued = none := by
      simpa [Moment.installs] using left
    simp only [Deed.perform, installPending]
    split
    · rw [installQueued_of_none (by exact queued)]
      rfl
    · rfl
  | answer | compile => simp only [Deed.perform, compile_eq, coordinate]
  | clear =>
    have disposed : session.sync.disposed = true := by
      simpa [Moment.clears] using full
    simp only [Deed.perform, clear, disposed, if_true]
  | dispose =>
    simp only [Deed.perform, dispose, Coordinator.dispose]
    split <;> rfl

theorem Trail.installed_eq (trail : Trail session moments last)
    (keeps : ∀ moment ∈ moments, moment.keepsProgram = true) :
    last.sync.installed = session.sync.installed := by
  induction trail with
  | nil => rfl
  | cons _ _ ih =>
    rcases List.forall_mem_cons.mp keeps with ⟨here, rest⟩
    exact (ih rest).trans (Moment.installed_after here)

/-- What a publication gives out is what the session takes the blocks for from then on. -/
theorem Moment.installed_of_publishes (awake : moment.before.sync.Awake)
    (scheduled : moment.deed.Scheduled moment.before) (publishes : moment.publishes = true) :
    moment.after.sync.installed = some moment.before.program ∧
      moment.GivesOut moment.before.program := by
  rcases moment with ⟨session, deed⟩
  cases deed with
  | fire task =>
    cases task with
    | debounce =>
      have idle : session.sync.phase = .idle := awake scheduled
      have proclaimed : Deed.perform session (.fire .debounce) = session.proclaimed := by
        simp only [Deed.perform, fire, idle, compile_eq_compiled]
        rfl
      have effect : Effect session (.fire .debounce) (Deed.perform session (.fire .debounce)) :=
        proclaimed ▸ .publish idle
      refine ⟨?_, (effect.publication rfl).2⟩
      rw [Moment.after, proclaimed]
      rfl
    | _ => cases publishes
  | _ => cases publishes

/-! ## Activating what was given out -/

/-- A program that agrees with itself and that the blocks stand for is not queued,
unless another one is. -/
theorem activate_installed {program : Program} (agrees : (program == program) = true)
    (installed : session.sync.installed = some program)
    (alone : ∀ other, session.sync.queued = some other → (other == program) = true) :
    session.activate program = session := by
  have represented : session.sync.represents program = true := by
    unfold Coordinator.represents
    cases queued : session.sync.queued with
    | none =>
      rw [installed]
      exact agrees
    | some other => exact alone other queued
  simp [activate, coordinate, Coordinator.activate, represented]

theorem activate_of_other_queued {program other : Program} (live : session.sync.disposed = false)
    (queued : session.sync.queued = some other) (different : (other == program) = false) :
    session.activate program = session.coordinate fun sync =>
      { sync with
        queued := some program
        rebuild := .schedule sync.clock sync.config.rebuildDelay } := by
  simp [activate, coordinate, Coordinator.activate, Coordinator.represents, live, queued, different]

end

/-- A program has been given out, and since then no change has counted and the blocks
have not been replaced.  If the host then activates the program, nothing at all
changes, unless another program is queued.  In that case the program takes the place
of the other one, its rebuild is due a delay from then on, and nothing besides
changes. -/
theorem activate_published (config : SessionConfig) (ids : StepIds) (calls : List Call)
    {earlier later : List Moment} {publication : Moment}
    (split : (ofConfig config ids).chronicle calls = earlier ++ publication :: later)
    (publishes : publication.publishes = true)
    (since : ∀ moment ∈ later, moment.accepts = false ∧ moment.installs = false ∧
      moment.clears = false ∧ moment.publishes = false)
    (live : ((ofConfig config ids).afterCalls calls).sync.disposed = false) :
    let session := (ofConfig config ids).afterCalls calls
    ∃ program,
      publication.GivesOut program ∧
      ((∀ other, session.sync.queued = some other → (other == program) = true) →
        session.activate program = session) ∧
      ∀ other, session.sync.queued = some other → (other == program) = false →
        session.activate program = session.coordinate fun sync =>
          { sync with
            queued := some program
            rebuild := .schedule sync.clock sync.config.rebuildDelay } := by
  intro session
  have trail := chronicle_trail (ofConfig config ids) calls
  rw [split] at trail
  rcases trail.split with ⟨before, scheduled, after⟩
  have awake := before.awake (awake_ofConfig config ids)
  rcases publication.installed_of_publishes awake scheduled publishes with ⟨installed, given⟩
  have remembered : session.sync.installed = some publication.before.program :=
    (after.installed_eq fun moment found =>
      Moment.keepsProgram_iff.mpr (since moment found)).trans installed
  have agrees : (publication.before.program == publication.before.program) = true :=
    Program.beq_self fun motion listed => (Workspace.filled_compile _ _ _ motion listed).1
  exact ⟨publication.before.program, given, activate_installed agrees remembered,
    fun other => activate_of_other_queued live⟩

/-- A pause is published, and nothing happens to it. -/
def echoed : List Call :=
  [.request .listen, .request (.edit (.create .start)), .request (.edit (.create .pause)),
    .request (.edit (.connectNext (.numbered 0) (.numbered 1))), .request (.advance 300000000)]

theorem activate_published_echoed :
    ∃ publication program, publication ∈ (ofConfig {} .counting).chronicle echoed ∧
      publication.GivesOut program ∧
      ((ofConfig {} .counting).afterCalls echoed).activate program =
        (ofConfig {} .counting).afterCalls echoed := by
  have split := (List.take_append_drop 9 ((ofConfig {} .counting).chronicle echoed)).symm
  rw [List.drop_eq_getElem_cons (by decide +kernel)] at split
  rcases activate_published {} .counting echoed split (by decide +kernel) (by decide +kernel)
    (by decide +kernel) with ⟨program, given, same, -⟩
  have empty : ((ofConfig {} .counting).afterCalls echoed).sync.queued.isSome = false := by
    decide +kernel
  refine ⟨_, program, List.getElem_mem _, given, same fun other queued => ?_⟩
  rw [queued] at empty
  cases empty

/-- The empty program is activated shortly before the pause is published. -/
def echoedLate : List Call :=
  [.request (.edit (.create .start)), .request (.edit (.create .pause)),
    .request (.edit (.connectNext (.numbered 0) (.numbered 1))), .request (.advance 180000000),
    .request (.activate .empty), .request (.advance 20000000)]

/-- The program that has just been published takes the place of the one that is
queued. -/
theorem activate_published_ne :
    ∃ earlier publication later,
      (ofConfig {} .counting).chronicle echoedLate = earlier ++ publication :: later ∧
      publication.publishes = true ∧
      (∀ moment ∈ later, moment.accepts = false ∧ moment.installs = false ∧
        moment.clears = false ∧ moment.publishes = false) ∧
      ((ofConfig {} .counting).afterCalls echoedLate).sync.disposed = false ∧
      ((ofConfig {} .counting).afterCalls echoedLate).workspace.inbox = #[] ∧
      ((ofConfig {} .counting).afterCalls echoedLate).activate publication.after.sync.current ≠
        (ofConfig {} .counting).afterCalls echoedLate := by
  have split := (List.take_append_drop 11 ((ofConfig {} .counting).chronicle echoedLate)).symm
  rw [List.drop_eq_getElem_cons (by decide +kernel)] at split
  refine ⟨_, _, _, split, by decide +kernel, by decide +kernel, by decide +kernel,
    Array.eq_empty_of_size_eq_zero (by decide +kernel), fun same => ?_⟩
  exact absurd (congrArg (·.sync.rebuild.due) same) (by decide +kernel)

end Session
end MotionBlocks
