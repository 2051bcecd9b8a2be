import MotionBlocks.Proofs.Session.Balance
import MotionBlocks.Proofs.Session.Deeds

namespace MotionBlocks

/-!
# What deeds do

Every deed of a balanced session has one of the effects listed here, each written
out as the session that comes of it.  That is all a proof about runs has to look
at: what every effect keeps, every history keeps.
-/

namespace Session

/-- A session whose blocks are those of a program, with nothing queued and a new
grace window. -/
def rebuilt (program : Program) (session : Session) : Session :=
  { session with
    workspace := (session.workspace.rebuild program).2.takeInbox.2
    sync := session.sync.dropQueued.suppress.beginGrace.adopt program }

/-- A session without blocks, with nothing queued and a new grace window. -/
def emptied (session : Session) : Session :=
  { session with
    workspace := session.workspace.clear.takeInbox.2
    sync := session.sync.dropQueued.suppress.beginGrace.adopt .empty }

/-- The program of the blocks as they are. -/
def program (session : Session) : Program :=
  (session.workspace.compile session.sync.options session.ids).1.program

/-- A session that has used up the identifiers of its program. -/
def compiled (session : Session) : Session :=
  { session with ids := (session.workspace.compile session.sync.options session.ids).2 }

/-- A session that has given its program to the listeners. -/
def proclaimed (session : Session) : Session :=
  { session.compiled with
    sync := session.sync.takeDebounce.adopt session.program
    published :=
      session.sync.listeners.entries.foldl
        (fun published listener => published.push ⟨listener.1, session.program⟩)
        session.published }

/-- The effects of deeds. -/
inductive Effect (session : Session) : Deed → Session → Prop where
  | edit (command : Workspace.Command) :
    Effect session (.edit command) { session with workspace := command.run session.workspace }
  | collect :
    Effect session .collect { session with workspace := session.workspace.takeInbox.2 }
  | ignore {change : Change} : session.sync.accepts change = false →
    Effect session (.note change) session
  | accept {change : Change} : session.sync.accepts change = true →
    Effect session (.note change) (session.coordinate fun sync =>
      { sync with
        installed := none
        debounce := .schedule sync.clock sync.config.debounce })
  | wait (time : Nat) :
    Effect session (.wait time) (session.coordinate fun sync => { sync with clock := time })
  | endGrace : session.sync.phase = .suppressed →
    Effect session (.fire .grace) (session.coordinate .endGrace)
  | postpone : session.sync.phase = .suppressed →
    Effect session (.fire .rebuild) (session.coordinate .postponeRebuild)
  | install {program : Program} : session.sync.phase = .idle →
    session.sync.queued = some program →
    Effect session (.fire .rebuild) (session.rebuilt program)
  | publish : session.sync.phase = .idle → Effect session (.fire .debounce) session.proclaimed
  | activate (program : Program) : Effect session (.activate program) (session.activate program)
  | settle {program : Program} : session.sync.queued = some program →
    Effect session .settle (session.rebuilt program)
  | settled : session.sync.queued = none → Effect session .settle session
  | answer :
    Effect session .answer
      (session.compiled.coordinate fun sync => { sync with current := session.program })
  | clear : session.sync.disposed = false → Effect session .clear session.emptied
  | wipe : session.sync.disposed = true →
    Effect session .clear { session with workspace := session.workspace.clear }
  | listen : Effect session .listen session.listen.2
  | unlisten (number : Nat) : Effect session (.unlisten number) (session.unlisten number).2
  | takePublished : Effect session .takePublished session.takePublished.2
  | compile : Effect session .compile session.compiled
  | dispose : Effect session .dispose session.dispose

section

variable {session after last : Session} {program : Program} {task : Task} {deed : Deed}
  {moments : List Moment}

/-! ## Which effect a deed has -/

/-- A queued program is built into blocks in the same way whether its deadline has
come or not. -/
theorem install_eq_rebuilt (program : Program) (session : Session) :
    (session.coordinate .dropQueued).install program = session.rebuilt program := by
  rw [install_eq]
  rfl

/-- A rebuild gives nothing to the listeners. -/
theorem published_rebuilt (program : Program) (session : Session) :
    (session.rebuilt program).published = session.published := by
  simp only [rebuilt]

theorem compile_eq_compiled (session : Session) :
    session.compile = (session.program, session.compiled) :=
  session.compile_eq

theorem effect_note (session : Session) (change : Change) :
    Effect session (.note change) (Deed.perform session (.note change)) := by
  cases accepted : session.sync.accepts change with
  | false =>
    have ignored : Deed.perform session (.note change) = session := by
      simp [Deed.perform, coordinate, Coordinator.handle, accepted]
    rw [ignored]
    exact .ignore accepted
  | true =>
    have noted : Deed.perform session (.note change) = session.coordinate fun sync =>
        { sync with
          installed := none
          debounce := .schedule sync.clock sync.config.debounce } := by
      simp [Deed.perform, coordinate, Coordinator.handle, accepted]
    rw [noted]
    exact .accept accepted

theorem effect_fire (balanced : session.sync.Balanced)
    (due : session.sync.deadline task = some session.sync.clock) :
    Effect session (.fire task) (session.fire task) := by
  unfold fire
  cases task with
  | grace => exact .endGrace (balanced.grace_iff.mp (Timer.isPending_of_due due)).1
  | rebuild =>
    cases phase : session.sync.phase with
    | suppressed => exact .postpone phase
    | idle =>
      -- A rebuild that is due finds a program, since they are scheduled and dropped together.
      have scheduled : session.sync.rebuild.isPending = true := Timer.isPending_of_due due
      rw [← balanced.coherent] at scheduled
      rcases Option.isSome_iff_exists.mp scheduled with ⟨program, queued⟩
      have taken : (session.sync.rebuild.take session.sync.clock).2 = .unset := by
        rw [Timer.take_of_due due]
      have waiting : (session.coordinate .takeRebuild).sync.queued = some program := queued
      have built : (session.coordinate .takeRebuild).installQueued = session.rebuilt program := by
        rw [installQueued_of_some waiting, ← install_eq_rebuilt]
        simp only [coordinate, Coordinator.takeRebuild, Coordinator.dropQueued, taken]
      show Effect session (.fire .rebuild) (session.coordinate .takeRebuild).installQueued
      rw [built]
      exact .install phase queued
  | debounce =>
    have idle := balanced.idle_of_debounce (Timer.isPending_of_due due)
    rw [idle, compile_eq_compiled]
    exact .publish idle

theorem effect_settle (balanced : session.sync.Balanced) :
    Effect session .settle session.installPending := by
  unfold installPending Timer.cancel
  cases queued : session.sync.queued with
  | none =>
    have unset := balanced.rebuild_unset queued
    have kept : ({ session.sync with rebuild := Timer.unset } : Coordinator) = session.sync := by
      rw [← unset]
    simp only [unset, coordinate, kept]
    exact .settled queued
  | some program =>
    simp only [balanced.rebuild_pending queued, if_true]
    let unscheduled := session.coordinate fun sync => { sync with rebuild := .unset }
    have waiting : unscheduled.sync.queued = some program := queued
    have built : unscheduled.installQueued = session.rebuilt program := by
      rw [installQueued_of_some waiting, ← install_eq_rebuilt]
      rfl
    show Effect session .settle unscheduled.installQueued
    rw [built]
    exact .settle queued

theorem effect_clear (session : Session) : Effect session .clear session.clear := by
  unfold clear
  split
  · rename_i disposed
    exact .wipe disposed
  · rename_i live
    rw [runSuppressed_eq]
    exact .clear (by simpa using live)

/-- Every deed that keeps to the clock has one of the effects. -/
theorem perform_effect (balanced : session.sync.Balanced) (timely : deed.Timely session) :
    Effect session deed (deed.perform session) := by
  cases deed with
  | edit command => exact .edit command
  | collect => exact .collect
  | note change => exact effect_note session change
  | wait time => exact .wait time
  | fire task => exact effect_fire balanced timely
  | activate program => exact .activate program
  | settle => exact effect_settle balanced
  | answer =>
    rw [Deed.perform, compile_eq_compiled]
    exact .answer
  | clear => exact effect_clear session
  | listen => exact .listen
  | unlisten number => exact .unlisten number
  | takePublished => exact .takePublished
  | compile =>
    rw [Deed.perform, compile_eq_compiled]
    exact .compile
  | dispose => exact .dispose

/-! ## What every effect keeps -/

theorem Effect.balanced (effect : Effect session deed after) (balanced : session.sync.Balanced)
    (timely : deed.Timely session) : after.sync.Balanced := by
  cases effect with
  | edit command => exact balanced
  | collect => exact balanced
  | ignore refused => exact balanced
  | accept accepted => exact balanced.accept accepted
  | wait time => exact balanced.withClock timely.1 timely.2
  | endGrace suppressed => exact balanced.endGrace timely
  | postpone suppressed => exact balanced.postponeRebuild timely
  | install idle queued => exact Coordinator.balanced_replaced (balanced.live .rebuild _ timely) _
  | publish idle => exact balanced.published timely _
  | activate program => exact balanced.activate program
  | settle queued => exact Coordinator.balanced_replaced (balanced.live_of_queued queued) _
  | settled empty => exact balanced
  | answer => exact balanced.withCurrent _
  | clear live => exact Coordinator.balanced_replaced live .empty
  | wipe disposed => exact balanced
  | listen => exact balanced.withListeners _
  | unlisten number => exact balanced.withListeners _
  | takePublished => exact balanced
  | compile => exact balanced
  | dispose => exact balanced.dispose

/-- The settings of a session are those of another one. -/
def SameSettings (session other : Session) : Prop :=
  session.sync.config = other.sync.config ∧ session.sync.options = other.sync.options

theorem Effect.settings (effect : Effect session deed after) : SameSettings after session := by
  cases effect with
  | activate program =>
    simp only [SameSettings, Session.activate, coordinate, Coordinator.activate]
    split <;> exact ⟨rfl, rfl⟩
  | dispose =>
    simp only [SameSettings, Session.dispose, Coordinator.dispose]
    split <;> exact ⟨rfl, rfl⟩
  | _ => exact ⟨rfl, rfl⟩

theorem History.balanced (history : History session moments last)
    (balanced : session.sync.Balanced) : last.sync.Balanced := by
  induction history with
  | nil => exact balanced
  | cons timely _ ih => exact ih ((perform_effect balanced timely).balanced balanced timely)

theorem History.settings (history : History session moments last)
    (balanced : session.sync.Balanced) : SameSettings last session := by
  induction history with
  | nil => exact ⟨rfl, rfl⟩
  | cons timely _ ih =>
    have effect := perform_effect balanced timely
    have rest := ih (effect.balanced balanced timely)
    exact ⟨rest.1.trans effect.settings.1, rest.2.trans effect.settings.2⟩

end

end Session
end MotionBlocks
