import MotionBlocks.Proofs.Session.Runs

namespace MotionBlocks

/-!
# The balance of a session

The phase, the three timers, the queue and the snapshot of a session are changed
in many places, but they stay in step: every deed that keeps to the clock keeps
the balance stated here, so it holds in every state that calls lead to.  For time
to pass to its end, the tasks that come due on the way must be few enough, and
they are: each one leaves fewer to come.
-/

theorem Timer.take_of_due {timer : Timer} {now : Nat} (due : timer.due = some now) :
    timer.take now = (true, .unset) := by
  simp [Timer.take, Timer.isDue, due]

theorem Timer.isPending_of_due {timer : Timer} {time : Nat} (due : timer.due = some time) :
    timer.isPending = true := by
  simp [Timer.isPending, due]

theorem Timer.eq_unset {timer : Timer} (idle : timer.isPending = false) : timer = .unset := by
  rcases timer with ⟨_ | due⟩
  · rfl
  · cases idle

/-- The time that a task is put off for when it is scheduled. -/
def SyncConfig.delay (config : SyncConfig) : Task → Nat
  | .grace => config.graceWindow
  | .rebuild => config.rebuildDelay
  | .debounce => config.debounce

namespace Coordinator

/-- How the parts of a coordinator agree. -/
structure Balanced (sync : Coordinator) : Prop where
  /-- While changes are dropped, the end of that is in sight. -/
  grace_iff : sync.grace.isPending = true ↔ sync.phase = .suppressed ∧ sync.disposed = false
  idle_of_debounce : sync.debounce.isPending = true → sync.phase = .idle
  coherent : sync.Coherent
  /-- What waits to be compiled is not what the workspace was taken for. -/
  drifted : sync.debounce.isPending = true → sync.installed = none
  live : ∀ task due, sync.deadline task = some due → sync.disposed = false
  /-- No deadline has been missed, and none is further off than it was put. -/
  timely : ∀ task due, sync.deadline task = some due →
    sync.clock ≤ due ∧ due ≤ sync.clock + sync.config.delay task

section

variable {sync : Coordinator} {program : Program}

theorem balanced_ofConfig (config : SessionConfig) : (ofConfig config).Balanced where
  grace_iff := by simp [ofConfig, Timer.unset, Timer.isPending]
  idle_of_debounce := fun _ => rfl
  coherent := rfl
  drifted := fun _ => rfl
  live := fun _ _ _ => rfl
  timely := by rintro (_ | _ | _) due deadline <;> cases deadline

/-- Only changes that an idle coordinator looks at count. -/
theorem attentive_of_accepts {change : Change} (accepted : sync.accepts change = true) :
    sync.disposed = false ∧ sync.phase = .idle := by
  simp only [accepts, Bool.and_eq_true, Bool.not_eq_true', beq_iff_eq] at accepted
  exact accepted.1

theorem disposed_dispose (sync : Coordinator) : sync.dispose.disposed = true := by
  unfold dispose
  split
  · assumption
  · rfl

namespace Balanced

theorem withCurrent (balanced : sync.Balanced) (program : Program) :
    Balanced { sync with current := program } :=
  ⟨balanced.grace_iff, balanced.idle_of_debounce, balanced.coherent, balanced.drifted,
    balanced.live, balanced.timely⟩

theorem withListeners (balanced : sync.Balanced) (listeners : Registry Unit) :
    Balanced { sync with listeners := listeners } :=
  ⟨balanced.grace_iff, balanced.idle_of_debounce, balanced.coherent, balanced.drifted,
    balanced.live, balanced.timely⟩

/-- The clock may go on as long as it passes no deadline. -/
theorem withClock (balanced : sync.Balanced) {time : Nat} (onward : sync.clock ≤ time)
    (inTime : ∀ task due, sync.deadline task = some due → time ≤ due) :
    Balanced { sync with clock := time } where
  grace_iff := balanced.grace_iff
  idle_of_debounce := balanced.idle_of_debounce
  coherent := balanced.coherent
  drifted := balanced.drifted
  live := balanced.live
  timely := by
    intro task due deadline
    have off := (balanced.timely task due deadline).2
    refine ⟨inTime task due deadline, ?_⟩
    show due ≤ time + sync.config.delay task
    omega

theorem accept (balanced : sync.Balanced) {change : Change}
    (accepted : sync.accepts change = true) :
    Balanced
      { sync with
        installed := none
        debounce := .schedule sync.clock sync.config.debounce } := by
  rcases attentive_of_accepts accepted with ⟨live, idle⟩
  refine ⟨balanced.grace_iff, fun _ => idle, balanced.coherent, fun _ => rfl,
    fun _ _ _ => live, ?_⟩
  rintro (_ | _ | _) due deadline
  · exact balanced.timely .grace due deadline
  · exact balanced.timely .rebuild due deadline
  · obtain rfl : sync.clock + sync.config.debounce = due := Option.some.inj deadline
    exact ⟨Nat.le_add_right _ _, le_rfl⟩

theorem activate (balanced : sync.Balanced) (program : Program) :
    (sync.activate program).Balanced := by
  unfold Coordinator.activate
  split
  · exact balanced
  · rename_i changed
    have live : sync.disposed = false := by
      by_contra disposed
      simp [disposed] at changed
    refine ⟨balanced.grace_iff, balanced.idle_of_debounce, rfl, balanced.drifted,
      fun _ _ _ => live, ?_⟩
    rintro (_ | _ | _) due deadline
    · exact balanced.timely .grace due deadline
    · obtain rfl : sync.clock + sync.config.rebuildDelay = due := Option.some.inj deadline
      exact ⟨Nat.le_add_right _ _, le_rfl⟩
    · exact balanced.timely .debounce due deadline

end Balanced

/-- Replacing the blocks sets everything anew, so it makes a balance of whatever was
there. -/
theorem balanced_replaced (live : sync.disposed = false) (program : Program) :
    (sync.dropQueued.suppress.beginGrace.adopt program).Balanced where
  grace_iff := by
    constructor
    · exact fun _ => ⟨rfl, live⟩
    · exact fun _ => rfl
  idle_of_debounce := nofun
  coherent := rfl
  drifted := nofun
  live := fun _ _ _ => live
  timely := by
    rintro (_ | _ | _) due deadline
    · obtain rfl : sync.clock + sync.config.graceWindow = due := Option.some.inj deadline
      exact ⟨Nat.le_add_right _ _, le_rfl⟩
    · cases deadline
    · cases deadline

namespace Balanced

theorem endGrace (balanced : sync.Balanced) (due : sync.deadline .grace = some sync.clock) :
    sync.endGrace.Balanced := by
  have taken : (sync.grace.take sync.clock).2 = .unset := by rw [Timer.take_of_due due]
  unfold Coordinator.endGrace
  rw [taken]
  refine ⟨by simp [Timer.unset, Timer.isPending], fun _ => rfl, balanced.coherent,
    balanced.drifted, fun _ _ _ => balanced.live .grace _ due, ?_⟩
  rintro (_ | _ | _) time deadline
  · cases deadline
  · exact balanced.timely .rebuild time deadline
  · exact balanced.timely .debounce time deadline

theorem postponeRebuild (balanced : sync.Balanced)
    (due : sync.deadline .rebuild = some sync.clock) : sync.postponeRebuild.Balanced := by
  have queued : sync.queued.isSome = true := by
    rw [balanced.coherent]
    exact Timer.isPending_of_due due
  refine ⟨balanced.grace_iff, balanced.idle_of_debounce, queued, balanced.drifted,
    fun _ _ _ => balanced.live .rebuild _ due, ?_⟩
  rintro (_ | _ | _) time deadline
  · exact balanced.timely .grace time deadline
  · obtain rfl : sync.clock + sync.config.rebuildDelay = time := Option.some.inj deadline
    exact ⟨Nat.le_add_right _ _, le_rfl⟩
  · exact balanced.timely .debounce time deadline

theorem published (balanced : sync.Balanced) (due : sync.deadline .debounce = some sync.clock)
    (program : Program) : (sync.takeDebounce.adopt program).Balanced := by
  have taken : (sync.debounce.take sync.clock).2 = .unset := by rw [Timer.take_of_due due]
  unfold takeDebounce adopt
  rw [taken]
  refine ⟨balanced.grace_iff, nofun, balanced.coherent,
    nofun, fun _ _ _ => balanced.live .debounce _ due, ?_⟩
  rintro (_ | _ | _) time deadline
  · exact balanced.timely .grace time deadline
  · exact balanced.timely .rebuild time deadline
  · cases deadline

theorem dispose (balanced : sync.Balanced) : sync.dispose.Balanced := by
  unfold Coordinator.dispose
  split
  · exact balanced
  · refine ⟨by simp [Timer.unset, Timer.isPending], nofun, rfl,
      nofun, ?_, ?_⟩
    · rintro (_ | _ | _) due deadline <;> cases deadline
    · rintro (_ | _ | _) due deadline <;> cases deadline

/-- A timer of which no task is waiting for the clock is not set. -/
theorem rebuild_unset (balanced : sync.Balanced) (empty : sync.queued = none) :
    sync.rebuild = .unset := by
  refine Timer.eq_unset ?_
  rw [← balanced.coherent, empty]
  rfl

theorem debounce_unset (balanced : sync.Balanced) (disposed : sync.disposed = true) :
    sync.debounce = .unset := by
  refine Timer.eq_unset ?_
  by_contra pending
  have something : sync.debounce.isPending = true := by simpa using pending
  rcases Option.isSome_iff_exists.mp something with ⟨due, deadline⟩
  have live := balanced.live .debounce due deadline
  rw [disposed] at live
  cases live

/-- A session that has been disposed of compiles nothing any more. -/
theorem debounce_dispose (balanced : sync.Balanced) : sync.dispose.debounce = .unset := by
  unfold Coordinator.dispose
  split
  · rename_i disposed
    exact balanced.debounce_unset disposed
  · rfl

theorem rebuild_pending (balanced : sync.Balanced) (queued : sync.queued = some program) :
    sync.rebuild.isPending = true := by
  rw [← balanced.coherent, queued]
  rfl

theorem live_of_queued (balanced : sync.Balanced) (queued : sync.queued = some program) :
    sync.disposed = false := by
  rcases Option.isSome_iff_exists.mp (balanced.rebuild_pending queued) with ⟨due, deadline⟩
  exact balanced.live .rebuild due deadline

end Balanced

end

end Coordinator

end MotionBlocks
