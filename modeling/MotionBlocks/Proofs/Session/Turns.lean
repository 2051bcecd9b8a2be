import MotionBlocks.Proofs.Session.Advance

namespace MotionBlocks

/-!
# Tasks in turn

The tasks of a session bring about, put off and call off one another while the clock
moves.  They do their work in the order of their deadlines all the same, and the clock
shows the deadline of each of them at that time.  What is due together is done by
rank.

A task that comes about at the instant at which it is due cannot go before the one
that has brought it about.  There is one such task, the end of a grace window of no
length, which follows its rebuild.  The rebuild is never put off to the same instant,
since its delay is positive; without a delay it would be put off for ever.
-/

namespace Coordinator

/-- Whatever is pending comes after a task that was done at a time. -/
def Past (sync : Coordinator) (time : Nat) (task : Task) : Prop :=
  ∀ other due, sync.deadline other = some due →
    time < due ∨ time = due ∧
      (task.rank < other.rank ∨ other = .grace ∧ sync.config.graceWindow = 0)

end Coordinator

namespace Session

/-- A task does its work in turn if its deadline is now and no other deadline goes before
it, as a sooner one does, and one that is now for a task of a lower rank. -/
def Deed.InTurn (session : Session) : Deed → Prop
  | .fire task =>
    session.sync.deadline task = some session.sync.clock ∧
      ∀ other time, session.sync.deadline other = some time →
        session.sync.clock < time ∨ session.sync.clock = time ∧ task.rank ≤ other.rank
  | _ => True

/-- The tasks of two moments are done in the order of their deadlines, and of their ranks
if they are due together.  The end of a grace window of no length is done when it
comes about. -/
def Moment.Precedes (first second : Moment) : Prop :=
  ∀ task other, first.deed = .fire task → second.deed = .fire other →
    first.clock < second.clock ∨ first.clock = second.clock ∧
      (task.rank < other.rank ∨ other = .grace ∧ second.before.sync.config.graceWindow = 0)

section

variable {session after last : Session} {deed : Deed} {moments fired : List Moment}
  {limit due time tasks : Nat} {task earlier : Task}

/-! ## The clock -/

theorem Effect.clock_le (effect : Effect session deed after) (timely : deed.Timely session) :
    session.sync.clock ≤ after.sync.clock := by
  cases effect with
  | wait time => exact timely.1
  | activate program =>
    simp only [Session.activate, coordinate, Coordinator.activate]
    split <;> exact le_rfl
  | dispose =>
    simp only [Session.dispose, Coordinator.dispose]
    split <;> exact le_rfl
  | _ => exact le_rfl

theorem History.clock_le (history : History session moments last)
    (balanced : session.sync.Balanced) : session.sync.clock ≤ last.sync.clock := by
  induction history with
  | nil => exact le_rfl
  | cons timely _ ih =>
    have effect := perform_effect balanced timely
    exact (effect.clock_le timely).trans (ih (effect.balanced balanced timely))

theorem History.clock_within (history : History session moments last)
    (balanced : session.sync.Balanced) :
    ∀ moment ∈ moments, session.sync.clock ≤ moment.clock ∧ moment.clock ≤ last.sync.clock := by
  induction history with
  | nil => exact List.forall_mem_nil _
  | cons timely rest ih =>
    have effect := perform_effect balanced timely
    have still := effect.balanced balanced timely
    have onward := effect.clock_le timely
    refine List.forall_mem_cons.mpr ⟨⟨le_rfl, onward.trans (rest.clock_le still)⟩, ?_⟩
    exact fun moment listed => ⟨onward.trans (ih still moment listed).1, (ih still moment listed).2⟩

/-- The clock never goes backwards. -/
theorem History.clock_pairwise (history : History session moments last)
    (balanced : session.sync.Balanced) :
    moments.Pairwise fun first second => first.clock ≤ second.clock := by
  induction history with
  | nil => exact .nil
  | cons timely rest ih =>
    have effect := perform_effect balanced timely
    have still := effect.balanced balanced timely
    refine .cons (fun moment listed => ?_) (ih still)
    exact (effect.clock_le timely).trans (rest.clock_within still moment listed).1

/-! ## What is pending after a task -/

/-- A deadline that is there after a task was there before, or it is the end of a grace
window that has begun or the rebuild that has been put off. -/
theorem Effect.deadline_fire (effect : Effect session (.fire task) after)
    (scheduled : session.sync.deadline task = some session.sync.clock) {other : Task}
    (deadline : after.sync.deadline other = some time) :
    other ≠ task ∧ session.sync.deadline other = some time ∨
      other = .grace ∧ time = session.sync.clock + session.sync.config.graceWindow ∨
      other = .rebuild ∧ time = session.sync.clock + session.sync.config.rebuildDelay := by
  cases effect with
  | endGrace suppressed =>
    have spent : session.sync.endGrace.grace = .unset :=
      congrArg Prod.snd (Timer.take_of_due scheduled)
    cases other with
    | grace => cases (congrArg Timer.due spent).symm.trans deadline
    | rebuild => exact .inl ⟨nofun, deadline⟩
    | debounce => exact .inl ⟨nofun, deadline⟩
  | postpone suppressed =>
    cases other with
    | grace => exact .inl ⟨nofun, deadline⟩
    | rebuild => exact .inr (.inr ⟨rfl, (Option.some.inj deadline).symm⟩)
    | debounce => exact .inl ⟨nofun, deadline⟩
  | install idle queued =>
    cases other with
    | grace => exact .inr (.inl ⟨rfl, (Option.some.inj deadline).symm⟩)
    | rebuild => cases deadline
    | debounce => cases deadline
  | publish idle =>
    have spent : session.proclaimed.sync.debounce = .unset :=
      congrArg Prod.snd (Timer.take_of_due scheduled)
    cases other with
    | grace => exact .inl ⟨nofun, deadline⟩
    | rebuild => exact .inl ⟨nofun, deadline⟩
    | debounce => cases (congrArg Timer.due spent).symm.trans deadline

theorem Advancing.deadline_fireAt (advancing : Advancing limit session)
    (next : session.sync.nextDue limit = some (due, task)) {other : Task}
    (deadline : (session.fireAt due task).sync.deadline other = some time) :
    other ≠ task ∧ session.sync.deadline other = some time ∨
      other = .grace ∧ time = due + session.sync.config.graceWindow ∨
      other = .rebuild ∧ time = due + session.sync.config.rebuildDelay := by
  rw [← deadline_wait session due other]
  exact (advancing.effect_fireAt next).deadline_fire (fired_timely next) deadline

theorem Advancing.config_fireAt (advancing : Advancing limit session)
    (next : session.sync.nextDue limit = some (due, task)) :
    (session.fireAt due task).sync.config = session.sync.config :=
  (advancing.effect_fireAt next).settings.1

/-- Whatever is pending after a task comes after it. -/
theorem Advancing.past_fireAt (advancing : Advancing limit session)
    (next : session.sync.nextDue limit = some (due, task)) :
    (session.fireAt due task).sync.Past due task := by
  intro other time deadline
  rw [advancing.config_fireAt next]
  have delayed := advancing.delayed
  rcases advancing.deadline_fireAt next deadline with ⟨different, kept⟩ | ⟨rfl, rfl⟩ | ⟨rfl, rfl⟩
  · have unlike : task.rank ≠ other.rank := fun same => different (Task.rank_injective same).symm
    have order := (Coordinator.nextDue_eq_some_iff.mp next).2.2 other time kept
    omega
  · by_cases instant : session.sync.config.graceWindow = 0
    · exact .inr ⟨by omega, .inr ⟨rfl, instant⟩⟩
    · exact .inl (by omega)
  · exact .inl (by omega)

/-- A task leaves whatever is pending after the ones that were done before it. -/
theorem Advancing.past_kept (advancing : Advancing limit session)
    (next : session.sync.nextDue limit = some (due, task)) (past : session.sync.Past time earlier) :
    (session.fireAt due task).sync.Past time earlier := by
  intro other later deadline
  rw [advancing.config_fireAt next]
  have delayed := advancing.delayed
  have onward := past task due (Coordinator.nextDue_eq_some_iff.mp next).1
  rcases advancing.deadline_fireAt next deadline with ⟨-, kept⟩ | ⟨rfl, rfl⟩ | ⟨rfl, rfl⟩
  · exact past other later kept
  · by_cases instant : session.sync.config.graceWindow = 0
    · rcases Nat.lt_or_ge time due with before | together
      · exact .inl (by omega)
      · exact .inr ⟨by omega, .inr ⟨rfl, instant⟩⟩
    · exact .inl (by omega)
  · exact .inl (by omega)

/-! ## The order of the tasks -/

theorem Settles.behind (settles : Settles limit session fired last)
    (advancing : Advancing limit session) (past : session.sync.Past time earlier) :
    ∀ moment ∈ fired, ∀ other, moment.deed = .fire other →
      time < moment.clock ∨ time = moment.clock ∧
        (earlier.rank < other.rank ∨
          other = .grace ∧ moment.before.sync.config.graceWindow = 0) := by
  induction settles with
  | done => exact List.forall_mem_nil _
  | fire next _ ih =>
    refine List.forall_mem_cons.mpr ⟨fun other same => ?_, ?_⟩
    · cases same
      exact past _ _ (Coordinator.nextDue_eq_some_iff.mp next).1
    · exact ih (advancing.fireAt next).1 (advancing.past_kept next past)

theorem Settles.pairwise_precedes (settles : Settles limit session fired last)
    (advancing : Advancing limit session) : fired.Pairwise Moment.Precedes := by
  induction settles with
  | done => exact .nil
  | fire next rest ih =>
    have onward := (advancing.fireAt next).1
    refine .cons (fun moment listed task other first second => ?_) (ih onward)
    cases first
    exact rest.behind onward (advancing.past_fireAt next) moment listed other second

theorem length_filter_firing_le (limit tasks : Nat) (session : Session) :
    ((firing limit tasks session).filter Moment.fires).length ≤ tasks := by
  induction tasks generalizing session with
  | zero => exact le_rfl
  | succ tasks ih =>
    unfold firing
    cases next : session.sync.nextDue limit with
    | none => exact Nat.zero_le _
    | some found =>
      rcases found with ⟨due, task⟩
      dsimp only
      rw [List.filter_cons_of_neg (by exact Bool.false_ne_true), List.filter_cons_of_pos rfl,
        List.filter_append, filter_fires_noting, List.nil_append, List.length_cons]
      exact Nat.succ_le_succ (ih _)

/-- The task that is due next is done in turn. -/
theorem inTurn_of_nextDue (next : session.sync.nextDue limit = some (due, task)) :
    (Deed.fire task).InTurn (Deed.perform session (.wait due)) := by
  rcases Coordinator.nextDue_eq_some_iff.mp next with ⟨deadline, -, least⟩
  refine ⟨(deadline_wait session due task).trans deadline, fun other time pending => ?_⟩
  exact least other time ((deadline_wait session due other).symm.trans pending)

/-- Tasks are done only while time passes, and then in turn. -/
theorem call_inTurn (session : Session) (call : Call) :
    ∀ moment ∈ call.moments session, moment.deed.InTurn moment.before := by
  by_cases passes : ∃ duration, call = .request (.advance duration)
  · rcases passes with ⟨duration, rfl⟩
    exact forall_mem_advance session duration (fun _ _ => trivial)
      (fun _ _ _ _ next => inTurn_of_nextDue next) (fun _ => trivial) (fun _ _ => trivial)
  · rintro ⟨before, deed⟩ listed
    have immediate := session.immediate_moments (not_exists.mp passes) _ listed
    cases deed with
    | fire task => cases immediate
    | _ => trivial

theorem chronicle_inTurn (session : Session) (calls : List Call) :
    ∀ moment ∈ session.chronicle calls, moment.deed.InTurn moment.before := by
  induction calls generalizing session with
  | nil => exact List.forall_mem_nil _
  | cons call calls ih => exact List.forall_mem_append.mpr ⟨call_inTurn session call, ih _⟩

/-! ## Without a delay -/

/-- A rebuild that is due in a grace window is next if nothing waits to be compiled. -/
theorem nextDue_of_settling {sync : Coordinator} {close : Nat}
    (quiet : sync.debounce.due = none) (scheduled : sync.rebuild.due = some due)
    (settling : sync.grace.due = some close) (within : due < close) (inTime : due ≤ limit) :
    sync.nextDue limit = some (due, .rebuild) := by
  refine Coordinator.nextDue_eq_some_iff.mpr ⟨scheduled, inTime, ?_⟩
  rintro (_ | _ | _) time deadline
  · obtain rfl : close = time := Option.some.inj (settling.symm.trans deadline)
    exact .inl within
  · obtain rfl : due = time := Option.some.inj (scheduled.symm.trans deadline)
    exact .inr ⟨rfl, le_rfl⟩
  · cases quiet.symm.trans deadline

theorem fireAt_of_suppressed (suppressed : session.sync.phase = .suppressed) (due : Nat) :
    session.fireAt due .rebuild =
      { session with
        workspace := session.workspace.takeInbox.2
        sync := { session.sync with clock := due }.postponeRebuild } := by
  have postponed : (session.coordinate fun sync => { sync with clock := due }).fire .rebuild =
      session.coordinate fun sync => { sync with clock := due }.postponeRebuild := by
    simp only [fire, coordinate, suppressed]
  rw [fireAt, postponed, pump_of_suppressed (by exact suppressed)]
  rfl

/-- Without a delay, a rebuild that is due in a grace window is put off to the same
instant for ever, so the delay in the law below is needed. -/
theorem not_settles_of_no_delay {close : Nat} (instant : session.sync.config.rebuildDelay = 0)
    (suppressed : session.sync.phase = .suppressed) (quiet : session.sync.debounce.due = none)
    (scheduled : session.sync.rebuild.due = some due)
    (settling : session.sync.grace.due = some close) (within : due < close)
    (inTime : due ≤ limit) : ¬ Settles limit session fired last := by
  intro settles
  induction settles with
  | done nothing =>
    cases nothing.symm.trans (nextDue_of_settling quiet scheduled settling within inTime)
  | fire found _ ih =>
    have next := nextDue_of_settling quiet scheduled settling within inTime
    obtain ⟨rfl, rfl⟩ := Prod.mk.inj (Option.some.inj (next.symm.trans found))
    rw [fireAt_of_suppressed suppressed] at ih
    refine ih instant suppressed quiet ?_ settling
    show some (due + _) = some due
    rw [instant, Nat.add_zero]

/-! ## The law -/

/-- Letting time pass comes to an end after finitely many tasks, and the bound on them
that a session knows in advance cuts nothing off.  Each task is done in turn, with the
clock at its deadline, and so the tasks come in the order of their deadlines and ranks.
The clock never goes backwards and stops exactly where it should, with every deadline
ahead. -/
theorem advance_in_turn (config : SessionConfig) (delayed : 0 < config.sync.rebuildDelayMs)
    (start : Session) (fresh : start.sync = .ofConfig config) (calls : List Call)
    (live : (start.afterCalls calls).sync.disposed = false) (duration : Nat) :
    let session := start.afterCalls calls
    let limit := session.sync.clock + duration
    let moments := (Call.request (.advance duration)).moments session
    let fired := moments.filter Moment.fires
    History session moments (session.advance duration) ∧
      (∃ done, Settles limit session.pump fired done ∧
        session.advance duration = Deed.perform done (.wait limit)) ∧
      fired.length ≤ duration / config.sync.rebuildDelay + 4 ∧
      (∀ moment ∈ fired, moment.deed.InTurn moment.before) ∧
      fired.Pairwise Moment.Precedes ∧
      moments.Pairwise (fun first second => first.clock ≤ second.clock) ∧
      (∀ moment ∈ moments, session.sync.clock ≤ moment.clock ∧ moment.clock ≤ limit) ∧
      (session.advance duration).sync.clock = limit ∧
      ∀ task due, (session.advance duration).sync.deadline task = some due → limit < due := by
  intro session limit moments fired
  rcases balanced_afterCalls config delayed fresh calls with ⟨balanced, settings⟩
  have positive : 0 < session.sync.config.rebuildDelay := by
    rw [settings]
    exact rebuildDelay_pos delayed
  have history : History session moments (session.advance duration) :=
    call_history balanced positive (.request (.advance duration))
  rcases exists_settles_advance balanced live positive duration with ⟨done, settles, -, reached⟩
  have clock : (session.advance duration).sync.clock = limit := by
    rw [reached]
    rfl
  have advancing := Advancing.pump balanced live positive duration
  refine ⟨history, ⟨done, settles, reached⟩, ?_, fun moment listed => ?_,
    settles.pairwise_precedes advancing, history.clock_pairwise balanced, ?_, clock, ?_⟩
  · have bounded := length_filter_firing_le limit (session.taskBound duration) session.pump
    rw [← filter_fires_advance live, taskBound, settings] at bounded
    exact bounded
  · exact call_inTurn session _ moment (List.mem_filter.mp listed).1
  · rw [← clock]
    exact history.clock_within balanced
  · rw [← clock]
    exact fun task due deadline => lt_deadline_advance balanced positive deadline

/-- The rebuild is put off once, and then the grace window ends and the rebuild is due at
the same time. -/
theorem advance_in_turn_queuedWhileSettling :
    let session := (ofConfig {} .counting).afterCalls queuedWhileSettling
    let fired := ((Call.request (.advance 150000000)).moments session).filter Moment.fires
    0 < ({} : SessionConfig).sync.rebuildDelayMs ∧ session.sync.disposed = false ∧
      fired.map Moment.clock = [100000000, 150000000, 150000000] ∧
      fired.Pairwise Moment.Precedes ∧ (session.advance 150000000).sync.clock = 200000000 := by
  intro session fired
  have live : session.sync.disposed = false := by decide +kernel
  rcases advance_in_turn {} (by decide) (ofConfig {} .counting) rfl queuedWhileSettling live
    150000000 with ⟨-, -, -, -, ordered, -, -, clock, -⟩
  exact ⟨by decide, live, by decide +kernel, ordered, clock.trans (by decide +kernel)⟩

end

end Session
end MotionBlocks
