import MotionBlocks.Proofs.Rebuilding.RoundTrip
import MotionBlocks.Proofs.Session.Effects

namespace MotionBlocks

/-!
# Letting time pass

While the clock moves, tasks put other tasks off, call them off and bring new ones
about.  Still there is an end to it: a bound on the tasks to come is lowered by
each of them, and a session knows the bound in advance.  So nothing that is due is
left over, the moments of a call lead to what the call makes of the session, and
the time that passes may be cut anywhere.
-/

namespace Timer

/-- How often a task comes due until a time, if it is put off by a delay each time,
and one task more for what it does in the end. -/
def roundsLeft (limit delay : Nat) (timer : Timer) : Nat :=
  match timer.due with
  | none => 0
  | some due => (limit + delay - due) / delay + 1

section

variable {timer : Timer} {limit delay now : Nat}

theorem roundsLeft_of_due (due : timer.due = some now) (inTime : now ≤ limit)
    (delayed : 0 < delay) :
    timer.roundsLeft limit delay = (limit - now) / delay + 2 := by
  have once : limit + delay - now = limit - now + delay := by omega
  simp only [roundsLeft, due, once, Nat.add_div_right _ delayed]

theorem roundsLeft_schedule (inTime : now ≤ limit) :
    (schedule now delay).roundsLeft limit delay = (limit - now) / delay + 1 := by
  have once : limit + delay - (now + delay) = limit - now := by omega
  simp only [roundsLeft, schedule, once]

end

end Timer

namespace Coordinator

/-- A bound on the tasks that can still come due until a time. -/
def tasksLeft (sync : Coordinator) (limit : Nat) : Nat :=
  sync.grace.isPending.toNat + sync.debounce.isPending.toNat +
    sync.rebuild.roundsLeft limit sync.config.rebuildDelay

theorem Balanced.tasksLeft_le {sync : Coordinator} (balanced : sync.Balanced)
    (delayed : 0 < sync.config.rebuildDelay) (duration : Nat) :
    sync.tasksLeft (sync.clock + duration) ≤ duration / sync.config.rebuildDelay + 4 := by
  have grace := Bool.toNat_le sync.grace.isPending
  have debounce := Bool.toNat_le sync.debounce.isPending
  have rounds : sync.rebuild.roundsLeft (sync.clock + duration) sync.config.rebuildDelay ≤
      duration / sync.config.rebuildDelay + 2 := by
    unfold Timer.roundsLeft
    cases deadline : sync.rebuild.due with
    | none => exact Nat.zero_le _
    | some due =>
      have ahead := (balanced.timely .rebuild due deadline).1
      have within : sync.clock + duration + sync.config.rebuildDelay - due ≤
          duration + sync.config.rebuildDelay := by omega
      have often := Nat.div_le_div_right (c := sync.config.rebuildDelay) within
      rw [Nat.add_div_right _ delayed] at often
      exact Nat.succ_le_succ often
  unfold tasksLeft
  omega

end Coordinator

namespace Session

section

variable {session last : Session} {limit due tasks : Nat} {task : Task}

/-! ## One task -/

theorem pump_of_empty (empty : session.workspace.inbox = #[]) : session.pump = session := by
  have unchanged : session.workspace.takeInbox = (#[], session.workspace) := by
    simp only [Workspace.takeInbox, ← empty]
  unfold pump
  rw [unchanged]
  rfl

theorem inbox_pump (session : Session) : session.pump.workspace.inbox = #[] := by
  rcases session.pump_eq with ⟨installed, debounce, pumped⟩
  rw [pumped]
  rfl

/-- Nothing comes to wait while tasks are done. -/
theorem Effect.inbox_fire {after : Session} (effect : Effect session (.fire task) after)
    (empty : session.workspace.inbox = #[]) : after.workspace.inbox = #[] := by
  cases effect with
  | install idle queued => rfl
  | _ => exact empty

theorem Effect.clock_fire {after : Session} (effect : Effect session (.fire task) after) :
    after.sync.clock = session.sync.clock := by
  cases effect <;> rfl

theorem Effect.disposed_fire {after : Session} (effect : Effect session (.fire task) after) :
    after.sync.disposed = session.sync.disposed := by
  cases effect <;> rfl

/-- Moving the clock moves no deadline. -/
theorem deadline_wait (session : Session) (time : Nat) (task : Task) :
    (Deed.perform session (.wait time)).sync.deadline task = session.sync.deadline task := by
  cases task <;> rfl

theorem waited_timely (balanced : session.sync.Balanced)
    (next : session.sync.nextDue limit = some (due, task)) :
    (Deed.wait due).Timely session := by
  rcases Coordinator.nextDue_eq_some_iff.mp next with ⟨deadline, -, least⟩
  refine ⟨(balanced.timely task due deadline).1, fun other time otherDeadline => ?_⟩
  have order := least other time otherDeadline
  omega

theorem fired_timely (next : session.sync.nextDue limit = some (due, task)) :
    (Deed.fire task).Timely (Deed.perform session (.wait due)) :=
  (deadline_wait session due task).trans (Coordinator.nextDue_eq_some_iff.mp next).1

/-- The moments of one task, and of looking at what waits afterwards. -/
theorem fireAt_history (balanced : session.sync.Balanced)
    (next : session.sync.nextDue limit = some (due, task)) :
    History session
      (⟨session, .wait due⟩ :: ⟨Deed.perform session (.wait due), .fire task⟩ ::
        (Deed.perform (Deed.perform session (.wait due)) (.fire task)).noting)
      (session.fireAt due task) :=
  .cons (waited_timely balanced next) (.cons (fired_timely next) (noting_history _))

/-- Doing a task leaves fewer to come. -/
theorem Effect.tasksLeft_fire {after : Session} (effect : Effect session (.fire task) after)
    (due : session.sync.deadline task = some session.sync.clock)
    (inTime : session.sync.clock ≤ limit) (delayed : 0 < session.sync.config.rebuildDelay) :
    after.sync.tasksLeft limit < session.sync.tasksLeft limit := by
  cases effect with
  | endGrace suppressed =>
    have pending : session.sync.grace.isPending = true := Timer.isPending_of_due due
    have spent : session.sync.endGrace.grace = .unset :=
      congrArg Prod.snd (Timer.take_of_due due)
    show session.sync.endGrace.grace.isPending.toNat + _ + _ < _
    rw [Coordinator.tasksLeft, pending, spent]
    exact Nat.add_lt_add_right (Nat.add_lt_add_right Nat.zero_lt_one _) _
  | postpone suppressed =>
    have before := Timer.roundsLeft_of_due due inTime delayed
    show _ + _ + (Timer.schedule session.sync.clock session.sync.config.rebuildDelay).roundsLeft
      limit session.sync.config.rebuildDelay < _
    rw [Coordinator.tasksLeft, before, Timer.roundsLeft_schedule inTime]
    exact Nat.add_lt_add_left (Nat.lt_succ_self _) _
  | install idle queued =>
    -- A rebuild brings about the end of a grace window, which the bound has counted.
    have before := Timer.roundsLeft_of_due due inTime delayed
    show 1 + 0 + 0 < _
    rw [Coordinator.tasksLeft, before]
    generalize (limit - session.sync.clock) / session.sync.config.rebuildDelay = rounds
    omega
  | publish idle =>
    have pending : session.sync.debounce.isPending = true := Timer.isPending_of_due due
    have spent : session.sync.takeDebounce.debounce = .unset :=
      congrArg Prod.snd (Timer.take_of_due due)
    show _ + session.sync.takeDebounce.debounce.isPending.toNat + _ < _
    rw [Coordinator.tasksLeft, pending, spent]
    exact Nat.add_lt_add_right (Nat.add_lt_add_left Nat.zero_lt_one _) _

/-! ## All tasks -/

/-- What a session is while its tasks until a time are done. -/
structure Advancing (limit : Nat) (session : Session) : Prop where
  balanced : session.sync.Balanced
  live : session.sync.disposed = false
  delayed : 0 < session.sync.config.rebuildDelay
  inbox : session.workspace.inbox = #[]
  inTime : session.sync.clock ≤ limit

theorem Advancing.waited (advancing : Advancing limit session)
    (next : session.sync.nextDue limit = some (due, task)) :
    (Deed.perform session (.wait due)).sync.Balanced :=
  (Effect.wait due).balanced advancing.balanced (waited_timely advancing.balanced next)

/-- After a task there is nothing to look at, so the effect of the task is all that happens. -/
theorem Advancing.effect_fireAt (advancing : Advancing limit session)
    (next : session.sync.nextDue limit = some (due, task)) :
    Effect (Deed.perform session (.wait due)) (.fire task) (session.fireAt due task) := by
  have effect := effect_fire (advancing.waited next) (fired_timely next)
  have done : session.fireAt due task = (Deed.perform session (.wait due)).fire task :=
    pump_of_empty (effect.inbox_fire advancing.inbox)
  rwa [done]

theorem Advancing.fireAt (advancing : Advancing limit session)
    (next : session.sync.nextDue limit = some (due, task)) :
    Advancing limit (session.fireAt due task) ∧
      (session.fireAt due task).sync.tasksLeft limit < session.sync.tasksLeft limit := by
  have effect := advancing.effect_fireAt next
  have inTime : due ≤ limit := (Coordinator.nextDue_eq_some_iff.mp next).2.1
  refine ⟨⟨effect.balanced (advancing.waited next) (fired_timely next), ?_, ?_,
    effect.inbox_fire advancing.inbox, ?_⟩,
    effect.tasksLeft_fire (fired_timely next) inTime advancing.delayed⟩
  · rw [effect.disposed_fire]
    exact advancing.live
  · rw [effect.settings.1]
    exact advancing.delayed
  · rw [effect.clock_fire]
    exact inTime

/-- Enough tasks leave nothing that is due. -/
theorem Advancing.fireUntil (advancing : Advancing limit session)
    (enough : session.sync.tasksLeft limit ≤ tasks) :
    Advancing limit (fireUntil limit tasks session) ∧
      (Session.fireUntil limit tasks session).sync.nextDue limit = none := by
  induction tasks generalizing session with
  | zero =>
    refine ⟨advancing, ?_⟩
    by_contra something
    rcases Option.ne_none_iff_exists'.mp something with ⟨⟨due, task⟩, next⟩
    have fewer := (advancing.fireAt next).2
    omega
  | succ tasks ih =>
    unfold Session.fireUntil
    cases next : session.sync.nextDue limit with
    | none => exact ⟨advancing, next⟩
    | some found =>
      rcases found with ⟨due, task⟩
      rcases advancing.fireAt next with ⟨still, fewer⟩
      exact ih still (by omega)

theorem firing_history (balanced : session.sync.Balanced) (limit tasks : Nat) :
    History session (firing limit tasks session) (fireUntil limit tasks session) := by
  induction tasks generalizing session with
  | zero => exact .nil _
  | succ tasks ih =>
    unfold firing fireUntil
    cases next : session.sync.nextDue limit with
    | none => exact .nil _
    | some found =>
      rcases found with ⟨due, task⟩
      have first := fireAt_history balanced next
      exact first.append (ih (first.balanced balanced))

theorem Advancing.pump (balanced : session.sync.Balanced) (live : session.sync.disposed = false)
    (delayed : 0 < session.sync.config.rebuildDelay) (duration : Nat) :
    Advancing (session.sync.clock + duration) session.pump where
  balanced := (noting_history session).balanced balanced
  live := by
    rcases session.pump_eq with ⟨installed, debounce, pumped⟩
    rwa [pumped]
  delayed := by rwa [((noting_history session).settings balanced).1]
  inbox := inbox_pump session
  inTime := by
    rcases session.pump_eq with ⟨installed, debounce, pumped⟩
    rw [pumped]
    exact Nat.le_add_right _ _

/-- A session lets enough tasks be done for time to pass to its end. -/
theorem advance_settles (balanced : session.sync.Balanced)
    (live : session.sync.disposed = false) (delayed : 0 < session.sync.config.rebuildDelay)
    (duration : Nat) :
    Advancing (session.sync.clock + duration)
        (fireUntil (session.sync.clock + duration) (session.taskBound duration) session.pump) ∧
      (fireUntil (session.sync.clock + duration) (session.taskBound duration)
        session.pump).sync.nextDue (session.sync.clock + duration) = none := by
  have advancing := Advancing.pump balanced live delayed duration
  refine advancing.fireUntil ?_
  have enough := advancing.balanced.tasksLeft_le advancing.delayed duration
  rcases session.pump_eq with ⟨installed, debounce, pumped⟩
  rw [pumped] at enough ⊢
  exact enough

/-! ## The moments of a run -/

/-- The moments of a call lead to what the call makes of a session. -/
theorem call_history (balanced : session.sync.Balanced)
    (delayed : 0 < session.sync.config.rebuildDelay) (call : Call) :
    History session (call.moments session) (call.run session) := by
  rcases call with
    (command | duration | program | ⟨library, text⟩ | _ | _ | _ | number | _ | _ | _) | _ |
    change
  case request.edit => exact .single trivial
  case request.advance =>
    unfold Call.moments Call.run Request.run advance
    dsimp only
    cases disposed : session.sync.disposed with
    | true => exact .nil _
    | false =>
      rcases advance_settles balanced disposed delayed duration with ⟨advancing, settled⟩
      have pumped := noting_history session
      have fired := firing_history (pumped.balanced balanced) (session.sync.clock + duration)
        (session.taskBound duration)
      have late := Coordinator.nextDue_eq_none_iff.mp settled
      refine (pumped.append fired).append (.single ⟨advancing.inTime, fun task due deadline => ?_⟩)
      exact Nat.le_of_lt (late task due deadline)
  case request.activate => exact .single trivial
  case request.activateText =>
    unfold Call.moments Call.run Request.run activateText
    dsimp only
    cases Program.ofText library text with
    | ok program => exact .single trivial
    | error error => exact .nil _
  case request.requestPlay =>
    unfold Call.moments Call.run Request.run
    rw [requestPlay_eq]
    dsimp only
    cases disposed : session.sync.disposed with
    | true => exact .single trivial
    | false => exact (noting_history session).append (.cons trivial (.single trivial))
  case request.clear => exact .single trivial
  case request.listen => exact .single trivial
  case request.unlisten => exact .single trivial
  case request.takePublished => exact .single trivial
  case request.compile => exact .single trivial
  case request.dispose => exact .single trivial
  case pump => exact noting_history session
  case handle => exact .single trivial

/-- The moments of a run lead to where the run leads. -/
theorem chronicle_history (balanced : session.sync.Balanced)
    (delayed : 0 < session.sync.config.rebuildDelay) (calls : List Call) :
    History session (session.chronicle calls) (session.afterCalls calls) := by
  induction calls generalizing session with
  | nil => exact .nil _
  | cons call calls ih =>
    have first := call_history balanced delayed call
    refine first.append (ih (first.balanced balanced) ?_)
    rwa [(first.settings balanced).1]

/-! ## Time in parts -/

/-- Doing all tasks that are due until a time leads from one session to another, with
the moments at which they do their work.  Nothing bounds their number here. -/
inductive Settles (limit : Nat) : Session → List Moment → Session → Prop where
  | done {session : Session} : session.sync.nextDue limit = none →
    Settles limit session [] session
  | fire {session last : Session} {due : Nat} {task : Task} {fired : List Moment} :
    session.sync.nextDue limit = some (due, task) →
    Settles limit (session.fireAt due task) fired last →
    Settles limit session (⟨Deed.perform session (.wait due), .fire task⟩ :: fired) last

theorem filter_fires_noting (session : Session) : session.noting.filter Moment.fires = [] := by
  refine List.filter_eq_nil_iff.mpr (forall_mem_noting (fun _ => ?_) (fun _ _ => ?_) session)
  · exact Bool.false_ne_true
  · exact Bool.false_ne_true

theorem settles_fireUntil (settled : (fireUntil limit tasks session).sync.nextDue limit = none) :
    Settles limit session ((firing limit tasks session).filter Moment.fires)
      (fireUntil limit tasks session) := by
  induction tasks generalizing session with
  | zero => exact .done settled
  | succ tasks ih =>
    unfold fireUntil at settled ⊢
    unfold firing
    cases next : session.sync.nextDue limit with
    | none => exact .done next
    | some found =>
      rw [next] at settled
      dsimp only
      rw [List.filter_cons_of_neg (by exact Bool.false_ne_true), List.filter_cons_of_pos rfl,
        List.filter_append, filter_fires_noting, List.nil_append]
      exact .fire next (ih settled)

section

variable {fired others : List Moment}

theorem Settles.unique {other : Session} (first : Settles limit session fired last)
    (second : Settles limit session others other) : last = other := by
  induction first generalizing others with
  | done nothing =>
    cases second with
    | done _ => rfl
    | fire next _ => simp [nothing] at next
  | fire next _ ih =>
    cases second with
    | done nothing => simp [nothing] at next
    | fire otherNext rest =>
      rw [next] at otherNext
      obtain ⟨rfl, rfl⟩ := Prod.mk.inj (Option.some.inj otherNext)
      exact ih rest

/-- What is due until a time is due before anything that is due only later. -/
theorem Settles.further {later : Nat} {middle : Session}
    (first : Settles limit session fired middle) (le : limit ≤ later)
    (second : Settles later middle others last) :
    Settles later session (fired ++ others) last := by
  induction first with
  | done _ => exact second
  | fire next _ ih => exact .fire (Coordinator.nextDue_of_le next le) (ih second)

/-- Each task sets the clock to its own deadline, so where the clock stood before does
not show when it is set in the end. -/
theorem Settles.of_wait {time : Nat}
    (settles : Settles limit (Deed.perform session (.wait time)) fired last) :
    ∃ other, Settles limit session fired other ∧
      Deed.perform other (.wait limit) = Deed.perform last (.wait limit) := by
  cases settles with
  | done nothing => exact ⟨session, .done nothing, rfl⟩
  | fire next rest => exact ⟨last, .fire next rest, rfl⟩

end

theorem advance_of_live (live : session.sync.disposed = false) (duration : Nat) :
    session.advance duration =
      Deed.perform
        (fireUntil (session.sync.clock + duration) (session.taskBound duration) session.pump)
        (.wait (session.sync.clock + duration)) := by
  simp only [advance, live]
  rfl

/-- After time has passed, every deadline lies ahead. -/
theorem lt_deadline_advance (balanced : session.sync.Balanced)
    (delayed : 0 < session.sync.config.rebuildDelay) {duration : Nat}
    (deadline : (session.advance duration).sync.deadline task = some due) :
    (session.advance duration).sync.clock < due := by
  cases disposed : session.sync.disposed with
  | true =>
    simp only [advance, disposed, if_true] at deadline
    have live := balanced.live task due deadline
    rw [disposed] at live
    cases live
  | false =>
    rw [advance_of_live disposed] at deadline ⊢
    rw [deadline_wait] at deadline
    exact Coordinator.nextDue_eq_none_iff.mp
      (advance_settles balanced disposed delayed duration).2 task due deadline

/-- The changes that wait are looked at and the clock is set, but only tasks are done. -/
theorem filter_fires_advance (live : session.sync.disposed = false) (duration : Nat) :
    ((Call.request (.advance duration)).moments session).filter Moment.fires =
      (firing (session.sync.clock + duration) (session.taskBound duration)
        session.pump).filter Moment.fires := by
  unfold Call.moments
  dsimp only
  rw [if_neg (by simp [live]), List.filter_append, List.filter_append, filter_fires_noting,
    List.filter_cons_of_neg (by exact Bool.false_ne_true), List.filter_nil, List.nil_append,
    List.append_nil]

/-- Letting time pass is doing all that is due until then, and setting the clock. -/
theorem exists_settles_advance (balanced : session.sync.Balanced)
    (live : session.sync.disposed = false) (delayed : 0 < session.sync.config.rebuildDelay)
    (duration : Nat) :
    ∃ done, Settles (session.sync.clock + duration) session.pump
        (((Call.request (.advance duration)).moments session).filter Moment.fires) done ∧
      Advancing (session.sync.clock + duration) done ∧
      session.advance duration = Deed.perform done (.wait (session.sync.clock + duration)) := by
  rcases advance_settles balanced live delayed duration with ⟨advancing, settled⟩
  rw [filter_fires_advance live]
  exact ⟨_, settles_fireUntil settled, advancing, advance_of_live live duration⟩

theorem advance_advance_of_balanced (balanced : session.sync.Balanced)
    (delayed : 0 < session.sync.config.rebuildDelay) (first second : Nat) :
    (session.advance first).advance second = session.advance (first + second) := by
  cases disposed : session.sync.disposed with
  | true => simp only [advance, disposed, if_true]
  | false =>
    rcases exists_settles_advance balanced disposed delayed first with
      ⟨middle, settles, advancing, reached⟩
    rcases exists_settles_advance balanced disposed delayed (first + second) with
      ⟨last, wholeSettles, -, whole⟩
    have again : (session.advance first).sync.Balanced :=
      (call_history balanced delayed (.request (.advance first))).balanced balanced
    rw [reached] at again ⊢
    rcases exists_settles_advance again advancing.live advancing.delayed second with
      ⟨next, nextSettles, -, nextReached⟩
    -- The second part begins with a look at the inbox, which the first part has emptied,
    -- so the tasks of both parts are the tasks of the whole, one after the other.
    have quiet : (Deed.perform middle (.wait (session.sync.clock + first))).pump =
        Deed.perform middle (.wait (session.sync.clock + first)) := pump_of_empty advancing.inbox
    have limit : session.sync.clock + first + second = session.sync.clock + (first + second) :=
      Nat.add_assoc _ _ _
    rw [quiet] at nextSettles
    rcases nextSettles.of_wait with ⟨other, otherSettles, same⟩
    have through := settles.further (Nat.le_add_right _ second) otherSettles
    rw [nextReached, whole, ← same, ← limit]
    rw [← limit] at wholeSettles
    rw [through.unique wholeSettles]
    rfl

end

/-! ## Runs of a new coordinator -/

section

variable {start : Session}

theorem rebuildDelay_pos {config : SyncConfig} (delayed : 0 < config.rebuildDelayMs) :
    0 < config.rebuildDelay :=
  Nat.mul_pos delayed (by decide)

/-- Whatever is asked of a new coordinator, over whatever workspace, the moments lead
to what comes of it. -/
theorem afterCalls_history (config : SessionConfig) (delayed : 0 < config.sync.rebuildDelayMs)
    (fresh : start.sync = .ofConfig config) (calls : List Call) :
    History start (start.chronicle calls) (start.afterCalls calls) := by
  refine chronicle_history ?_ ?_ calls
  · rw [fresh]
    exact Coordinator.balanced_ofConfig config
  · rw [fresh]
    exact rebuildDelay_pos delayed

theorem balanced_afterCalls (config : SessionConfig) (delayed : 0 < config.sync.rebuildDelayMs)
    (fresh : start.sync = .ofConfig config) (calls : List Call) :
    (start.afterCalls calls).sync.Balanced ∧
      (start.afterCalls calls).sync.config = config.sync := by
  have balanced : start.sync.Balanced := fresh ▸ Coordinator.balanced_ofConfig config
  have history := afterCalls_history config delayed fresh calls
  refine ⟨history.balanced balanced, ?_⟩
  rw [(history.settings balanced).1, fresh]
  rfl

/-- Between calls, the parts of a coordinator are in step.  Changes are dropped just
while the end of the grace window is ahead, and then nothing waits to be compiled; a
program is queued just while its rebuild is ahead; a workspace that waits to be
compiled is taken for no program; no deadline has passed, and none is further off than
its delay.  After time has passed, every deadline lies ahead. -/
theorem in_step_between_calls (config : SessionConfig) (delayed : 0 < config.sync.rebuildDelayMs)
    (start : Session) (fresh : start.sync = .ofConfig config) (calls : List Call)
    (live : (start.afterCalls calls).sync.disposed = false) :
    let sync := (start.afterCalls calls).sync
    (sync.phase = .suppressed ↔ sync.grace.isPending = true) ∧
      (sync.phase = .suppressed → sync.debounce.isPending = false) ∧
      (sync.queued.isSome = true ↔ sync.rebuild.isPending = true) ∧
      (sync.debounce.isPending = true → sync.installed = none) ∧
      (∀ task due, sync.deadline task = some due →
        sync.clock ≤ due ∧ due ≤ sync.clock + config.sync.delay task) ∧
      ∀ duration task due,
        ((start.afterCalls calls).advance duration).sync.deadline task = some due →
          ((start.afterCalls calls).advance duration).sync.clock < due := by
  rcases balanced_afterCalls config delayed fresh calls with ⟨balanced, settings⟩
  generalize start.afterCalls calls = session at *
  refine ⟨?_, ?_, ?_, balanced.drifted, ?_, ?_⟩
  · rw [balanced.grace_iff]
    simp only [live, and_true]
  · intro suppressed
    by_contra pending
    have idle := balanced.idle_of_debounce (by simpa using pending)
    rw [suppressed] at idle
    cases idle
  · rw [balanced.coherent]
  · rw [← settings]
    exact balanced.timely
  · intro duration task due
    have positive : 0 < session.sync.config.rebuildDelay := by
      rw [settings]
      exact rebuildDelay_pos delayed
    exact lt_deadline_advance balanced positive

/-- The empty program is built into blocks, and a turn is queued in the grace
window. -/
def queuedWhileSettling : List Call :=
  [.request (.activate .empty), .request (.advance 50000000),
    .request (.activate Workspace.oneTurn)]

theorem in_step_queuedWhileSettling :
    ((ofConfig {} .counting).afterCalls queuedWhileSettling).sync.grace.isPending = true ∧
      ((ofConfig {} .counting).afterCalls queuedWhileSettling).sync.debounce.isPending = false ∧
      ((ofConfig {} .counting).afterCalls queuedWhileSettling).sync.rebuild.isPending = true := by
  have live : ((ofConfig {} .counting).afterCalls queuedWhileSettling).sync.disposed = false := by
    decide +kernel
  have suppressed :
      ((ofConfig {} .counting).afterCalls queuedWhileSettling).sync.phase = .suppressed := by
    decide +kernel
  have queued :
      ((ofConfig {} .counting).afterCalls queuedWhileSettling).sync.queued.isSome = true := by
    decide +kernel
  rcases in_step_between_calls {} (by decide) (ofConfig {} .counting) rfl queuedWhileSettling live
    with ⟨grace, quiet, rebuild, -⟩
  exact ⟨grace.mp suppressed, quiet suppressed, rebuild.mp queued⟩

/-- Letting time pass in two parts is letting it pass at once, wherever it is cut. -/
theorem advance_advance (config : SessionConfig) (delayed : 0 < config.sync.rebuildDelayMs)
    (start : Session) (fresh : start.sync = .ofConfig config) (calls : List Call)
    (first second : Nat) :
    ((start.afterCalls calls).advance first).advance second =
      (start.afterCalls calls).advance (first + second) := by
  rcases balanced_afterCalls config delayed fresh calls with ⟨balanced, settings⟩
  refine advance_advance_of_balanced balanced ?_ first second
  rw [settings]
  exact rebuildDelay_pos delayed

/-- The time is cut where the rebuild is put off, which is done before the cut.  The grace
window ends and the turn is built behind it, at the times at which they would be without
the cut. -/
theorem advance_advance_queuedWhileSettling :
    let session := (ofConfig {} .counting).afterCalls queuedWhileSettling
    let between := session.advance 50000000
    let fired := fun (session : Session) (duration : Nat) =>
      ((Call.request (.advance duration)).moments session).filterMap Moment.fired?
    0 < ({} : SessionConfig).sync.rebuildDelayMs ∧
      between.advance 100000000 = session.advance 150000000 ∧
      session.sync.clock = 50000000 ∧ between.sync.clock = 100000000 ∧
      (session.advance 150000000).sync.clock = 200000000 ∧
      fired session 50000000 = [(100000000, .rebuild)] ∧
      fired between 100000000 = [(150000000, .grace), (150000000, .rebuild)] ∧
      fired session 150000000 = fired session 50000000 ++ fired between 100000000 := by
  intro session between fired
  have joined : between.advance 100000000 = session.advance 150000000 :=
    advance_advance {} (by decide) (ofConfig {} .counting) rfl queuedWhileSettling
      50000000 100000000
  exact ⟨by decide, joined, by decide +kernel, by decide +kernel, by decide +kernel,
    by decide +kernel, by decide +kernel, by decide +kernel⟩

end

end Session
end MotionBlocks
