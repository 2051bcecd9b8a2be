import MotionBlocks.Proofs.Session.Runs

namespace MotionBlocks

/-!
# The deeds of a session

A call of a session comes down to deeds: the changes that wait are looked at one
by one, the clock moves to a deadline, a task whose deadline has come does its
work.  The moments of a run are its deeds in their order, each with the session
it found, and every moment finds what the one before it left.  So what each deed
keeps is kept by every run, and what came before what in a run is a statement
about a list.
-/

namespace Session

/-! ## Calls -/

/-- A request to a session, or a call of its coordinator alone. -/
inductive Call where
  | request (request : Request)
  /-- The coordinator looks at the changes that wait. -/
  | pump
  /-- The coordinator is told of a change that did not wait. -/
  | handle (change : Change)

namespace Call

/-- What a call makes of a session. -/
def run (session : Session) : Call → Session
  | .request asked => asked.run session
  | .pump => session.pump
  | .handle change => session.coordinate fun sync => (sync.handle change).2

end Call

/-- A session after a number of calls. -/
def afterCalls (session : Session) (calls : List Call) : Session :=
  calls.foldl Call.run session

/-! ## Deeds -/

/-- What a session does at one moment. -/
inductive Deed where
  | edit (command : Workspace.Command)
  /-- The changes that wait are taken out of the inbox. -/
  | collect
  /-- The coordinator takes note of a change. -/
  | note (change : Change)
  /-- The clock moves on. -/
  | wait (time : Nat)
  /-- A task whose deadline has come does its work. -/
  | fire (task : Task)
  | activate (program : Program)
  /-- A queued program is built into blocks without waiting for its deadline. -/
  | settle
  /-- The workspace is compiled for play. -/
  | answer
  | clear
  | listen
  | unlisten (number : Nat)
  | takePublished
  | compile
  | dispose

namespace Deed

/-- What a deed makes of a session. -/
def perform (session : Session) : Deed → Session
  | .edit command => { session with workspace := command.run session.workspace }
  | .collect => { session with workspace := session.workspace.takeInbox.2 }
  | .note change => session.coordinate fun sync => (sync.handle change).2
  | .wait time => session.coordinate fun sync => { sync with clock := time }
  | .fire task => session.fire task
  | .activate program => session.activate program
  | .settle => session.installPending
  | .answer => session.compile.2.coordinate fun sync => { sync with current := session.compile.1 }
  | .clear => session.clear
  | .listen => session.listen.2
  | .unlisten number => (session.unlisten number).2
  | .takePublished => session.takePublished.2
  | .compile => session.compile.2
  | .dispose => session.dispose

/-- Whether a deed keeps to the clock: the clock goes on, but past no deadline, and
a task is done at its deadline. -/
def Timely (session : Session) : Deed → Prop
  | .wait time =>
    session.sync.clock ≤ time ∧ ∀ task due, session.sync.deadline task = some due → time ≤ due
  | .fire task => session.sync.deadline task = some session.sync.clock
  | _ => True

/-- Whether a deed leaves the clock alone and is no task. -/
def immediate : Deed → Bool
  | .wait _ | .fire _ => false
  | _ => true

end Deed

/-! ## Moments -/

/-- A deed with the session that it found. -/
structure Moment where
  before : Session
  deed : Deed

namespace Moment

def after (moment : Moment) : Session :=
  moment.deed.perform moment.before

/-- The time of a moment. -/
def clock (moment : Moment) : Nat :=
  moment.before.sync.clock

/-- A task does its work. -/
def fires (moment : Moment) : Bool :=
  match moment.deed with
  | .fire _ => true
  | _ => false

/-- The task that does its work, with the time. -/
def fired? (moment : Moment) : Option (Nat × Task) :=
  match moment.deed with
  | .fire task => some (moment.clock, task)
  | _ => none

end Moment

/-- The moments at which the coordinator takes note of changes. -/
def notes (session : Session) : List Change → List Moment
  | [] => []
  | change :: changes =>
    ⟨session, .note change⟩ :: notes (Deed.perform session (.note change)) changes

/-- The moments at which a session looks at the changes that wait. -/
def noting (session : Session) : List Moment :=
  ⟨session, .collect⟩ ::
    (Deed.perform session .collect).notes session.workspace.inbox.toList

/-- The moments of the tasks that are due until a time, up to a number of them. -/
def firing (limit : Nat) : Nat → Session → List Moment
  | 0, _ => []
  | tasks + 1, session =>
    match session.sync.nextDue limit with
    | none => []
    | some (due, task) =>
      let waited := Deed.perform session (.wait due)
      let fired := Deed.perform waited (.fire task)
      ⟨session, .wait due⟩ :: ⟨waited, .fire task⟩ ::
        (fired.noting ++ firing limit tasks (session.fireAt due task))

namespace Call

/-- The moments of a call. -/
def moments (session : Session) : Call → List Moment
  | .request (.edit command) => [⟨session, .edit command⟩]
  | .request (.advance duration) =>
    if session.sync.disposed then []
    else
      let limit := session.sync.clock + duration
      let tasks := session.taskBound duration
      session.noting ++ firing limit tasks session.pump ++
        [⟨fireUntil limit tasks session.pump, .wait limit⟩]
  | .request (.activate program) => [⟨session, .activate program⟩]
  | .request (.activateText library text) =>
    match Program.ofText library text with
    | .ok program => [⟨session, .activate program⟩]
    | .error _ => []
  | .request .requestPlay =>
    if session.sync.disposed then [⟨session, .answer⟩]
    else
      session.noting ++
        [⟨session.pump, .settle⟩, ⟨session.pump.installPending, .answer⟩]
  | .request .clear => [⟨session, .clear⟩]
  | .request .listen => [⟨session, .listen⟩]
  | .request (.unlisten number) => [⟨session, .unlisten number⟩]
  | .request .takePublished => [⟨session, .takePublished⟩]
  | .request .compile => [⟨session, .compile⟩]
  | .request .dispose => [⟨session, .dispose⟩]
  | .pump => session.noting
  | .handle change => [⟨session, .note change⟩]

end Call

/-- The moments of a run. -/
def chronicle (session : Session) : List Call → List Moment
  | [] => []
  | call :: calls => call.moments session ++ (call.run session).chronicle calls

/-! ## Histories -/

/-- Moments lead from one session to another, each finding what the one before it
left, and each deed keeping to the clock. -/
inductive History : Session → List Moment → Session → Prop where
  | nil (session : Session) : History session [] session
  | cons {session last : Session} {deed : Deed} {moments : List Moment} :
      deed.Timely session → History (deed.perform session) moments last →
      History session (⟨session, deed⟩ :: moments) last

section

variable {session middle last : Session} {deed : Deed} {moment : Moment}
  {moments earlier later : List Moment}

theorem History.append (first : History session earlier middle)
    (second : History middle later last) : History session (earlier ++ later) last := by
  induction first with
  | nil => exact second
  | cons timely _ ih => exact .cons timely (ih second)

theorem History.single (timely : deed.Timely session) :
    History session [⟨session, deed⟩] (deed.perform session) :=
  .cons timely (.nil _)

/-- A history goes through the session that each of its moments found. -/
theorem History.split (history : History session (earlier ++ moment :: later) last) :
    History session earlier moment.before ∧ moment.deed.Timely moment.before ∧
      History moment.after later last := by
  induction earlier generalizing session with
  | nil =>
    cases history with
    | cons timely rest => exact ⟨.nil _, timely, rest⟩
  | cons first earlier ih =>
    cases history with
    | cons timely rest =>
      rcases ih rest with ⟨before, here, after⟩
      exact ⟨.cons timely before, here, after⟩

/-- What holds of every moment at which a change is looked at holds of all of them. -/
theorem forall_mem_noting {property : Moment → Prop}
    (collects : ∀ session, property ⟨session, .collect⟩)
    (notes : ∀ session change, property ⟨session, .note change⟩) (session : Session) :
    ∀ moment ∈ session.noting, property moment := by
  have noted : ∀ (changes : List Change) (session : Session),
      ∀ moment ∈ session.notes changes, property moment := by
    intro changes
    induction changes with
    | nil => exact fun _ => List.forall_mem_nil _
    | cons change changes ih =>
      exact fun session => List.forall_mem_cons.mpr ⟨notes session change, ih _⟩
  exact List.forall_mem_cons.mpr ⟨collects session, noted _ _⟩

/-- While tasks are done, each of them is the one that is due next, and changes are
looked at in between. -/
theorem forall_mem_firing {property : Moment → Prop} {limit : Nat}
    (waits : ∀ session time, property ⟨session, .wait time⟩)
    (fires : ∀ session due task, session.sync.nextDue limit = some (due, task) →
      property ⟨Deed.perform session (.wait due), .fire task⟩)
    (collects : ∀ session, property ⟨session, .collect⟩)
    (notes : ∀ session change, property ⟨session, .note change⟩) (tasks : Nat)
    (session : Session) : ∀ moment ∈ firing limit tasks session, property moment := by
  induction tasks generalizing session with
  | zero => exact List.forall_mem_nil _
  | succ tasks ih =>
    unfold firing
    cases next : session.sync.nextDue limit with
    | none => exact List.forall_mem_nil _
    | some found =>
      rcases found with ⟨due, task⟩
      exact List.forall_mem_cons.mpr ⟨waits _ _, List.forall_mem_cons.mpr
        ⟨fires _ _ _ next, List.forall_mem_append.mpr
          ⟨forall_mem_noting collects notes _, ih _⟩⟩⟩

/-- All calls but the one that lets time pass take no time. -/
theorem immediate_moments (session : Session) {call : Call}
    (timeless : ∀ duration, call ≠ .request (.advance duration)) :
    ∀ moment ∈ call.moments session, moment.deed.immediate = true := by
  have noting : ∀ session : Session, ∀ moment ∈ session.noting, moment.deed.immediate = true :=
    forall_mem_noting (fun _ => rfl) (fun _ _ => rfl)
  rcases call with
    (command | duration | program | ⟨library, text⟩ | _ | _ | _ | number | _ | _ | _) | _ |
    change
  case request.advance => exact absurd rfl (timeless duration)
  case request.activateText =>
    unfold Call.moments
    dsimp only
    split
    · exact List.forall_mem_singleton.mpr rfl
    · exact List.forall_mem_nil _
  case request.requestPlay =>
    unfold Call.moments
    dsimp only
    split
    · exact List.forall_mem_singleton.mpr rfl
    · exact List.forall_mem_append.mpr ⟨noting session, List.forall_mem_cons.mpr
        ⟨rfl, List.forall_mem_singleton.mpr rfl⟩⟩
  case pump => exact noting session
  all_goals exact List.forall_mem_singleton.mpr rfl

/-- The moments of letting time pass, one group after the other. -/
theorem forall_mem_advance {property : Moment → Prop} (session : Session) (duration : Nat)
    (waits : ∀ session time, property ⟨session, .wait time⟩)
    (fires : ∀ session limit due task, session.sync.nextDue limit = some (due, task) →
      property ⟨Deed.perform session (.wait due), .fire task⟩)
    (collects : ∀ session, property ⟨session, .collect⟩)
    (notes : ∀ session change, property ⟨session, .note change⟩) :
    ∀ moment ∈ (Call.request (.advance duration)).moments session, property moment := by
  unfold Call.moments
  dsimp only
  split
  · exact List.forall_mem_nil _
  · exact List.forall_mem_append.mpr ⟨List.forall_mem_append.mpr
      ⟨forall_mem_noting collects notes session,
        forall_mem_firing waits (fun session => fires session _) collects notes _ _⟩,
      List.forall_mem_singleton.mpr (waits _ _)⟩

theorem notes_history (session : Session) (changes : List Change) :
    History session (session.notes changes)
      (session.coordinate fun sync =>
        changes.foldl (fun sync change => (sync.handle change).2) sync) := by
  induction changes generalizing session with
  | nil => exact .nil _
  | cons change changes ih => exact .cons trivial (ih _)

/-- Looking at the changes that wait is taking note of them one after the other. -/
theorem noting_history (session : Session) : History session session.noting session.pump := by
  have noted := notes_history (Deed.perform session .collect) session.workspace.inbox.toList
  rw [show session.pump = (Deed.perform session .collect).coordinate fun sync =>
      session.workspace.inbox.toList.foldl (fun sync change => (sync.handle change).2) sync by
    simp only [pump, Workspace.takeInbox, Deed.perform, coordinate, Array.foldl_toList]]
  exact .cons trivial noted

end

end Session
end MotionBlocks
