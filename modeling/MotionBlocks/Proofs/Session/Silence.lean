import MotionBlocks.Proofs.Session.Debounce

namespace MotionBlocks

/-!
# No feedback

Building a program into blocks changes the workspace, and a changed workspace is
compiled.  That this ends is due to the grace window: the changes of a rebuild, and
those that people make until it has settled, are dropped.  They are dropped when
the session looks at them and not when they are made, so one has to see that none
of them still waits when the grace window is over.
-/

namespace Workspace

/-- Whether a request changes blocks. -/
def Command.mutates : Command → Bool
  | .create _ | .setField .. | .move .. | .connectNext .. | .connectValue .. | .connectBody ..
  | .disconnect _ | .delete _ | .clear | .rebuild _ => true
  | .subscribe _ | .unsubscribe _ | .setOrigin _ | .takeDeliveries | .takeInbox => false

/-- A request that changes no blocks tells nobody of anything. -/
theorem Command.inbox_run {workspace : Workspace} {command : Command}
    (harmless : command.mutates = false) (empty : workspace.inbox = #[]) :
    (command.run workspace).inbox = #[] := by
  cases command with
  | subscribe | unsubscribe | setOrigin | takeDeliveries => exact empty
  | takeInbox => rfl
  | _ => cases harmless

end Workspace

namespace Session

/-- Nothing has been published and nothing is about to be: no compilation is pending,
and no change waits that would count. -/
structure Hushed (session : Session) : Prop where
  quiet : session.sync.debounce.due = none
  published : session.published = #[]
  dropped : session.sync.disposed = false → session.sync.phase = .idle →
    session.workspace.inbox = #[]

/-- What a deed must not do for a session to stay hushed: raise a change that
counts, take note of one, or end the grace window while changes wait. -/
def Deed.Hushes (session : Session) : Deed → Prop
  | .edit command => command.mutates = true → session.sync.phase = .suppressed
  | .note change => session.sync.accepts change = false
  | .fire _ => session.workspace.inbox = #[]
  | _ => True

section

variable {session after last : Session} {deed : Deed} {moments : List Moment} {limit : Nat}

theorem hushed_ofConfig (config : SessionConfig) (ids : StepIds) :
    Hushed (ofConfig config ids) where
  quiet := rfl
  published := rfl
  dropped := fun _ _ => rfl

/-! ## One deed -/

theorem Effect.hushed (effect : Effect session deed after) (balanced : session.sync.Balanced)
    (hushed : Hushed session) (timely : deed.Timely session) (hushes : deed.Hushes session) :
    Hushed after := by
  cases effect with
  | edit command =>
    refine ⟨hushed.quiet, hushed.published, fun live idle => ?_⟩
    cases mutates : command.mutates with
    | true => cases (hushes mutates).symm.trans idle
    | false => exact Workspace.Command.inbox_run mutates (hushed.dropped live idle)
  | ignore | settled => exact hushed
  | accept accepted => simp [Deed.Hushes, accepted] at hushes
  | endGrace =>
    -- From now on changes count, so none that was made in the grace window may wait.
    exact ⟨hushed.quiet, hushed.published, fun _ _ => hushes⟩
  | collect => exact ⟨hushed.quiet, hushed.published, fun _ _ => rfl⟩
  | install | settle =>
    exact ⟨rfl, (published_rebuilt _ _).trans hushed.published, fun _ _ => rfl⟩
  | clear => exact ⟨rfl, hushed.published, fun _ _ => rfl⟩
  | publish => cases hushed.quiet.symm.trans timely
  | activate program =>
    simp only [Session.activate, coordinate, Coordinator.activate]
    split <;> exact ⟨hushed.quiet, hushed.published, hushed.dropped⟩
  | wipe disposed =>
    refine ⟨hushed.quiet, hushed.published, fun live _ => ?_⟩
    cases disposed.symm.trans live
  | takePublished => exact ⟨hushed.quiet, rfl, hushed.dropped⟩
  | dispose =>
    refine ⟨congrArg Timer.due balanced.debounce_dispose, hushed.published, fun live _ => ?_⟩
    cases (Coordinator.disposed_dispose session.sync).symm.trans live
  | wait | postpone | answer | listen | unlisten | compile =>
    exact ⟨hushed.quiet, hushed.published, hushed.dropped⟩

theorem History.hushed (history : History session moments last) (balanced : session.sync.Balanced)
    (hushed : Hushed session) (hushes : ∀ moment ∈ moments, moment.deed.Hushes moment.before) :
    Hushed last := by
  induction history with
  | nil => exact hushed
  | cons timely _ ih =>
    rcases List.forall_mem_cons.mp hushes with ⟨here, rest⟩
    have effect := perform_effect balanced timely
    exact ih (effect.balanced balanced timely) (effect.hushed balanced hushed timely here) rest

/-! ## One request -/

/-- A session that is suppressed or has been disposed of takes note of nothing. -/
theorem notes_hush (deaf : ∀ change, session.sync.accepts change = false) (changes : List Change) :
    ∀ moment ∈ session.notes changes, moment.deed.Hushes moment.before := by
  induction changes with
  | nil => simp [notes]
  | cons change changes ih =>
    have ignored : Deed.perform session (.note change) = session := by
      simp [Deed.perform, coordinate, Coordinator.handle, deaf change]
    rw [notes, ignored]
    exact List.forall_mem_cons.mpr ⟨deaf change, ih⟩

theorem noting_hushes (hushed : Hushed session) :
    ∀ moment ∈ session.noting, moment.deed.Hushes moment.before := by
  refine List.forall_mem_cons.mpr ⟨trivial, ?_⟩
  by_cases attentive : session.sync.disposed = false ∧ session.sync.phase = .idle
  · rw [hushed.dropped attentive.1 attentive.2]
    simp [notes]
  · refine notes_hush (fun change => ?_) _
    show session.sync.accepts change = false
    by_contra accepted
    exact attentive (Coordinator.attentive_of_accepts (by simpa using accepted))

theorem firing_hushes (advancing : Advancing limit session) (hushed : Hushed session)
    (tasks : Nat) :
    ∀ moment ∈ firing limit tasks session, moment.deed.Hushes moment.before := by
  induction tasks generalizing session with
  | zero => simp [firing]
  | succ tasks ih =>
    unfold firing
    cases next : session.sync.nextDue limit with
    | none => simp
    | some found =>
      rcases found with ⟨due, task⟩
      -- Time passes only after the inbox has been emptied, and tasks leave it empty.
      have onward := waited_timely advancing.balanced next
      have inTime := fired_timely next
      have waited := (Effect.wait due).balanced advancing.balanced onward
      have still := (Effect.wait due).hushed advancing.balanced hushed onward trivial
      have fired := (effect_fire waited inTime).hushed waited still inTime advancing.inbox
      have here : ∀ moment ∈ (⟨session, .wait due⟩ : Moment) ::
          ⟨Deed.perform session (.wait due), .fire task⟩ ::
            (Deed.perform (Deed.perform session (.wait due)) (.fire task)).noting,
          moment.deed.Hushes moment.before :=
        List.forall_mem_cons.mpr ⟨trivial,
          List.forall_mem_cons.mpr ⟨advancing.inbox, noting_hushes fired⟩⟩
      have done := (fireAt_history advancing.balanced next).hushed advancing.balanced hushed here
      have later := ih (advancing.fireAt next).1 done
      exact List.forall_mem_append.mpr ⟨here, later⟩

theorem request_hushes (balanced : session.sync.Balanced)
    (delayed : 0 < session.sync.config.rebuildDelay) (hushed : Hushed session) (request : Request)
    (whileSuppressed : ∀ command, request = .edit command → command.mutates = true →
      session.sync.phase = .suppressed) :
    ∀ moment ∈ (Call.request request).moments session, moment.deed.Hushes moment.before := by
  have noted := noting_hushes hushed
  cases request with
  | edit command => exact List.forall_mem_singleton.mpr (whileSuppressed command rfl)
  | advance duration =>
    unfold Call.moments
    cases disposed : session.sync.disposed with
    | true => simp
    | false =>
      have pumped := (noting_history session).hushed balanced hushed noted
      have fired := firing_hushes (Advancing.pump balanced disposed delayed duration) pumped
        (session.taskBound duration)
      exact List.forall_mem_append.mpr
        ⟨List.forall_mem_append.mpr ⟨noted, fired⟩, List.forall_mem_singleton.mpr trivial⟩
  | activateText library text =>
    unfold Call.moments
    dsimp only
    cases Program.ofText library text with
    | ok program => exact List.forall_mem_singleton.mpr trivial
    | error error => simp
  | requestPlay =>
    unfold Call.moments
    dsimp only
    cases session.sync.disposed with
    | true => exact List.forall_mem_singleton.mpr trivial
    | false =>
      exact List.forall_mem_append.mpr ⟨noted,
        List.forall_mem_cons.mpr ⟨trivial, List.forall_mem_singleton.mpr trivial⟩⟩
  | _ => exact List.forall_mem_singleton.mpr trivial

/-! ## A run -/

theorem chronicle_hushes (balanced : session.sync.Balanced)
    (delayed : 0 < session.sync.config.rebuildDelay) (hushed : Hushed session)
    (requests : List Request)
    (whileSuppressed : ∀ earlier command later, requests = earlier ++ .edit command :: later →
      command.mutates = true → (session.after earlier).sync.phase = .suppressed) :
    ∀ moment ∈ session.chronicle (requests.map .request), moment.deed.Hushes moment.before := by
  induction requests generalizing session with
  | nil => simp [chronicle]
  | cons request requests ih =>
    have here := request_hushes balanced delayed hushed request fun command edit =>
      whileSuppressed [] command requests (by rw [edit, List.nil_append])
    have history := call_history balanced delayed (.request request)
    refine List.forall_mem_append.mpr ⟨here, ih (history.balanced balanced) ?_
      (history.hushed balanced hushed here) fun earlier command later split => ?_⟩
    · rwa [(history.settings balanced).1]
    · exact whileSuppressed (request :: earlier) command later (by rw [split, List.cons_append])

theorem afterCalls_map (requests : List Request) :
    session.afterCalls (requests.map .request) = session.after requests :=
  List.foldl_map

theorem Moment.accepts_of_hushes {moment : Moment} (hushes : moment.deed.Hushes moment.before) :
    moment.accepts = false := by
  rcases moment with ⟨before, deed⟩
  cases deed with
  | note change => exact hushes
  | _ => rfl

end

/-- If people change blocks only while the session is suppressed, then no change ever
counts, whoever made it and whenever the session looks at it, nothing is ever
published, and no compilation is ever pending. -/
theorem silent_while_suppressed (config : SessionConfig) (ids : StepIds)
    (delayed : 0 < config.sync.rebuildDelayMs) (requests : List Request)
    (whileSuppressed : ∀ earlier command later, requests = earlier ++ .edit command :: later →
      command.mutates = true → ((ofConfig config ids).after earlier).sync.phase = .suppressed) :
    (∀ moment ∈ (ofConfig config ids).chronicle (requests.map .request),
        moment.accepts = false ∧ moment.publishes = false) ∧
      ∀ earlier later, requests = earlier ++ later →
        ((ofConfig config ids).after earlier).published = #[] ∧
          ((ofConfig config ids).after earlier).sync.debounce.isPending = false := by
  have balanced : (ofConfig config ids).sync.Balanced := Coordinator.balanced_ofConfig config
  have positive : 0 < (ofConfig config ids).sync.config.rebuildDelay := rebuildDelay_pos delayed
  have hushed := hushed_ofConfig config ids
  constructor
  · have hushes := chronicle_hushes balanced positive hushed requests whileSuppressed
    have refused := fun moment found => Moment.accepts_of_hushes (hushes moment found)
    have history : History (ofConfig config ids) _ _ :=
      afterCalls_history config delayed rfl (requests.map .request)
    have silent := List.filter_eq_nil_iff.mp (history.silent balanced hushed.quiet refused)
    exact fun moment found => ⟨refused moment found, by simpa using silent moment found⟩
  · intro earlier later split
    have hushes := chronicle_hushes balanced positive hushed earlier
      fun first command next within => whileSuppressed first command (next ++ later)
        (by rw [split, within, List.append_assoc, List.cons_append])
    have history : History (ofConfig config ids) _ _ :=
      afterCalls_history config delayed rfl (earlier.map .request)
    rw [afterCalls_map] at history
    have still := history.hushed balanced hushed hushes
    exact ⟨still.published, by simp [Timer.isPending, still.quiet]⟩

/-- The empty program is built into blocks, and a block is created in the grace
window. -/
def editedWhileSettling : List Request :=
  [.listen, .activate .empty, .advance 50000000, .edit (.create .pause), .advance 1000000000]

theorem silent_editedWhileSettling :
    ((ofConfig {} .counting).after editedWhileSettling).published = #[] := by
  refine ((silent_while_suppressed {} .counting (by decide) editedWhileSettling ?_).2
    editedWhileSettling [] (List.append_nil _).symm).1
  intro earlier command later split _
  match earlier with
  | [] | [_] | [_, _] => cases split
  | [_, _, _] =>
    cases split
    decide +kernel
  | [_, _, _, _] => cases split
  | _ :: _ :: _ :: _ :: _ :: earlier =>
    simp [editedWhileSettling] at split

end Session
end MotionBlocks
