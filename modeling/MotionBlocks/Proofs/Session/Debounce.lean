import MotionBlocks.Proofs.Session.Advance

namespace MotionBlocks

/-!
# The debounce

People edit in bursts, and the host wants one program for a burst.  A program is
published exactly one debounce after a change that counted, if nothing happened in
between that a new start of the debounce or a rebuild would be; and a change that
counted is always followed by such a publication.  The two directions are read off
one fact, what each moment of a run does to the timer.
-/

namespace Session

namespace Moment

/-! ## What happens at a moment -/

/-- A change counts. -/
def accepts (moment : Moment) : Bool :=
  match moment.deed with
  | .note change => moment.before.sync.accepts change
  | _ => false

/-- A queued program is built into blocks. -/
def installs (moment : Moment) : Bool :=
  match moment.deed with
  | .fire .rebuild => moment.before.sync.phase == .idle && moment.before.sync.queued.isSome
  | .settle => moment.before.sync.queued.isSome
  | _ => false

/-- The host empties the workspace. -/
def clears (moment : Moment) : Bool :=
  match moment.deed with
  | .clear => !moment.before.sync.disposed
  | _ => false

def disposes (moment : Moment) : Bool :=
  match moment.deed with
  | .dispose => true
  | _ => false

/-- The debounce comes to its end. -/
def publishes (moment : Moment) : Bool :=
  match moment.deed with
  | .fire .debounce => true
  | _ => false

def edits (moment : Moment) : Bool :=
  match moment.deed with
  | .edit _ => true
  | _ => false

/-- A compilation that was pending is called off. -/
def callsOff (moment : Moment) : Bool :=
  moment.installs || moment.clears || moment.disposes

/-- Nothing happens that the debounce takes notice of. -/
def uneventful (moment : Moment) : Bool :=
  !moment.accepts && !moment.callsOff && !moment.publishes

/-- A program is what was compiled last, and every listener is given it, in the order
of registration. -/
def GivesOut (moment : Moment) (program : Program) : Prop :=
  moment.after.sync.current = program ∧
    moment.after.published.toList = moment.before.published.toList ++
      moment.before.sync.listeners.entries.map fun listener => ⟨listener.1, program⟩

end Moment

theorem Moment.uneventful_iff {moment : Moment} :
    moment.uneventful = true ↔
      moment.accepts = false ∧ moment.callsOff = false ∧ moment.publishes = false := by
  simp [uneventful, and_assoc]

section

variable {session after last : Session} {deed : Deed} {moments : List Moment} {due : Nat}

/-! ## What a moment does to the debounce -/

/-- The three things that can happen to the debounce at a moment. -/
inductive Moment.Sets (moment : Moment) : Timer → Prop where
  | start : moment.accepts = true →
    moment.Sets (.schedule moment.clock moment.before.sync.config.debounce)
  | stop : moment.accepts = false → moment.callsOff = true ∨ moment.publishes = true →
    moment.Sets .unset
  | leave : moment.uneventful = true → moment.Sets moment.before.sync.debounce

/-- A change that counts starts the debounce, a rebuild and the like stop it, its own
end stops it, and everything else leaves it alone. -/
theorem Effect.sets_debounce (effect : Effect session deed after)
    (balanced : session.sync.Balanced) (timely : deed.Timely session) :
    Moment.Sets ⟨session, deed⟩ after.sync.debounce := by
  cases effect with
  | ignore refused => exact .leave (Moment.uneventful_iff.mpr ⟨refused, rfl, rfl⟩)
  | accept accepted => exact .start accepted
  | postpone suppressed =>
    have off : (⟨session, .fire .rebuild⟩ : Moment).callsOff = false := by
      simp [Moment.callsOff, Moment.installs, Moment.clears, Moment.disposes, suppressed]
    exact .leave (Moment.uneventful_iff.mpr ⟨rfl, off, rfl⟩)
  | install idle queued =>
    exact .stop rfl (.inl (by simp [Moment.callsOff, Moment.installs, idle, queued]))
  | publish idle =>
    have spent : session.proclaimed.sync.debounce = .unset :=
      congrArg Prod.snd (Timer.take_of_due timely)
    rw [spent]
    exact .stop rfl (.inr rfl)
  | activate program =>
    have same : (session.activate program).sync.debounce = session.sync.debounce := by
      simp only [Session.activate, coordinate, Coordinator.activate]
      split <;> rfl
    rw [same]
    exact .leave rfl
  | settle queued => exact .stop rfl (.inl (by simp [Moment.callsOff, Moment.installs, queued]))
  | settled empty =>
    have off : (⟨session, .settle⟩ : Moment).callsOff = false := by
      simp [Moment.callsOff, Moment.installs, Moment.clears, Moment.disposes, empty]
    exact .leave (Moment.uneventful_iff.mpr ⟨rfl, off, rfl⟩)
  | clear live => exact .stop rfl (.inl (by simp [Moment.callsOff, Moment.clears, live]))
  | wipe disposed =>
    have off : (⟨session, .clear⟩ : Moment).callsOff = false := by
      simp [Moment.callsOff, Moment.installs, Moment.clears, Moment.disposes, disposed]
    exact .leave (Moment.uneventful_iff.mpr ⟨rfl, off, rfl⟩)
  | dispose =>
    have stopped : session.dispose.sync.debounce = .unset := balanced.debounce_dispose
    rw [stopped]
    exact .stop rfl (.inl rfl)
  | _ => exact .leave rfl

theorem Moment.Sets.started {moment : Moment} {timer : Timer} (sets : moment.Sets timer)
    (accepted : moment.accepts = true) :
    timer = .schedule moment.clock moment.before.sync.config.debounce := by
  cases sets with
  | start _ => rfl
  | stop refused _ => simp [accepted] at refused
  | leave uneventful =>
    have refused := (Moment.uneventful_iff.mp uneventful).1
    simp [accepted] at refused

/-- A debounce that ends, or is not pending, is not pending afterwards. -/
theorem Moment.Sets.idle {moment : Moment} {timer : Timer} (sets : moment.Sets timer)
    (refused : moment.accepts = false)
    (ended : moment.publishes = true ∨ moment.before.sync.debounce.due = none) :
    timer.due = none := by
  cases sets with
  | start accepted => simp [refused] at accepted
  | stop _ _ => rfl
  | leave uneventful =>
    have silent := (Moment.uneventful_iff.mp uneventful).2.2
    rcases ended with publishes | idle
    · simp [silent] at publishes
    · exact idle

theorem Moment.Sets.leaves {moment : Moment} {timer : Timer} (sets : moment.Sets timer)
    (uneventful : moment.uneventful = true) : timer = moment.before.sync.debounce := by
  rcases Moment.uneventful_iff.mp uneventful with ⟨refused, kept, silent⟩
  cases sets with
  | start accepted => simp [refused] at accepted
  | stop _ stopped => simp [kept, silent] at stopped
  | leave _ => rfl

/-- Taking note of a change leaves the workspace as it is. -/
theorem Moment.workspace_of_accepts {moment : Moment} (accepted : moment.accepts = true) :
    moment.after.workspace = moment.before.workspace := by
  rcases moment with ⟨before, deed⟩
  cases deed with
  | note change => rfl
  | _ => cases accepted

/-- The moment at which the debounce comes to its end is its deadline. -/
theorem Moment.due_of_publishes {moment : Moment} (publishes : moment.publishes = true)
    (timely : moment.deed.Timely moment.before) :
    moment.before.sync.debounce.due = some moment.clock := by
  rcases moment with ⟨before, deed⟩
  cases deed with
  | fire task =>
    cases task with
    | debounce => exact timely
    | _ => cases publishes
  | _ => cases publishes

/-- The end of the debounce gives the program of the blocks to every listener. -/
theorem Effect.publication (effect : Effect session deed after)
    (publishes : (⟨session, deed⟩ : Moment).publishes = true) :
    session.sync.phase = .idle ∧ after.sync.current = session.program ∧
      after.published.toList = session.published.toList ++
        session.sync.listeners.entries.map fun listener => ⟨listener.1, session.program⟩ := by
  cases effect with
  | publish idle =>
    refine ⟨idle, rfl, ?_⟩
    simp only [proclaimed, List.foldl_push_eq_append, Array.toList_append]
  | _ => cases publishes

/-- Nothing else is given to the listeners. -/
theorem Effect.published_eq (effect : Effect session deed after)
    (silent : (⟨session, deed⟩ : Moment).publishes = false) :
    deed = .takePublished ∨ after.published = session.published := by
  cases effect with
  | publish idle => cases silent
  | takePublished => exact .inl rfl
  | install | settle => exact .inr (published_rebuilt _ _)
  | _ => exact .inr rfl

/-- The blocks stay as they are while nobody edits them and the debounce is left
alone. -/
theorem Effect.store_eq (effect : Effect session deed after)
    (live : session.sync.disposed = false)
    (uneventful : (⟨session, deed⟩ : Moment).uneventful = true)
    (unedited : (⟨session, deed⟩ : Moment).edits = false) :
    after.workspace.store = session.workspace.store := by
  have calm := (Moment.uneventful_iff.mp uneventful).2.1
  cases effect with
  | edit command => cases unedited
  | install idle queued =>
    simp [Moment.callsOff, Moment.installs, idle, queued] at calm
  | settle queued => simp [Moment.callsOff, Moment.installs, queued] at calm
  | clear _ => simp [Moment.callsOff, Moment.clears, live] at calm
  | wipe disposed => simp [live] at disposed
  | dispose => cases calm
  | _ => rfl

/-! ## Looking back from a pending debounce -/

/-- A change counted a delay before a time, and nothing has happened since. -/
def StartedBy (moments : List Moment) (delay due : Nat) : Prop :=
  ∃ first cause between, moments = first ++ cause :: between ∧ cause.accepts = true ∧
    cause.clock + delay = due ∧ ∀ other ∈ between, other.uneventful = true

/-- A debounce that is pending in the end was so all the time, or has been started. -/
theorem History.startedBy (history : History session moments last)
    (balanced : session.sync.Balanced) (pending : last.sync.debounce.due = some due) :
    (session.sync.debounce.due = some due ∧ ∀ moment ∈ moments, moment.uneventful = true) ∨
      StartedBy moments session.sync.config.debounce due := by
  -- The induction runs along the history, but the pending debounce is at its end, so
  -- each moment is asked what the debounce was before it.
  induction history with
  | nil session => exact .inl ⟨pending, by simp⟩
  | @cons session last deed moments timely rest ih =>
    have effect := perform_effect balanced timely
    have sets := effect.sets_debounce balanced timely
    rcases ih (effect.balanced balanced timely) pending with
      ⟨before, quiet⟩ | ⟨first, cause, between, split, accepted, time, quiet⟩
    · generalize (deed.perform session).sync.debounce = timer at sets before
      cases sets with
      | start accepted =>
        exact .inr ⟨[], _, moments, rfl, accepted, Option.some.inj before, quiet⟩
      | stop refused stopped => cases before
      | leave uneventful => exact .inl ⟨before, List.forall_mem_cons.mpr ⟨uneventful, quiet⟩⟩
    · refine .inr ⟨⟨session, deed⟩ :: first, cause, between, ?_, accepted, ?_, quiet⟩
      · rw [split, List.cons_append]
      · rwa [← effect.settings.1]

/-! ## Looking ahead from a pending debounce -/

/-- Without a change that counts, a debounce that is not pending stays so. -/
theorem History.silent (history : History session moments last)
    (balanced : session.sync.Balanced) (idle : session.sync.debounce.due = none)
    (refused : ∀ moment ∈ moments, moment.accepts = false) :
    moments.filter Moment.publishes = [] := by
  induction history with
  | nil => rfl
  | @cons session last deed moments timely rest ih =>
    rcases List.forall_mem_cons.mp refused with ⟨refusedHere, refusedLater⟩
    have effect := perform_effect balanced timely
    have sets := effect.sets_debounce balanced timely
    have idleLater := sets.idle refusedHere (.inr idle)
    have silent : (⟨session, deed⟩ : Moment).publishes = false := by
      by_contra publishes
      have due := Moment.due_of_publishes (by simpa using publishes) timely
      rw [idle] at due
      cases due
    rw [List.filter_cons_of_neg (by simp [silent])]
    exact ih (effect.balanced balanced timely) idleLater refusedLater

/-- A pending debounce that nothing interferes with until its deadline has passed
comes to its end once, at the deadline. -/
theorem History.once (history : History session moments last)
    (balanced : session.sync.Balanced) (pending : session.sync.debounce.due = some due)
    (refused : ∀ moment ∈ moments, moment.accepts = false)
    (kept : ∀ moment ∈ moments, moment.clock ≤ due → moment.callsOff = false)
    (ended : ∀ time, last.sync.debounce.due = some time → due < time) :
    ∃ publication, moments.filter Moment.publishes = [publication] ∧ publication.clock = due ∧
      ((∀ moment ∈ moments, moment.edits = false) →
        publication.before.workspace.store = session.workspace.store) := by
  induction history with
  | nil => exact absurd (ended due pending) (Nat.lt_irrefl due)
  | @cons session last deed moments timely rest ih =>
    rcases List.forall_mem_cons.mp refused with ⟨refusedHere, refusedLater⟩
    rcases List.forall_mem_cons.mp kept with ⟨keptHere, keptLater⟩
    have effect := perform_effect balanced timely
    have sets := effect.sets_debounce balanced timely
    have balancedLater := effect.balanced balanced timely
    have calm := keptHere (balanced.timely .debounce due pending).1
    -- The debounce ends at this moment, or the moment leaves it alone: for anything else
    -- to happen to it there would have to be a reason before its deadline.
    cases publishes : (⟨session, deed⟩ : Moment).publishes with
    | true =>
      have now := Moment.due_of_publishes publishes timely
      have idleLater := sets.idle refusedHere (.inl publishes)
      refine ⟨⟨session, deed⟩, ?_, ?_, fun _ => rfl⟩
      · rw [List.filter_cons_of_pos publishes, rest.silent balancedLater idleLater refusedLater]
      · exact Option.some.inj (now.symm.trans pending)
    | false =>
      have uneventful : (⟨session, deed⟩ : Moment).uneventful = true :=
        Moment.uneventful_iff.mpr ⟨refusedHere, calm, publishes⟩
      have pendingLater : (deed.perform session).sync.debounce.due = some due := by
        rw [sets.leaves uneventful]
        exact pending
      rcases ih balancedLater pendingLater refusedLater keptLater ended with
        ⟨publication, only, time, same⟩
      refine ⟨publication, ?_, time, fun unedited => ?_⟩
      · rwa [List.filter_cons_of_neg (by simp [publishes])]
      · rcases List.forall_mem_cons.mp unedited with ⟨uneditedHere, uneditedLater⟩
        have live := balanced.live .debounce due pending
        rw [same uneditedLater, effect.store_eq live uneventful uneditedHere]

/-! ## The law -/

/-- What is given out when the debounce ends, and what had started it. -/
theorem History.publication {config : SessionConfig} {start : Session} {moment : Moment}
    {earlier later : List Moment} (fresh : start.sync = .ofConfig config)
    (history : History start (earlier ++ moment :: later) last)
    (publishes : moment.publishes = true) :
    moment.before.sync.phase = .idle ∧
      moment.GivesOut (moment.before.workspace.compile config.compile moment.before.ids).1.program ∧
      StartedBy earlier config.sync.debounce moment.clock := by
  have balanced : start.sync.Balanced := fresh ▸ Coordinator.balanced_ofConfig config
  rcases history.split with ⟨before, timely, -⟩
  have due := Moment.due_of_publishes publishes timely
  have options : moment.before.sync.options = config.compile := by
    rw [(before.settings balanced).2, fresh]
    rfl
  have started := before.startedBy balanced due
  have effect := perform_effect (before.balanced balanced) timely
  rcases effect.publication publishes with ⟨idle, current, given⟩
  rw [program, options] at current given
  refine ⟨idle, ⟨current, given⟩, ?_⟩
  rcases started with ⟨pending, -⟩ | started
  · rw [fresh] at pending
    cases pending
  · rwa [fresh] at started

/-- A change that counts, with none after it and nothing that calls off its
compilation, leads to one publication of the blocks. -/
theorem History.answered {config : SessionConfig} {start : Session} {cause : Moment}
    {earlier later : List Moment} (fresh : start.sync = .ofConfig config)
    (history : History start (earlier ++ cause :: later) last) (accepted : cause.accepts = true)
    (refused : ∀ moment ∈ later, moment.accepts = false)
    (kept : ∀ moment ∈ later, moment.clock ≤ cause.clock + config.sync.debounce →
      moment.callsOff = false)
    (ended : ∀ time, last.sync.debounce.due = some time →
      cause.clock + config.sync.debounce < time) :
    ∃ publication, later.filter Moment.publishes = [publication] ∧
      publication.clock = cause.clock + config.sync.debounce ∧
      ((∀ moment ∈ later, moment.edits = false) →
        publication.GivesOut
          (cause.before.workspace.compile config.compile publication.before.ids).1.program) := by
  rcases history.split with ⟨before, timely, rest⟩
  have settings := (before.settings (fresh ▸ Coordinator.balanced_ofConfig config)).1
  have balanced := before.balanced (fresh ▸ Coordinator.balanced_ofConfig config)
  have effect := perform_effect balanced timely
  rw [fresh] at settings
  have pending : cause.after.sync.debounce.due = some (cause.clock + config.sync.debounce) := by
    have started := (effect.sets_debounce balanced timely).started accepted
    rw [settings] at started
    exact congrArg Timer.due started
  rcases rest.once (effect.balanced balanced timely) pending refused kept ended with
    ⟨publication, only, time, same⟩
  refine ⟨publication, only, time, fun unedited => ?_⟩
  have found : publication ∈ later ∧ publication.publishes = true := by
    rw [← List.mem_filter, only]
    exact List.mem_singleton_self publication
  rcases List.append_of_mem found.1 with ⟨first, next, split⟩
  rw [split, ← List.cons_append, ← List.append_assoc] at history
  have given := (history.publication fresh found.2).2.1
  have sameStore := same unedited
  rw [Moment.workspace_of_accepts accepted] at sameStore
  rwa [Workspace.compile_congr sameStore] at given

/-- A program is published exactly one debounce after a change that counted with
nothing in between that the debounce takes notice of, it is the program of the
blocks at that time, and every listener is given it; listeners are given nothing
else.  And a change that counts, with none after it and nothing that calls off its
compilation, is followed by exactly one publication, a debounce later. -/
theorem debounced (config : SessionConfig) (delayed : 0 < config.sync.rebuildDelayMs)
    (start : Session) (fresh : start.sync = .ofConfig config) (calls : List Call) :
    History start (start.chronicle calls) (start.afterCalls calls) ∧
      (∀ earlier moment later, start.chronicle calls = earlier ++ moment :: later →
        if moment.publishes then
          moment.before.sync.phase = .idle ∧
            moment.GivesOut
              (moment.before.workspace.compile config.compile moment.before.ids).1.program ∧
            StartedBy earlier config.sync.debounce moment.clock
        else
          moment.deed = .takePublished ∨ moment.after.published = moment.before.published) ∧
      ∀ duration earlier cause later,
        start.chronicle (calls ++ [.request (.advance duration)]) = earlier ++ cause :: later →
        cause.accepts = true →
        (∀ moment ∈ later, moment.accepts = false) →
        (∀ moment ∈ later, moment.clock ≤ cause.clock + config.sync.debounce →
          moment.callsOff = false) →
        cause.clock + config.sync.debounce ≤
          (start.afterCalls (calls ++ [.request (.advance duration)])).sync.clock →
        ∃ publication, later.filter Moment.publishes = [publication] ∧
          publication.clock = cause.clock + config.sync.debounce ∧
          ((∀ moment ∈ later, moment.edits = false) →
            publication.GivesOut (cause.before.workspace.compile config.compile
              publication.before.ids).1.program) := by
  have balanced : start.sync.Balanced := fresh ▸ Coordinator.balanced_ofConfig config
  have history := afterCalls_history config delayed fresh
  refine ⟨history calls, fun earlier moment later split => ?_, ?_⟩
  · have through := history calls
    rw [split] at through
    split
    · rename_i publishes
      exact through.publication fresh publishes
    · rename_i silent
      rcases through.split with ⟨before, timely, -⟩
      have effect := perform_effect (before.balanced balanced) timely
      exact effect.published_eq (by simpa using silent)
  · intro duration earlier cause later split accepted refused kept ended
    have through := history (calls ++ [.request (.advance duration)])
    have reached : start.afterCalls (calls ++ [.request (.advance duration)]) =
        (start.afterCalls calls).advance duration := List.foldl_append
    rw [split] at through
    rw [reached] at through ended
    refine through.answered fresh accepted refused kept fun time deadline => ?_
    rcases balanced_afterCalls config delayed fresh calls with ⟨balancedThere, settings⟩
    have positive : 0 < (start.afterCalls calls).sync.config.rebuildDelay := by
      rw [settings]
      exact rebuildDelay_pos delayed
    have deadlineThere : ((start.afterCalls calls).advance duration).sync.deadline .debounce =
        some time := deadline
    exact Nat.lt_of_le_of_lt ended (lt_deadline_advance balancedThere positive deadlineThere)

/-- With somebody listening, a pause is put behind a start block, and while the debounce for
that is pending, another block is created. -/
def burst : List Call :=
  [.request .listen, .request (.edit (.create .start)), .request (.edit (.create .pause)),
    .request (.edit (.connectNext (.numbered 0) (.numbered 1))), .request (.advance 100000000),
    .request (.edit (.create .pause))]

def burstMoments : List Moment :=
  (ofConfig {} .counting).chronicle (burst ++ [.request (.advance 1000000000)])

/-- The pause behind the start block. -/
def onePause : Program where
  steps := [⟨"pause", .pausing Defaults.duration⟩]

/-- There is one publication for the burst, a debounce after its last change, and the
listener is given the pause. -/
theorem debounced_burst :
    ∃ publication, burstMoments.filter Moment.publishes = [publication] ∧
      publication.clock = 300000000 ∧ ∃ program : Program,
        program.sameEffect onePause = true ∧
          publication.after.published.toList = [⟨0, program⟩] := by
  have split := (List.take_append_drop 11 burstMoments).symm
  rw [List.drop_eq_getElem_cons (show 11 < burstMoments.length by decide +kernel)] at split
  rcases (debounced {} (by decide) (ofConfig {} .counting) rfl burst).2.2 1000000000 _ _ _ split
    (by decide +kernel) (by decide +kernel) (by decide +kernel) (by decide +kernel) with
    ⟨publication, only, time, given⟩
  have silent : (burstMoments.take 11).filter Moment.publishes = [] := by
    rw [List.filter_eq_nil_iff]
    decide +kernel
  have single : burstMoments.filter Moment.publishes = [publication] := by
    rw [split, List.filter_append, silent, List.nil_append, List.filter_cons_of_neg]
    · exact only
    · decide +kernel
  have found : ∀ moment ∈ burstMoments.filter Moment.publishes,
      moment.before.published.toList.isEmpty = true ∧
        moment.before.sync.listeners.entries.map (·.1) = [0] := by
    decide +kernel
  rcases found publication (by simp [single]) with ⟨nothing, listening⟩
  rcases given (by decide +kernel) with ⟨-, published⟩
  rcases List.map_eq_singleton_iff.mp listening with ⟨listener, alone, first⟩
  rw [List.isEmpty_iff.mp nothing, alone, List.nil_append, List.map_singleton, first] at published
  refine ⟨publication, single, time.trans (by decide +kernel), _, ?_, published⟩
  rw [Program.sameEffect, Workspace.motions_compile_congr _ _ .counting]
  decide +kernel

end

end Session
end MotionBlocks
