import MotionBlocks.Proofs.Rebuilding.RoundTrip
import MotionBlocks.Proofs.Session.Runs

namespace MotionBlocks

/-!
# Playing what was activated

A host that activates a program and asks for play at once should be given that
program, whatever the workspace holds.  It is given the program whenever the
activation leads to a rebuild.  An activation is passed over when nothing is
queued and the session takes the workspace for the program already, and then the
answer is whatever the workspace has become in the meantime.
-/

namespace Program

/-- A program is the answer to a request for play if the answer has the effect of
the program, or if the program is empty and the answer says so. -/
def AnsweredBy (program : Program) (answer : Except PlayError Program) : Prop :=
  (program.isEmpty = false → ∃ played, answer = .ok played ∧ played.sameEffect program = true) ∧
    (program.isEmpty = true → answer = .error .emptyProgram)

section

variable {first second program : Program}

theorem isEmpty_of_sameEffect (same : first.sameEffect second = true) :
    first.isEmpty = second.isEmpty := by
  have lengths : first.motions.length = second.motions.length := List.length_eq_of_beq same
  simp only [motions, List.length_map] at lengths
  rw [isEmpty, isEmpty, Bool.eq_iff_iff, List.isEmpty_iff_length_eq_zero,
    List.isEmpty_iff_length_eq_zero, lengths]

/-- A compiled program answers for a program if and only if it has its effect. -/
theorem answeredBy_iff (compiled program : Program) :
    program.AnsweredBy (if compiled.isEmpty then .error .emptyProgram else .ok compiled) ↔
      compiled.sameEffect program = true := by
  constructor
  · rintro ⟨played, refused⟩
    by_cases nothing : program.isEmpty = true
    · have empty : compiled.isEmpty = true := by
        by_contra some
        simpa [some] using refused nothing
      rw [isEmpty, List.isEmpty_iff] at nothing empty
      simp [sameEffect, motions, nothing, empty]
    · rcases played (by simpa using nothing) with ⟨answer, given, same⟩
      by_cases empty : compiled.isEmpty = true
      · simp [empty] at given
      · obtain rfl : compiled = answer := by simpa [empty] using given
        exact same
  · intro same
    rw [isEmpty_of_sameEffect same]
    refine ⟨fun some => ⟨compiled, by simp [some], same⟩, fun nothing => by simp [nothing]⟩

theorem sameEffect_of_beq (agree : (first == second) = true) : first.sameEffect second = true := by
  rcases first with ⟨steps⟩
  rcases second with ⟨others⟩
  have same : (steps == others) = true := agree
  show (steps.map (·.motion) == others.map (·.motion)) = true
  clear agree
  induction steps generalizing others with
  | nil =>
    cases others with
    | nil => rfl
    | cons other others => simp at same
  | cons step steps ih =>
    cases others with
    | nil => simp at same
    | cons other others =>
      simp only [List.cons_beq_cons, List.map_cons, Bool.and_eq_true] at same ⊢
      have parts : instBEqStep.beq step other = true := same.1
      simp only [instBEqStep.beq, Bool.and_eq_true] at parts
      exact ⟨parts.2, ih others same.2⟩

end

end Program

namespace Motion

/-- Motions come back from a rebuild if ones that agree with them do. -/
theorem map_rebuilt_beq {first second : List Motion} (agree : (first == second) = true)
    (back : (second.map rebuilt == second) = true) : (first.map rebuilt == second) = true := by
  induction first generalizing second with
  | nil =>
    cases second with
    | nil => rfl
    | cons motion motions => simp at agree
  | cons upper first ih =>
    cases second with
    | nil => simp at agree
    | cons lower second =>
      simp only [List.cons_beq_cons, List.map_cons, Bool.and_eq_true] at agree back ⊢
      exact ⟨rebuilt_beq agree.1 back.1, ih agree.2 back.2⟩

end Motion

namespace Session

section

variable {session : Session} {program : Program}

/-! ## What is compiled for play -/

/-- The program compiled for play depends on the blocks and the settings only. -/
theorem compile_motions_congr {first second : Session}
    (sameStore : first.workspace.store = second.workspace.store)
    (sameOptions : first.sync.options = second.sync.options) :
    first.compile.1.motions = second.compile.1.motions := by
  rw [compile_eq, compile_eq]
  calc (first.workspace.compile first.sync.options first.ids).1.program.motions
      = (first.workspace.compile second.sync.options second.ids).1.program.motions := by
        rw [sameOptions, first.workspace.motions_compile_congr]
    _ = (second.workspace.compile second.sync.options second.ids).1.program.motions := by
        rw [Workspace.compile_congr sameStore]

/-- With nothing queued, the workspace is played as it is. -/
theorem compile_settled_of_none (coherent : session.sync.Coherent)
    (empty : session.sync.queued = none) :
    session.pump.installPending.compile.1.motions = session.compile.1.motions := by
  have idle : session.sync.rebuild.isPending = false := by
    rw [← coherent, empty]
    rfl
  rcases session.pump_eq with ⟨installed, debounce, pumped⟩
  have settled : session.pump.installPending = session.pump.coordinate fun sync =>
      { sync with rebuild := .unset } := by
    rw [pumped]
    simp [installPending, Timer.cancel, idle]
  rw [settled, pumped]
  exact compile_motions_congr rfl rfl

/-- With a program queued, what is played is what comes back of it. -/
theorem compile_settled_of_some {queued : Program} (coherent : session.sync.Coherent)
    (waiting : session.sync.queued = some queued) :
    session.pump.installPending.compile.1.motions = queued.motions.map Motion.rebuilt := by
  have pending : session.sync.rebuild.isPending = true := by
    rw [← coherent, waiting]
    rfl
  rcases session.pump_eq with ⟨installed, debounce, pumped⟩
  let unscheduled := session.pump.coordinate fun sync => { sync with rebuild := .unset }
  have settled : session.pump.installPending = unscheduled.installQueued := by
    simp [unscheduled, installPending, Timer.cancel, pumped, pending]
  have there : unscheduled.sync.queued = some queued := by
    simp [unscheduled, coordinate, pumped, waiting]
  rw [settled, installQueued_of_some there, install_eq, compile_eq]
  generalize unscheduled.coordinate _ = emptied
  have sameStore : (emptied.workspace.rebuild queued).2.takeInbox.2.store =
      (emptied.workspace.rebuild queued).2.store := rfl
  dsimp only
  rw [Workspace.compile_congr sameStore]
  exact (emptied.workspace.rebuild_motions queued _ _).2

/-- An activation that is not passed over leaves a program queued that is the
activated one or agrees with it. -/
theorem activate_queued (live : session.sync.disposed = false)
    (changed : ¬ (session.sync.queued = none ∧ (session.sync.installed == some program) = true)) :
    ∃ queued, (session.activate program).sync.queued = some queued ∧
      (queued = program ∨ (queued == program) = true) := by
  unfold activate coordinate Coordinator.activate Coordinator.represents
  dsimp only
  cases waiting : session.sync.queued with
  | none =>
    have other : (session.sync.installed == some program) = false := by
      simpa [waiting] using changed
    exact ⟨program, by simp [live, other], Or.inl rfl⟩
  | some queued =>
    cases agree : queued == program with
    | true => exact ⟨queued, by simp [waiting, agree], Or.inr agree⟩
    | false => exact ⟨program, by simp [live, agree], Or.inl rfl⟩

/-- An activation that is passed over changes nothing. -/
theorem activate_of_represented (empty : session.sync.queued = none)
    (represented : (session.sync.installed == some program) = true) :
    session.activate program = session := by
  simp [activate, coordinate, Coordinator.activate, Coordinator.represents, empty, represented]

/-- A program is answered for if and only if the workspace that is compiled for
play has its effect. -/
theorem answeredBy_requestPlay_iff (live : session.sync.disposed = false) :
    program.AnsweredBy session.requestPlay.1 ↔
      session.pump.installPending.compile.1.sameEffect program = true := by
  rw [requestPlay_eq]
  simp only [live, Bool.false_eq_true, if_false]
  exact Program.answeredBy_iff _ _

/-! ## The answer to a request for play -/

/-- A program that comes back from a rebuild is played right after its activation,
in every state of a session, unless nothing is queued, the session takes the
workspace for the program and the workspace has become something else. -/
theorem requestPlay_activate_iff (config : SessionConfig) (ids : StepIds) (requests : List Request)
    (program : Program) {commands : List Workspace.Command} {options : CompileOptions}
    {otherIds : StepIds}
    (comesBack : (((Workspace.empty.after commands).rebuild program).2.compile options
      otherIds).1.program.sameEffect program = true)
    (live : ((ofConfig config ids).after requests).sync.disposed = false) :
    program.AnsweredBy (((ofConfig config ids).after requests).activate program).requestPlay.1 ↔
      (((ofConfig config ids).after requests).sync.queued = none →
        (((ofConfig config ids).after requests).sync.installed == some program) = true →
          ((ofConfig config ids).after requests).compile.1.sameEffect program = true) := by
  have coherent := coherent_after config ids requests
  generalize (ofConfig config ids).after requests = session at *
  have back := (Workspace.sameEffect_rebuild_iff _ program options otherIds).mp comesBack
  rw [← Motion.map_beq_iff] at back
  have stillLive : (session.activate program).sync.disposed = false := by
    simp only [activate, coordinate, Coordinator.activate]
    split
    · exact live
    · exact live
  rw [answeredBy_requestPlay_iff stillLive]
  by_cases passed : session.sync.queued = none ∧ (session.sync.installed == some program) = true
  · rcases passed with ⟨empty, represented⟩
    rw [activate_of_represented empty represented]
    simp only [empty, represented, forall_const, Program.sameEffect,
      compile_settled_of_none coherent empty]
  · rcases activate_queued live passed with ⟨queued, waiting, alike⟩
    have same : (queued.motions.map Motion.rebuilt == program.motions) = true := by
      rcases alike with rfl | agree
      · exact back
      · exact Motion.map_rebuilt_beq (Program.sameEffect_of_beq agree) back
    have played : (session.activate program).pump.installPending.compile.1.sameEffect program =
        true := by
      rw [Program.sameEffect, compile_settled_of_some (coherent.activate program) waiting]
      exact same
    exact iff_of_true played fun empty represented => absurd ⟨empty, represented⟩ passed

end

/-- An empty program is built into blocks, and then a pause is put behind its start
block, which the session has not looked at yet. -/
def pauseUnnoticed : List Request :=
  [.activate .empty, .advance 1000000000, .edit (.create .pause),
    .edit (.connectNext (.numbered 0) (.numbered 1))]

/-- Another program is played in spite of the pause. -/
theorem requestPlay_activate_oneTurn : Workspace.oneTurn.AnsweredBy
    (((ofConfig {} .counting).after pauseUnnoticed).activate Workspace.oneTurn).requestPlay.1 := by
  have comesBack : (((Workspace.empty.after []).rebuild Workspace.oneTurn).2.compile {}
      .counting).1.program.sameEffect Workspace.oneTurn = true := by decide +kernel
  have live : ((ofConfig {} .counting).after pauseUnnoticed).sync.disposed = false := by
    decide +kernel
  refine (requestPlay_activate_iff {} .counting pauseUnnoticed Workspace.oneTurn comesBack
    live).mpr ?_
  intro _ represented
  have other : (((ofConfig {} .counting).after pauseUnnoticed).sync.installed ==
      some Workspace.oneTurn) = false := by decide +kernel
  exact absurd represented (by simp [other])

/-- The empty program comes back from a rebuild, but its second activation is passed
over, and the pause is played. -/
theorem not_answeredBy_pauseUnnoticed :
    ((ofConfig {} .counting).after pauseUnnoticed).sync.disposed = false ∧
      ((Workspace.empty.rebuild .empty).2.compile {} .counting).1.program.sameEffect .empty = true ∧
      ¬ Program.empty.AnsweredBy
        (((ofConfig {} .counting).after pauseUnnoticed).activate .empty).requestPlay.1 := by
  refine ⟨by decide +kernel, by decide +kernel, fun answered => ?_⟩
  have played : (((ofConfig {} .counting).after pauseUnnoticed).activate
      .empty).requestPlay.1.isOk = true := by
    decide +kernel
  rw [answered.2 rfl] at played
  simp [Except.isOk, Except.toBool] at played

end Session
end MotionBlocks
