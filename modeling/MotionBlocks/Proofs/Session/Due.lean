import Mathlib.Tactic.ByContra
import MotionBlocks.Sync.Coordinator

namespace MotionBlocks

/-!
# What is due next

While the clock moves, the tasks of a session are done one after the other, and
which one is next is read off their deadlines: the soonest deadline goes first,
and of equal deadlines the one of the lower rank.  That decides the task, so
looking further ahead never changes which task is next.
-/

namespace Task

/-- The place of a task among those that are due together. -/
def rank : Task → Nat
  | .grace => 0
  | .rebuild => 1
  | .debounce => 2

theorem rank_injective {first second : Task} (same : first.rank = second.rank) :
    first = second := by
  cases first <;> cases second <;> first | rfl | cases same

theorem mem_all (task : Task) : task ∈ [grace, rebuild, debounce] := by
  cases task <;> simp

end Task

namespace Coordinator

section

variable {sync : Coordinator} {limit due : Nat} {task : Task}

/-- An outcome names the first of some tasks that are due by a limit, and nothing
if none of them is. -/
def FirstAmong (sync : Coordinator) (limit : Nat) (tasks : List Task) :
    Option (Nat × Task) → Prop
  | none => ∀ task ∈ tasks, ∀ due, sync.deadline task = some due → limit < due
  | some (due, task) =>
    task ∈ tasks ∧ sync.deadline task = some due ∧ due ≤ limit ∧
      ∀ other ∈ tasks, ∀ time, sync.deadline other = some time →
        due < time ∨ due = time ∧ task.rank ≤ other.rank

theorem firstAmong_single (sync : Coordinator) (limit : Nat) (task : Task) :
    sync.FirstAmong limit [task]
      (((sync.deadline task).filter fun time => decide (time ≤ limit)).map
        fun time => (time, task)) := by
  cases deadline : sync.deadline task with
  | none => simp [FirstAmong, deadline]
  | some time =>
    by_cases inTime : time ≤ limit
    · simp [FirstAmong, deadline, inTime, Option.filter_some]
    · simpa [FirstAmong, deadline, inTime, Option.filter_some] using Nat.lt_of_not_le inTime

/-- The earlier one of the first tasks of two groups is the first task of both, if
the first group goes before the second one. -/
theorem FirstAmong.earlier {first second : List Task} {upper lower : Option (Nat × Task)}
    (firstOf : sync.FirstAmong limit first upper) (secondOf : sync.FirstAmong limit second lower)
    (ranked : ∀ task ∈ first, ∀ other ∈ second, task.rank ≤ other.rank) :
    sync.FirstAmong limit (first ++ second) (earlier upper lower) := by
  rcases upper with _ | ⟨upper, task⟩
  · rcases lower with _ | ⟨lower, other⟩
    · exact List.forall_mem_append.mpr ⟨firstOf, secondOf⟩
    · rcases secondOf with ⟨listed, deadline, inTime, least⟩
      refine ⟨List.mem_append_right _ listed, deadline, inTime,
        List.forall_mem_append.mpr ⟨fun third thirdListed time thirdDeadline => ?_, least⟩⟩
      have late := firstOf third thirdListed time thirdDeadline
      omega
  · rcases firstOf with ⟨listed, deadline, inTime, least⟩
    rcases lower with _ | ⟨lower, other⟩
    · refine ⟨List.mem_append_left _ listed, deadline, inTime,
        List.forall_mem_append.mpr ⟨least, fun third thirdListed time thirdDeadline => ?_⟩⟩
      have late := secondOf third thirdListed time thirdDeadline
      omega
    · rcases secondOf with ⟨otherListed, otherDeadline, otherInTime, otherLeast⟩
      by_cases sooner : lower < upper
      · simp only [Coordinator.earlier, sooner, if_true]
        refine ⟨List.mem_append_right _ otherListed, otherDeadline, otherInTime,
          List.forall_mem_append.mpr ⟨fun third thirdListed time thirdDeadline => ?_, otherLeast⟩⟩
        have late := least third thirdListed time thirdDeadline
        omega
      · simp only [Coordinator.earlier, sooner, if_false]
        refine ⟨List.mem_append_left _ listed, deadline, inTime,
          List.forall_mem_append.mpr ⟨least, fun third thirdListed time thirdDeadline => ?_⟩⟩
        have late := otherLeast third thirdListed time thirdDeadline
        have behind := ranked task listed third thirdListed
        omega

theorem firstAmong_nextDue (sync : Coordinator) (limit : Nat) :
    sync.FirstAmong limit [.grace, .rebuild, .debounce] (sync.nextDue limit) := by
  have both := (sync.firstAmong_single limit .grace).earlier
    (sync.firstAmong_single limit .rebuild) (by simp [Task.rank])
  exact both.earlier (sync.firstAmong_single limit .debounce) (by simp [Task.rank])

/-- Nothing is due by a limit if and only if every deadline is beyond it. -/
theorem nextDue_eq_none_iff : sync.nextDue limit = none ↔
    ∀ task due, sync.deadline task = some due → limit < due := by
  have first := sync.firstAmong_nextDue limit
  constructor
  · intro nothing
    rw [nothing] at first
    exact fun task => first task task.mem_all
  · intro late
    by_contra something
    rcases Option.ne_none_iff_exists'.mp something with ⟨⟨due, task⟩, found⟩
    rw [found] at first
    rcases first with ⟨-, deadline, inTime, -⟩
    exact absurd (late task due deadline) (Nat.not_lt_of_le inTime)

/-- A task is due next if and only if its deadline has come by the limit and no
other deadline goes before it. -/
theorem nextDue_eq_some_iff : sync.nextDue limit = some (due, task) ↔
    sync.deadline task = some due ∧ due ≤ limit ∧
      ∀ other time, sync.deadline other = some time →
        due < time ∨ due = time ∧ task.rank ≤ other.rank := by
  have first := sync.firstAmong_nextDue limit
  constructor
  · intro found
    rw [found] at first
    rcases first with ⟨-, deadline, inTime, least⟩
    exact ⟨deadline, inTime, fun other => least other other.mem_all⟩
  · rintro ⟨deadline, inTime, least⟩
    cases next : sync.nextDue limit with
    | none =>
      have late := nextDue_eq_none_iff.mp next task due deadline
      omega
    | some found =>
      rcases found with ⟨time, other⟩
      rw [next] at first
      rcases first with ⟨-, otherDeadline, -, otherLeast⟩
      -- Each of the two goes before the other, so they are the same.
      have upper := least other time otherDeadline
      have lower := otherLeast task task.mem_all due deadline
      obtain rfl : time = due := by omega
      obtain rfl : other = task := Task.rank_injective (by omega)
      rfl

/-- The task that is due next stays so when the limit is put off. -/
theorem nextDue_of_le {later : Nat} (next : sync.nextDue limit = some (due, task))
    (le : limit ≤ later) : sync.nextDue later = some (due, task) := by
  rcases nextDue_eq_some_iff.mp next with ⟨deadline, inTime, least⟩
  exact nextDue_eq_some_iff.mpr ⟨deadline, Nat.le_trans inTime le, least⟩

end

end Coordinator
end MotionBlocks
