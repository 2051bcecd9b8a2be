import MotionBlocks.Json.Strict
import MotionBlocks.Proofs.Json.ReadBack

namespace MotionBlocks

/-!
# The strict library is lawful

What is relied on about a library can be had: the strict one has it.  So the laws do
not contradict each other, and whatever is proved from them holds of programs that
are exchanged by way of this library.
-/

open Number

namespace Json

/-! ## Records -/

theorem map_find?_eq_lookup (name : String) (members : List (String × Json)) :
    (members.find? (·.1 == name)).map (·.2) = members.lookup name := by
  induction members with
  | nil => rfl
  | cons member rest ih =>
    rw [List.find?_cons, List.lookup_cons, BEq.comm, ← ih]
    cases name == member.1 <;> rfl

/-- A record that gives no name twice has the named members as its fields. -/
theorem fields?_record (names : List String) {members : List (String × Json)}
    (distinct : (members.map (·.1)).Nodup) :
    fields? names (record members) = some (names.map fun name => members.lookup name) := by
  have named : ∀ name : String, ((fun member : Option String × Json => member.1 == some name) ∘
      fun member : String × Json => (some member.1, member.2)) = fun member => member.1 == name :=
    fun _ => rfl
  have once : ∀ name, members.countP (·.1 == name) ≤ 1 := by
    intro name
    have counted := List.nodup_iff_count_le_one.mp distinct name
    rwa [List.count, List.countP_map] at counted
  have accepted :
      (members.map fun member => (some member.1, member.2)).all (·.1.isSome) = true := by
    rw [List.all_map, List.all_eq_true]
    exact fun _ _ => rfl
  have single : names.all (fun name => decide
      ((members.map fun member => (some member.1, member.2)).countP (·.1 == some name) ≤ 1)) =
        true := by
    refine List.all_eq_true.mpr fun name _ => decide_eq_true ?_
    rw [List.countP_map, named]
    exact once name
  rw [record, fields?, if_pos ⟨accepted, single⟩]
  simp only [List.find?_map, named, Option.map_map]
  exact congrArg some (List.map_congr_left fun name _ => map_find?_eq_lookup name members)

end Json

namespace JsonLibrary

/-- What can be written has proper numerals only. -/
theorem Writable.proper {depth : ℕ} {json : Json} (writable : strict.Writable depth json) :
    json.Proper := by
  induction writable with
  | null => exact .null
  | bool value => exact .bool value
  | number finite => exact .number (Layout.proper_numeral Layout.padded_exchange finite)
  | string text => exact .string (some text)
  | array _ ih => exact .array ih
  | record _ _ ih =>
    refine .object fun member listed => ?_
    rcases List.mem_map.mp listed with ⟨given, found, rfl⟩
    exact ih given found

theorem lawful_strict : strict.Lawful where
  double_numeral := by
    intro number finite
    have read := Layout.toFloat_numeral Layout.padded_exchange finite
    show (if (Layout.exchange.numeral number).toFloat.isFinite then _ else _) = _
    rw [read, if_pos finite]
    exact congrArg some read
  isFinite_double := by
    intro numeral number given
    rcases Option.ite_none_right_eq_some.mp given with ⟨finite, same⟩
    rwa [Option.some.inj same] at finite
  read_write := fun json writable => ⟨json.text, rfl, Json.ofString?_text writable.proper⟩
  fields_record := fun names _ distinct => Json.fields?_record names distinct
  choice_ofText := fun _ => rfl

end JsonLibrary
end MotionBlocks
