import MotionBlocks.Json.Value

namespace MotionBlocks
namespace Json

/-!
# Choices and records

What a value means as a choice or a record.  Records have a fixed list of fields.
They come as an object, in which unknown members are passed over and a field must not
be given twice, or as an array of the fields in their order, which may stop early.
-/

/-- The name of a choice that carries no data: the name itself, or an object
that gives it the value null. -/
def asChoice? : Json → Option String
  | .string text => text
  | .object [(name, .null)] => name
  | _ => none

/-- The values given for the fields of a record, in the order of the names. -/
def fields? (names : List String) : Json → Option (List (Option Json))
  | .object members =>
    if members.all (·.1.isSome)
        ∧ names.all (fun name => decide (members.countP (·.1 == some name) ≤ 1)) then
      some (names.map fun name => (members.find? (·.1 == some name)).map (·.2))
    else none
  | .array items =>
    if items.length ≤ names.length then
      some (items.map some ++ List.replicate (names.length - items.length) none)
    else none
  | _ => none

end Json
end MotionBlocks
