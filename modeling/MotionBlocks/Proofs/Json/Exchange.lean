import MotionBlocks.Program.Exchange
import MotionBlocks.Proofs.Json.Strict

namespace MotionBlocks

/-!
# Programs sent and received

By way of any lawful library a program is received as it was sent: the same steps under the
same identifiers, with bit for bit the same numbers, and with exactly the parameters that it
had.  It takes no more than finite numbers, because JSON has no numeral for the others.  A
text may leave out a parameter or give it as null, may add members of its own, and may list a
step as an array; what is received from it has finite numbers, and so it can be sent on.

Nothing is said about the text itself, which need not be the one that was received.
-/

open Number

/-! ## Numbers -/

namespace Json

variable {library : JsonLibrary}

theorem asFloat?_ofFloat (lawful : library.Lawful) {number : Float}
    (finite : number.isFinite = true) :
    asFloat? library (ofFloat library number) = some number := by
  rw [ofFloat, if_pos finite]
  exact lawful.double_numeral number finite

theorem isFinite_of_asFloat? (lawful : library.Lawful) {json : Json} {number : Float}
    (given : json.asFloat? library = some number) : number.isFinite = true := by
  cases json with
  | number numeral => exact lawful.isFinite_double numeral number given
  | _ => cases given

/-- A number is written as a numeral or not as a number at all. -/
theorem writable_ofFloat (number : Float) (depth : ℕ) :
    library.Writable depth (ofFloat library number) := by
  unfold ofFloat
  split
  · rename_i finite
    exact .number finite
  · exact .null

theorem optionalField_ofFloat (lawful : library.Lawful) {value : Option Float}
    (finite : ∀ number ∈ value, number.isFinite = true) :
    optionalField (asFloat? library) (value.map (ofFloat library)) = some value := by
  cases value with
  | none => rfl
  | some number =>
    have read := asFloat?_ofFloat lawful (finite number rfl)
    rw [Option.map_some]
    unfold optionalField
    split
    · contradiction
    · rename_i same
      rw [Option.some.inj same] at read
      cases read
    · rename_i same
      rcases Option.some.inj same with rfl
      rw [read]
      rfl

theorem isFinite_of_optionalField (lawful : library.Lawful) {field : Option Json}
    {value : Option Float} (given : optionalField (asFloat? library) field = some value) :
    ∀ number ∈ value, number.isFinite = true := by
  rintro number rfl
  unfold optionalField at given
  split at given
  · cases given
  · cases given
  · rcases Option.map_eq_some_iff.mp given with ⟨found, read, same⟩
    rcases Option.some.inj same with rfl
    exact isFinite_of_asFloat? lawful read

end Json

namespace Motion

/-- All numbers that a motion has are finite. -/
structure Finite (motion : Motion) : Prop where
  duration : motion.duration.isFinite = true
  distance : ∀ number ∈ motion.distance, number.isFinite = true
  scale : ∀ number ∈ motion.scale, number.isFinite = true

instance (motion : Motion) : Decidable motion.Finite :=
  decidable_of_iff
    (motion.duration.isFinite = true ∧ (∀ number ∈ motion.distance, number.isFinite = true) ∧
      ∀ number ∈ motion.scale, number.isFinite = true)
    ⟨fun ⟨duration, distance, scale⟩ => ⟨duration, distance, scale⟩,
      fun ⟨duration, distance, scale⟩ => ⟨duration, distance, scale⟩⟩

end Motion

/-! ## Steps -/

section

variable {library : JsonLibrary}

theorem StepKind.ofJson?_toJson (lawful : library.Lawful) (kind : StepKind) :
    ofJson? library kind.toJson = some kind := by
  have named : library.choice kind.toJson = some kind.name := lawful.choice_ofText kind.name
  rw [ofJson?, named]
  exact ofName?_name kind

namespace Step

/-- The members of a step's record. -/
def members (library : JsonLibrary) (step : Step) : List (String × Json) :=
  let optional := fun name (value : Option Float) =>
    (value.map fun number => (name, Json.ofFloat library number)).toList
  [("id", .ofText step.id), ("kind", step.motion.kind.toJson),
    ("duration", .ofFloat library step.motion.duration)]
    ++ optional "distance" step.motion.distance ++ optional "scale" step.motion.scale

theorem nodup_members (step : Step) : ((step.members library).map (·.1)).Nodup := by
  rcases step with ⟨id, kind, duration, distance, scale⟩
  cases distance <;> cases scale <;> simp [members]

theorem writable_toJson (step : Step) (depth : ℕ) :
    library.Writable (depth + 1) (step.toJson library) := by
  have optional : ∀ (name : String) (value : Option Float),
      ∀ member ∈ (value.map fun number => (name, Json.ofFloat library number)).toList,
        library.Writable depth member.2 := by
    intro name value member listed
    rcases Option.map_eq_some_iff.mp (Option.mem_toList.mp listed) with ⟨number, -, rfl⟩
    exact Json.writable_ofFloat number depth
  refine .record (nodup_members step) fun member listed => ?_
  rcases List.mem_append.mp listed with listed | scale
  · rcases List.mem_append.mp listed with always | distance
    · simp only [List.mem_cons, List.not_mem_nil, or_false] at always
      rcases always with rfl | rfl | rfl
      · exact .string step.id
      · exact .string step.motion.kind.name
      · exact Json.writable_ofFloat step.motion.duration depth
    · exact optional _ _ member distance
  · exact optional _ _ member scale

theorem fields_toJson (lawful : library.Lawful) (step : Step) :
    library.fields ["id", "kind", "duration", "distance", "scale"] (step.toJson library) =
      some [some (.ofText step.id), some step.motion.kind.toJson,
        some (.ofFloat library step.motion.duration), step.motion.distance.map (.ofFloat library),
        step.motion.scale.map (.ofFloat library)] := by
  refine (lawful.fields_record _ _ (nodup_members step)).trans ?_
  rcases step with ⟨id, kind, duration, distance, scale⟩
  cases distance <;> cases scale <;> rfl

theorem ofJson?_toJson (lawful : library.Lawful) {step : Step} (finite : step.motion.Finite) :
    ofJson? library (step.toJson library) = some step := by
  have text : (Json.ofText step.id).asText? = some step.id := rfl
  rw [ofJson?, fields_toJson lawful]
  simp only [text, StepKind.ofJson?_toJson lawful, Json.asFloat?_ofFloat lawful finite.duration,
    Json.optionalField_ofFloat lawful finite.distance,
    Json.optionalField_ofFloat lawful finite.scale, Option.bind_eq_bind, Option.bind_some]
  rfl

theorem finite_of_ofJson? (lawful : library.Lawful) {json : Json} {step : Step}
    (given : ofJson? library json = some step) : step.motion.Finite := by
  unfold ofJson? at given
  split at given
  · simp only [Option.bind_eq_bind, Option.bind_eq_some_iff] at given
    rcases given with ⟨id, -, kind, -, duration, durationRead, distance, distanceRead, scale,
      scaleRead, same⟩
    rcases Option.some.inj same with rfl
    exact ⟨Json.isFinite_of_asFloat? lawful durationRead,
      Json.isFinite_of_optionalField lawful distanceRead,
      Json.isFinite_of_optionalField lawful scaleRead⟩
  · cases given

end Step

end

/-! ## Programs -/

deriving instance DecidableEq for Motion, Step, Program

namespace Program

/-- All numbers that the steps have are finite. -/
def Finite (program : Program) : Prop :=
  ∀ step ∈ program.steps, step.motion.Finite

instance (program : Program) : Decidable program.Finite :=
  inferInstanceAs (Decidable (∀ step ∈ program.steps, step.motion.Finite))

section

variable {library : JsonLibrary}

theorem mapM_toJson (lawful : library.Lawful) {steps : List Step}
    (finite : ∀ step ∈ steps, step.motion.Finite) :
    (steps.map (Step.toJson library)).mapM (Step.ofJson? library) = some steps := by
  induction steps with
  | nil => rfl
  | cons step steps ih =>
    rcases List.forall_mem_cons.mp finite with ⟨here, there⟩
    rw [List.map_cons, List.mapM_cons, Step.ofJson?_toJson lawful here, ih there]
    rfl

theorem finite_of_mapM (lawful : library.Lawful) {items : List Json} {steps : List Step}
    (given : items.mapM (Step.ofJson? library) = some steps) :
    ∀ step ∈ steps, step.motion.Finite := by
  induction items generalizing steps with
  | nil =>
    rcases Option.some.inj given with rfl
    exact fun _ listed => nomatch listed
  | cons item items ih =>
    rw [List.mapM_cons] at given
    rcases Option.bind_eq_some_iff.mp given with ⟨step, read, others⟩
    rcases Option.bind_eq_some_iff.mp others with ⟨rest, restRead, same⟩
    rcases Option.some.inj same with rfl
    exact List.forall_mem_cons.mpr ⟨Step.finite_of_ofJson? lawful read, ih restRead⟩

theorem writable_toJson (program : Program) :
    library.Writable JsonLibrary.nesting (program.toJson library) := by
  show library.Writable (125 + 1 + 1) _
  refine .array fun json listed => ?_
  rcases List.mem_map.mp listed with ⟨step, -, rfl⟩
  exact step.writable_toJson 125

/-- A program of finite numbers is received as it was sent, legal or not. -/
theorem ofTextUnchecked_of_toText (lawful : library.Lawful) {program : Program}
    (finite : program.Finite) : ∃ text, program.toText library = .ok text ∧
      ofTextUnchecked library text = .ok program := by
  rcases lawful.read_write _ program.writable_toJson with ⟨text, written, read⟩
  refine ⟨text, by rw [toText, written], ?_⟩
  rw [ofTextUnchecked, read]
  simp only [toJson, mapM_toJson lawful finite]

/-- Different programs of finite numbers are sent as different texts. -/
theorem toText_injective (lawful : library.Lawful) {first second : Program}
    (finite : first.Finite) (otherFinite : second.Finite)
    (same : first.toText library = second.toText library) : first = second := by
  rcases ofTextUnchecked_of_toText lawful finite with ⟨text, written, read⟩
  rcases ofTextUnchecked_of_toText lawful otherFinite with ⟨other, otherWritten, otherRead⟩
  rw [written, otherWritten] at same
  rw [Except.ok.inj same, otherRead] at read
  exact (Except.ok.inj read).symm

/-- A program that is received has finite numbers only. -/
theorem finite_of_ofTextUnchecked (lawful : library.Lawful) {text : String} {program : Program}
    (received : ofTextUnchecked library text = .ok program) : program.Finite := by
  unfold ofTextUnchecked at received
  split at received
  · split at received
    · rename_i steps read
      cases received
      exact finite_of_mapM lawful read
    · cases received
  · cases received

theorem ofText_eq_ok_iff {text : String} {program : Program} : ofText library text = .ok program ↔
    ofTextUnchecked library text = .ok program ∧ program.fault? = none := by
  unfold ofText
  cases ofTextUnchecked library text with
  | error error => exact ⟨(nomatch ·), fun both => nomatch both.1⟩
  | ok given =>
    dsimp only
    cases faulty : given.fault? with
    | none => exact ⟨fun same => ⟨same, Except.ok.inj same ▸ faulty⟩, fun both => both.1⟩
    | some error =>
      refine ⟨(nomatch ·), ?_⟩
      rintro ⟨same, legal⟩
      rw [← Except.ok.inj same, faulty] at legal
      cases legal

end

/-- Every program that is received can be sent on and is received again as it is, and so
is every legal program of finite numbers, wherever it comes from. -/
theorem received_as_sent (library : JsonLibrary) (lawful : library.Lawful) :
    (∀ (text : String) (program : Program), ofText library text = .ok program →
      ∃ sent, program.toText library = .ok sent ∧ ofText library sent = .ok program) ∧
    ∀ program : Program, program.fault? = none → program.Finite →
      ∃ sent, program.toText library = .ok sent ∧ ofText library sent = .ok program := by
  have resent : ∀ program : Program, program.fault? = none → program.Finite →
      ∃ sent, program.toText library = .ok sent ∧ ofText library sent = .ok program := by
    intro program legal finite
    rcases ofTextUnchecked_of_toText lawful finite with ⟨sent, written, read⟩
    exact ⟨sent, written, ofText_eq_ok_iff.mpr ⟨read, legal⟩⟩
  refine ⟨fun text program received => ?_, resent⟩
  rcases ofText_eq_ok_iff.mp received with ⟨unchecked, legal⟩
  exact resent program legal (finite_of_ofTextUnchecked lawful unchecked)

/-- A text with escapes, a parameter given as null, a kind given as an object, a member
of its own, a step listed as an array, the smallest double and a negative zero. -/
def unusualText : String :=
  "[\x7b\"id\":\"a\\ud83d\\ude00\\n\\u001f\",\"kind\":\x7b\"scaleUp\":null\x7d,\"duration\":5e-324,"
    ++ "\"distance\":null,\"scale\":-0.0,\"note\":[1]\x7d, [\"\",\"moveUp\",1.5e300,-1e-7]]"

/-- What the unusual text says. -/
def unusual : Program where
  steps :=
    [⟨"a😀\n\x1f", Motion.scaling .scaleUp 5e-324 (-0.0)⟩,
      ⟨"", Motion.travelling .moveUp 1.5e300 (-1e-7)⟩]

/-- Steps with the largest double and with an identifier of quotes and backslashes. -/
def extreme : Program where
  steps :=
    [⟨"\"\\\"\x00", Motion.travelling .rotateX 1e16 (-1.7976931348623157e308)⟩,
      ⟨"\\u0022", Motion.pausing 0.1⟩]

theorem received_as_sent_unusual :
    ofText .strict unusualText = .ok unusual ∧
      (∃ sent, unusual.toText .strict = .ok sent ∧ ofText .strict sent = .ok unusual) ∧
      extreme.fault? = none ∧ extreme.Finite ∧
      ∃ sent, extreme.toText .strict = .ok sent ∧ ofText .strict sent = .ok extreme := by
  have read : (ofText .strict unusualText).toOption = some unusual := by decide +kernel
  have received : ofText .strict unusualText = .ok unusual := by
    cases given : ofText .strict unusualText with
    | error error =>
      rw [given] at read
      cases read
    | ok program =>
      rw [given] at read
      exact congrArg _ (Option.some.inj read)
  have legal : extreme.fault? = none := by decide +kernel
  have finite : extreme.Finite := by decide +kernel
  have exchanged := received_as_sent .strict JsonLibrary.lawful_strict
  exact ⟨received, exchanged.1 unusualText unusual received, legal, finite,
    exchanged.2 extreme legal finite⟩

end Program
end MotionBlocks
