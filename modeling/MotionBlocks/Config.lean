import MotionBlocks.Json.Library

namespace MotionBlocks

/-!
# Settings

What a host may tune: how steps are identified, how far loops unroll, and how
long the session waits.  Every setting has a default, and a written form leaves
out whatever it does not change.
-/

/-- How compiled steps are identified. -/
inductive IdPolicy where
  /-- A new identifier for every step of every compilation. -/
  | fresh
  /-- The index and the kind of the step, which a program of the same shape
  repeats. -/
  | structural
deriving DecidableEq, Repr

namespace IdPolicy

def name : IdPolicy → String
  | .fresh => "fresh"
  | .structural => "structural"

def ofName? (name : String) : Option IdPolicy :=
  [fresh, structural].find? (·.name == name)

end IdPolicy

structure CompileOptions where
  idPolicy : IdPolicy := .fresh
  /-- The most rounds of one loop. -/
  maxRepeat : Nat := 10000
  /-- The most steps that unrolling may produce in one program, over all loops. -/
  maxSteps : Nat := 100000
deriving DecidableEq, Repr

namespace CompileOptions

def toJson (options : CompileOptions) : Json :=
  .record
    [("id_policy", .ofText options.idPolicy.name), ("max_repeat", .ofNat options.maxRepeat),
      ("max_steps", .ofNat options.maxSteps)]

def ofJson? (library : JsonLibrary) (json : Json) : Option CompileOptions :=
  match library.fields ["id_policy", "max_repeat", "max_steps"] json with
  | some [idPolicy, maxRepeat, maxSteps] => do
    let defaults : CompileOptions := {}
    let readPolicy := fun (json : Json) => (library.choice json).bind IdPolicy.ofName?
    let idPolicy ← Json.fieldOr defaults.idPolicy readPolicy idPolicy
    let maxRepeat ← Json.fieldOr defaults.maxRepeat Json.asCount? maxRepeat
    let maxSteps ← Json.fieldOr defaults.maxSteps Json.asCount? maxSteps
    return { idPolicy, maxRepeat, maxSteps }
  | _ => none

def ofText? (library : JsonLibrary) (text : String) : Option CompileOptions :=
  (library.read text).bind (ofJson? library)

end CompileOptions

/-- The waits of a session, in milliseconds, and its filter. -/
structure SyncConfig where
  /-- The quiet time after the last accepted change before recompiling. -/
  debounceMs : Nat := 200
  /-- How long changes are dropped after a rebuild, to swallow those that the
  editor's redrawing still sends. -/
  graceWindowMs : Nat := 100
  /-- The wait before a program of the host is built into blocks. -/
  rebuildDelayMs : Nat := 50
  /-- Whether changes marked as programmatic are dropped at all times. -/
  ignoreProgrammatic : Bool := false
deriving DecidableEq, Repr

namespace SyncConfig

/-- Nanoseconds, the unit of the session's clock. -/
def nanoseconds (milliseconds : Nat) : Nat :=
  milliseconds * 1000000

def debounce (config : SyncConfig) : Nat :=
  nanoseconds config.debounceMs

def graceWindow (config : SyncConfig) : Nat :=
  nanoseconds config.graceWindowMs

def rebuildDelay (config : SyncConfig) : Nat :=
  nanoseconds config.rebuildDelayMs

def toJson (config : SyncConfig) : Json :=
  .record
    [("debounce_ms", .ofNat config.debounceMs), ("grace_window_ms", .ofNat config.graceWindowMs),
      ("decompile_delay_ms", .ofNat config.rebuildDelayMs),
      ("ignore_programmatic", .bool config.ignoreProgrammatic)]

def ofJson? (library : JsonLibrary) (json : Json) : Option SyncConfig :=
  match library.fields
      ["debounce_ms", "grace_window_ms", "decompile_delay_ms", "ignore_programmatic"] json with
  | some [debounceMs, graceWindowMs, rebuildDelayMs, ignoreProgrammatic] => do
    let defaults : SyncConfig := {}
    let debounceMs ← Json.fieldOr defaults.debounceMs Json.asCount? debounceMs
    let graceWindowMs ← Json.fieldOr defaults.graceWindowMs Json.asCount? graceWindowMs
    let rebuildDelayMs ← Json.fieldOr defaults.rebuildDelayMs Json.asCount? rebuildDelayMs
    let ignoreProgrammatic ←
      Json.fieldOr defaults.ignoreProgrammatic Json.asBool? ignoreProgrammatic
    return { debounceMs, graceWindowMs, rebuildDelayMs, ignoreProgrammatic }
  | _ => none

end SyncConfig

/-- All settings of a session. -/
structure SessionConfig where
  sync : SyncConfig := {}
  compile : CompileOptions := {}
deriving DecidableEq, Repr

namespace SessionConfig

def toJson (config : SessionConfig) : Json :=
  .record [("coordinator", config.sync.toJson), ("compile", config.compile.toJson)]

def ofJson? (library : JsonLibrary) (json : Json) : Option SessionConfig :=
  match library.fields ["coordinator", "compile"] json with
  | some [sync, compile] => do
    let defaults : SessionConfig := {}
    let sync ← Json.fieldOr defaults.sync (SyncConfig.ofJson? library) sync
    let compile ← Json.fieldOr defaults.compile (CompileOptions.ofJson? library) compile
    return { sync, compile }
  | _ => none

def ofText? (library : JsonLibrary) (text : String) : Option SessionConfig :=
  (library.read text).bind (ofJson? library)

def toText? (library : JsonLibrary) (config : SessionConfig) : Option String :=
  library.write config.toJson

end SessionConfig
end MotionBlocks
