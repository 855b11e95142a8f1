import InferenceEngine.Options.Server
import InferenceEngine.Options.Toml

/-!
# Loading options

Options are loaded from an optional file and from the variables of the environment, which
win over the file key by key. An option that no source gives keeps its default.
-/

namespace InferenceEngine.Options

/-!
# Files
-/

/-- The ending of a file name: what follows its last point, unless that point starts it. -/
def ending? (name : String) : Option String :=
  let reversed := name.toList.reverse
  let after := reversed.takeWhile (· != '.')
  match reversed.dropWhile (· != '.') with
  | _ :: _ :: _ => some (String.ofList after.reverse)
  | _ => none

/-- Reads the text of a file in the format that its ending names. -/
def readFile? (name text : String) : Option (List (String × Setting)) :=
  match ending? name with
  | some "toml" => Toml.read? text
  | some "json" => Setting.ofJsonText? text
  | _ => none

/-- The settings of the file that a path means: the file itself, or the one whose name has
an ending added. -/
def fileSettings? (files : List (String × String)) (path : String) :
    Option (List (String × Setting)) :=
  let text? := fun name => (files.find? fun f => f.1 = name).map Prod.snd
  match text? path with
  | some text => readFile? path text
  | none =>
    let found := ["toml", "json"].findSome? fun ending =>
      let name := path ++ "." ++ ending
      (text? name).map fun text => readFile? name text
    found.join

/-!
# Variables
-/

/-- What the names of the variables start with, in lower case. -/
def variableStart : List Char := "tensorserve_".toList

/-- A name with each pair of underscores replaced by a point. -/
def nested : List Char -> List Char
  | '_' :: '_' :: rest => '.' :: nested rest
  | c :: rest => c :: nested rest
  | [] => []

/-- The key that the name of a variable stands for, in any case. -/
def variableKey? (name : String) : Option String :=
  let lower := name.toList.map Char.toLower
  if variableStart.isPrefixOf lower then
    some (String.ofList (nested (lower.drop variableStart.length)))
  else none

def variableSettings (environment : List (String × String)) : List (String × Setting) :=
  environment.filterMap fun v => (variableKey? v.1).map fun key => (key, .text v.2)

/-!
# Converting
-/

def required {α : Type} (item? : Setting -> Option α) (field : Option Setting) : Option α :=
  field.bind item?

/-- The value of a setting, or the default where none is given. -/
def orElse {α : Type} (default : α) (item? : Setting -> Option α) : Option Setting -> Option α
  | none => some default
  | some s => item? s

def acceleratorPool? (s : Setting) : Option AcceleratorPool := do
  let [device, capacity] ← s.fields? ["device_id", "capacity_bytes"] | none
  some {
    device := ← required Setting.signed? device
    capacity := ← required Setting.word? capacity }

def memoryOptions? (s : Setting) : Option MemoryOptions := do
  let [hostLimit, accelerators] ← s.fields? ["host_limit_bytes", "accelerators"] | none
  some {
    hostLimit := ← orElse MemoryOptions.default.hostLimit (Setting.nullable? Setting.word?)
      hostLimit
    accelerators := ← orElse MemoryOptions.default.accelerators
      (Setting.list? acceleratorPool?) accelerators }

def loggingOptions? (s : Setting) : Option LoggingOptions := do
  let [level, filter] ← s.fields? ["level", "filter"] | none
  some {
    level := ← orElse LoggingOptions.default.level Setting.text? level
    filter := ← orElse LoggingOptions.default.filter (Setting.nullable? Setting.text?) filter }

def serverOptions? (host : Host) (s : Setting) : Option ServerOptions := do
  let [serverId, strictModelConfig, strictReadiness, exitOnError, exitTimeout,
      executionSlots, sharedMemoryDir, memory, logging] ←
    s.fields? ["server_id", "strict_model_config", "strict_readiness", "exit_on_error",
      "exit_timeout_secs", "execution_slots", "shared_memory_dir", "memory", "logging"] | none
  let default := ServerOptions.default host
  some {
    serverId := ← orElse default.serverId Setting.text? serverId
    strictModelConfig := ← orElse default.strictModelConfig Setting.bool? strictModelConfig
    strictReadiness := ← orElse default.strictReadiness Setting.bool? strictReadiness
    exitOnError := ← orElse default.exitOnError Setting.bool? exitOnError
    exitTimeout := ← orElse default.exitTimeout Setting.word? exitTimeout
    executionSlots := ← orElse default.executionSlots Setting.word? executionSlots
    sharedMemoryDir := ← orElse default.sharedMemoryDir Setting.text? sharedMemoryDir
    memory := ← orElse .default memoryOptions? memory
    logging := ← orElse .default loggingOptions? logging }

/-!
# Loading
-/

/-- How the loading of options ends. It panics where a variable assigns to an item that would lie
before the start of its list. -/
inductive Loading where
  | loaded (options : ServerOptions)
  | failed (failure : Failure)
  | panicked

/-- The settings of the file of a path, if one is given; without a file there are none. -/
def fileEntries? (files : List (String × String)) :
    Option String -> Option (List (String × Setting))
  | none => some []
  | some path => fileSettings? files path

/-- Loads options from the file of a path, if one is given, and from the variables. -/
def loading (files : List (String × String)) (path : Option String)
    (environment : List (String × String)) (host : Host) : Loading :=
  match fileEntries? files path with
  | none => .failed (.settings (.other "the options file cannot be used"))
  | some file =>
    let given := Setting.merge (.table []) file
    let settings := variableSettings environment
    if (Setting.table []).overruns file || given.overruns settings then .panicked
    else
      match serverOptions? host (given.merge settings) with
      | none => .failed (.settings (.other "a setting has a value of the wrong type"))
      | some options => .loaded options

/-- What a caller has of a loading that takes a panic for a failure. -/
def Loading.result : Loading -> Except Failure ServerOptions
  | loaded options => .ok options
  | failed failure => .error failure
  | panicked => .error (.settings (.other "loading the options panicked"))

def load (files : List (String × String)) (path : Option String)
    (environment : List (String × String)) (host : Host := .usual) :
    Except Failure ServerOptions :=
  (loading files path environment host).result

end InferenceEngine.Options
