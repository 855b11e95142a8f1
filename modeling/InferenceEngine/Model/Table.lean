import InferenceEngine.Backend
import InferenceEngine.Model.Version
import InferenceEngine.Status

/-!
# The model table

The table of a server holds an entry for each model: its configuration and what has become
of each version that the repository lists.
-/

namespace InferenceEngine

/-- A version of a model that has been loaded. Loaded models are told apart by their
numbers, under which their counters are kept. -/
structure LoadedModel where
  number : Nat
  config : ModelConfig
  version : Int
  backend : Backend
  deriving Inhabited

/-- What has become of a version: it is loaded, or there is a cause why it is not. -/
inductive VersionSlot where
  | ready (model : LoadedModel)
  | unavailable (cause : Failure)
  deriving Inhabited

namespace VersionSlot

def loaded? : VersionSlot -> Option LoadedModel
  | ready model => some model
  | unavailable _ => none

def isReady (slot : VersionSlot) : Bool := slot.loaded?.isSome

def status (stats : Nat -> InferStats) : VersionSlot -> VersionStatus
  | ready model => ⟨.ready, none, stats model.number⟩
  | unavailable cause => ⟨.unavailable, some cause.text, .zero⟩

end VersionSlot

structure ModelEntry where
  config : ModelConfig
  versions : OrderedMap Int VersionSlot

namespace ModelEntry

instance : Inhabited ModelEntry := ⟨⟨default, .empty⟩⟩

def readyCount (entry : ModelEntry) : Nat := entry.versions.values.countP VersionSlot.isReady

def status (stats : Nat -> InferStats) (entry : ModelEntry) : ModelStatus :=
  ⟨entry.config, entry.versions.map (VersionSlot.status stats)⟩

end ModelEntry

/-- The table of a server: its entries by the names of the models. -/
abbrev ModelTable := OrderedMap String ModelEntry

namespace ModelTable

/-!
# Resolving
-/

/-- The ready version of an entry with the greatest number. -/
def latest? (entry : ModelEntry) : Option LoadedModel :=
  entry.versions.values.reverse.findSome? VersionSlot.loaded?

/-- The loaded model that a name and a choice of version mean. -/
def resolve (table : ModelTable) (name : String) (choice : VersionChoice) :
    Except Failure LoadedModel :=
  match table.get? name with
  | none => .error (.unknownModel name)
  | some entry =>
    match choice with
    | .latest =>
      match latest? entry with
      | some model => .ok model
      | none => .error (.noReadyVersion name)
    | .specific v =>
      match entry.versions.get? v with
      | some (.ready model) => .ok model
      | some (.unavailable cause) => .error (.versionUnavailable name v cause.text)
      | none => .error (.unknownVersion name v)

/-!
# Queries
-/

/-- Whether a table is ready: strictly, if all its models have versions and all of them are
ready; else, if any version is. -/
def isReady (table : ModelTable) (strict : Bool) : Bool :=
  if strict then
    !table.isEmpty && table.values.all fun entry =>
      !entry.versions.isEmpty && entry.versions.values.all VersionSlot.isReady
  else table.values.any fun entry => entry.versions.values.any VersionSlot.isReady

def readyCount (table : ModelTable) : Nat :=
  (table.values.flatMap fun entry => entry.versions.values).countP VersionSlot.isReady

def modelStatus? (table : ModelTable) (stats : Nat -> InferStats) (name : String) :
    Option ModelStatus :=
  (table.get? name).map (ModelEntry.status stats)

def status (table : ModelTable) (stats : Nat -> InferStats) : OrderedMap String ModelStatus :=
  table.map (ModelEntry.status stats)

end ModelTable

end InferenceEngine
