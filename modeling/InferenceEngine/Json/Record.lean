import InferenceEngine.Json.Reader
import InferenceEngine.Json.Writer
import InferenceEngine.OrderedMap

/-!
# Values in JSON

How documents are read as numbers, texts, lists, choices, maps and records. A record is an
object, in which unknown members are ignored and no known member stands twice, or an array
of the fields in their order. Fields that are missing at the end of an array, or anywhere
in an object, take their defaults.
-/

namespace InferenceEngine.Json

/-!
# Plain values
-/

def bool? : Json -> Option Bool
  | .bool b => some b
  | _ => none

def text? : Json -> Option String
  | .string s => s.text?
  | _ => none

def int? : Json -> Option Int
  | .number n => n.toInt?
  | _ => none

def below? (bound : Nat) (j : Json) : Option Nat :=
  match j.int? with
  | some (.ofNat n) => if n < bound then some n else none
  | _ => none

def word? : Json -> Option Nat := below? Text.wordBound

def halfWord? : Json -> Option Nat := below? Text.halfWordBound

def signed? (j : Json) : Option Int :=
  j.int?.bind fun n => if Text.fitsSigned n then some n else none

/-- A value, or nothing where the document is null. -/
def nullable? {α : Type} (item? : Json -> Option α) : Json -> Option (Option α)
  | .null => some none
  | j => (item? j).map some

def list? {α : Type} (item? : Json -> Option α) : Json -> Option (List α)
  | .array items => items.mapM item?
  | _ => none

/-- A choice between names: the name itself, or an object with the name and null. -/
def choice? {α : Type} (named? : String -> Option α) : Json -> Option α
  | .string s => s.text?.bind named?
  | .object [(key, .null)] => key.text?.bind named?
  | _ => none

/-!
# Records
-/

/-- The values of the given fields in the members of an object. -/
def fieldsOfObject? (names : List String) (members : List (String × Json)) :
    Option (List (Option Json)) :=
  names.mapM fun name =>
    match members.filter fun m => m.1 = name with
    | [] => some none
    | [m] => some (some m.2)
    | _ => none

/-- The values of the fields of a record, `none` for those that are missing. -/
def fields? (names : List String) : Json -> Option (List (Option Json))
  | .object members => do
    let members ← members.mapM fun m => m.1.text?.map fun key => (key, m.2)
    fieldsOfObject? names members
  | .array items =>
    if items.length ≤ names.length then
      some (items.map some ++ List.replicate (names.length - items.length) none)
    else none
  | _ => none

def required {α : Type} (item? : Json -> Option α) (field : Option Json) : Option α :=
  field.bind item?

def orElse {α : Type} (default : α) (item? : Json -> Option α) : Option Json -> Option α
  | none => some default
  | some j => item? j

/-!
# Maps
-/

def ofList {α : Type} (item : α -> Json) (items : List α) : Json := .array (items.map item)

def ofOption {α : Type} (item : α -> Json) : Option α -> Json
  | none => .null
  | some a => item a

/-- A map from texts, the last of equal keys winning. -/
def textMap? {α : Type} (item? : Json -> Option α) : Json -> Option (OrderedMap String α)
  | .object members => do
    let entries ← members.mapM fun m => do some (← m.1.text?, ← item? m.2)
    some (.ofList entries)
  | _ => none

/-- The integer that the key of a map spells, in the form of a JSON number. -/
def intKey? (key : Literal) : Option Int := do
  let (n, rest) ← readNumber? key.body
  if rest.isEmpty then
    let n ← n.toInt?
    if Text.fitsSigned n then some n else none
  else none

/-- A map from integers, the last of equal keys winning. -/
def intMap? {α : Type} (item? : Json -> Option α) : Json -> Option (OrderedMap Int α)
  | .object members => do
    let entries ← members.mapM fun m => do some (← intKey? m.1, ← item? m.2)
    some (.ofList entries)
  | _ => none

def ofTextMap {α : Type} (item : α -> Json) (m : OrderedMap String α) : Json :=
  .ofMembers (m.toList.map fun e => (e.1, item e.2))

def ofIntMap {α : Type} (item : α -> Json) (m : OrderedMap Int α) : Json :=
  .object (m.toList.map fun e => (⟨Text.integer e.1⟩, item e.2))

end InferenceEngine.Json
