import InferenceEngine.Json.Record
import InferenceEngine.Text.Binary64

/-!
# Settings

Options come from files and from variables of the environment. Each source is a tree of
settings, and the sources are merged key by key: tables are merged, all else is replaced.
A setting is then converted to the type of the option that it is for.
-/

namespace InferenceEngine

inductive Setting where
  | missing
  | bool (b : Bool)
  | integer (n : Int)
  | real (x : Binary64)
  | text (s : String)
  | list (items : List Setting)
  | table (entries : List (String × Setting))
  deriving Inhabited

namespace Setting

/-!
# Tables
-/

/-- The entries of a setting that is taken for a table; what is no table has none. -/
def entries : Setting -> List (String × Setting)
  | table entries => entries
  | _ => []

/-- The items of a setting that is taken for a list; what is no list has none. -/
def items : Setting -> List Setting
  | list items => items
  | _ => []

def lookup (key : String) (entries : List (String × Setting)) : Option Setting :=
  (entries.find? fun e => e.1 = key).map Prod.snd

def put (key : String) (value : Setting) : List (String × Setting) -> List (String × Setting)
  | [] => [(key, value)]
  | (k, v) :: rest => if k = key then (k, value) :: rest else (k, v) :: put key value rest

/-!
# Merging
-/

mutual

/-- Assigns a setting to a key of a table: a table is merged into the one that is there. -/
def assign (root : Setting) (key : String) : Setting -> Setting
  | table incoming =>
    let target := (lookup key root.entries).getD (table [])
    table (put key (assignAll target incoming) root.entries)
  | value => table (put key value root.entries)

def assignAll (root : Setting) : List (String × Setting) -> Setting
  | [] => root
  | (key, value) :: rest => assignAll (assign root key value) rest

end

/-- A step from a setting into a part of it. -/
inductive Step where
  | child (key : String)
  | item (index : Int)
  deriving DecidableEq, Inhabited

/-- The place in a list that an index means; negative ones count from the end. -/
def place (index : Int) (length : Nat) : Nat :=
  if 0 ≤ index then index.toNat else length - index.natAbs

/-- Whether an index means a place before the start of a list. -/
def isBeforeStart (index : Int) (length : Nat) : Bool := index < 0 && length < index.natAbs

/-- Replaces an item of a list, which is made as long as that takes. -/
def replaceItem (index : Int) (f : Setting -> Setting) (items : List Setting) : List Setting :=
  let i := place index items.length
  let padded := items ++ List.replicate (i + 1 - items.length) missing
  padded.modify i f

/-- Assigns a setting to the part of a tree that a path leads to. Parts on the way that are
missing or of another shape are made. -/
def assignAt (value : Setting) (root : Setting) : List Step -> Setting
  | [] => root
  | [.child key] => assign root key value
  | [.item index] => list (replaceItem index (fun _ => value) root.items)
  | .child key :: next :: rest =>
    let part := (lookup key root.entries).getD missing
    table (put key (assignAt value part (next :: rest)) root.entries)
  | .item index :: next :: rest =>
    list (replaceItem index (fun part => assignAt value part (next :: rest)) root.items)

/-- Whether an index on a path means a place before the start of the list that it leads into. -/
def leadsBeforeStart (root : Setting) : List Step -> Bool
  | [] => false
  | .child key :: rest => leadsBeforeStart ((lookup key root.entries).getD missing) rest
  | .item index :: rest =>
    isBeforeStart index root.items.length ||
      leadsBeforeStart (root.items.getD (place index root.items.length) missing) rest

/-!
# Paths
-/

/-- Whether a character can stand in a name of a path. -/
def isNameChar (c : Char) : Bool := c.isAlphanum || c == '_' || c == '-' || c == ' '

def readWord? (text : List Char) : Option Int := do
  let n ← match text with
    | '-' :: ds => (Text.readDigits? ds).map fun n => -(n : Int)
    | ds => (Text.readDigits? ds).map Int.ofNat
  if Text.fitsSigned n then some n else none

/-- Reads the index of an item, up to the closing bracket. -/
def readIndex? (text : List Char) : Option (Int × List Char) :=
  let inner := (text.takeWhile (· != ']'))
  match text.dropWhile (· != ']') with
  | [] => none
  | _ :: rest =>
    let inner := inner.dropWhile fun c => c == ' ' || c == '\t'
    let inner := (inner.reverse.dropWhile fun c => c == ' ' || c == '\t').reverse
    (readWord? inner).map fun index => (index, rest)

def readSteps? : Nat -> List Char -> Option (List Step)
  | _, [] => some []
  | 0, _ => none
  | fuel + 1, '.' :: rest =>
    match rest.takeWhile isNameChar with
    | [] => none
    | name =>
      (readSteps? fuel (rest.dropWhile isNameChar)).map (.child (String.ofList name) :: ·)
  | fuel + 1, '[' :: rest => do
    let (index, rest) ← readIndex? rest
    (readSteps? fuel rest).map (.item index :: ·)
  | _, _ => none

/-- The path that a key spells. A key that spells none is a name as it stands. -/
def path (key : String) : List Step :=
  let text := key.toList
  match text.takeWhile isNameChar with
  | [] => [.child key]
  | name =>
    match readSteps? text.length (text.dropWhile isNameChar) with
    | some steps => .child (String.ofList name) :: steps
    | none => [.child key]

/-- Merges the settings of a source, each under the path that its key spells. -/
def merge (root : Setting) (source : List (String × Setting)) : Setting :=
  source.foldl (fun root e => assignAt e.2 root (path e.1)) root

/-- Whether merging a source comes to an index that means a place before the start of a list. -/
def overruns (root : Setting) : List (String × Setting) -> Bool
  | [] => false
  | e :: rest =>
    root.leadsBeforeStart (path e.1) || overruns (assignAt e.2 root (path e.1)) rest

/-!
# Conversions
-/

def wordBool? (word : String) : Option Bool :=
  if word ∈ ["true", "on", "yes"] then some true
  else if word ∈ ["false", "off", "no"] then some false
  else none

/-- A text in lower case, as far as the words for Booleans need it. -/
def lowerCase (s : String) : String := String.ofList (s.toList.map Char.toLower)

def bool? : Setting -> Option Bool
  | bool b => some b
  | integer n => some (n != 0)
  | real x => some (!x.isZero)
  | text s =>
    match lowerCase s with
    | "1" => some true
    | "0" => some false
    | word => wordBool? word
  | _ => none

/-- The integer between two bounds that a setting gives, its texts being read by `read?`. -/
def intBetween? (low high : Int) (read? : List Char -> Option Int) (s : Setting) : Option Int := do
  let n ← match s with
    | bool b => some (if b then 1 else 0)
    | integer n => some n
    | real x => some (x.toIntBetween low high)
    | text s =>
      match wordBool? (lowerCase s) with
      | some b => some (if b then 1 else 0)
      | none => read? s.toList
    | _ => none
  if low ≤ n ∧ n ≤ high then some n else none

def word? (s : Setting) : Option Nat :=
  (s.intBetween? 0 (Text.wordBound - 1) fun t =>
    (Text.readUnsigned? t).map Int.ofNat).map Int.toNat

def signed? (s : Setting) : Option Int :=
  s.intBetween? (-Text.signedBound) (Text.signedBound - 1) Text.readSigned?

def text? : Setting -> Option String
  | text s => some s
  | bool b => some (if b then "true" else "false")
  | integer n => some (toString n)
  | real x => some (String.ofList x.text)
  | _ => none

def nullable? {α : Type} (item? : Setting -> Option α) : Setting -> Option (Option α)
  | missing => some none
  | s => (item? s).map some

def list? {α : Type} (item? : Setting -> Option α) : Setting -> Option (List α)
  | list items => items.mapM item?
  | _ => none

/-- The settings for the given fields, from a table or from a list in the order of the
fields. Keys and items that are not asked for are ignored. -/
def fields? (names : List String) : Setting -> Option (List (Option Setting))
  | table entries => some (names.map fun name => lookup name entries)
  | list items =>
    some ((items.take names.length).map some ++
      List.replicate (names.length - items.length) none)
  | _ => none

/-!
# Settings of a document
-/

mutual

/-- How deep arrays and objects are nested in a document. -/
def depth : Json -> Nat
  | .array items => depthOfItems items + 1
  | .object members => depthOfMembers members + 1
  | _ => 0

/-- How deep the deepest item is nested. -/
def depthOfItems : List Json -> Nat
  | [] => 0
  | item :: rest => max (depth item) (depthOfItems rest)

/-- How deep the deepest member is nested. -/
def depthOfMembers : List (Json.Literal × Json) -> Nat
  | [] => 0
  | (_, value) :: rest => max (depth value) (depthOfMembers rest)

end

/-- The setting of a number: an integer of 64 bits with a sign, else one with a fraction. -/
def ofNumber? (n : Json.Number) : Option Setting :=
  let real :=
    let significand := Nat.ofDigitChars 10 n.fraction n.whole
    let x := Binary64.ofDecimal n.negative significand
      (n.exponent.getD 0 - (n.fraction.length : Int))
    match x with
    | .infinite _ => none
    | x => some (Setting.real x)
  match n.toInt? with
  | some i => if Text.fitsSigned i then some (integer i) else real
  | none => real

mutual

def ofJson? : Json -> Option Setting
  | .null => some missing
  | .bool b => some (bool b)
  | .number n => ofNumber? n
  | .string s => s.text?.map text
  | .array items => (ofItems? items).map list
  | .object members => (ofMembers? members).map table

def ofItems? : List Json -> Option (List Setting)
  | [] => some []
  | item :: rest => do
    let s ← ofJson? item
    (ofItems? rest).map (s :: ·)

/-- The settings of the members of an object, the last of equal keys winning. -/
def ofMembers? : List (Json.Literal × Json) -> Option (List (String × Setting))
  | [] => some []
  | (key, value) :: rest => do
    let key ← key.text?
    let s ← ofJson? value
    let rest ← ofMembers? rest
    some (if (lookup key rest).isSome then rest else (key, s) :: rest)

end

/-- The settings of the text of a document, which may be nested 127 deep. A document that
is no object has no settings. -/
def ofJsonText? (text : String) : Option (List (String × Setting)) := do
  let j ← Json.read? text.toList
  if 127 < depth j then none
  else
    let s ← ofJson? j
    some s.entries

end Setting

end InferenceEngine
