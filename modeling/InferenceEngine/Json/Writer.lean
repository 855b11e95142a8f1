import InferenceEngine.Json.Value

/-!
# Writing JSON

The compact text of a document: no blanks, members in the order in which they stand.
-/

namespace InferenceEngine.Json

def Literal.write (l : Literal) : List Char := '"' :: l.body ++ ['"']

def Number.write (n : Number) : List Char :=
  (if n.negative then ['-'] else []) ++ Text.digits n.whole ++
  (if n.fraction.isEmpty then [] else '.' :: n.fraction) ++
  (match n.exponent with
    | none => []
    | some e => 'e' :: Text.integer e)

mutual

def write : Json -> List Char
  | .null => ['n', 'u', 'l', 'l']
  | .bool true => ['t', 'r', 'u', 'e']
  | .bool false => ['f', 'a', 'l', 's', 'e']
  | .number n => n.write
  | .string s => s.write
  | .array items => '[' :: writeItems items ++ [']']
  | .object members => '\x7b' :: writeMembers members ++ ['\x7d']

/-- The texts of the items of an array, with commas between them. -/
def writeItems : List Json -> List Char
  | [] => []
  | [item] => item.write
  | item :: next :: rest => item.write ++ ',' :: writeItems (next :: rest)

/-- The texts of the members of an object, with commas between them. -/
def writeMembers : List (Literal × Json) -> List Char
  | [] => []
  | [(key, value)] => key.write ++ ':' :: value.write
  | (key, value) :: next :: rest =>
    key.write ++ ':' :: value.write ++ ',' :: writeMembers (next :: rest)

end

def text (j : Json) : String := String.ofList j.write

end InferenceEngine.Json
