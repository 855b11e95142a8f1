import InferenceEngine.Json.Value

/-!
# Reading JSON

`Json.read?` reads a whole text as one document with blanks around it. It checks the
grammar and nothing else: what strings and numbers denote is left to the one who uses
them.
-/

namespace InferenceEngine.Json

def skipBlanks : List Char -> List Char
  | c :: rest => if c = ' ' ∨ c = '\n' ∨ c = '\t' ∨ c = '\r' then skipBlanks rest else c :: rest
  | [] => []

def spanDigits (text : List Char) : List Char × List Char :=
  (text.takeWhile Char.isDigit, text.dropWhile Char.isDigit)

/-!
# Strings and numbers
-/

def isEscape (c : Char) : Bool := (escaped? c).isSome

/-- Reads the body of a string up to its closing quote. -/
def readBody? : List Char -> Option (List Char × List Char)
  | [] => none
  | '"' :: rest => some ([], rest)
  | '\\' :: 'u' :: a :: b :: c :: d :: rest =>
    if (unit? a b c d).isSome then
      (readBody? rest).map fun (body, rest) => ('\\' :: 'u' :: a :: b :: c :: d :: body, rest)
    else none
  | '\\' :: c :: rest =>
    if isEscape c then
      (readBody? rest).map fun (body, rest) => ('\\' :: c :: body, rest)
    else none
  | c :: rest =>
    if c.toNat < 0x20 || c = '\\' then none
    else (readBody? rest).map fun (body, rest) => (c :: body, rest)

/-- Reads the digits before the point: a lone zero, or digits that do not start with one. -/
def readWhole? (text : List Char) : Option (Nat × List Char) :=
  match spanDigits text with
  | ([], _) => none
  | ('0' :: _ :: _, _) => none
  | (ds, rest) => some (Nat.ofDigitChars 10 ds 0, rest)

/-- Reads the digits after the point, if there is a point. -/
def readFraction? : List Char -> Option (List Char × List Char)
  | '.' :: rest =>
    match spanDigits rest with
    | ([], _) => none
    | (ds, rest) => some (ds, rest)
  | rest => some ([], rest)

def readExponentDigits? (text : List Char) : Option (Nat × List Char) :=
  match spanDigits text with
  | ([], _) => none
  | (ds, rest) => some (Nat.ofDigitChars 10 ds 0, rest)

def readExponent? : List Char -> Option (Option Int × List Char)
  | c :: rest =>
    if c = 'e' ∨ c = 'E' then
      match rest with
      | '-' :: rest => (readExponentDigits? rest).map fun (n, rest) => (some (-(n : Int)), rest)
      | '+' :: rest => (readExponentDigits? rest).map fun (n, rest) => (some (n : Int), rest)
      | rest => (readExponentDigits? rest).map fun (n, rest) => (some (n : Int), rest)
    else some (none, c :: rest)
  | [] => some (none, [])

def readMagnitude? (negative : Bool) (text : List Char) : Option (Number × List Char) := do
  let (whole, rest) ← readWhole? text
  let (fraction, rest) ← readFraction? rest
  let (exponent, rest) ← readExponent? rest
  some (⟨negative, whole, fraction, exponent⟩, rest)

def readNumber? : List Char -> Option (Number × List Char)
  | '-' :: rest => readMagnitude? true rest
  | text => readMagnitude? false text

/-!
# Documents
-/

mutual

/-- Reads one document; the depth and length of what is read are bounded by `fuel`. -/
def readValue? : Nat -> List Char -> Option (Json × List Char)
  | 0, _ => none
  | fuel + 1, text =>
    match skipBlanks text with
    | 'n' :: 'u' :: 'l' :: 'l' :: rest => some (.null, rest)
    | 't' :: 'r' :: 'u' :: 'e' :: rest => some (.bool true, rest)
    | 'f' :: 'a' :: 'l' :: 's' :: 'e' :: rest => some (.bool false, rest)
    | '"' :: rest => (readBody? rest).map fun (body, rest) => (.string ⟨body⟩, rest)
    | '[' :: rest =>
      match skipBlanks rest with
      | ']' :: rest => some (.array [], rest)
      | rest => (readItems? fuel rest).map fun (items, rest) => (.array items, rest)
    | '\x7b' :: rest =>
      match skipBlanks rest with
      | '\x7d' :: rest => some (.object [], rest)
      | rest => (readMembers? fuel rest).map fun (members, rest) => (.object members, rest)
    | rest => (readNumber? rest).map fun (n, rest) => (.number n, rest)

/-- Reads the items of an array that has some, with the closing bracket. -/
def readItems? : Nat -> List Char -> Option (List Json × List Char)
  | 0, _ => none
  | fuel + 1, text => do
    let (item, rest) ← readValue? fuel text
    match skipBlanks rest with
    | ',' :: rest => (readItems? fuel rest).map fun (items, rest) => (item :: items, rest)
    | ']' :: rest => some ([item], rest)
    | _ => none

/-- Reads the members of an object that has some, with the closing brace. -/
def readMembers? : Nat -> List Char -> Option (List (Literal × Json) × List Char)
  | 0, _ => none
  | fuel + 1, text =>
    match skipBlanks text with
    | '"' :: rest => do
      let (key, rest) ← readBody? rest
      match skipBlanks rest with
      | ':' :: rest =>
        let (value, rest) ← readValue? fuel rest
        match skipBlanks rest with
        | ',' :: rest =>
          (readMembers? fuel rest).map fun (members, rest) => ((⟨key⟩, value) :: members, rest)
        | '\x7d' :: rest => some ([(⟨key⟩, value)], rest)
        | _ => none
      | _ => none
    | _ => none

end

def read? (text : List Char) : Option Json := do
  let (value, rest) ← readValue? (text.length + 1) text
  if (skipBlanks rest).isEmpty then some value else none

end InferenceEngine.Json
