import InferenceEngine.Options.Setting

/-!
# Reading TOML

An options file in TOML is a list of statements: headers that open a table, and
assignments to keys of the open one. `Toml.read?` reads a whole text as the entries of its
root table. A key that is given twice, or a table that is opened twice, makes the text
unreadable.
-/

namespace InferenceEngine.Toml

/-!
# Characters
-/

def isBareKeyChar (c : Char) : Bool := c.isAlphanum || c == '_' || c == '-'

/-- Whether a character can stand in a string or a comment as it is. -/
def isPlain (c : Char) : Bool := c == '\t' || (0x20 ≤ c.toNat && c.toNat != 0x7F)

def skipBlanks (text : List Char) : List Char := text.dropWhile fun c => c == ' ' || c == '\t'

def newline? : List Char -> Option (List Char)
  | '\n' :: rest => some rest
  | '\r' :: '\n' :: rest => some rest
  | _ => none

def skipComment : List Char -> List Char
  | '#' :: rest => rest.dropWhile isPlain
  | text => text

/-- Takes what may follow a statement: blanks, a comment and the end of the line. -/
def endOfLine? (text : List Char) : Option (List Char) :=
  match skipComment (skipBlanks text) with
  | [] => some []
  | text => newline? text

/-- The text after all blanks, comments and ends of lines that start it. -/
def skipLines : Nat -> List Char -> List Char
  | 0, text => text
  | fuel + 1, text =>
    let text := skipComment (skipBlanks text)
    match newline? text with
    | some rest => skipLines fuel rest
    | none => text

/-!
# Strings
-/

/-- The character of a code point that an escape gives in digits. -/
def codePoint? (ds : List Char) : Option Char :=
  (Text.readHex? ds).bind fun n =>
    if n.isValidChar then some (Char.ofNat n) else none

def readEscape? : List Char -> Option (Char × List Char)
  | 'b' :: rest => some ('\x08', rest)
  | 't' :: rest => some ('\t', rest)
  | 'n' :: rest => some ('\n', rest)
  | 'f' :: rest => some ('\x0c', rest)
  | 'r' :: rest => some ('\r', rest)
  | '"' :: rest => some ('"', rest)
  | '\\' :: rest => some ('\\', rest)
  | 'u' :: rest =>
    if 4 ≤ rest.length then (codePoint? (rest.take 4)).map (·, rest.drop 4) else none
  | 'U' :: rest =>
    if 8 ≤ rest.length then (codePoint? (rest.take 8)).map (·, rest.drop 8) else none
  | _ => none

/-- Reads a string with escapes up to its closing quote. -/
def readBasic? : Nat -> List Char -> Option (List Char × List Char)
  | 0, _ => none
  | _, [] => none
  | _, '"' :: rest => some ([], rest)
  | fuel + 1, '\\' :: rest => do
    let (c, rest) ← readEscape? rest
    (readBasic? fuel rest).map fun (cs, rest) => (c :: cs, rest)
  | fuel + 1, c :: rest =>
    if isPlain c then (readBasic? fuel rest).map fun (cs, rest) => (c :: cs, rest) else none

/-- Reads a string without escapes up to its closing quote. -/
def readLiteral? : List Char -> Option (List Char × List Char)
  | [] => none
  | '\'' :: rest => some ([], rest)
  | c :: rest =>
    if isPlain c then (readLiteral? rest).map fun (cs, rest) => (c :: cs, rest) else none

def skipWhite (text : List Char) : List Char :=
  text.dropWhile fun c => c == ' ' || c == '\t' || c == '\n' || c == '\r'

/-- Reads a string of several lines with escapes, up to its three closing quotes. A
backslash at the end of a line leaves out all white space after it. -/
def readBasicLines? : Nat -> List Char -> Option (List Char × List Char)
  | 0, _ => none
  | _, [] => none
  | _, '"' :: '"' :: '"' :: rest => some ([], rest)
  | fuel + 1, '\\' :: rest =>
    match newline? (skipBlanks rest) with
    | some rest => readBasicLines? fuel (skipWhite rest)
    | none => do
      let (c, rest) ← readEscape? rest
      (readBasicLines? fuel rest).map fun (cs, rest) => (c :: cs, rest)
  | fuel + 1, c :: rest =>
    match newline? (c :: rest) with
    | some rest => (readBasicLines? fuel rest).map fun (cs, rest) => ('\n' :: cs, rest)
    | none =>
      if isPlain c then (readBasicLines? fuel rest).map fun (cs, rest) => (c :: cs, rest)
      else none

/-- Reads a string of several lines without escapes, up to its three closing quotes. -/
def readLiteralLines? : Nat -> List Char -> Option (List Char × List Char)
  | 0, _ => none
  | _, [] => none
  | _, '\'' :: '\'' :: '\'' :: rest => some ([], rest)
  | fuel + 1, c :: rest =>
    match newline? (c :: rest) with
    | some rest => (readLiteralLines? fuel rest).map fun (cs, rest) => ('\n' :: cs, rest)
    | none =>
      if isPlain c then (readLiteralLines? fuel rest).map fun (cs, rest) => (c :: cs, rest)
      else none

/-- The text after an end of line that starts it, if one does. -/
def skipNewline (text : List Char) : List Char := (newline? text).getD text

def readString? (text : List Char) : Option (List Char × List Char) :=
  match text with
  | '"' :: '"' :: '"' :: rest => readBasicLines? (text.length + 1) (skipNewline rest)
  | '\'' :: '\'' :: '\'' :: rest => readLiteralLines? (text.length + 1) (skipNewline rest)
  | '"' :: rest => readBasic? (text.length + 1) rest
  | '\'' :: rest => readLiteral? rest
  | _ => none

/-!
# Keys
-/

def readName? : List Char -> Option (String × List Char)
  | '"' :: rest =>
    (readBasic? (rest.length + 1) rest).map fun (cs, rest) => (String.ofList cs, rest)
  | '\'' :: rest => (readLiteral? rest).map fun (cs, rest) => (String.ofList cs, rest)
  | text =>
    match text.takeWhile isBareKeyChar with
    | [] => none
    | name => some (String.ofList name, text.dropWhile isBareKeyChar)

def readKey? : Nat -> List Char -> Option (List String × List Char)
  | 0, _ => none
  | fuel + 1, text => do
    let (name, rest) ← readName? (skipBlanks text)
    match skipBlanks rest with
    | '.' :: rest => (readKey? fuel rest).map fun (names, rest) => (name :: names, rest)
    | rest => some ([name], rest)

/-!
# Numbers and dates
-/

/-- Reads digits with single underscores between them. -/
def readGrouped? (isDigit : Char -> Bool) (text : List Char) : Option (List Char) :=
  match text with
  | [] => none
  | [c] => if isDigit c then some [c] else none
  | c :: '_' :: rest =>
    if isDigit c then (readGrouped? isDigit rest).map (c :: ·) else none
  | c :: rest => if isDigit c then (readGrouped? isDigit rest).map (c :: ·) else none

def splitSign : List Char -> Bool × List Char
  | '-' :: rest => (true, rest)
  | '+' :: rest => (false, rest)
  | text => (false, text)

/-- The integer of a magnitude with a sign, if it has 64 bits. -/
def bounded? (negative : Bool) (n : Nat) : Option Setting :=
  let i : Int := if negative then -(n : Int) else n
  if Text.fitsSigned i then some (.integer i) else none

/-- Reads decimal digits that have no needless zero in front. -/
def readDecimal? (text : List Char) : Option (List Char) :=
  match readGrouped? Char.isDigit text with
  | some ('0' :: _ :: _) => none
  | ds => ds

def ofBase (base : Nat) (ds : List Char) : Nat :=
  ds.foldl (fun n c => base * n + (Text.hexDigit? c).getD 0) 0

def readInteger? (text : List Char) : Option Setting :=
  match text with
  | '0' :: 'x' :: rest =>
    (readGrouped? (fun c => (Text.hexDigit? c).isSome) rest).bind fun ds =>
      bounded? false (ofBase 16 ds)
  | '0' :: 'o' :: rest =>
    (readGrouped? (fun c => '0' ≤ c && c ≤ '7') rest).bind fun ds => bounded? false (ofBase 8 ds)
  | '0' :: 'b' :: rest =>
    (readGrouped? (fun c => c == '0' || c == '1') rest).bind fun ds =>
      bounded? false (ofBase 2 ds)
  | text =>
    let (negative, ds) := splitSign text
    (readDecimal? ds).bind fun ds => bounded? negative (Nat.ofDigitChars 10 ds 0)

def readExponent? (text : List Char) : Option Int :=
  let (negative, ds) := splitSign text
  (readGrouped? Char.isDigit ds).map fun ds =>
    let n : Int := Nat.ofDigitChars 10 ds 0
    if negative then -n else n

def readReal? (text : List Char) : Option Setting := do
  let (negative, ds) := splitSign text
  if ds = ['i', 'n', 'f'] then some (.real (.infinite negative))
  else if ds = ['n', 'a', 'n'] then some (.real .undefined)
  else
    let isMark := fun c => c == 'e' || c == 'E'
    let mantissa := ds.takeWhile fun c => !isMark c
    let exponent ← match ds.dropWhile fun c => !isMark c with
      | [] => some 0
      | _ :: rest => readExponent? rest
    let whole ← readDecimal? (mantissa.takeWhile (· != '.'))
    let fraction ← match mantissa.dropWhile (· != '.') with
      | [] => some []
      | _ :: rest => readGrouped? Char.isDigit rest
    let significand := Nat.ofDigitChars 10 fraction (Nat.ofDigitChars 10 whole 0)
    match Binary64.ofDecimal negative significand (exponent - fraction.length) with
    | .infinite _ => none
    | x => some (.real x)

def pair? (bound : Nat) : List Char -> Option (List Char)
  | [a, b] =>
    if a.isDigit && b.isDigit && Nat.ofDigitChars 10 [a, b] 0 < bound then some [a, b] else none
  | _ => none

def readDate? : List Char -> Option (List Char × List Char)
  | a :: b :: c :: d :: '-' :: e :: f :: '-' :: g :: h :: rest =>
    if [a, b, c, d].all Char.isDigit && (pair? 13 [e, f]).isSome && (pair? 32 [g, h]).isSome &&
        [e, f] != ['0', '0'] && [g, h] != ['0', '0'] then
      some ([a, b, c, d, '-', e, f, '-', g, h], rest)
    else none
  | _ => none

/-- Reads a time of day; zeros at the end of the fraction are left out. -/
def readTime? : List Char -> Option (List Char × List Char)
  | a :: b :: ':' :: c :: d :: ':' :: e :: f :: rest =>
    if (pair? 25 [a, b]).isSome && (pair? 60 [c, d]).isSome && (pair? 61 [e, f]).isSome then
      let time := [a, b, ':', c, d, ':', e, f]
      match rest with
      | '.' :: rest =>
        match rest.takeWhile Char.isDigit with
        | [] => none
        | ds =>
          let kept := ((ds.take 9).reverse.dropWhile (· == '0')).reverse
          some (if kept.isEmpty then time else time ++ '.' :: kept, rest.dropWhile Char.isDigit)
      | rest => some (time, rest)
    else none
  | _ => none

def readOffset? : List Char -> Option (List Char)
  | [] => some []
  | ['Z'] => some ['Z']
  | ['z'] => some ['Z']
  | [s, a, b, ':', c, d] =>
    if (s == '+' || s == '-') && (pair? 24 [a, b]).isSome && (pair? 60 [c, d]).isSome then
      some [s, a, b, ':', c, d]
    else none
  | _ => none

/-- Reads a date, a time or both; the setting is their normal text. -/
def readMoment? (text : List Char) : Option Setting :=
  match readDate? text with
  | some (date, []) => some (.text (String.ofList date))
  | some (date, mark :: rest) =>
    if mark == 'T' || mark == 't' || mark == ' ' then do
      let (time, rest) ← readTime? rest
      let offset ← readOffset? rest
      some (.text (String.ofList (date ++ 'T' :: time ++ offset)))
    else none
  | none =>
    match readTime? text with
    | some (time, []) => some (.text (String.ofList time))
    | _ => none

/-- Whether a character can stand in a number, a date or a word. -/
def isAtomChar (c : Char) : Bool := isBareKeyChar c || c == '+' || c == '.' || c == ':'

/-- Splits off a number, a date or a word. A blank stays inside if it stands between a date
and a time. -/
def splitAtom (text : List Char) : List Char × List Char :=
  let atom := text.takeWhile isAtomChar
  let rest := text.dropWhile isAtomChar
  match readDate? atom, rest with
  | some (_, []), ' ' :: c :: more =>
    if c.isDigit then
      (atom ++ ' ' :: (c :: more).takeWhile isAtomChar, (c :: more).dropWhile isAtomChar)
    else (atom, rest)
  | _, _ => (atom, rest)

def atom? (text : List Char) : Option Setting :=
  if text = "true".toList then some (.bool true)
  else if text = "false".toList then some (.bool false)
  else (readInteger? text).orElse fun _ => (readReal? text).orElse fun _ => readMoment? text

/-!
# Tables under construction
-/

inductive Origin where
  /-- Made on the way to another one by a header. -/
  | implied
  /-- Opened by a header. -/
  | header
  /-- Made on the way to a key by an assignment. -/
  | dotted
  deriving DecidableEq, Inhabited

/-- A part of a document under construction. -/
inductive Node where
  | value (s : Setting)
  | table (origin : Origin) (entries : List (String × Node))
  | tables (items : List (List (String × Node)))
  deriving Inhabited

namespace Node

def lookup (name : String) (entries : List (String × Node)) : Option Node :=
  (entries.find? fun e => e.1 = name).map Prod.snd

def put (name : String) (node : Node) : List (String × Node) -> List (String × Node)
  | [] => [(name, node)]
  | (k, v) :: rest => if k = name then (k, node) :: rest else (k, v) :: put name node rest

/-- Changes the entries of the table that a list of names leads to. Missing tables on the
way are made with the given origin, and those that are there must be admitted; of several
tables under one name the last is meant. -/
def modifyAt (fresh : Origin) (admits : Node -> Bool)
    (f : List (String × Node) -> Option (List (String × Node))) :
    List String -> List (String × Node) -> Option (List (String × Node))
  | [], entries => f entries
  | name :: names, entries =>
    match lookup name entries with
    | none => (modifyAt fresh admits f names []).map fun es => put name (table fresh es) entries
    | some node =>
      if admits node then
        match node with
        | value _ => none
        | table origin inner =>
          (modifyAt fresh admits f names inner).map fun es => put name (table origin es) entries
        | tables items =>
          match items.reverse with
          | [] => none
          | last :: before =>
            (modifyAt fresh admits f names last).map fun es =>
              put name (tables (before.reverse ++ [es])) entries
      else none

def openTable (name : String) (entries : List (String × Node)) :
    Option (List (String × Node)) :=
  match lookup name entries with
  | none => some (put name (table .header []) entries)
  | some (table .implied inner) => some (put name (table .header inner) entries)
  | some _ => none

def openItem (name : String) (entries : List (String × Node)) :
    Option (List (String × Node)) :=
  match lookup name entries with
  | none => some (put name (tables [[]]) entries)
  | some (tables items) => some (put name (tables (items ++ [[]])) entries)
  | some _ => none

def define (name : String) (s : Setting) (entries : List (String × Node)) :
    Option (List (String × Node)) :=
  match lookup name entries with
  | none => some (entries ++ [(name, value s)])
  | some _ => none

/-- Splits a key into the names before the last one and the last one. -/
def splitLast : List String -> Option (List String × String)
  | [] => none
  | [name] => some ([], name)
  | name :: names => (splitLast names).map fun (before, last) => (name :: before, last)

def assign (key : List String) (s : Setting) (entries : List (String × Node)) :
    Option (List (String × Node)) := do
  let (before, last) ← splitLast key
  modifyAt .dotted
    (fun node => match node with
      | table .dotted _ => true
      | _ => false)
    (define last s) before entries

mutual

def toSetting : Node -> Setting
  | value s => s
  | table _ entries => .table (entriesToSettings entries)
  | tables items => .list (tablesToSettings items)

def entriesToSettings : List (String × Node) -> List (String × Setting)
  | [] => []
  | (name, node) :: rest => (name, toSetting node) :: entriesToSettings rest

def tablesToSettings : List (List (String × Node)) -> List Setting
  | [] => []
  | entries :: rest => .table (entriesToSettings entries) :: tablesToSettings rest

end

end Node

/-!
# Values
-/

mutual

def readValue? : Nat -> List Char -> Option (Setting × List Char)
  | 0, _ => none
  | fuel + 1, text =>
    match text with
    | '"' :: _ => (readString? text).map fun (cs, rest) => (.text (String.ofList cs), rest)
    | '\'' :: _ => (readString? text).map fun (cs, rest) => (.text (String.ofList cs), rest)
    | '[' :: rest => (readItems? fuel rest).map fun (items, rest) => (.list items, rest)
    | '\x7b' :: rest =>
      match skipBlanks rest with
      | '\x7d' :: rest => some (.table [], rest)
      | rest =>
        (readEntries? fuel [] rest).map fun (entries, rest) =>
          (.table (Node.entriesToSettings entries), rest)
    | text =>
      let (atom, rest) := splitAtom text
      (atom? atom).map (·, rest)

/-- Reads the items of an array, with the closing bracket. -/
def readItems? : Nat -> List Char -> Option (List Setting × List Char)
  | 0, _ => none
  | fuel + 1, text =>
    match skipLines text.length text with
    | ']' :: rest => some ([], rest)
    | text => do
      let (item, rest) ← readValue? fuel text
      match skipLines rest.length rest with
      | ',' :: rest => (readItems? fuel rest).map fun (items, rest) => (item :: items, rest)
      | ']' :: rest => some ([item], rest)
      | _ => none

/-- Reads the assignments of a table on one line, with the closing brace. -/
def readEntries? : Nat -> List (String × Node) -> List Char ->
    Option (List (String × Node) × List Char)
  | 0, _, _ => none
  | fuel + 1, entries, text => do
    let (key, rest) ← readKey? text.length text
    match skipBlanks rest with
    | '=' :: rest =>
      let (value, rest) ← readValue? fuel (skipBlanks rest)
      let entries ← Node.assign key value entries
      match skipBlanks rest with
      | ',' :: rest => readEntries? fuel entries rest
      | '\x7d' :: rest => some (entries, rest)
      | _ => none
    | _ => none

end

/-!
# Documents
-/

/-- A document under construction: its root table and the key of the open one. -/
structure Draft where
  root : List (String × Node)
  current : List String
  deriving Inhabited

def Draft.modifyOpen (d : Draft) (f : List (String × Node) -> Option (List (String × Node))) :
    Option Draft :=
  (Node.modifyAt .implied (fun _ => true) f d.current d.root).map fun root =>
    { d with root := root }

def Draft.openKey (d : Draft) (key : List String)
    (f : String -> List (String × Node) -> Option (List (String × Node))) : Option Draft := do
  let (before, last) ← Node.splitLast key
  let root ← Node.modifyAt .implied (fun _ => true) (f last) before d.root
  some ⟨root, key⟩

def readStatement? (d : Draft) (text : List Char) : Option (Draft × List Char) :=
  match text with
  | '[' :: '[' :: rest => do
    let (key, rest) ← readKey? text.length rest
    match rest with
    | ']' :: ']' :: rest => some (← d.openKey key Node.openItem, ← endOfLine? rest)
    | _ => none
  | '[' :: rest => do
    let (key, rest) ← readKey? text.length rest
    match rest with
    | ']' :: rest => some (← d.openKey key Node.openTable, ← endOfLine? rest)
    | _ => none
  | text => do
    let (key, rest) ← readKey? text.length text
    match rest with
    | '=' :: rest =>
      let (value, rest) ← readValue? (text.length + 1) (skipBlanks rest)
      some (← d.modifyOpen (Node.assign key value), ← endOfLine? rest)
    | _ => none

def readStatements? : Nat -> Draft -> List Char -> Option Draft
  | 0, _, _ => none
  | fuel + 1, d, text =>
    match skipLines text.length text with
    | [] => some d
    | text => do
      let (d, rest) ← readStatement? d text
      readStatements? fuel d rest

/-- Reads a whole text as the entries of its root table. -/
def read? (text : String) : Option (List (String × Setting)) :=
  let text := text.toList
  (readStatements? (text.length + 1) ⟨[], []⟩ text).map fun d => Node.entriesToSettings d.root

end InferenceEngine.Toml
