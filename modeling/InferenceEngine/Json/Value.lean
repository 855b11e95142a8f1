import InferenceEngine.Text.Decimal

/-!
# JSON values

A document is a tree whose strings and numbers are kept as they are spelled. So a reader
of the tree can tell `1` from `1.0`, sees members that are given twice, and rejects a
string only if it is used.
-/

namespace InferenceEngine

namespace Json

/-!
# Strings
-/

/-- The body of a string: what stands between its quotes, escapes included. -/
structure Literal where
  /-- The characters between the quotes. -/
  body : List Char
  deriving DecidableEq, Inhabited

def unit? (a b c d : Char) : Option Nat := Text.readHex? [a, b, c, d]

def surrogatePair (high low : Nat) : Char :=
  Char.ofNat (0x10000 + (high - 0xD800) * 0x400 + (low - 0xDC00))

/-- The character that a letter after a backslash denotes. -/
def escaped? : Char -> Option Char
  | '"' => some '"'
  | '\\' => some '\\'
  | '/' => some '/'
  | 'b' => some '\x08'
  | 'f' => some '\x0c'
  | 'n' => some '\n'
  | 'r' => some '\r'
  | 't' => some '\t'
  | _ => none

/-- The text that the body of a string denotes. A surrogate outside a pair denotes none. -/
def unescape? : List Char -> Option (List Char)
  | [] => some []
  | '\\' :: 'u' :: a :: b :: c :: d :: rest => do
    let high ← unit? a b c d
    if 0xD800 ≤ high ∧ high < 0xDC00 then
      match rest with
      | '\\' :: 'u' :: e :: f :: g :: h :: rest =>
        let low ← unit? e f g h
        if 0xDC00 ≤ low ∧ low < 0xE000 then
          (unescape? rest).map (surrogatePair high low :: ·)
        else none
      | _ => none
    else if 0xDC00 ≤ high ∧ high < 0xE000 then none
    else (unescape? rest).map (Char.ofNat high :: ·)
  | '\\' :: c :: rest => do
    let c ← escaped? c
    (unescape? rest).map (c :: ·)
  | c :: rest => (unescape? rest).map (c :: ·)

def Literal.text? (l : Literal) : Option String := (unescape? l.body).map String.ofList

def escape (c : Char) : List Char :=
  match c with
  | '"' => ['\\', '"']
  | '\\' => ['\\', '\\']
  | '\x08' => ['\\', 'b']
  | '\x0c' => ['\\', 'f']
  | '\n' => ['\\', 'n']
  | '\r' => ['\\', 'r']
  | '\t' => ['\\', 't']
  | c =>
    if c.toNat < 0x20 then
      ['\\', 'u', '0', '0', Nat.digitChar (c.toNat / 16), Nat.digitChar (c.toNat % 16)]
    else [c]

/-- The string that denotes a text, with only the necessary escapes. -/
def Literal.ofText (text : String) : Literal := ⟨text.toList.flatMap escape⟩

/-!
# Numbers
-/

structure Number where
  /-- Whether a minus sign stands in front. -/
  negative : Bool
  /-- The value of the digits before the point. -/
  whole : Nat
  /-- The digits after the point; there is no point if there are none. -/
  fraction : List Char
  /-- The exponent, if one is given. -/
  exponent : Option Int
  deriving DecidableEq, Inhabited

/-- The integer that a number spells: one without point and exponent, and not `-0`. -/
def Number.toInt? (n : Number) : Option Int :=
  if n.fraction.isEmpty && n.exponent.isNone && !(n.negative && n.whole == 0) then
    some (if n.negative then -(n.whole : Int) else n.whole)
  else none

def Number.ofInt (n : Int) : Number := ⟨n < 0, n.natAbs, [], none⟩

theorem Number.toInt?_ofInt (n : Int) : (Number.ofInt n).toInt? = some n := by
  have sign : (decide (n < 0) && n.natAbs == 0) = false := by
    rw [Bool.and_eq_false_iff, decide_eq_false_iff_not, beq_eq_false_iff_ne]
    omega
  have value : (if decide (n < 0) = true then -(n.natAbs : Int) else n.natAbs) = n := by
    split
    next h =>
      have := of_decide_eq_true h
      omega
    next h =>
      have : ¬ n < 0 := fun below => h (decide_eq_true below)
      omega
  show (if (true && true && !(decide (n < 0) && n.natAbs == 0)) = true
    then some (if decide (n < 0) = true then -(n.natAbs : Int) else n.natAbs) else none) = some n
  rw [sign, value]
  rfl

end Json

inductive Json where
  | null
  | bool (b : Bool)
  | number (n : Json.Number)
  | string (s : Json.Literal)
  | array (items : List Json)
  | object (members : List (Json.Literal × Json))
  deriving Inhabited

namespace Json

def ofText (text : String) : Json := .string (.ofText text)

def ofInt (n : Int) : Json := .number (.ofInt n)

def ofNat (n : Nat) : Json := .ofInt n

def ofMembers (members : List (String × Json)) : Json :=
  .object (members.map fun m => (.ofText m.1, m.2))

end Json

end InferenceEngine
