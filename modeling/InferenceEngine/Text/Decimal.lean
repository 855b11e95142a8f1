/-!
# Integers in text

Decimal integers as they stand in documents, settings and messages. A reader takes a
whole text: the digits, with the sign that the kind of number admits, and nothing else.
-/

namespace InferenceEngine.Text

def digits (n : Nat) : List Char := Nat.toDigits 10 n

/-- The decimal text of an integer, with a minus sign below zero. -/
def integer (n : Int) : List Char :=
  if n < 0 then '-' :: digits n.natAbs else digits n.natAbs

def readDigits? (text : List Char) : Option Nat :=
  if !text.isEmpty && text.all Char.isDigit then some (Nat.ofDigitChars 10 text 0) else none

def readUnsigned? : List Char -> Option Nat
  | '+' :: rest => readDigits? rest
  | text => readDigits? text

def readSigned? : List Char -> Option Int
  | '-' :: rest => (readDigits? rest).map fun n => -(n : Int)
  | text => (readUnsigned? text).map Int.ofNat

def hexDigit? (c : Char) : Option Nat :=
  if '0' ≤ c ∧ c ≤ '9' then some (c.toNat - '0'.toNat)
  else if 'a' ≤ c ∧ c ≤ 'f' then some (c.toNat - 'a'.toNat + 10)
  else if 'A' ≤ c ∧ c ≤ 'F' then some (c.toNat - 'A'.toNat + 10)
  else none

/-- Reads a list of hexadecimal digits, the highest first; the empty list reads as zero. -/
def readHex? (text : List Char) : Option Nat :=
  text.foldlM (fun n c => (hexDigit? c).map fun d => 16 * n + d) 0

def halfWordBound : Nat := 0x100000000

def wordBound : Nat := 0x10000000000000000

def signedBound : Nat := 0x8000000000000000

/-- A number as one of 64 bits; the greatest of them stands for all that do not fit. -/
def toWord (n : Nat) : Nat := min n (wordBound - 1)

theorem toWord_lt (n : Nat) : toWord n < wordBound := by
  unfold toWord wordBound
  omega

/-- Whether an integer fits a signed number of 64 bits. -/
def fitsSigned (n : Int) : Bool := -(signedBound : Int) ≤ n && n < signedBound

end InferenceEngine.Text
