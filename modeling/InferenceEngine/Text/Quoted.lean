import InferenceEngine.Bytes
import InferenceEngine.Text.Decimal
import InferenceEngine.Text.Invisible

/-!
# Quoted text

The form in which texts and byte strings stand inside descriptions of values: between
double quotes, with quotes, backslashes and characters that cannot be seen escaped.
-/

namespace InferenceEngine.Text

/-!
# Texts
-/

def quotedChar (c : Char) : List Char :=
  match c with
  | '"' => ['\\', '"']
  | '\\' => ['\\', '\\']
  | '\n' => ['\\', 'n']
  | '\r' => ['\\', 'r']
  | '\t' => ['\\', 't']
  | '\x00' => ['\\', '0']
  | c =>
    if Invisible.holds c then
      ['\\', 'u', '\x7b'] ++ Nat.toDigits 16 c.toNat ++ ['\x7d']
    else [c]

def quoted (text : String) : String :=
  String.ofList ('"' :: text.toList.flatMap quotedChar ++ ['"'])

/-!
# Byte strings
-/

/-- The two hexadecimal digits of a byte, in lower case. -/
def hexByte (b : UInt8) : List Char :=
  [Nat.digitChar (b.toNat / 16), Nat.digitChar (b.toNat % 16)]

/-- A byte inside a quoted byte string: printable ASCII as it is, all else escaped. -/
def quotedByte (b : UInt8) : List Char :=
  match Char.ofNat b.toNat with
  | '"' => ['\\', '"']
  | '\\' => ['\\', '\\']
  | '\n' => ['\\', 'n']
  | '\r' => ['\\', 'r']
  | '\t' => ['\\', 't']
  | '\x00' => ['\\', '0']
  | c => if 0x20 ≤ b && b < 0x7F then [c] else '\\' :: 'x' :: hexByte b

/-- A byte string between double quotes, marked by the letter `b`. -/
def quotedBytes (bytes : Bytes) : String :=
  String.ofList ('b' :: '"' :: bytes.flatMap quotedByte ++ ['"'])

/-!
# Descriptions of compound values
-/

def listed (items : List String) : String :=
  "[" ++ ", ".intercalate items ++ "]"

def record (name : String) (fields : List (String × String)) : String :=
  name ++ " \x7b " ++ ", ".intercalate (fields.map fun f => f.1 ++ ": " ++ f.2) ++ " \x7d"

def mapping (entries : List (String × String)) : String :=
  "\x7b" ++ ", ".intercalate (entries.map fun e => e.1 ++ ": " ++ e.2) ++ "\x7d"

def optional : Option String -> String
  | none => "None"
  | some value => "Some(" ++ value ++ ")"

end InferenceEngine.Text
