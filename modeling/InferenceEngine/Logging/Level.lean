import InferenceEngine.Text.Decimal

/-!
# Levels

The levels of events, from the most urgent to the most detailed, and the texts that name
them: a word in any case, or a number.
-/

namespace InferenceEngine

inductive Level where
  | error
  | warn
  | info
  | debug
  | trace
  deriving DecidableEq, Inhabited

namespace Level

def word : Level -> String
  | error => "error"
  | warn => "warn"
  | info => "info"
  | debug => "debug"
  | trace => "trace"

/-- The level with a given number; the most urgent one is number one. -/
def ofNumber? : Nat -> Option Level
  | 1 => some error
  | 2 => some warn
  | 3 => some info
  | 4 => some debug
  | 5 => some trace
  | _ => none

def ofWord? : String -> Option Level
  | "error" => some error
  | "warn" => some warn
  | "info" => some info
  | "debug" => some debug
  | "trace" => some trace
  | _ => none

def lowerCase (text : List Char) : String := String.ofList (text.map Char.toLower)

/-- The number that a text spells, if it is a word of 64 bits. -/
def number? (text : List Char) : Option Nat :=
  (Text.readUnsigned? text).bind fun n => if n < Text.wordBound then some n else none

def ofText? (text : List Char) : Option Level :=
  match number? text with
  | some n => ofNumber? n
  | none => ofWord? (lowerCase text)

/-- The bound that a text names: a level up to which events pass, or `none` if none pass. -/
def boundOfText? (text : List Char) : Option (Option Level) :=
  match number? text with
  | some 0 => some none
  | some n => (ofNumber? n).map some
  | none => if lowerCase text = "off" then some none else (ofWord? (lowerCase text)).map some

def boundWord : Option Level -> String
  | none => "off"
  | some level => level.word

end Level

end InferenceEngine
