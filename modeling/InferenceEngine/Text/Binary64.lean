import InferenceEngine.Text.Decimal

/-!
# Numbers with a fraction

Numbers with a fraction are kept in the binary format of 64 bits, as exact values: a
significand times a power of two. A decimal is brought to the nearest such value, a tie to
the one with the even significand, and the text of a value is the shortest decimal that is
brought back to it.
-/

namespace InferenceEngine

/-- A number of the binary format of 64 bits. -/
inductive Binary64 where
  /-- The value `significand * 2 ^ exponent`, with a sign. -/
  | finite (negative : Bool) (significand : Nat) (exponent : Int)
  | infinite (negative : Bool)
  | undefined
  deriving DecidableEq, Inhabited

namespace Binary64

/-!
# Rounding
-/

/-- The quotient rounded to the nearest integer, a tie to the even one. -/
def divideToEven (n d : Nat) : Nat :=
  let q := n / d
  let r := n % d
  if d < 2 * r || (2 * r == d && q % 2 == 1) then q + 1 else q

/-- The quotient rounded to the nearest integer, a tie away from zero. -/
def divideAway (n d : Nat) : Nat :=
  let q := n / d
  if d ≤ 2 * (n % d) then q + 1 else q

/-- A fraction times a power of a base, as a fraction. -/
def scale (base : Nat) (n d : Nat) (exponent : Int) : Nat × Nat :=
  if 0 ≤ exponent then (n * base.pow exponent.toNat, d)
  else (n, d * base.pow (-exponent).toNat)

/-- The exponent at which the significand of a fraction has 53 bits, or the least exponent. -/
def exponentOf (n d : Nat) : Int :=
  let guess : Int := (n.log2 : Int) - d.log2 - 53
  let (a, b) := scale 2 n d (-guess)
  let exact := if 0x20000000000000 ≤ a / b then guess + 1 else guess
  max exact (-1074)

def nearest (negative : Bool) (n d : Nat) : Binary64 :=
  if n = 0 then finite negative 0 0
  else
    let exponent := exponentOf n d
    let (a, b) := scale 2 n d (-exponent)
    let significand := divideToEven a b
    if 1024 ≤ (significand.log2 : Int) + exponent then infinite negative
    else finite negative significand exponent

/-- The value nearest to a decimal `significand * 10 ^ exponent`. Decimals beyond the range
of all values are recognised before any power is computed. -/
def ofDecimal (negative : Bool) (significand : Nat) (exponent : Int) : Binary64 :=
  if significand = 0 then finite negative 0 0
  else
    let magnitude : Int := (Nat.toDigits 10 significand).length + exponent
    if 310 < magnitude then infinite negative
    else if magnitude < -400 then finite negative 0 0
    else
      let (n, d) := scale 10 significand 1 exponent
      nearest negative n d

/-!
# Integers
-/

def fraction (significand : Nat) (exponent : Int) : Nat × Nat := scale 2 significand 1 exponent

/-- The nearest integer between two bounds, a tie going away from zero. -/
def toIntBetween (low high : Int) : Binary64 -> Int
  | undefined => 0
  | infinite true => low
  | infinite false => high
  | finite negative significand exponent =>
    let (n, d) := fraction significand exponent
    let magnitude : Int := divideAway n d
    max low (min high (if negative then -magnitude else magnitude))

def isZero : Binary64 -> Bool
  | finite _ significand _ => significand == 0
  | _ => false

/-!
# Text
-/

/-- The decimal of some digits that is nearest to a fraction: its significand and exponent. -/
def nearestDecimal (n d count : Nat) : Nat × Int :=
  let whole := (Nat.toDigits 10 (n / d)).length
  let guess : Int :=
    if d ≤ n then (whole : Int) - count
    else (n.log2 : Int) * 30103 / 100000 - (d.log2 : Int) * 30103 / 100000 - count
  let at? := fun (e : Int) =>
    let (a, b) := scale 10 n d (-e)
    let s := divideToEven a b
    if s < Nat.pow 10 count then some (s, e) else none
  let tries := (List.range 4).map fun (i : Nat) => guess - 1 + i
  (tries.findSome? at?).getD (0, 0)

/-- The shortest decimal that is brought to a given value. -/
def shortest (significand : Nat) (exponent : Int) : Nat × Int :=
  let (n, d) := fraction significand exponent
  let value := nearest false n d
  let fits := fun (count : Nat) =>
    let (s, e) := nearestDecimal n d count
    if ofDecimal false s e = value then some (s, e) else none
  (((List.range 17).map (· + 1)).findSome? fits).getD (nearestDecimal n d 17)

/-- The positional text of a decimal, without a point where it is an integer. -/
def positional (significand : Nat) (exponent : Int) : List Char :=
  if 0 ≤ exponent then Nat.toDigits 10 significand ++ List.replicate exponent.toNat '0'
  else
    let places := (-exponent).toNat
    let ds := Nat.toDigits 10 significand
    let ds := List.replicate (places + 1 - ds.length) '0' ++ ds
    let after := (ds.drop (ds.length - places)).reverse.dropWhile (· == '0')
    let before := ds.take (ds.length - places)
    if after.isEmpty then before else before ++ '.' :: after.reverse

def text : Binary64 -> List Char
  | undefined => ['N', 'a', 'N']
  | infinite negative => (if negative then ['-'] else []) ++ ['i', 'n', 'f']
  | finite negative significand exponent =>
    let sign := if negative then ['-'] else []
    if significand = 0 then sign ++ ['0']
    else
      let (s, e) := shortest significand exponent
      sign ++ positional s e

end Binary64

end InferenceEngine
