import Mathlib.Data.List.Basic
import InferenceEngine.Json.Record

/-!
# Strings and numbers as they are written

A text is written with only the necessary escapes, and an integer by its digits.  What is read of
either, with more text behind it, is what was written.
-/

namespace InferenceEngine

/-!
# Decimal digits

Only zero is written with a zero in front.
-/

namespace Text

theorem digits_ne_nil (n : Nat) : digits n ≠ [] := Nat.toDigits_ne_nil

theorem isDigit_of_mem_digits {n : Nat} {c : Char} (h : c ∈ digits n) : c.isDigit = true :=
  Nat.isDigit_of_mem_toDigits (by decide) (by decide) h

theorem ofDigitChars_digits (n : Nat) : Nat.ofDigitChars 10 (digits n) 0 = n :=
  Nat.ofDigitChars_ten_toDigits

theorem digits_ne_zero_cons {n : Nat} (h : 0 < n) (rest : List Char) :
    digits n ≠ '0' :: rest := by
  induction n using Nat.strongRecOn generalizing rest with
  | ind n ih =>
      unfold digits
      rw [Nat.toDigits_eq_if (by decide)]
      split
      · rename_i hlt
        have hall : forall n : Nat, n < 10 -> 0 < n -> n.digitChar ≠ '0' := by decide
        intro heq
        exact hall n hlt h (List.cons.inj heq).1
      · rename_i hge
        intro heq
        have hrest := ih (n / 10) (by omega) (by omega)
        unfold digits at hrest
        rcases hdigits : Nat.toDigits 10 (n / 10) with _ | ⟨first, more⟩
        · exact Nat.toDigits_ne_nil hdigits
        · rw [hdigits, List.cons_append] at heq
          exact hrest more (by rw [hdigits, (List.cons.inj heq).1])

end Text

namespace Json

/-!
# Strings

The body of a string is read up to the quote that closes it.
-/

/-- A character stands for itself, after a backslash, or by the digits of its number. -/
theorem escape_cases (c : Char) :
    (exists x : Char, escape c = ['\\', x] ∧ x ≠ 'u' ∧ escaped? x = some c) ∨
    (exists a b : Char, escape c = ['\\', 'u', '0', '0', a, b] ∧
      unit? '0' '0' a b = some c.toNat ∧ c.toNat < 0x20) ∨
    (escape c = [c] ∧ 0x20 ≤ c.toNat ∧ c ≠ '"' ∧ c ≠ '\\') := by
  unfold escape
  split
  · exact .inl ⟨'"', rfl, by decide, rfl⟩
  · exact .inl ⟨'\\', rfl, by decide, rfl⟩
  · exact .inl ⟨'b', rfl, by decide, rfl⟩
  · exact .inl ⟨'f', rfl, by decide, rfl⟩
  · exact .inl ⟨'n', rfl, by decide, rfl⟩
  · exact .inl ⟨'r', rfl, by decide, rfl⟩
  · exact .inl ⟨'t', rfl, by decide, rfl⟩
  · rename_i hquote hbackslash _ _ _ _ _
    split
    · rename_i hlt
      have hall : forall n : Nat, n < 0x20 ->
          unit? '0' '0' (n / 16).digitChar (n % 16).digitChar = some n := by decide
      exact .inr (.inl ⟨_, _, rfl, hall c.toNat hlt, hlt⟩)
    · rename_i hge
      exact .inr (.inr ⟨rfl, Nat.le_of_not_lt hge, hquote, hbackslash⟩)

theorem escape_of_isDigit {c : Char} (h : c.isDigit = true) : escape c = [c] := by
  unfold escape
  split <;> first | exact absurd h (by decide) | skip
  have hge : 48 ≤ c.toNat := (Char.isDigit_iff_toNat.1 h).1
  exact if_neg (by omega)

theorem unescape?_escape (c : Char) (rest : List Char) :
    unescape? (escape c ++ rest) = (unescape? rest).map (c :: ·) := by
  rcases escape_cases c with ⟨x, hescape, hx, hchar⟩ | ⟨a, b, hescape, hunit, hlt⟩ |
    ⟨hescape, _, _, hbackslash⟩
  · rw [hescape]
    show unescape? ('\\' :: x :: rest) = _
    rw [unescape?.eq_def]
    split
    · rename_i heq
      cases heq
    · rename_i heq
      exact absurd (List.cons.inj (List.cons.inj heq).2).1 hx
    · rename_i heq
      cases heq
      rw [hchar]
      rfl
    · rename_i hother heq
      cases heq
      exact absurd rfl (hother x rest · rfl)
  · have hchar : Char.ofNat c.toNat = c := Char.ofNat_toNat c
    rw [hescape]
    show unescape? ('\\' :: 'u' :: '0' :: '0' :: a :: b :: rest) = _
    rw [unescape?, hunit]
    show (if _ then _ else _) = _
    rw [if_neg (by omega), if_neg (by omega), hchar]
  · rw [hescape]
    show unescape? (c :: rest) = _
    rw [unescape?.eq_def]
    split
    · rename_i heq
      cases heq
    · rename_i heq
      exact absurd (List.cons.inj heq).1 hbackslash
    · rename_i heq
      exact absurd (List.cons.inj heq).1 hbackslash
    · rename_i heq
      cases heq
      rfl

theorem unescape?_escapes (chars : List Char) :
    unescape? (chars.flatMap escape) = some chars := by
  induction chars with
  | nil => rfl
  | cons c rest ih => rw [List.flatMap_cons, unescape?_escape, ih, Option.map_some]

@[simp] theorem Literal.text?_ofText (text : String) : (Literal.ofText text).text? = some text := by
  unfold Literal.text? Literal.ofText
  rw [unescape?_escapes, Option.map_some, String.ofList_toList]

theorem readBody?_escape (c : Char) (rest : List Char) :
    readBody? (escape c ++ rest) =
      (readBody? rest).map fun read => (escape c ++ read.1, read.2) := by
  rcases escape_cases c with ⟨x, hescape, hx, hchar⟩ | ⟨a, b, hescape, hunit, hlt⟩ |
    ⟨hescape, hle, hquote, hbackslash⟩
  · rw [hescape]
    show readBody? ('\\' :: x :: rest) = _
    have hisEscape : isEscape x = true := by
      unfold isEscape
      rw [hchar]
      rfl
    rw [readBody?.eq_def]
    split
    · rename_i heq
      cases heq
    · rename_i heq
      exact absurd (List.cons.inj heq).1 (by decide)
    · rename_i heq
      exact absurd (List.cons.inj (List.cons.inj heq).2).1 hx
    · rename_i heq
      cases heq
      rw [if_pos hisEscape]
      rfl
    · rename_i hother heq
      cases heq
      exact absurd rfl (hother x rest · rfl)
  · rw [hescape]
    show readBody? ('\\' :: 'u' :: '0' :: '0' :: a :: b :: rest) = _
    rw [readBody?, hunit]
    rfl
  · rw [hescape]
    show readBody? (c :: rest) = _
    rw [readBody?.eq_def]
    split
    · rename_i heq
      cases heq
    · rename_i heq
      exact absurd (List.cons.inj heq).1 hquote
    · rename_i heq
      exact absurd (List.cons.inj heq).1 hbackslash
    · rename_i heq
      exact absurd (List.cons.inj heq).1 hbackslash
    · rename_i heq
      cases heq
      have hplain : (decide (c.toNat < 0x20) || decide (c = '\\')) = false := by
        simp [hbackslash, Nat.not_lt.2 hle]
      rw [hplain]
      rfl

theorem readBody?_ofText (text : String) (rest : List Char) :
    readBody? ((Literal.ofText text).body ++ '"' :: rest) =
      some ((Literal.ofText text).body, rest) := by
  show readBody? (text.toList.flatMap escape ++ '"' :: rest) =
    some (text.toList.flatMap escape, rest)
  induction text.toList with
  | nil => rw [List.flatMap_nil, List.nil_append, readBody?]
  | cons c chars ih =>
      rw [List.flatMap_cons, List.append_assoc, readBody?_escape, ih, Option.map_some]

/-!
# Numbers

The text of an integer is the one that is written for it as a number.
-/

def Closes (rest : List Char) : Prop :=
  forall (c : Char) (more : List Char), rest = c :: more -> c = ',' ∨ c = ']' ∨ c = '\x7d'

theorem closes_nil : Closes [] := by
  intro c more h
  cases h

theorem closes_cons {c : Char} (h : c = ',' ∨ c = ']' ∨ c = '\x7d') (rest : List Char) :
    Closes (c :: rest) := by
  intro c' more heq
  rw [← (List.cons.inj heq).1]
  exact h

theorem spanDigits_digits (n : Nat) {rest : List Char} (h : Closes rest) :
    spanDigits (Text.digits n ++ rest) = (Text.digits n, rest) := by
  have hdigits : forall c : Char, c ∈ Text.digits n -> c.isDigit = true :=
    fun c hc => Text.isDigit_of_mem_digits hc
  have hrest : rest.takeWhile Char.isDigit = [] ∧ rest.dropWhile Char.isDigit = rest := by
    cases rest with
    | nil => exact ⟨rfl, rfl⟩
    | cons c more =>
        rcases h c more rfl with rfl | rfl | rfl
        · exact ⟨rfl, rfl⟩
        · exact ⟨rfl, rfl⟩
        · exact ⟨rfl, rfl⟩
  unfold spanDigits
  rw [List.takeWhile_append_of_pos hdigits, List.dropWhile_append_of_pos hdigits, hrest.1,
    hrest.2, List.append_nil]

theorem readWhole?_digits (n : Nat) {rest : List Char} (h : Closes rest) :
    readWhole? (Text.digits n ++ rest) = some (n, rest) := by
  unfold readWhole?
  rw [spanDigits_digits n h]
  split
  · rename_i heq
    exact absurd (Prod.mk.inj heq).1 (Text.digits_ne_nil n)
  · rename_i c more _ heq
    have hzero : Text.digits n = '0' :: c :: more := (Prod.mk.inj heq).1
    rcases Nat.eq_zero_or_pos n with rfl | hpos
    · cases hzero
    · exact absurd hzero (Text.digits_ne_zero_cons hpos _)
  · rename_i heq
    cases heq
    rw [Text.ofDigitChars_digits]

theorem readFraction?_of_closes {rest : List Char} (h : Closes rest) :
    readFraction? rest = some ([], rest) := by
  cases rest with
  | nil => rfl
  | cons c more =>
      rcases h c more rfl with rfl | rfl | rfl
      · rfl
      · rfl
      · rfl

theorem readExponent?_of_closes {rest : List Char} (h : Closes rest) :
    readExponent? rest = some (none, rest) := by
  cases rest with
  | nil => rfl
  | cons c more =>
      rcases h c more rfl with rfl | rfl | rfl
      · rfl
      · rfl
      · rfl

theorem readMagnitude?_digits (negative : Bool) (n : Nat) {rest : List Char} (h : Closes rest) :
    readMagnitude? negative (Text.digits n ++ rest) = some (⟨negative, n, [], none⟩, rest) := by
  unfold readMagnitude?
  simp only [readWhole?_digits n h, readFraction?_of_closes h, readExponent?_of_closes h, bind,
    Option.bind]

theorem write_ofInt (n : Int) : (Number.ofInt n).write = Text.integer n := by
  unfold Number.write Number.ofInt Text.integer
  by_cases hneg : n < 0
  · simp [hneg]
  · simp [hneg]

theorem readNumber?_integer (n : Int) {rest : List Char} (h : Closes rest) :
    readNumber? (Text.integer n ++ rest) = some (.ofInt n, rest) := by
  unfold Text.integer
  by_cases hneg : n < 0
  · rw [if_pos hneg, List.cons_append, readNumber?, readMagnitude?_digits true n.natAbs h]
    unfold Number.ofInt
    rw [decide_eq_true hneg]
  · rw [if_neg hneg]
    have hplain : readNumber? (Text.digits n.natAbs ++ rest) =
        readMagnitude? false (Text.digits n.natAbs ++ rest) := by
      unfold readNumber?
      split
      · rename_i more heq
        rcases hdigits : Text.digits n.natAbs with _ | ⟨first, others⟩
        · exact absurd hdigits (Text.digits_ne_nil _)
        · rw [hdigits] at heq
          have hfirst : first.isDigit = true :=
            Text.isDigit_of_mem_digits (hdigits ▸ List.mem_cons_self)
          rw [(List.cons.inj heq).1] at hfirst
          cases hfirst
      · rfl
    rw [hplain, readMagnitude?_digits false n.natAbs h]
    unfold Number.ofInt
    rw [decide_eq_false hneg]

end Json

end InferenceEngine
