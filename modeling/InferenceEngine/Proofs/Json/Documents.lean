import InferenceEngine.Proofs.Json.Literals

/-!
# Documents as they are written

The documents that values are written as hold integers, and strings with only the necessary
escapes.  Such a document is read back from its text, whatever text follows that closes it.
-/

namespace InferenceEngine

namespace Json

/-!
# Plain documents
-/

mutual

/-- Whether all strings of a document are spelled with only the necessary escapes, and all its
numbers are integers. -/
def IsPlain : Json -> Prop
  | .null => True
  | .bool _ => True
  | .number n => exists i : Int, n = .ofInt i
  | .string s => exists text : String, s = .ofText text
  | .array items => ArePlain items
  | .object members => AreMembersPlain members

def ArePlain : List Json -> Prop
  | [] => True
  | item :: rest => item.IsPlain ∧ ArePlain rest

def AreMembersPlain : List (Literal × Json) -> Prop
  | [] => True
  | (key, value) :: rest =>
      (exists text : String, key = .ofText text) ∧ value.IsPlain ∧ AreMembersPlain rest

end

/-!
# First characters
-/

def isFirst (c : Char) : Bool :=
  c.isDigit || c = '-' || c = '"' || c = '[' || c = '\x7b' || c = 'n' || c = 't' || c = 'f'

theorem isFirst_of_isDigit {c : Char} (h : c.isDigit = true) : isFirst c = true := by
  simp [isFirst, h]

theorem skipBlanks_of_isFirst {c : Char} (h : isFirst c = true) (rest : List Char) :
    skipBlanks (c :: rest) = c :: rest := by
  unfold skipBlanks
  rw [if_neg]
  rintro (rfl | rfl | rfl | rfl)
  · cases h
  · cases h
  · cases h
  · cases h

theorem integer_eq_cons (n : Int) : exists (c : Char) (rest : List Char),
    Text.integer n = c :: rest ∧ (c = '-' ∨ c.isDigit = true) := by
  unfold Text.integer
  split
  · exact ⟨'-', _, rfl, .inl rfl⟩
  · rcases hdigits : Text.digits n.natAbs with _ | ⟨c, rest⟩
    · exact absurd hdigits (Text.digits_ne_nil _)
    · exact ⟨c, rest, rfl, .inr (Text.isDigit_of_mem_digits (hdigits ▸ List.mem_cons_self))⟩

theorem write_eq_cons {j : Json} (h : j.IsPlain) : exists (c : Char) (rest : List Char),
    j.write = c :: rest ∧ isFirst c = true := by
  cases j with
  | null => exact ⟨'n', _, rfl, rfl⟩
  | bool b =>
      cases b with
      | true => exact ⟨'t', _, rfl, rfl⟩
      | false => exact ⟨'f', _, rfl, rfl⟩
  | number n =>
      rcases h with ⟨i, rfl⟩
      rcases integer_eq_cons i with ⟨c, rest, hinteger, hc⟩
      refine ⟨c, rest, (write_ofInt i).trans hinteger, ?_⟩
      rcases hc with rfl | hdigit
      · rfl
      · exact isFirst_of_isDigit hdigit
  | string s => exact ⟨'"', _, rfl, rfl⟩
  | array items => exact ⟨'[', _, rfl, rfl⟩
  | object members => exact ⟨'\x7b', _, rfl, rfl⟩

/-!
# Reading what is written

An object that has members goes on with the key of the first of them.
-/

theorem readValue?_number {c : Char} (h : c = '-' ∨ c.isDigit = true) (fuel : Nat)
    (rest : List Char) : readValue? (fuel + 1) (c :: rest) =
      (readNumber? (c :: rest)).map fun read => (.number read.1, read.2) := by
  have hfirst : isFirst c = true := by
    rcases h with rfl | hdigit
    · rfl
    · exact isFirst_of_isDigit hdigit
  rw [readValue?, skipBlanks_of_isFirst hfirst]
  have hne : forall d : Char, d ≠ '-' -> d.isDigit = false -> c ≠ d := by
    rintro d hminus hdigit rfl
    rcases h with rfl | hc
    · exact hminus rfl
    · rw [hdigit] at hc
      cases hc
  split
  · rename_i heq
    exact absurd (List.cons.inj heq).1 (hne 'n' (by decide) (by decide))
  · rename_i heq
    exact absurd (List.cons.inj heq).1 (hne 't' (by decide) (by decide))
  · rename_i heq
    exact absurd (List.cons.inj heq).1 (hne 'f' (by decide) (by decide))
  · rename_i heq
    exact absurd (List.cons.inj heq).1 (hne '"' (by decide) (by decide))
  · rename_i heq
    exact absurd (List.cons.inj heq).1 (hne '[' (by decide) (by decide))
  · rename_i heq
    exact absurd (List.cons.inj heq).1 (hne '\x7b' (by decide) (by decide))
  · rfl

theorem readValue?_string (text : String) (fuel : Nat) (rest : List Char) :
    readValue? (fuel + 1) ((Literal.ofText text).write ++ rest) =
      some (.string (.ofText text), rest) := by
  have hwrite : (Literal.ofText text).write ++ rest =
      '"' :: ((Literal.ofText text).body ++ '"' :: rest) := by
    simp [Literal.write]
  rw [hwrite, readValue?, skipBlanks_of_isFirst rfl]
  simp only [readBody?_ofText, Option.map_some]

theorem readValue?_array {c : Char} (h : isFirst c = true) (fuel : Nat) (rest : List Char) :
    readValue? (fuel + 1) ('[' :: c :: rest) =
      (readItems? fuel (c :: rest)).map fun read => (.array read.1, read.2) := by
  rw [readValue?, skipBlanks_of_isFirst rfl]
  simp only [skipBlanks_of_isFirst h]
  split
  · rename_i heq
    cases heq
    cases h
  · rfl

theorem readValue?_object (fuel : Nat) (rest : List Char) :
    readValue? (fuel + 1) ('\x7b' :: '"' :: rest) =
      (readMembers? fuel ('"' :: rest)).map fun read => (.object read.1, read.2) := by
  rw [readValue?, skipBlanks_of_isFirst rfl]
  simp only [skipBlanks_of_isFirst (show isFirst '"' = true from rfl)]
  split
  · rename_i heq
    cases heq
  · rfl

theorem readValue?_emptyArray (fuel : Nat) (rest : List Char) :
    readValue? (fuel + 1) ('[' :: ']' :: rest) = some (.array [], rest) := by
  rw [readValue?, skipBlanks_of_isFirst rfl]
  rfl

theorem readValue?_emptyObject (fuel : Nat) (rest : List Char) :
    readValue? (fuel + 1) ('\x7b' :: '\x7d' :: rest) = some (.object [], rest) := by
  rw [readValue?, skipBlanks_of_isFirst rfl]
  rfl

theorem readItems?_of_comma {fuel : Nat} {text more : List Char} {item : Json}
    (h : readValue? fuel text = some (item, ',' :: more)) :
    readItems? (fuel + 1) text =
      (readItems? fuel more).map fun read => (item :: read.1, read.2) := by
  have hcomma : skipBlanks (',' :: more) = ',' :: more := rfl
  simp only [readItems?, h, bind, Option.bind, hcomma]

theorem readItems?_of_bracket {fuel : Nat} {text more : List Char} {item : Json}
    (h : readValue? fuel text = some (item, ']' :: more)) :
    readItems? (fuel + 1) text = some ([item], more) := by
  have hbracket : skipBlanks (']' :: more) = ']' :: more := rfl
  simp only [readItems?, h, bind, Option.bind, hbracket]

theorem write_key (key : String) (text : List Char) : (Literal.ofText key).write ++ ':' :: text =
    '"' :: ((Literal.ofText key).body ++ '"' :: ':' :: text) := by
  simp [Literal.write]

theorem readMembers?_of_comma {fuel : Nat} {text more : List Char} {value : Json} (key : String)
    (h : readValue? fuel text = some (value, ',' :: more)) :
    readMembers? (fuel + 1) ((Literal.ofText key).write ++ ':' :: text) =
      (readMembers? fuel more).map fun read => ((.ofText key, value) :: read.1, read.2) := by
  have hcolon : skipBlanks (':' :: text) = ':' :: text := rfl
  have hcomma : skipBlanks (',' :: more) = ',' :: more := rfl
  rw [write_key, readMembers?, skipBlanks_of_isFirst rfl]
  simp only [readBody?_ofText, h, bind, Option.bind, hcolon, hcomma]

theorem readMembers?_of_brace {fuel : Nat} {text more : List Char} {value : Json} (key : String)
    (h : readValue? fuel text = some (value, '\x7d' :: more)) :
    readMembers? (fuel + 1) ((Literal.ofText key).write ++ ':' :: text) =
      some ([(.ofText key, value)], more) := by
  have hcolon : skipBlanks (':' :: text) = ':' :: text := rfl
  have hbrace : skipBlanks ('\x7d' :: more) = '\x7d' :: more := rfl
  rw [write_key, readMembers?, skipBlanks_of_isFirst rfl]
  simp only [readBody?_ofText, h, bind, Option.bind, hcolon, hbrace]

theorem writeItems_eq_cons {item : Json} (h : item.IsPlain) (items : List Json) :
    exists (c : Char) (rest : List Char), writeItems (item :: items) = c :: rest ∧
      isFirst c = true := by
  rcases write_eq_cons h with ⟨c, rest, hwrite, hc⟩
  cases items with
  | nil => exact ⟨c, rest, hwrite, hc⟩
  | cons next others =>
      refine ⟨c, rest ++ ',' :: writeItems (next :: others), ?_, hc⟩
      rw [writeItems, hwrite, List.cons_append]

theorem writeMembers_eq_cons (key : Literal) (value : Json) (members : List (Literal × Json)) :
    exists rest : List Char, writeMembers ((key, value) :: members) = '"' :: rest := by
  cases members with
  | nil => exact ⟨_, rfl⟩
  | cons next others => exact ⟨_, rfl⟩

mutual

/-- A plain document is read back from its text; each character of the text is worth a step. -/
theorem readValue?_write : forall (j : Json) (fuel : Nat) (rest : List Char),
    j.IsPlain -> Closes rest -> j.write.length ≤ fuel ->
      readValue? fuel (j.write ++ rest) = some (j, rest)
  | j, 0, rest, hplain, hrest, hfuel => by
      rcases write_eq_cons hplain with ⟨c, more, hwrite, _⟩
      rw [hwrite] at hfuel
      cases hfuel
  | .null, fuel + 1, rest, hplain, hrest, hfuel => by
      rw [write, List.cons_append, readValue?, skipBlanks_of_isFirst rfl]
      rfl
  | .bool true, fuel + 1, rest, hplain, hrest, hfuel => by
      rw [write, List.cons_append, readValue?, skipBlanks_of_isFirst rfl]
      rfl
  | .bool false, fuel + 1, rest, hplain, hrest, hfuel => by
      rw [write, List.cons_append, readValue?, skipBlanks_of_isFirst rfl]
      rfl
  | .number n, fuel + 1, rest, hplain, hrest, hfuel => by
      rcases hplain with ⟨i, rfl⟩
      have hread := readNumber?_integer i hrest
      rcases integer_eq_cons i with ⟨c, more, hinteger, hc⟩
      rw [hinteger, List.cons_append] at hread
      rw [write, write_ofInt, hinteger, List.cons_append, readValue?_number hc, hread,
        Option.map_some]
  | .string s, fuel + 1, rest, hplain, hrest, hfuel => by
      rcases hplain with ⟨text, rfl⟩
      rw [write, readValue?_string]
  | .array [], fuel + 1, rest, hplain, hrest, hfuel => by
      exact readValue?_emptyArray fuel rest
  | .array (item :: items), fuel + 1, rest, hplain, hrest, hfuel => by
      have hitems := readItems?_write item items fuel rest hplain (by
        simp only [write, List.length_append, List.length_cons, List.length_nil] at hfuel
        omega)
      rcases writeItems_eq_cons hplain.1 items with ⟨c, others, hothers, hc⟩
      rw [hothers, List.cons_append] at hitems
      rw [write, hothers, List.append_assoc, List.cons_append, List.cons_append,
        readValue?_array hc, List.singleton_append, hitems, Option.map_some]
  | .object [], fuel + 1, rest, hplain, hrest, hfuel => by
      exact readValue?_emptyObject fuel rest
  | .object ((key, value) :: members), fuel + 1, rest, hplain, hrest, hfuel => by
      have hmembers := readMembers?_write key value members fuel rest hplain (by
        simp only [write, List.length_append, List.length_cons, List.length_nil] at hfuel
        omega)
      rcases writeMembers_eq_cons key value members with ⟨others, hothers⟩
      rw [hothers, List.cons_append] at hmembers
      rw [write, hothers, List.append_assoc, List.cons_append, List.cons_append,
        readValue?_object, List.singleton_append, hmembers, Option.map_some]

theorem readItems?_write : forall (item : Json) (items : List Json) (fuel : Nat)
    (rest : List Char), ArePlain (item :: items) ->
      (writeItems (item :: items)).length < fuel ->
        readItems? fuel (writeItems (item :: items) ++ ']' :: rest) = some (item :: items, rest)
  | item, [], fuel + 1, rest, hplain, hfuel => by
      have hcloses : Closes (']' :: rest) := closes_cons (.inr (.inl rfl)) rest
      have hitem := readValue?_write item fuel _ hplain.1 hcloses (Nat.le_of_lt_succ hfuel)
      rw [writeItems, readItems?_of_bracket hitem]
  | item, next :: items, fuel + 1, rest, hplain, hfuel => by
      have hlength : item.write.length + (writeItems (next :: items)).length < fuel := by
        simp only [writeItems, List.length_append, List.length_cons] at hfuel
        omega
      have hcloses : Closes (',' :: (writeItems (next :: items) ++ ']' :: rest)) :=
        closes_cons (.inl rfl) _
      have hitem := readValue?_write item fuel _ hplain.1 hcloses (by omega)
      have hmore := readItems?_write next items fuel rest hplain.2 (by omega)
      rw [writeItems, List.append_assoc, List.cons_append, readItems?_of_comma hitem, hmore,
        Option.map_some]

theorem readMembers?_write : forall (key : Literal) (value : Json)
    (members : List (Literal × Json)) (fuel : Nat) (rest : List Char),
      AreMembersPlain ((key, value) :: members) ->
        (writeMembers ((key, value) :: members)).length < fuel ->
          readMembers? fuel (writeMembers ((key, value) :: members) ++ '\x7d' :: rest) =
            some ((key, value) :: members, rest)
  | key, value, [], fuel + 1, rest, hplain, hfuel => by
      rcases hplain.1 with ⟨text, rfl⟩
      have hlength : value.write.length ≤ fuel := by
        simp only [writeMembers, List.length_append, List.length_cons] at hfuel
        omega
      have hcloses : Closes ('\x7d' :: rest) := closes_cons (.inr (.inr rfl)) rest
      have hvalue := readValue?_write value fuel _ hplain.2.1 hcloses hlength
      rw [writeMembers, List.append_assoc, List.cons_append, readMembers?_of_brace text hvalue]
  | key, value, (next, other) :: members, fuel + 1, rest, hplain, hfuel => by
      rcases hplain.1 with ⟨text, rfl⟩
      have hlength : value.write.length + (writeMembers ((next, other) :: members)).length <
          fuel := by
        simp only [writeMembers, List.length_append, List.length_cons] at hfuel ⊢
        omega
      have hcloses : Closes (',' :: (writeMembers ((next, other) :: members) ++ '\x7d' :: rest)) :=
        closes_cons (.inl rfl) _
      have hvalue := readValue?_write value fuel _ hplain.2.1 hcloses (by omega)
      have hmore := readMembers?_write next other members fuel rest hplain.2.2 (by omega)
      rw [writeMembers, List.append_assoc, List.cons_append, List.append_assoc, List.cons_append,
        readMembers?_of_comma text hvalue, hmore, Option.map_some]

end

theorem read?_write {j : Json} (h : j.IsPlain) : read? j.write = some j := by
  have hread := readValue?_write j (j.write.length + 1) [] h closes_nil (Nat.le_succ _)
  rw [List.append_nil] at hread
  unfold read?
  rw [hread]
  rfl

end Json

end InferenceEngine
