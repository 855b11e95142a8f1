import Mathlib.Data.List.Nodup
import InferenceEngine.Engine.Report
import InferenceEngine.Proofs.Json.Documents
import InferenceEngine.Proofs.OrderedMap

/-!
# Values as they are written

A value is kept by its document if the document is plain and describes that value.  Numbers and
texts are, and so are lists, maps and records of what is.
-/

namespace InferenceEngine

namespace Json

variable {α : Type}

/-- Whether the document that a value is written as is plain, and describes that value. -/
structure Keeps (toJson : α -> Json) (ofJson? : Json -> Option α) (a : α) : Prop where
  plain : (toJson a).IsPlain
  value : ofJson? (toJson a) = some a

/-!
# Plain values

What may be missing is written as null if it is, so what is there must not be.
-/

theorem keeps_text (text : String) : Keeps ofText text? text :=
  ⟨⟨text, rfl⟩, Literal.text?_ofText text⟩

theorem keeps_bool (b : Bool) : Keeps Json.bool bool? b := ⟨trivial, rfl⟩

theorem keeps_signed {n : Int} (h : Text.fitsSigned n = true) : Keeps ofInt signed? n := by
  refine ⟨⟨n, rfl⟩, ?_⟩
  show ((Number.ofInt n).toInt?.bind fun n => if Text.fitsSigned n then some n else none) = some n
  rw [Number.toInt?_ofInt, Option.bind_some, if_pos h]

theorem keeps_below {bound n : Nat} (h : n < bound) : Keeps ofNat (below? bound) n := by
  refine ⟨⟨n, rfl⟩, ?_⟩
  have hint : (ofNat n).int? = some (.ofNat n) := Number.toInt?_ofInt n
  unfold below?
  rw [hint]
  exact if_pos h

theorem keeps_word {n : Nat} (h : n < Text.wordBound) : Keeps ofNat word? n := keeps_below h

theorem keeps_halfWord {n : Nat} (h : n < Text.halfWordBound) : Keeps ofNat halfWord? n :=
  keeps_below h

theorem keeps_choice {name : α -> String} {named? : String -> Option α} {a : α}
    (h : named? (name a) = some a) : Keeps (fun a => ofText (name a)) (choice? named?) a := by
  refine ⟨⟨name a, rfl⟩, ?_⟩
  show (Literal.ofText (name a)).text?.bind named? = some a
  rw [Literal.text?_ofText, Option.bind_some, h]

theorem keeps_option {toJson : α -> Json} {ofJson? : Json -> Option α} {value : Option α}
    (h : forall a : α, value = some a -> Keeps toJson ofJson? a)
    (hnull : forall a : α, toJson a ≠ .null) :
    Keeps (ofOption toJson) (nullable? ofJson?) value := by
  cases value with
  | none => exact ⟨trivial, rfl⟩
  | some a =>
      refine ⟨(h a rfl).plain, ?_⟩
      show nullable? ofJson? (toJson a) = _
      unfold nullable?
      split
      · rename_i heq
        exact absurd heq (hnull a)
      · rw [(h a rfl).value, Option.map_some]

theorem nullable?_ofText (text : String) : nullable? text? (ofText text) = some (some text) :=
  congrArg (Option.map some) (keeps_text text).value

/-!
# Lists
-/

theorem arePlain_map {toJson : α -> Json} {items : List α}
    (h : forall a : α, a ∈ items -> (toJson a).IsPlain) : ArePlain (items.map toJson) := by
  induction items with
  | nil => trivial
  | cons a rest ih =>
      exact ⟨h a List.mem_cons_self, ih fun b hb => h b (List.mem_cons_of_mem _ hb)⟩

theorem mapM_eq_some_of_forall {β : Type} {f : α -> β} {g : β -> Option α} {items : List α}
    (h : forall a : α, a ∈ items -> g (f a) = some a) :
    (items.map f).mapM g = some items := by
  induction items with
  | nil => rfl
  | cons a rest ih =>
      have hrest := ih fun b hb => h b (List.mem_cons_of_mem _ hb)
      rw [List.map_cons, List.mapM_cons, h a List.mem_cons_self, hrest]
      rfl

theorem keeps_list {toJson : α -> Json} {ofJson? : Json -> Option α} {items : List α}
    (h : forall a : α, a ∈ items -> Keeps toJson ofJson? a) :
    Keeps (ofList toJson) (list? ofJson?) items :=
  ⟨arePlain_map fun a ha => (h a ha).plain, mapM_eq_some_of_forall fun a ha => (h a ha).value⟩

/-!
# Records

Of a record as it is written each field is found, where no name stands twice.
-/

theorem areMembersPlain_map {members : List (String × Json)}
    (h : forall m : String × Json, m ∈ members -> m.2.IsPlain) :
    AreMembersPlain (members.map fun m => (.ofText m.1, m.2)) := by
  induction members with
  | nil => trivial
  | cons m rest ih =>
      exact ⟨⟨m.1, rfl⟩, h m List.mem_cons_self,
        ih fun other hother => h other (List.mem_cons_of_mem _ hother)⟩

theorem isPlain_ofMembers {members : List (String × Json)}
    (h : forall m : String × Json, m ∈ members -> m.2.IsPlain) : (ofMembers members).IsPlain :=
  areMembersPlain_map h

theorem field?_eq_lookup {members : List (String × Json)} (h : (members.map Prod.fst).Nodup)
    (name : String) :
    (match members.filter fun m => m.1 = name with
      | [] => some none
      | [m] => some (some m.2)
      | _ => none) = some (members.lookup name) := by
  induction members with
  | nil => rfl
  | cons m rest ih =>
      rw [List.map_cons, List.nodup_cons] at h
      by_cases hname : m.1 = name
      · have hrest : (rest.filter fun m => m.1 = name) = [] := by
          rw [List.filter_eq_nil_iff]
          intro other hother
          simp only [decide_eq_true_eq]
          intro hsame
          exact h.1 (List.mem_map.2 ⟨other, hother, hsame.trans hname.symm⟩)
        rw [List.filter_cons, if_pos (decide_eq_true hname), hrest, List.lookup_cons, ← hname,
          beq_self_eq_true]
      · have hne : (name == m.1) = false := beq_eq_false_iff_ne.2 (Ne.symm hname)
        rw [List.filter_cons, if_neg (by simpa using hname), List.lookup_cons, hne]
        exact ih h.2

theorem fields?_ofMembers {members : List (String × Json)} (h : (members.map Prod.fst).Nodup)
    (names : List String) :
    (ofMembers members).fields? names = some (names.map fun name => members.lookup name) := by
  have htexts : (members.map fun m => (Literal.ofText m.1, m.2)).mapM
      (fun m => m.1.text?.map fun key => (key, m.2)) = some members :=
    mapM_eq_some_of_forall fun m _ => by rw [Literal.text?_ofText]; rfl
  have hfields : fieldsOfObject? names members =
      some (names.map fun name => members.lookup name) := by
    unfold fieldsOfObject?
    induction names with
    | nil => rfl
    | cons name rest ih =>
        rw [List.mapM_cons, ih]
        exact congrArg (Option.bind · fun field =>
        some (field :: rest.map fun name => List.lookup name members))
          (field?_eq_lookup h name)
  show ((members.map fun m => (Literal.ofText m.1, m.2)).mapM
      (fun m => m.1.text?.map fun key => (key, m.2)) >>= fieldsOfObject? names) = _
  rw [htexts]
  exact hfields

/-- A value that is written as a record is kept if its fields are plain and what is found of them
makes up the value. -/
theorem keeps_record {toJson : α -> Json} {ofJson? : Json -> Option α} {a : α}
    {members : List (String × Json)} {names : List String} {make : List (Option Json) -> Option α}
    (hread : forall j : Json, ofJson? j = (j.fields? names).bind make)
    (hwrite : toJson a = .ofMembers members) (hnames : (members.map Prod.fst).Nodup)
    (hplain : forall m : String × Json, m ∈ members -> m.2.IsPlain)
    (hvalue : make (names.map fun name => members.lookup name) = some a) :
    Keeps toJson ofJson? a := by
  refine ⟨?_, ?_⟩
  · rw [hwrite]
    exact isPlain_ofMembers hplain
  · rw [hread, hwrite, fields?_ofMembers hnames]
    exact hvalue

/-!
# Maps

An integer that is a key stands in a document as any text does.
-/

theorem escape_of_mem_integer {n : Int} {c : Char} (h : c ∈ Text.integer n) : escape c = [c] := by
  have hkind : c = '-' ∨ c.isDigit = true := by
    unfold Text.integer at h
    split at h
    · rcases List.mem_cons.1 h with hminus | hdigit
      · exact .inl hminus
      · exact .inr (Text.isDigit_of_mem_digits hdigit)
    · exact .inr (Text.isDigit_of_mem_digits h)
  rcases hkind with rfl | hdigit
  · decide
  · exact escape_of_isDigit hdigit

theorem literal_integer (n : Int) :
    (⟨Text.integer n⟩ : Literal) = .ofText (String.ofList (Text.integer n)) := by
  have hescapes : forall chars : List Char, (forall c : Char, c ∈ chars -> escape c = [c]) ->
      chars.flatMap escape = chars := by
    intro chars h
    induction chars with
    | nil => rfl
    | cons c rest ih =>
        rw [List.flatMap_cons, h c List.mem_cons_self, List.singleton_append,
          ih fun other hother => h other (List.mem_cons_of_mem _ hother)]
  unfold Literal.ofText
  rw [String.toList_ofList, hescapes _ fun c hc => escape_of_mem_integer hc]

theorem intKey?_integer {n : Int} (h : Text.fitsSigned n = true) :
    intKey? ⟨Text.integer n⟩ = some n := by
  have hread := readNumber?_integer n closes_nil
  rw [List.append_nil] at hread
  unfold intKey?
  simp only [hread, bind, Option.bind, Number.toInt?_ofInt]
  simp only [List.isEmpty_nil, if_true, h]

theorem keeps_textMap {toJson : α -> Json} {ofJson? : Json -> Option α} {m : OrderedMap String α}
    (h : forall e : String × α, e ∈ m.toList -> Keeps toJson ofJson? e.2) :
    Keeps (ofTextMap toJson) (textMap? ofJson?) m := by
  have hdocument : ofTextMap toJson m =
      .object (m.toList.map fun e => (.ofText e.1, toJson e.2)) :=
    congrArg Json.object List.map_map
  have hplain : (ofTextMap toJson m).IsPlain := by
    refine isPlain_ofMembers fun member hmember => ?_
    obtain ⟨e, he, rfl⟩ := List.mem_map.1 hmember
    exact (h e he).plain
  have hentries : (m.toList.map fun e => (Literal.ofText e.1, toJson e.2)).mapM
      (fun member => do some (← member.1.text?, ← ofJson? member.2)) = some m.toList :=
    mapM_eq_some_of_forall fun e he => by
      simp only [Literal.text?_ofText, (h e he).value, bind, Option.bind]
  refine ⟨hplain, ?_⟩
  rw [hdocument]
  show (List.mapM _ _ >>= fun entries => some (OrderedMap.ofList entries)) = _
  rw [show List.mapM _ _ = some m.toList from hentries]
  exact congrArg some (OrderedMap.ofList_toList m)

theorem keeps_intMap {toJson : α -> Json} {ofJson? : Json -> Option α} {m : OrderedMap Int α}
    (hkeys : forall e : Int × α, e ∈ m.toList -> Text.fitsSigned e.1 = true)
    (h : forall e : Int × α, e ∈ m.toList -> Keeps toJson ofJson? e.2) :
    Keeps (ofIntMap toJson) (intMap? ofJson?) m := by
  have hdocument : ofIntMap toJson m =
      ofMembers (m.toList.map fun e => (String.ofList (Text.integer e.1), toJson e.2)) := by
    unfold ofIntMap ofMembers
    rw [List.map_map]
    exact congrArg Json.object (List.map_congr_left fun e _ => by rw [literal_integer]; rfl)
  have hplain : (ofIntMap toJson m).IsPlain := by
    rw [hdocument]
    refine isPlain_ofMembers fun member hmember => ?_
    obtain ⟨e, he, rfl⟩ := List.mem_map.1 hmember
    exact (h e he).plain
  have hentries : (m.toList.map fun e => (⟨Text.integer e.1⟩, toJson e.2)).mapM
      (fun member => do some (← intKey? member.1, ← ofJson? member.2)) = some m.toList :=
    mapM_eq_some_of_forall fun e he => by
      simp only [intKey?_integer (hkeys e he), (h e he).value, bind, Option.bind]
  refine ⟨hplain, ?_⟩
  show (List.mapM _ _ >>= fun entries => some (OrderedMap.ofList entries)) = _
  rw [show List.mapM _ _ = some m.toList from hentries]
  exact congrArg some (OrderedMap.ofList_toList m)

end Json

end InferenceEngine
