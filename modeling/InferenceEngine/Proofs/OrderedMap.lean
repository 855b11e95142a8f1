import Mathlib.Data.List.Induction
import Mathlib.Data.List.Nodup
import InferenceEngine.OrderedMap

/-!
# Maps and their entries

Looking a key up means finding its entry, since a map has one entry for a key.  A change of a
map is therefore described by what it does to the entries.
-/

namespace InferenceEngine

namespace OrderedMap

variable {κ α β : Type} [Ord κ]

/-!
# Entries and lookup

Maps of the same entries are equal, since their keys are in order.
-/

theorem mem_of_find?_eq_some [Std.LawfulEqOrd κ] {key : κ} {a : α}
    {entries : List (κ × α)} (h : find? key entries = some a) :
    (key, a) ∈ entries := by
  induction entries with
  | nil => cases h
  | cons hd rest ih =>
      unfold find? at h
      split at h
      · rename_i heq
        have hkey : key = hd.1 := Std.compare_eq_iff_eq.1 heq
        cases h
        rw [hkey]
        exact List.mem_cons_self
      · exact List.mem_cons_of_mem _ (ih h)

theorem find?_eq_some_of_mem [Std.LawfulEqOrd κ] {key : κ} {a : α}
    {entries : List (κ × α)}
    (hordered : entries.Pairwise fun a b => compare a.1 b.1 = .lt)
    (h : (key, a) ∈ entries) :
    find? key entries = some a := by
  induction entries with
  | nil => cases h
  | cons hd rest ih =>
      have hbelow := (List.pairwise_cons.1 hordered).1
      have htail := (List.pairwise_cons.1 hordered).2
      unfold find?
      rcases List.mem_cons.1 h with hhead | hrest
      · rw [← hhead]
        simp
      · have hne : compare key hd.1 ≠ .eq := by
          intro heq
          have hkey : key = hd.1 := Std.compare_eq_iff_eq.1 heq
          have hlt := hbelow (key, a) hrest
          rw [hkey] at hlt
          simp at hlt
        rw [if_neg hne]
        exact ih htail hrest

theorem get?_eq_some_iff [Std.LawfulEqOrd κ] {m : OrderedMap κ α} {key : κ} {a : α} :
    m.get? key = some a ↔ (key, a) ∈ m.toList :=
  ⟨mem_of_find?_eq_some, find?_eq_some_of_mem m.ordered⟩

theorem mem_values_of_get? [Std.LawfulEqOrd κ] {m : OrderedMap κ α} {key : κ} {a : α}
    (h : m.get? key = some a) : a ∈ m.values :=
  List.mem_map.2 ⟨(key, a), get?_eq_some_iff.1 h, rfl⟩

theorem mem_values_iff [Std.LawfulEqOrd κ] {m : OrderedMap κ α} {a : α} :
    a ∈ m.values ↔ exists key : κ, m.get? key = some a := by
  constructor
  · intro ha
    rcases List.mem_map.1 ha with ⟨e, he, rfl⟩
    exact ⟨e.1, get?_eq_some_iff.2 he⟩
  · rintro ⟨key, hkey⟩
    exact mem_values_of_get? hkey

theorem not_isEmpty_iff [Std.LawfulEqOrd κ] {m : OrderedMap κ α} :
    (!m.isEmpty) = true ↔ exists (key : κ) (a : α), m.get? key = some a := by
  unfold isEmpty
  rw [Bool.not_eq_true', List.isEmpty_eq_false_iff_exists_mem]
  constructor
  · rintro ⟨e, he⟩
    exact ⟨e.1, e.2, get?_eq_some_iff.2 he⟩
  · rintro ⟨key, a, hkey⟩
    exact ⟨(key, a), get?_eq_some_iff.1 hkey⟩

theorem contains_iff_mem_keys [Std.LawfulEqOrd κ] {m : OrderedMap κ α} {key : κ} :
    m.contains key = true ↔ key ∈ m.keys := by
  unfold contains keys
  rw [Option.isSome_iff_exists, List.mem_map]
  constructor
  · rintro ⟨a, ha⟩
    exact ⟨(key, a), get?_eq_some_iff.1 ha, rfl⟩
  · rintro ⟨⟨k, a⟩, hmem, rfl⟩
    exact ⟨a, get?_eq_some_iff.2 hmem⟩

theorem nodup_keys [Std.LawfulEqOrd κ] (m : OrderedMap κ α) : m.keys.Nodup := by
  unfold keys List.Nodup
  rw [List.pairwise_map]
  apply m.ordered.imp
  intro a b hlt heq
  rw [heq] at hlt
  simp at hlt

theorem ext_perm [Std.TransOrd κ] {m n : OrderedMap κ α} (h : m.toList.Perm n.toList) :
    m = n := by
  apply ext
  apply h.eq_of_pairwise ?_ m.ordered n.ordered
  intro a b _ _ hlt hgt
  have habsurd := Std.TransCmp.lt_trans hlt hgt
  simp at habsurd

theorem ext_get? [Std.TransOrd κ] [Std.LawfulEqOrd κ] {m n : OrderedMap κ α}
    (h : forall key : κ, m.get? key = n.get? key) : m = n := by
  have hnodup : forall m : OrderedMap κ α, m.toList.Nodup := fun m => .of_map Prod.fst m.nodup_keys
  apply ext_perm
  apply (List.perm_ext_iff_of_nodup (hnodup m) (hnodup n)).2
  rintro ⟨key, a⟩
  rw [← get?_eq_some_iff, ← get?_eq_some_iff, h key]

/-!
# Values after a change
-/

theorem mem_values_insert [Std.TransOrd κ] [Std.LawfulEqOrd κ] {m : OrderedMap κ α}
    {key : κ} {a b : α} (h : b ∈ (m.insert key a).values) :
    b = a ∨ b ∈ m.values := by
  rcases List.mem_map.1 h with ⟨e, he, rfl⟩
  rcases mem_insertEntry he with hnew | hold
  · exact .inl (by rw [hnew])
  · exact .inr (List.mem_map_of_mem hold)

theorem mem_values_erase {m : OrderedMap κ α} {key : κ} {b : α}
    (h : b ∈ (m.erase key).values) : b ∈ m.values := by
  rcases List.mem_map.1 h with ⟨e, he, rfl⟩
  exact List.mem_map_of_mem (List.mem_filter.1 he).1

private theorem mem_values_foldl_insert [Std.TransOrd κ] [Std.LawfulEqOrd κ]
    (entries : List (κ × α)) (m : OrderedMap κ α) {b : α}
    (h : b ∈ (entries.foldl (fun m e => m.insert e.1 e.2) m).values) :
    b ∈ m.values ∨ b ∈ entries.map Prod.snd := by
  induction entries generalizing m with
  | nil => exact .inl h
  | cons e rest ih =>
      rcases ih (m.insert e.1 e.2) h with hm | hrest
      · rcases mem_values_insert hm with hnew | hold
        · exact .inr (by simp [hnew])
        · exact .inl hold
      · exact .inr (List.mem_cons_of_mem _ hrest)

theorem mem_values_ofList [Std.TransOrd κ] [Std.LawfulEqOrd κ] {entries : List (κ × α)}
    {b : α} (h : b ∈ (ofList entries).values) : b ∈ entries.map Prod.snd := by
  rcases mem_values_foldl_insert entries empty h with hempty | hentries
  · cases hempty
  · exact hentries

/-!
# Lookup after a removal
-/

private theorem find?_filter_of_pos (key : κ) {p : κ × α -> Bool} {entries : List (κ × α)}
    (h : forall e : κ × α, e ∈ entries -> compare key e.1 = .eq -> p e = true) :
    find? key (entries.filter p) = find? key entries := by
  induction entries with
  | nil => rfl
  | cons e rest ih =>
      have hrest := ih fun other hother => h other (List.mem_cons_of_mem _ hother)
      by_cases hkey : compare key e.1 = .eq
      · rw [List.filter_cons_of_pos (h e List.mem_cons_self hkey)]
        simp [find?, hkey]
      · by_cases hp : p e = true
        · rw [List.filter_cons_of_pos hp]
          simp [find?, hkey, hrest]
        · rw [List.filter_cons_of_neg hp, hrest]
          simp [find?, hkey]

theorem get?_erase_of_ne [Std.LawfulEqOrd κ] {key other : κ} (h : other ≠ key)
    (m : OrderedMap κ α) : (m.erase key).get? other = m.get? other := by
  apply find?_filter_of_pos
  intro e _ hother
  have hsame : other = e.1 := Std.compare_eq_iff_eq.1 hother
  rw [← hsame]
  simpa using fun heq => h (Std.compare_eq_iff_eq.1 heq).symm

theorem get?_erase_self [Std.LawfulEqOrd κ] (m : OrderedMap κ α) (key : κ) :
    (m.erase key).get? key = none := by
  cases hget : (m.erase key).get? key with
  | none => rfl
  | some a =>
      have hmem := (List.mem_filter.1 (get?_eq_some_iff.1 hget)).2
      simp at hmem

/-!
# Putting another value under a key that has one
-/

private theorem insertEntry_of_find? [DecidableEq κ] [Std.TransOrd κ] [Std.LawfulEqOrd κ] {key : κ}
    {a b : α} {entries : List (κ × α)}
    (hordered : entries.Pairwise fun a b => compare a.1 b.1 = .lt)
    (h : find? key entries = some b) :
    insertEntry key a entries = entries.map fun e => if e.1 = key then (key, a) else e := by
  induction entries with
  | nil => cases h
  | cons hd rest ih =>
      have hbelow := (List.pairwise_cons.1 hordered).1
      have htail := (List.pairwise_cons.1 hordered).2
      unfold find? at h
      unfold insertEntry
      split
      · rename_i hlt
        rw [if_neg (by rw [hlt]; intro heq; cases heq)] at h
        have hlater := hbelow _ (mem_of_find?_eq_some h)
        have habsurd := Std.TransCmp.lt_trans hlt hlater
        simp at habsurd
      · rename_i heq
        have hkey : key = hd.1 := Std.compare_eq_iff_eq.1 heq
        have hrest : rest.map (fun e => if e.1 = key then (key, a) else e) = rest := by
          refine (List.map_congr_left ?_).trans (List.map_id' rest)
          intro e he
          have hlt := hbelow e he
          rw [if_neg]
          intro hsame
          rw [hsame, hkey] at hlt
          simp at hlt
        rw [List.map_cons, hrest, if_pos hkey.symm]
      · rename_i hgt
        rw [if_neg (by rw [hgt]; intro heq; cases heq)] at h
        have hne : hd.1 ≠ key := by
          intro hsame
          rw [hsame] at hgt
          simp at hgt
        rw [List.map_cons, if_neg hne, ih htail h]

theorem toList_insert_of_get? [DecidableEq κ] [Std.TransOrd κ] [Std.LawfulEqOrd κ]
    {m : OrderedMap κ α} {key : κ} {a b : α} (h : m.get? key = some b) :
    (m.insert key a).toList = m.toList.map fun e => if e.1 = key then (key, a) else e :=
  insertEntry_of_find? m.ordered h

/-- What does not tell the old value under a key from the new one does not tell the maps apart. -/
theorem map_toList_insert [DecidableEq κ] [Std.TransOrd κ] [Std.LawfulEqOrd κ] {γ : Type}
    {m : OrderedMap κ α} {key : κ} {a b : α} {g : κ × α -> γ} (h : m.get? key = some b)
    (hg : g (key, a) = g (key, b)) : (m.insert key a).toList.map g = m.toList.map g := by
  rw [toList_insert_of_get? h, List.map_map]
  apply List.map_congr_left
  intro e he
  simp only [Function.comp]
  split
  · rename_i hkey
    have hentry : m.get? e.1 = some e.2 := get?_eq_some_iff.2 he
    rw [hkey, h] at hentry
    rw [hg, Option.some.inj hentry, ← hkey]
  · rfl

theorem get?_map (f : α -> β) (m : OrderedMap κ α) (key : κ) :
    (m.map f).get? key = (m.get? key).map f := by
  unfold get? map
  simp only
  generalize m.toList = entries
  induction entries with
  | nil => rfl
  | cons hd rest ih =>
      rw [List.map_cons]
      unfold find?
      split
      · rfl
      · exact ih

/-!
# Maps whose values are changed

Changing the values of a map leaves its keys alone, so that it goes together with every change that
is made under keys.
-/

@[simp] theorem values_map (f : α -> β) (m : OrderedMap κ α) :
    (m.map f).values = m.values.map f := by
  simp [values, map]

@[simp] theorem keys_map (f : α -> β) (m : OrderedMap κ α) : (m.map f).keys = m.keys := by
  simp [keys, map]

private theorem map_insertEntry (f : α -> β) (key : κ) (a : α) (entries : List (κ × α)) :
    (insertEntry key a entries).map (fun e => (e.1, f e.2)) =
      insertEntry key (f a) (entries.map fun e => (e.1, f e.2)) := by
  induction entries with
  | nil => rfl
  | cons hd rest ih =>
      rw [List.map_cons]
      unfold insertEntry
      split
      · rfl
      · rfl
      · rw [List.map_cons, ih]

theorem map_insert [Std.TransOrd κ] [Std.LawfulEqOrd κ] (f : α -> β) (m : OrderedMap κ α)
    (key : κ) (a : α) : (m.insert key a).map f = (m.map f).insert key (f a) :=
  ext (map_insertEntry f key a m.toList)

theorem map_erase (f : α -> β) (m : OrderedMap κ α) (key : κ) :
    (m.erase key).map f = (m.map f).erase key := by
  apply ext
  simp only [erase, map, List.filter_map]
  rfl

theorem map_ofList [Std.TransOrd κ] [Std.LawfulEqOrd κ] (f : α -> β) (entries : List (κ × α)) :
    (ofList entries).map f = ofList (entries.map fun e => (e.1, f e.2)) := by
  have hfold : forall m : OrderedMap κ α,
      (entries.foldl (fun m e => m.insert e.1 e.2) m).map f =
        (entries.map fun e => (e.1, f e.2)).foldl (fun m e => m.insert e.1 e.2) (m.map f) := by
    induction entries with
    | nil => exact fun _ => rfl
    | cons e rest ih =>
        intro m
        rw [List.foldl_cons, ih, map_insert]
        rfl
  exact hfold empty

/-!
# Maps of lists

Of the entries of one key the last one is found.
-/

theorem ofList_concat [Std.TransOrd κ] [Std.LawfulEqOrd κ] (entries : List (κ × α))
    (last : κ × α) : ofList (entries ++ [last]) = (ofList entries).insert last.1 last.2 := by
  unfold ofList
  rw [List.foldl_append]
  rfl

theorem get?_ofList [DecidableEq κ] [Std.TransOrd κ] [Std.LawfulEqOrd κ]
    (entries : List (κ × α)) (key : κ) :
    (ofList entries).get? key =
      (entries.reverse.find? fun e => e.1 = key).map Prod.snd := by
  induction entries using List.reverseRecOn with
  | nil => rfl
  | append_singleton entries last ih =>
      rw [ofList_concat, List.reverse_concat, List.find?_cons]
      by_cases hkey : last.1 = key
      · rw [← hkey, get?_insert_self]
        simp
      · rw [get?_insert_of_ne (Ne.symm hkey), ih]
        simp [hkey]

/-!
# Maps of distinct keys

Where no key comes twice, making a map of entries only puts them in order.
-/

theorem perm_insertEntry [Std.LawfulEqOrd κ] {key : κ} {a : α} {entries : List (κ × α)}
    (h : key ∉ entries.map Prod.fst) :
    (insertEntry key a entries).Perm ((key, a) :: entries) := by
  induction entries with
  | nil => exact .refl _
  | cons hd rest ih =>
      have hhead : key ≠ hd.1 := by
        intro heq
        exact h (by simp [heq])
      have hrest : key ∉ rest.map Prod.fst := by
        intro hmem
        exact h (List.mem_cons_of_mem _ hmem)
      unfold insertEntry
      split
      · exact .refl _
      · rename_i heq
        exact absurd (Std.compare_eq_iff_eq.1 heq) hhead
      · exact ((ih hrest).cons _).trans (.swap _ _ _)

private theorem perm_foldl_insert [Std.TransOrd κ] [Std.LawfulEqOrd κ]
    (entries : List (κ × α)) (m : OrderedMap κ α)
    (h : ((entries ++ m.toList).map Prod.fst).Nodup) :
    (entries.foldl (fun m e => m.insert e.1 e.2) m).toList.Perm (entries ++ m.toList) := by
  induction entries generalizing m with
  | nil => exact .refl _
  | cons e rest ih =>
      rw [List.cons_append, List.map_cons, List.nodup_cons] at h
      have hfresh : e.1 ∉ m.toList.map Prod.fst := by
        intro hmem
        exact h.1 (by simp [List.map_append, hmem])
      have hstep : (m.insert e.1 e.2).toList.Perm (e :: m.toList) :=
        perm_insertEntry hfresh
      have hmove : (rest ++ (m.insert e.1 e.2).toList).Perm (e :: (rest ++ m.toList)) :=
        (hstep.append_left rest).trans List.perm_middle
      have hnodup : ((rest ++ (m.insert e.1 e.2).toList).map Prod.fst).Nodup := by
        rw [(hmove.map Prod.fst).nodup_iff, List.map_cons, List.nodup_cons]
        exact h
      exact (ih (m.insert e.1 e.2) hnodup).trans hmove

theorem toList_ofList_perm [Std.TransOrd κ] [Std.LawfulEqOrd κ] {entries : List (κ × α)}
    (h : (entries.map Prod.fst).Nodup) : (ofList entries).toList.Perm entries := by
  have hperm := perm_foldl_insert entries (empty : OrderedMap κ α) (by simpa [empty] using h)
  simpa [ofList, empty] using hperm

theorem get?_ofList_eq_some_iff [Std.TransOrd κ] [Std.LawfulEqOrd κ] {entries : List (κ × α)}
    (h : (entries.map Prod.fst).Nodup) {key : κ} {a : α} :
    (ofList entries).get? key = some a ↔ (key, a) ∈ entries := by
  rw [get?_eq_some_iff]
  exact (toList_ofList_perm h).mem_iff

theorem ofList_toList [Std.TransOrd κ] [Std.LawfulEqOrd κ] (m : OrderedMap κ α) :
    ofList m.toList = m := by
  apply ext_get?
  intro key
  apply Option.ext
  intro a
  rw [get?_ofList_eq_some_iff m.nodup_keys, get?_eq_some_iff]

/-!
# Maps of keys alone
-/

private theorem mem_keys_foldl_insert [Std.TransOrd κ] [Std.LawfulEqOrd κ]
    (entries : List (κ × α)) (m : OrderedMap κ α) (key : κ) :
    (entries.foldl (fun m e => m.insert e.1 e.2) m).contains key = true ↔
      key ∈ entries.map Prod.fst ∨ m.contains key = true := by
  induction entries generalizing m with
  | nil => simp
  | cons e rest ih =>
      have hinsert : (m.insert e.1 e.2).contains key = true ↔
          key = e.1 ∨ m.contains key = true := by
        unfold contains
        by_cases hkey : key = e.1
        · rw [hkey, get?_insert_self]
          simp
        · rw [get?_insert_of_ne hkey]
          simp [hkey]
      rw [List.foldl_cons, ih, hinsert, List.map_cons, List.mem_cons]
      tauto

theorem mem_keys_ofList [Std.TransOrd κ] [Std.LawfulEqOrd κ] {entries : List (κ × α)} {key : κ} :
    key ∈ (ofList entries).keys ↔ key ∈ entries.map Prod.fst := by
  rw [← contains_iff_mem_keys]
  have hfold := mem_keys_foldl_insert entries (empty : OrderedMap κ α) key
  simpa [ofList, contains, get?, find?, empty] using hfold

end OrderedMap

end InferenceEngine
