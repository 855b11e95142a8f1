/-!
# Maps with ordered keys

A map keeps its entries in increasing order of their keys, one entry per key, so that
listing a map is deterministic and two maps with equal entries are equal.
-/

namespace InferenceEngine

/-- A finite map whose entries are listed in increasing order of their keys. -/
structure OrderedMap (κ : Type) (α : Type) [Ord κ] where
  /-- The entries, in increasing order of their keys. -/
  toList : List (κ × α)
  /-- Each key is smaller than all keys after it. -/
  ordered : toList.Pairwise fun a b => compare a.1 b.1 = .lt

namespace OrderedMap

variable {κ α β : Type} [Ord κ]

def empty : OrderedMap κ α := ⟨[], .nil⟩

instance : Inhabited (OrderedMap κ α) := ⟨empty⟩

@[ext] theorem ext {m n : OrderedMap κ α} (h : m.toList = n.toList) : m = n := by
  cases m; cases n; cases h; rfl

/-!
# Looking up
-/

def find? (key : κ) : List (κ × α) -> Option α
  | [] => none
  | (k, a) :: rest => if compare key k = .eq then some a else find? key rest

def get? (m : OrderedMap κ α) (key : κ) : Option α := find? key m.toList

def contains (m : OrderedMap κ α) (key : κ) : Bool := (m.get? key).isSome

def keys (m : OrderedMap κ α) : List κ := m.toList.map Prod.fst

def values (m : OrderedMap κ α) : List α := m.toList.map Prod.snd

def size (m : OrderedMap κ α) : Nat := m.toList.length

def isEmpty (m : OrderedMap κ α) : Bool := m.toList.isEmpty

/-!
# Changing entries
-/

/-- Puts an entry at its place, over an entry of the same key. -/
def insertEntry (key : κ) (value : α) : List (κ × α) -> List (κ × α)
  | [] => [(key, value)]
  | (k, a) :: rest =>
    match compare key k with
    | .lt => (key, value) :: (k, a) :: rest
    | .eq => (key, value) :: rest
    | .gt => (k, a) :: insertEntry key value rest

theorem mem_insertEntry {key : κ} {value : α} {entries : List (κ × α)} {e : κ × α}
    (h : e ∈ insertEntry key value entries) : e = (key, value) ∨ e ∈ entries := by
  induction entries with
  | nil => simpa [insertEntry] using h
  | cons hd rest ih =>
    unfold insertEntry at h
    split at h
    · simpa using h
    · rcases List.mem_cons.1 h with h | h
      · exact .inl h
      · exact .inr (List.mem_cons_of_mem _ h)
    · rcases List.mem_cons.1 h with h | h
      · exact .inr (h ▸ List.mem_cons_self)
      · exact (ih h).imp_right (List.mem_cons_of_mem _)

theorem pairwise_insertEntry [Std.TransOrd κ] [Std.LawfulEqOrd κ] {key : κ} {value : α}
    {entries : List (κ × α)} (h : entries.Pairwise fun a b => compare a.1 b.1 = .lt) :
    (insertEntry key value entries).Pairwise fun a b => compare a.1 b.1 = .lt := by
  induction entries with
  | nil => simp [insertEntry]
  | cons hd rest ih =>
    obtain ⟨k, a⟩ := hd
    have below := (List.pairwise_cons.1 h).1
    have tail := (List.pairwise_cons.1 h).2
    unfold insertEntry
    split
    next hlt =>
      refine List.pairwise_cons.2 ⟨fun e he => ?_, h⟩
      rcases List.mem_cons.1 he with he | he
      · exact he ▸ hlt
      · exact Std.TransCmp.lt_trans hlt (below e he)
    next heq =>
      have heq : key = k := Std.compare_eq_iff_eq.1 heq
      subst heq
      exact List.pairwise_cons.2 ⟨below, tail⟩
    next hgt =>
      refine List.pairwise_cons.2 ⟨fun e he => ?_, ih tail⟩
      rcases mem_insertEntry he with he | he
      · exact he ▸ Std.OrientedCmp.gt_iff_lt.1 hgt
      · exact below e he

def insert [Std.TransOrd κ] [Std.LawfulEqOrd κ] (m : OrderedMap κ α) (key : κ) (value : α) :
    OrderedMap κ α :=
  ⟨insertEntry key value m.toList, pairwise_insertEntry m.ordered⟩

def erase (m : OrderedMap κ α) (key : κ) : OrderedMap κ α :=
  ⟨m.toList.filter fun e => compare key e.1 != .eq, m.ordered.filter _⟩

def map (f : α -> β) (m : OrderedMap κ α) : OrderedMap κ β :=
  ⟨m.toList.map fun e => (e.1, f e.2), List.pairwise_map.2 m.ordered⟩

/-- The map of a list of entries, the last of equal keys winning. -/
def ofList [Std.TransOrd κ] [Std.LawfulEqOrd κ] (entries : List (κ × α)) : OrderedMap κ α :=
  entries.foldl (fun m e => m.insert e.1 e.2) empty

/-!
# Lookup after a change
-/

theorem find?_insertEntry_self [Std.ReflOrd κ] (key : κ) (value : α) (entries : List (κ × α)) :
    find? key (insertEntry key value entries) = some value := by
  induction entries with
  | nil => simp [insertEntry, find?]
  | cons hd rest ih =>
    unfold insertEntry
    split
    · simp [find?]
    · simp [find?]
    next hgt => simp [find?, hgt, ih]

theorem find?_insertEntry_of_ne [Std.LawfulEqOrd κ] {key other : κ} (h : other ≠ key)
    (value : α) (entries : List (κ × α)) :
    find? other (insertEntry key value entries) = find? other entries := by
  have hne : compare other key ≠ .eq := fun e => h (Std.compare_eq_iff_eq.1 e)
  induction entries with
  | nil => simp [insertEntry, find?, hne]
  | cons hd rest ih =>
    unfold insertEntry
    split
    · simp [find?, hne]
    next heq =>
      have heq : key = hd.1 := Std.compare_eq_iff_eq.1 heq
      simp [find?, ← heq, hne]
    · simp [find?, ih]

@[simp] theorem get?_insert_self [Std.TransOrd κ] [Std.LawfulEqOrd κ]
    (m : OrderedMap κ α) (key : κ) (value : α) : (m.insert key value).get? key = some value :=
  find?_insertEntry_self ..

theorem get?_insert_of_ne [Std.TransOrd κ] [Std.LawfulEqOrd κ] {key other : κ}
    (h : other ≠ key) (m : OrderedMap κ α) (value : α) :
    (m.insert key value).get? other = m.get? other :=
  find?_insertEntry_of_ne h ..

end OrderedMap

end InferenceEngine
