/-!
# Maps sorted by key

A finite map is the list of its entries in strictly increasing key order, so
that two maps are equal when their entries are, the order of iteration is part
of the value, and sets are maps to `Unit`.

`get?` is the view of a map: each operation below says what it does to `get?`.
-/

namespace BucketCluster

/-! ## Entry lists -/

namespace Entries

variable {κ ν : Type} [Ord κ]

/-- Strictly increasing keys. -/
def Sorted (es : List (κ × ν)) : Prop := es.Pairwise fun a b => compare a.1 b.1 = .lt

/-- The value stored under `k`. -/
def get? (k : κ) : List (κ × ν) → Option ν
  | [] => none
  | (k', v) :: es => if compare k k' = .eq then some v else get? k es

/-- Stores `v` under `k`, in place of what was there. -/
def insert (k : κ) (v : ν) : List (κ × ν) → List (κ × ν)
  | [] => [(k, v)]
  | (k', v') :: es =>
    match compare k k' with
    | .lt => (k, v) :: (k', v') :: es
    | .eq => (k, v) :: es
    | .gt => (k', v') :: insert k v es

theorem key_mem_insert {k : κ} {v : ν} {es : List (κ × ν)} {a : κ × ν} (h : a ∈ insert k v es) :
    a = (k, v) ∨ a ∈ es := by
  induction es with
  | nil => simpa [insert] using h
  | cons e es ih =>
    obtain ⟨k', v'⟩ := e
    unfold insert at h
    split at h
    · simpa using h
    · rcases List.mem_cons.1 h with h | h
      · exact .inl h
      · exact .inr (List.mem_cons_of_mem _ h)
    · rcases List.mem_cons.1 h with h | h
      · exact .inr (h ▸ List.mem_cons_self)
      · exact (ih h).imp_right (List.mem_cons_of_mem _)

theorem Sorted.insert [Std.TransOrd κ] {es : List (κ × ν)} (h : Sorted es) (k : κ) (v : ν) :
    Sorted (insert k v es) := by
  induction es with
  | nil => simp [Sorted, Entries.insert]
  | cons e es ih =>
    obtain ⟨k', v'⟩ := e
    obtain ⟨hlt, hes⟩ := List.pairwise_cons.1 h
    unfold Entries.insert
    split
    case h_1 hk =>
      refine List.pairwise_cons.2 ⟨fun a ha => ?_, h⟩
      rcases List.mem_cons.1 ha with rfl | ha
      · exact hk
      · exact Std.TransCmp.lt_trans hk (hlt a ha)
    case h_2 hk =>
      exact List.pairwise_cons.2 ⟨fun a ha => Std.TransCmp.lt_of_eq_of_lt hk (hlt a ha), hes⟩
    case h_3 hk =>
      refine List.pairwise_cons.2 ⟨fun a ha => ?_, ih hes⟩
      rcases key_mem_insert ha with rfl | ha
      · exact Std.OrientedCmp.lt_of_gt hk
      · exact hlt a ha

end Entries

/-! ## Maps -/

/-- A finite map, as the list of its entries in key order. -/
structure SortedMap (κ ν : Type) [Ord κ] where
  entries : List (κ × ν)
  sorted : Entries.Sorted entries

/-- A finite set. -/
abbrev SortedSet (κ : Type) [Ord κ] := SortedMap κ Unit

namespace SortedMap

variable {κ ν : Type} [Ord κ]

@[ext] theorem ext {m n : SortedMap κ ν} (h : m.entries = n.entries) : m = n := by
  cases m; cases n; cases h; rfl

instance [DecidableEq κ] [DecidableEq ν] : DecidableEq (SortedMap κ ν) := fun m n =>
  decidable_of_iff (m.entries = n.entries) ⟨ext, fun h => h ▸ rfl⟩

def empty : SortedMap κ ν := ⟨[], List.Pairwise.nil⟩

instance : Inhabited (SortedMap κ ν) := ⟨empty⟩

instance : EmptyCollection (SortedMap κ ν) := ⟨empty⟩

/-- The value stored under `k`. -/
def get? (m : SortedMap κ ν) (k : κ) : Option ν := Entries.get? k m.entries

def contains (m : SortedMap κ ν) (k : κ) : Bool := (m.get? k).isSome

def isEmpty (m : SortedMap κ ν) : Bool := m.entries.isEmpty

def size (m : SortedMap κ ν) : Nat := m.entries.length

def keys (m : SortedMap κ ν) : List κ := m.entries.map (·.1)

def values (m : SortedMap κ ν) : List ν := m.entries.map (·.2)

/-- Stores `v` under `k`, in place of what was there. -/
def insert [Std.TransOrd κ] (m : SortedMap κ ν) (k : κ) (v : ν) : SortedMap κ ν :=
  ⟨Entries.insert k v m.entries, m.sorted.insert k v⟩

/-- The entries that pass the test. -/
def filter (m : SortedMap κ ν) (keep : κ → ν → Bool) : SortedMap κ ν :=
  ⟨m.entries.filter fun e => keep e.1 e.2, m.sorted.filter _⟩

/-- The map without `k`. -/
def erase (m : SortedMap κ ν) (k : κ) : SortedMap κ ν := m.filter fun k' _ => compare k k' != .eq

/-- Stores the entries from left to right, so that the last value of a repeated
key stays. -/
def insertAll [Std.TransOrd κ] (m : SortedMap κ ν) (es : List (κ × ν)) : SortedMap κ ν :=
  es.foldl (fun m e => m.insert e.1 e.2) m

/-- The map of the listed entries; the last value of a repeated key stays. -/
def ofList [Std.TransOrd κ] (es : List (κ × ν)) : SortedMap κ ν := empty.insertAll es

/-- The same keys with other values. -/
def map {μ : Type} (m : SortedMap κ ν) (f : κ → ν → μ) : SortedMap κ μ :=
  ⟨m.entries.map fun e => (e.1, f e.1 e.2), by
    simpa [Entries.Sorted, List.pairwise_map] using m.sorted⟩

/-- The set of the keys. -/
def keySet (m : SortedMap κ ν) : SortedSet κ := m.map fun _ _ => ()

end SortedMap

namespace SortedSet

variable {κ : Type} [Ord κ] [Std.TransOrd κ]

/-- The set of the listed elements. -/
def ofElements (ks : List κ) : SortedSet κ := SortedMap.ofList (ks.map (·, ()))

end SortedSet

end BucketCluster
