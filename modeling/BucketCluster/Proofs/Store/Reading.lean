import BucketCluster.Proofs.Store.Apply
import BucketCluster.Proofs.Store.Selection
import BucketCluster.Proofs.Store.UnknownOperators
import Mathlib.Data.List.Nodup

/-!
# Reading a bucket

There are five ways to read a bucket: by key, by a set of keys, as the list of its keys, as a
range and by predicate.  Under one predicate all of them show parts of one map, the documents
that the predicate keeps (`reads_agree`), whether or not the bucket exists.

A set of keys may be looked up key by key (`valuesOf_eq_gather`), and a range may be read off
the entries in any order, as they come out of a table without order (`select_of_perm`).
-/

namespace BucketCluster

/-! ## Looking keys up one by one -/

namespace Documents

/-- Adds what has been found under a key, if anything. -/
def add (found : Documents) (k : Key) : Option Document → Documents
  | some d => found.insert k d
  | none => found

/-- Looks the keys up one after the other and adds what is found. -/
def gather (find : Key → Except StoreError (Option Document)) :
    List Key → Documents → Except StoreError Documents
  | [], found => .ok found
  | k :: ks, found => do
    let v ← find k
    gather find ks (add found k v)

theorem get?_add (found : Documents) (k k' : Key) (v : Option Document) :
    (add found k v).get? k' = if k' = k then v.or (found.get? k) else found.get? k' := by
  cases v with
  | none => by_cases hk : k' = k <;> simp [add, hk]
  | some d =>
    by_cases hk : k' = k
    · rw [if_pos hk, hk]
      exact SortedMap.get?_insert_self _ _ _
    · rw [if_neg hk]
      exact SortedMap.get?_insert_of_ne _ _ hk

/-- In the end every key has what was found under it. -/
theorem gather_eq {find : Key → Except StoreError (Option Document)} {v : Key → Option Document}
    (hfind : ∀ k, find k = .ok (v k)) (ks : List Key) (found : Documents) :
    ∃ m, gather find ks found = .ok m ∧
      ∀ k, m.get? k = if k ∈ ks then (v k).or (found.get? k) else found.get? k := by
  induction ks generalizing found with
  | nil => exact ⟨found, rfl, fun k => rfl⟩
  | cons k' ks ih =>
    obtain ⟨m, hm, hget⟩ := ih (add found k' (v k'))
    refine ⟨m, ?_, fun k => ?_⟩
    · rw [gather, hfind]
      exact hm
    · rw [hget, get?_add]
      by_cases hk : k = k'
      · -- a second look finds the same
        subst hk
        cases v k <;> simp
      · simp [hk]

end Documents

namespace Store

variable {s : Store} {b : String} {p : Option Predicate} {f : Filter}

theorem value_of_filter (hf : s.operators.filter p = .ok f) (k : Key) :
    s.value b k p = .ok (((s.contents b).get? k).filter (f.keeps k)) := by
  unfold value
  rw [hf]
  rfl

theorem get?_filter_contains (ds : Documents) (ks : KeySet) (f : Filter) (k : Key) :
    (ds.filter fun k d => ks.contains k && f.keeps k d).get? k =
      if ks.contains k then (ds.filter f.keeps).get? k else none := by
  rw [SortedMap.get?_filter, SortedMap.get?_filter]
  by_cases hk : ks.contains k = true
  · simp only [hk, Bool.true_and, if_true]
  · simp only [hk, Bool.false_and]
    cases ds.get? k <;> rfl

/-- Of several keys those documents are found that looking up each key would find. -/
theorem valuesOf_eq_gather (hf : s.operators.filter p = .ok f) (ks : KeySet) :
    s.valuesOf b ks p = Documents.gather (fun k => s.value b k p) ks.keys ∅ := by
  obtain ⟨m, hm, hget⟩ := Documents.gather_eq (value_of_filter hf (b := b)) ks.keys ∅
  rw [hm]
  unfold valuesOf
  rw [hf]
  refine congrArg Except.ok (SortedMap.ext_get? fun k => ?_)
  rw [hget, get?_filter_contains, SortedMap.get?_filter, SortedMap.get?_empty, Option.or_none]
  by_cases hk : ks.contains k = true
  · rw [if_pos hk, if_pos (show k ∈ ks.keys from SortedMap.contains_iff_mem_keys.1 hk)]
  · rw [if_neg hk, if_neg (show k ∉ ks.keys from mt SortedMap.contains_iff_mem_keys.2 hk)]

end Store

/-! ## Whole ranges -/

namespace KeyRange

/-- The range holds every key in byte order. -/
structure Whole (r : KeyRange) : Prop where
  start : r.start.bytes = []
  stop : r.stop = none
  limit : r.limit = 0

theorem Whole.includes {r : KeyRange} (h : r.Whole) (k : Key) :
    r.includes Operators.lexicalOrder k = true := by
  unfold KeyRange.includes Operators.lexicalOrder
  rw [h.stop, Key.compare_def, h.start, Bool.and_true]
  cases k.bytes <;> rfl

/-- A range without bounds gives the documents that are kept in the order of their keys, in
whatever order the entries come. -/
theorem select_of_perm {r : KeyRange} (h : r.Whole) (f : Filter) (ds : Documents)
    {es : List (Key × Document)} (hes : es.Perm ds.entries) :
    r.select Operators.lexicalOrder f es = (ds.filter f.keeps).entries := by
  have hkeep : (es.filter fun e => r.includes Operators.lexicalOrder e.1 && f.keeps e.1 e.2) =
      es.filter fun e => f.keeps e.1 e.2 := by
    simp only [h.includes, Bool.true_and]
  unfold select truncate
  rw [if_pos h.limit, hkeep]
  have hfilter : (es.filter fun e => f.keeps e.1 e.2).Perm (ds.filter f.keeps).entries :=
    hes.filter _
  have hperm := (sortEntries_perm Operators.lexicalOrder _).trans hfilter
  refine hperm.eq_of_pairwise ?_ (sortEntries_sorted (compare : Comparator) _)
    ((ds.filter f.keeps).sorted.imp fun hlt => Ordering.isLE_of_eq_lt hlt)
  intro a b ha hb hab hba
  have hkey : a.1 = b.1 := Std.LawfulEqCmp.eq_of_compare (Std.OrientedCmp.isLE_antisymm hab hba)
  exact List.inj_on_of_nodup_map (ds.filter f.keeps).sorted.keys_nodup (hperm.mem_iff.1 ha) hb hkey

end KeyRange

/-! ## All ways of reading -/

namespace Store

/-- Under the predicate the bucket reads as these documents, whichever way it is read, and
the store stays as it is. -/
structure ReadsAs (s : Store) (b : String) (p : Option Predicate) (ks : KeySet) (ds : Documents) :
    Prop where
  keys : ∀ id, s.apply ⟨id, .getKeys b⟩ = (.ok (.keys ks), s)
  value : ∀ id k, s.apply ⟨id, .getValue b k p⟩ = (.ok (.value (ds.get? k)), s)
  /-- The keys, each with the value found for it if there is one. -/
  pairs : ds.entries = ks.keys.filterMap fun k => (ds.get? k).map (k, ·)
  values : ∀ id ks', (∀ k, ks.contains k = true → ks'.contains k = true) →
    s.apply ⟨id, .getValues b ks' p⟩ = (.ok (.values ds), s)
  /-- Any keys give the part of the documents under them, the same as key by key. -/
  part : ∀ id ks', ∃ part, s.apply ⟨id, .getValues b ks' p⟩ = (.ok (.values part), s) ∧
    (∀ k, part.get? k = if ks'.contains k then ds.get? k else none) ∧
    Documents.gather (fun k => s.value b k p) ks'.keys ∅ = .ok part
  entries : ∀ id range, range.Whole →
    s.operators.comparator range.comparatorName = .ok Operators.lexicalOrder →
    s.apply ⟨id, .rangeQuery b range p⟩ = (.ok (.entries ds.entries), s)
  ordered : ds.entries.Pairwise fun a b => compare a.1 b.1 = .lt
  query : ∀ id q, p = some q → s.apply ⟨id, .predicateQuery b q⟩ = (.ok (.values ds), s)

variable {s : Store} {b : String} {p : Option Predicate} {f : Filter}

theorem readsAs_of_filter (b : String) (hf : s.operators.filter p = .ok f) :
    s.ReadsAs b p (s.contents b).keySet ((s.contents b).filter f.keeps) := by
  have hkeys : ∀ k, ((s.contents b).filter f.keeps).contains k = true →
      (s.contents b).keySet.contains k = true := by
    intro k hk
    rw [SortedMap.contains_keySet]
    unfold SortedMap.contains at hk ⊢
    rw [SortedMap.get?_filter] at hk
    cases hd : (s.contents b).get? k with
    | none =>
      rw [hd] at hk
      contradiction
    | some d => rfl
  refine ⟨apply_getKeys, ?_, SortedMap.entries_eq_filterMap hkeys, ?_, ?_, ?_,
    SortedMap.sorted _, ?_⟩
  · intro id k
    rw [apply_getValue id hf, SortedMap.get?_filter]
  · intro id ks' hks'
    rw [apply_getValues id ks' hf]
    have hall : ((s.contents b).filter fun k d => ks'.contains k && f.keeps k d) =
        (s.contents b).filter f.keeps := by
      refine SortedMap.ext_get? fun k => ?_
      rw [get?_filter_contains]
      by_cases hk : ks'.contains k = true
      · rw [if_pos hk]
      · rw [if_neg hk]
        have hnone : ((s.contents b).filter f.keeps).contains k = false :=
          Bool.eq_false_iff.2 fun hc => hk (hks' k (hkeys k hc))
        exact (Option.isSome_eq_false_iff.1 hnone |> Option.isNone_iff_eq_none.1).symm
    rw [hall]
  · intro id ks'
    refine ⟨_, apply_getValues id ks' hf, get?_filter_contains (s.contents b) ks' f, ?_⟩
    rw [← valuesOf_eq_gather hf]
    unfold valuesOf
    rw [hf]
    rfl
  · intro id range hwhole horder
    rw [apply_rangeQuery id horder hf, KeyRange.select_of_perm hwhole f (s.contents b) (.refl _)]
  · rintro id q rfl
    exact apply_predicateQuery id hf

/-- **All ways of reading agree.**  For every store, every bucket, existing or not, and
every predicate whose condition is registered, or none, there are documents which the bucket
reads as, by key, by keys, as a range and by predicate. -/
theorem reads_agree (s : Store) (b : String) (p : Option Predicate)
    (hp : ∀ q, p = some q → (s.operators.conditions.get? q.condition).isSome = true) :
    ∃ ks ds, s.ReadsAs b p ks ds := by
  obtain ⟨f, hf⟩ := filter_of_registered hp
  exact ⟨_, _, readsAs_of_filter b hf⟩

def red : Document := .ofText "\x7b\"c\":\"red\"\x7d"

/-- A red document under the key `1` and a blue one under `2`. -/
def colours : Store :=
  ⟨.ofList [("b", .ofList [(⟨[49]⟩, red), (⟨[50]⟩, .ofText "\x7b\"c\":\"blue\"\x7d")])],
    Operators.builtin, .absent "/backups"⟩

def isRed : Predicate := ⟨"json", "c=red"⟩

theorem reads_agree_red :
    (∀ q, some isRed = some q → (colours.operators.conditions.get? q.condition).isSome = true) ∧
    colours.ReadsAs "b" (some isRed) (.ofElements [⟨[49]⟩, ⟨[50]⟩]) (.ofList [(⟨[49]⟩, red)]) := by
  have hp : ∀ q, some isRed = some q → (colours.operators.conditions.get? q.condition).isSome =
      true := by
    rintro q ⟨⟩
    decide +kernel
  have hkeys : (colours.apply ⟨"", .getKeys "b"⟩).1 =
      .ok (.keys (.ofElements [⟨[49]⟩, ⟨[50]⟩])) := by
    decide +kernel
  have hquery : (colours.apply ⟨"", .predicateQuery "b" isRed⟩).1 =
      .ok (.values (.ofList [(⟨[49]⟩, red)])) := by
    decide +kernel
  obtain ⟨ks, ds, h⟩ := reads_agree colours "b" (some isRed) hp
  rw [h.keys] at hkeys
  rw [h.query "" isRed rfl] at hquery
  cases hkeys
  cases hquery
  exact ⟨hp, h⟩

end Store

end BucketCluster
