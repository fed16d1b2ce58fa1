import BucketCluster.Proofs.Lists
import BucketCluster.Schema.Text

/-!
# Which messages have a JSON form

JSON spells the keys of a map as member names, and nothing else stands in the way of
writing a message: it can be written exactly if every map in it has names for all of
its keys (`write_isSome_iff`).
-/

namespace BucketCluster

theorem isSome_mapM_iff {α β : Type} {f : α → Option β} {xs : List α} :
    (xs.mapM f).isSome = true ↔ ∀ x ∈ xs, (f x).isSome = true := by
  induction xs with
  | nil => exact iff_of_true rfl nofun
  | cons x xs ih =>
    rw [List.mapM_cons, List.forall_mem_cons, ← ih]
    cases f x with
    | none => simp
    | some y => cases xs.mapM f <;> simp

/-- Two parts that are put together have to be there both. -/
theorem isSome_bind_bind {α β γ : Type} {x : Option α} {y : Option β} {f : α → β → γ} :
    (x.bind fun a => y.bind fun b => some (f a b)).isSome = true ↔ x.isSome = true ∧
    y.isSome = true := by
  cases x <;> cases y <;> simp

mutual

/-- JSON has a name for each key of each map in the message, and an alternative holds
of each part. -/
def Schema.Writable : {α : Type} → Schema α → α → Prop
  | _, .text, _ => True
  | _, .octets, _ => True
  | _, .key, _ => True
  | _, .word32, _ => True
  | _, .word64, _ => True
  | _, .option item, x =>
    match x with
    | none => True
    | some x => item.Writable x
  | _, .list item, xs => ∀ x ∈ xs, item.Writable x
  | _, .pair first second, x => first.Writable x.1 ∧ second.Writable x.2
  | _, @Schema.set _ _ _ item, s => ∀ x ∈ s.keys, item.Writable x
  | _, @Schema.map _ _ _ _ name? _ _ value, m =>
    ∀ e ∈ m.entries, (name? e.1).isSome = true ∧ value.Writable e.2
  | _, .refine inner _ parts, x => inner.Writable (parts x)
  | _, .record fields _ parts, x => fields.Writable (parts x)
  | _, .choice cases, x => cases.Writable x

def Fields.Writable : {α σ : Type} → Fields α σ → α → Prop
  | _, _, .nil, _ => True
  | _, _, .field _ shape _ rest, x => shape.Writable x.1 ∧ rest.Writable x.2

def Cases.Writable : {α : Type} → Cases α → α → Prop
  | _, .nil, _ => False
  | _, .unit _ _ is rest, x => is x = true ∨ rest.Writable x
  | _, .case _ shape _ take rest, x =>
    match take x with
    | some y => shape.Writable y
    | none => rest.Writable x

end

mutual

/-- **What can be written.** -/
theorem Schema.write_isSome_iff : {α : Type} → (schema : Schema α) → ∀ x : α,
    (schema.write x).isSome = true ↔ schema.Writable x
  | _, .text, _ => iff_of_true rfl trivial
  | _, .octets, _ => iff_of_true rfl trivial
  | _, .key, _ => iff_of_true rfl trivial
  | _, .word32, _ => iff_of_true rfl trivial
  | _, .word64, _ => iff_of_true rfl trivial
  | _, .option item, none => iff_of_true rfl trivial
  | _, .option item, some x => by
    rw [Schema.write, Schema.Writable]
    exact Schema.write_isSome_iff item x
  | _, .list item, xs => by
    rw [Schema.write, Schema.Writable, Option.isSome_map, isSome_mapM_iff]
    exact forall₂_congr fun x _ => Schema.write_isSome_iff item x
  | _, .pair first second, (x, y) => by
    rw [Schema.write, Schema.Writable, ← Schema.write_isSome_iff first x,
      ← Schema.write_isSome_iff second y]
    exact isSome_bind_bind
  | _, @Schema.set _ _ _ item, s => by
    rw [Schema.write, Schema.Writable, Option.isSome_map, isSome_mapM_iff]
    exact forall₂_congr fun x _ => Schema.write_isSome_iff item x
  | _, @Schema.map _ _ _ _ name? _ _ value, m => by
    rw [Schema.write, Schema.Writable, Option.isSome_map, isSome_mapM_iff]
    refine forall₂_congr fun e _ => ?_
    rw [← Schema.write_isSome_iff value e.2]
    exact isSome_bind_bind
  | _, .refine inner _ parts, x => by
    rw [Schema.write, Schema.Writable]
    exact Schema.write_isSome_iff inner (parts x)
  | _, .record fields _ parts, x => by
    rw [Schema.write, Schema.Writable, Option.isSome_map]
    exact Fields.write_isSome_iff fields (parts x)
  | _, .choice cases, x => by
    rw [Schema.write, Schema.Writable]
    exact Cases.write_isSome_iff cases x

theorem Fields.write_isSome_iff : {α σ : Type} → (fields : Fields α σ) → ∀ x : α,
    (fields.write x).isSome = true ↔ fields.Writable x
  | _, _, .nil, _ => iff_of_true rfl trivial
  | _, _, .field _ shape _ rest, (x, xs) => by
    rw [Fields.write, Fields.Writable, ← Schema.write_isSome_iff shape x,
      ← Fields.write_isSome_iff rest xs]
    exact isSome_bind_bind

theorem Cases.write_isSome_iff : {α : Type} → (cases : Cases α) → ∀ x : α,
    (cases.write x).isSome = true ↔ cases.Writable x
  | _, .nil, x => iff_of_false Bool.false_ne_true id
  | _, .unit _ _ is rest, x => by
    rw [Cases.write, Cases.Writable, ← Cases.write_isSome_iff rest x]
    cases is x <;> simp
  | _, .case _ shape _ take rest, x => by
    rw [Cases.write, Cases.Writable]
    cases take x with
    | some y =>
      simp only [Option.isSome_map]
      exact Schema.write_isSome_iff shape y
    | none => exact Cases.write_isSome_iff rest x

end

end BucketCluster
