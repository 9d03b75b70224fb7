import Mathlib.Data.List.Basic

/-!
# A flat memory

A memory of cells at natural addresses, with stores and loads of lists at an address. `Shows`
compares a region of it with a store of partial contents that starts empty and is only ever
written from its first position on.

## Main definitions

* `store`, `load`: writing and reading a list at an address
* `overwrite known bs`: partial contents after `bs` is written from position 0 on
* `Shows mem p known`: the memory from `p` on has the contents `known`

## Main results

* `load_store`, `load_store_of_le`, `load_store_of_ge`: a load of what was stored, and one beside
  the store
* `store_append`, `store_eq_self_iff`: stores one behind the other, and one that changes nothing
* `Shows.store`: a memory that shows the contents shows them after a store
* `Shows.load`: a load delivers, position by position, the contents shown
-/

namespace Memory

variable {β : Type*} {mem : ℕ → β} {known : ℕ → Option β} {p : ℕ} {bs : List β}

/-- The memory after `bs` is stored at `p`. -/
def store (mem : ℕ → β) (p : ℕ) (bs : List β) : ℕ → β := fun a =>
  if p ≤ a then bs[a - p]?.getD (mem a) else mem a

/-- The `n` cells from `p` on. -/
def load (mem : ℕ → β) (p n : ℕ) : List β := (List.range n).map fun i => mem (p + i)

@[simp] theorem store_add (i : ℕ) : store mem p bs (p + i) = bs[i]?.getD (mem (p + i)) := by
  simp [store]

@[simp] theorem load_length (n : ℕ) : (load mem p n).length = n := by
  simp [load]

theorem load_getElem? {n i : ℕ} (hi : i < n) : (load mem p n)[i]? = some (mem (p + i)) := by
  simp [load, hi]

theorem load_add (m n : ℕ) : load mem p (m + n) = load mem p m ++ load mem (p + m) n := by
  simp [load, List.range_add, Nat.add_assoc]

/-- A load delivers what was stored in its place. -/
theorem load_store : load (store mem p bs) p bs.length = bs := by
  apply List.ext_getElem?
  intro i
  by_cases hi : i < bs.length
  · rw [load_getElem? hi, store_add, List.getElem?_eq_getElem hi]
    rfl
  · -- Neither list goes that far.
    have hle : bs.length ≤ i := Nat.le_of_not_lt hi
    simp [hle]

/-- A load does not see a store behind it. -/
theorem load_store_of_le {q n : ℕ} (hle : p + n ≤ q) :
    load (store mem q bs) p n = load mem p n := by
  apply List.map_congr_left
  intro i hi
  have hlt := List.mem_range.mp hi
  exact if_neg (by omega)

/-- A load does not see a store in front of it. -/
theorem load_store_of_ge {q n : ℕ} (hle : q + bs.length ≤ p) :
    load (store mem q bs) p n = load mem p n := by
  apply List.map_congr_left
  intro i hi
  have hnone : bs[p + i - q]? = none := List.getElem?_eq_none (by omega)
  show (if q ≤ p + i then bs[p + i - q]?.getD (mem (p + i)) else mem (p + i)) = mem (p + i)
  rw [hnone, Option.getD_none, ite_self]

/-- A store of two lists, one behind the other. -/
theorem store_append (as bs : List β) :
    store mem p (as ++ bs) = store (store mem p as) (p + as.length) bs := by
  funext a
  unfold store
  by_cases hp : p ≤ a
  · by_cases hq : p + as.length ≤ a
    · have hindex : a - p - as.length = a - (p + as.length) := by omega
      rw [if_pos hp, if_pos hq, if_pos hp, List.getElem?_append_right (by omega), hindex,
        List.getElem?_eq_none (l := as) (by omega)]
      rfl
    · have hlt : a - p < as.length := by omega
      rw [if_pos hp, if_neg hq, if_pos hp, List.getElem?_append_left hlt]
  · rw [if_neg hp, if_neg (by omega), if_neg hp]

/-- A store changes nothing iff the memory holds it. -/
theorem store_eq_self_iff : store mem p bs = mem ↔ load mem p bs.length = bs := by
  constructor
  · intro hsame
    rw [← hsame]
    exact load_store
  · intro hheld
    funext a
    unfold store
    split
    · rename_i hp
      by_cases hlt : a - p < bs.length
      · have hcell : (load mem p bs.length)[a - p]? = some (mem (p + (a - p))) :=
          load_getElem? hlt
        rw [hheld, Nat.add_sub_cancel' hp] at hcell
        rw [hcell, Option.getD_some]
      · rw [List.getElem?_eq_none (by omega), Option.getD_none]
    · rfl

/-- Partial contents after `bs` is written from position 0 on. -/
def overwrite (known : ℕ → Option β) (bs : List β) : ℕ → Option β := fun i => bs[i]?.or (known i)

/-- The memory from `p` on has the contents `known`, where they are known. -/
def Shows (mem : ℕ → β) (p : ℕ) (known : ℕ → Option β) : Prop :=
  ∀ i, ∀ b ∈ known i, mem (p + i) = b

theorem shows_empty : Shows mem p fun _ => none := by
  intro i b hb
  cases hb

/-- **A store shows in the memory** as it does in the contents. -/
theorem Shows.store (h : Shows mem p known) :
    Shows (store mem p bs) p (overwrite known bs) := by
  intro i b hb
  rw [store_add]
  unfold overwrite at hb
  cases hbs : bs[i]? with
  | none =>
    rw [hbs, Option.none_or] at hb
    exact h i b hb
  | some b' =>
    rw [hbs, Option.some_or] at hb
    exact Option.some.inj hb

/-- **A load delivers the contents shown.** -/
theorem Shows.load (h : Shows mem p known) {n i : ℕ} (hi : i < n) {b : β} (hb : b ∈ known i) :
    (load mem p n)[i]? = some b := by
  rw [load_getElem? hi, h i b hb]

end Memory
