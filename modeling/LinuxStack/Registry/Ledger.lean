import Mathlib.Logic.Function.Basic
import Mathlib.Data.List.Perm.Basic
import Mathlib.Data.List.Nodup
import Mathlib.Data.Option.Basic

/-!
# Registries with owners

A registry maps keys to the owner of the live entry, if there is one. A caller acquires free
keys and later applies release calls to them; a release call deletes whatever entry it is aimed
at, and the registry records it as stray when that entry was not a live entry of the caller.
The effect of a list of acquisitions, and of the releases that undo them, is read off the two
lists.

## Main definitions

* `Ledger κ ω ρ`: the live entries by key, and the stray release calls
* `Ledger.acquire`, `Ledger.release`: the two moves of a caller `me`
* `Ledger.acquireAll`, `Ledger.releaseAll`: the moves of a list, in order

## Main results

* `releaseAll_stray_eq_iff`: no release is stray iff each is aimed at an own entry of its own
* `releaseAll_acquireAll_eq_iff`: releases undo acquisitions, with none stray, iff they are
  aimed at a permutation of the acquired keys
-/

namespace Registry

variable {κ ω ρ : Type*}

/-- The live entries of a registry with their owners, and the release calls that did not hit a
live entry of their caller. -/
@[ext] structure Ledger (κ ω ρ : Type*) where
  table : κ → Option ω
  stray : List ρ

namespace Ledger

variable [DecidableEq κ] {target : ρ → Option κ} {me : ω} {l : Ledger κ ω ρ} {rs : List κ}
  {xs : List ρ}

/-! ## Acquisitions -/

/-- The caller `me` enters the key `r`. -/
def acquire (me : ω) (r : κ) (l : Ledger κ ω ρ) : Ledger κ ω ρ :=
  { l with table := Function.update l.table r (some me) }

/-- The caller enters the keys of a list, in order. -/
def acquireAll (me : ω) (rs : List κ) (l : Ledger κ ω ρ) : Ledger κ ω ρ :=
  rs.foldl (fun l r => l.acquire me r) l

@[simp] theorem acquireAll_nil : l.acquireAll me [] = l := rfl

@[simp] theorem acquireAll_cons (r : κ) :
    l.acquireAll me (r :: rs) = (l.acquire me r).acquireAll me rs := rfl

theorem acquireAll_append (ss : List κ) :
    l.acquireAll me (rs ++ ss) = (l.acquireAll me rs).acquireAll me ss := List.foldl_append

@[simp] theorem acquire_stray (r : κ) : (l.acquire me r).stray = l.stray := rfl

@[simp] theorem acquire_table_self (r : κ) : (l.acquire me r).table r = some me := by
  simp [acquire]

theorem acquire_table_of_ne {r r' : κ} (h : r' ≠ r) :
    (l.acquire me r).table r' = l.table r' := by
  simp [acquire, h]

@[simp] theorem acquireAll_stray : (l.acquireAll me rs).stray = l.stray := by
  induction rs generalizing l with
  | nil => rfl
  | cons r rs ih => rw [acquireAll_cons, ih, acquire_stray]

theorem acquireAll_table (r : κ) :
    (l.acquireAll me rs).table r = if r ∈ rs then some me else l.table r := by
  induction rs generalizing l with
  | nil => simp
  | cons r' rs ih =>
    rw [acquireAll_cons, ih]
    by_cases hmem : r ∈ rs
    · simp [hmem]
    · by_cases h : r = r'
      · simp [h]
      · simp [hmem, h, acquire_table_of_ne h]

/-! ## Releases -/

variable [DecidableEq ω]

/-- The caller `me` makes the release call `x`, aimed at `target x`. A call aimed at nothing
deletes nothing. -/
def release (target : ρ → Option κ) (me : ω) (x : ρ) (l : Ledger κ ω ρ) : Ledger κ ω ρ :=
  match target x with
  | none => { l with stray := l.stray ++ [x] }
  | some r =>
    -- The entry goes whoever owns it, but the caller may only release its own.
    { table := Function.update l.table r none
      stray := if l.table r = some me then l.stray else l.stray ++ [x] }

/-- The caller makes the release calls of a list, in order. -/
def releaseAll (target : ρ → Option κ) (me : ω) (xs : List ρ) (l : Ledger κ ω ρ) :
    Ledger κ ω ρ :=
  xs.foldl (fun l x => l.release target me x) l

@[simp] theorem releaseAll_nil : l.releaseAll target me [] = l := rfl

@[simp] theorem releaseAll_cons (x : ρ) :
    l.releaseAll target me (x :: xs) = (l.release target me x).releaseAll target me xs := rfl

theorem release_table {x : ρ} (r : κ) :
    (l.release target me x).table r = if target x = some r then none else l.table r := by
  unfold release
  cases target x with
  | none => simp
  | some r' =>
    by_cases h : r = r'
    · simp [h]
    · simp [h, Ne.symm h]

theorem releaseAll_table (r : κ) :
    (l.releaseAll target me xs).table r =
      if some r ∈ xs.map target then none else l.table r := by
  induction xs generalizing l with
  | nil => simp
  | cons x xs ih =>
    rw [releaseAll_cons, ih, release_table, List.map_cons]
    by_cases hmem : some r ∈ xs.map target
    · simp [hmem]
    · simp [hmem, eq_comm]

/-- A release call is recorded unless it is aimed at a live entry of the caller. -/
theorem release_stray {x : ρ} :
    (l.release target me x).stray =
      if ∃ r, target x = some r ∧ l.table r = some me then l.stray else l.stray ++ [x] := by
  unfold release
  cases target x with
  | none => simp
  | some r => simp

theorem stray_prefix_releaseAll : l.stray <+: (l.releaseAll target me xs).stray := by
  induction xs generalizing l with
  | nil => exact List.prefix_refl _
  | cons x xs ih =>
    refine List.IsPrefix.trans ?_ ih
    rw [release_stray]
    split_ifs
    · exact List.prefix_refl _
    · exact List.prefix_append _ _

/-- A release call of a list that is aimed at nothing is recorded. -/
theorem mem_releaseAll_stray {x : ρ} (hx : x ∈ xs) (ht : target x = none) :
    x ∈ (l.releaseAll target me xs).stray := by
  induction xs generalizing l with
  | nil => cases hx
  | cons y ys ih =>
    rcases List.mem_cons.mp hx with rfl | hx
    · have hrec : x ∈ (l.release target me x).stray := by simp [release, ht]
      have hpre : (l.release target me x).stray <+:
          ((l.release target me x).releaseAll target me ys).stray := stray_prefix_releaseAll
      exact hpre.subset hrec
    · exact ih hx

/-- **No release of a list is stray** iff the calls are aimed at distinct live entries of the
caller. -/
theorem releaseAll_stray_eq_iff :
    (l.releaseAll target me xs).stray = l.stray ↔
      (xs.map target).Nodup ∧ ∀ x ∈ xs, ∃ r, target x = some r ∧ l.table r = some me := by
  induction xs generalizing l with
  | nil => simp
  | cons x xs ih =>
    rw [releaseAll_cons, List.map_cons, List.nodup_cons, List.forall_mem_cons]
    -- The first call either hits an own entry, or is recorded at once.
    by_cases hown : ∃ r, target x = some r ∧ l.table r = some me
    · have hs : (l.release target me x).stray = l.stray := by rw [release_stray, if_pos hown]
      obtain ⟨r, hr, hrme⟩ := hown
      rw [← hs, ih]
      -- After the release of `r`, the own entries are those other than `r`.
      have howned : ∀ x', (∃ r', target x' = some r' ∧
          (l.release target me x).table r' = some me) ↔
          target x' ≠ target x ∧ ∃ r', target x' = some r' ∧ l.table r' = some me := by
        intro x'
        simp only [release_table, hr]
        constructor
        · rintro ⟨r', hx', ht⟩
          by_cases he : r = r'
          · simp [he] at ht
          · rw [if_neg (by simpa using he)] at ht
            exact ⟨by simpa [hx'] using Ne.symm he, r', hx', ht⟩
        · rintro ⟨hne, r', hx', ht⟩
          refine ⟨r', hx', ?_⟩
          rw [if_neg (by rw [hx'] at hne; exact hne.symm)]
          exact ht
      simp only [howned, List.mem_map, not_exists, not_and]
      constructor
      · rintro ⟨hnd, hall⟩
        exact ⟨⟨fun x' hx' => (hall x' hx').1, hnd⟩, ⟨r, hr, hrme⟩, fun x' hx' => (hall x' hx').2⟩
      · rintro ⟨⟨hnot, hnd⟩, -, hall⟩
        exact ⟨hnd, fun x' hx' => ⟨hnot x' hx', hall x' hx'⟩⟩
    · constructor
      · intro he
        -- The first call was recorded, and the record never shrinks.
        have hpre : (l.release target me x).stray <+:
            ((l.release target me x).releaseAll target me xs).stray := stray_prefix_releaseAll
        have hlen := hpre.length_le
        rw [he, release_stray, if_neg hown] at hlen
        exact absurd hlen (by simp)
      · rintro ⟨-, hx, -⟩
        exact absurd hx hown

/-- **Releases undo acquisitions**, with none stray, iff they are aimed at a permutation of the
acquired keys. -/
theorem releaseAll_acquireAll_eq_iff (hme : ∀ r, l.table r ≠ some me) (hnd : rs.Nodup)
    (hfree : ∀ r ∈ rs, l.table r = none) :
    (l.acquireAll me rs).releaseAll target me xs = l ↔
      (xs.map target).Perm (rs.map some) := by
  have hnd' : (rs.map some).Nodup := hnd.map (Option.some_injective _)
  have hown : ∀ r, (l.acquireAll me rs).table r = some me ↔ r ∈ rs := by
    intro r
    rw [acquireAll_table]
    by_cases hr : r ∈ rs
    · simp [hr]
    · simp [hr, hme r]
  have hstray : l.stray = (l.acquireAll me rs).stray := acquireAll_stray.symm
  rw [Ledger.ext_iff]
  constructor
  · rintro ⟨ht, hs⟩
    rw [hstray, releaseAll_stray_eq_iff] at hs
    obtain ⟨hndx, hall⟩ := hs
    rw [List.perm_ext_iff_of_nodup hndx hnd']
    intro o
    constructor
    · -- Every call is aimed at an acquired key, since none is stray.
      intro ho
      obtain ⟨x, hx, rfl⟩ := List.mem_map.mp ho
      obtain ⟨r, hr, hrme⟩ := hall x hx
      rw [hr]
      exact List.mem_map_of_mem ((hown r).mp hrme)
    · -- Every acquired key is the aim of a call, since it is free afterwards.
      intro ho
      obtain ⟨r, hr, rfl⟩ := List.mem_map.mp ho
      by_contra hnot
      have hrt := congrFun ht r
      rw [releaseAll_table, if_neg hnot, (hown r).mpr hr, hfree r hr] at hrt
      cases hrt
  · intro hperm
    refine ⟨funext fun r => ?_, ?_⟩
    · have hmem : some r ∈ xs.map target ↔ r ∈ rs := by simp [hperm.mem_iff]
      simp only [releaseAll_table, acquireAll_table, hmem]
      by_cases hr : r ∈ rs
      · simp [hr, hfree r hr]
      · simp [hr]
    · rw [hstray, releaseAll_stray_eq_iff]
      refine ⟨hperm.nodup_iff.mpr hnd', fun x hx => ?_⟩
      have hmem := hperm.mem_iff.mp (List.mem_map_of_mem hx)
      obtain ⟨r, hr, he⟩ := List.mem_map.mp hmem
      exact ⟨r, he.symm, (hown r).mpr hr⟩

end Ledger

end Registry
