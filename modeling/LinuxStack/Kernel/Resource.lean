import LinuxStack.Registry.Ladder
import Mathlib.Algebra.Group.Nat.Defs
import Mathlib.Data.PNat.Defs

/-!
# The kernel's registration tables

The drivers register themselves in tables of the kernel: char-device regions, cdevs, class
names, device nodes, GPIO requests and IRQ handlers. The tables are one registry whose keys are
the entries' names; next to it stand the sysfs exports, which only a requested GPIO can have,
and the wake-enable count of each IRQ. A call that creates an entry fails on a taken key, and
may fail for a reason of its own; a call that deletes an entry deletes it whoever owns it.

## Main definitions

* `Res`, `Release`: the keys of the tables, and the calls that delete entries
* `Kernel ω`: the tables, with entries owned by `ω`
* `Owner ι ω`, `Kernel.foreign`: a kernel in which the driver owns nothing yet
* `Kernel.climb`: an acquisition ladder run on the kernel

## Main results

* `Kernel.create_cases`: a creating call fails, or enters its free key
* `Kernel.climb_restores_iff`, `Kernel.releaseAll_climb_eq_iff`: the ladder laws of the
  registry, for the whole kernel
-/

namespace LinuxStack

open Registry

/-- An error number; the calls return its negative. -/
abbrev Errno := ℕ+

/-- The error of a taken number. -/
def EBUSY : Errno := 16

/-- The error of a taken name. -/
def EEXIST : Errno := 17

/-- `dev_t`, as its major and minor number. -/
@[ext] structure DevT where
  major : ℕ
  minor : ℕ
  deriving DecidableEq, Repr

/-- The `dev_t` that a raw integer stands for: twenty minor bits. -/
def DevT.ofNat (n : ℕ) : DevT := ⟨n >>> 20, n % 2 ^ 20⟩

/-- A kernel pointer: `NULL`, an `ERR_PTR`, or the address of an object. -/
inductive Ptr (α : Type*)
  | null
  | err (e : Errno)
  | valid (a : α)
  deriving DecidableEq

/-- `IS_ERR`. -/
def Ptr.isErr {α : Type*} : Ptr α → Bool
  | .err _ => true
  | _ => false

/-- `PTR_ERR`. -/
def Ptr.ptrErr {α : Type*} : Ptr α → ℤ
  | .err e => -(e : ℕ)
  | _ => 0

/-- The keys of the registration tables. A cdev is named by the address of its `struct cdev`. -/
inductive Res
  | region (d : DevT)
  | cdev (p : ℕ)
  | cls (name : String)
  | device (cls : String) (d : DevT)
  | gpio (n : ℕ)
  | irq (n : ℕ)
  deriving DecidableEq

/-- The calls that delete an entry, with their arguments. -/
inductive Release
  | unregisterChrdevRegion (d : DevT)
  | cdevDel (p : ℕ)
  | classDestroy (cls : Ptr String)
  | deviceDestroy (cls : Ptr String) (d : DevT)
  | gpioFree (n : ℕ)
  | freeIrq (n : ℕ)
  deriving DecidableEq

/-- The entry a release call is aimed at. There is none behind `NULL` or an `ERR_PTR`. -/
def Release.target : Release → Option Res
  | .unregisterChrdevRegion d => some (.region d)
  | .cdevDel p => some (.cdev p)
  | .classDestroy (.valid c) => some (.cls c)
  | .classDestroy _ => none
  | .deviceDestroy (.valid c) d => some (.device c d)
  | .deviceDestroy _ _ => none
  | .gpioFree n => some (.gpio n)
  | .freeIrq n => some (.irq n)

/-- The state of the kernel that the drivers act on. Only a requested GPIO is exported. -/
@[ext] structure Kernel (ω : Type*) where
  ledger : Ledger Res ω Release
  exported : ℕ → Bool
  wake : ℕ → ℕ
  exported_requested : ∀ n, exported n = true → ledger.table (.gpio n) ≠ none

/-- The owners of entries: the driver, for the binding `i`, or somebody else. -/
inductive Owner (ι ω : Type*)
  | mine (i : ι)
  | other (o : ω)
  deriving DecidableEq

namespace Kernel

variable {γ ι ω : Type*}

/-- The same tables, exports and wake counts, whatever the release calls on the way. -/
def Same (k k' : Kernel ω) : Prop :=
  k'.ledger.table = k.ledger.table ∧ k'.exported = k.exported ∧ k'.wake = k.wake

/-- The same state, with the same stray releases, is the same kernel. -/
theorem same_and_stray_iff {k k' : Kernel ω} :
    k.Same k' ∧ k'.ledger.stray = k.ledger.stray ↔ k' = k := by
  constructor
  · rintro ⟨⟨htable, hexported, hwake⟩, hstray⟩
    exact Kernel.ext (Ledger.ext htable hstray) hexported hwake
  · rintro rfl
    exact ⟨⟨rfl, rfl, rfl⟩, rfl⟩

/-- A kernel state in which every entry belongs to somebody else, as the driver finds it. -/
def foreign (k : Kernel ω) : Kernel (Owner ι ω) where
  ledger := ⟨fun r => (k.ledger.table r).map .other, []⟩
  exported := k.exported
  wake := k.wake
  exported_requested n hn := by simpa using k.exported_requested n hn

/-- A kernel with empty tables. -/
def empty : Kernel ω where
  ledger := ⟨fun _ => none, []⟩
  exported _ := false
  wake _ := 0
  exported_requested _ h := nomatch h

theorem foreign_table_ne_mine (k : Kernel ω) (i : ι) (r : Res) :
    (k.foreign : Kernel (Owner ι ω)).ledger.table r ≠ some (.mine i) := by
  simp [foreign]

/-- The caller `me` enters the key `r`. -/
def acquire (me : ω) (r : Res) (k : Kernel ω) : Kernel ω where
  ledger := k.ledger.acquire me r
  exported := k.exported
  wake := k.wake
  exported_requested n hn := by
    by_cases h : Res.gpio n = r
    · simp [h]
    · rw [Ledger.acquire_table_of_ne h]
      exact k.exported_requested n hn

/-- The caller enters the keys of a list, in order. -/
def acquireAll (me : ω) (rs : List Res) (k : Kernel ω) : Kernel ω :=
  rs.foldl (fun k r => k.acquire me r) k

/-- A creating call: it fails with `fault`, or with `taken` on a taken key, or enters the key. -/
def create (me : ω) (r : Res) (fault : Option Errno) (taken : Errno) (k : Kernel ω) :
    Except Errno (Kernel ω) :=
  match fault with
  | some e => .error e
  | none =>
    match k.ledger.table r with
    | some _ => .error taken
    | none => .ok (k.acquire me r)

/-- A creating call fails, or enters its free key: it is a rung of a ladder. -/
theorem create_cases (me : ω) (r : Res) (fault : Option Errno) (taken : Errno) (k : Kernel ω)
    (call : γ) (undo : List Release) :
    (k.create me r fault taken = .error (fault.getD taken) ∧
        Rung.ok k.ledger ⟨call, fault.isNone, some r, undo⟩ = false) ∨
      k.create me r fault taken = .ok (k.acquire me r) ∧
        Rung.ok k.ledger ⟨call, fault.isNone, some r, undo⟩ = true := by
  unfold create Rung.ok
  cases fault with
  | some e => exact Or.inl ⟨rfl, rfl⟩
  | none => cases ht : k.ledger.table r <;> simp [ht]

variable [DecidableEq ω]

/-- The caller `me` makes a release call. Freeing a GPIO also withdraws it from sysfs. -/
def release (me : ω) (x : Release) (k : Kernel ω) : Kernel ω where
  ledger := k.ledger.release Release.target me x
  exported n := k.exported n && (x.target != some (.gpio n))
  wake := k.wake
  exported_requested n hn := by
    simp only [Bool.and_eq_true, bne_iff_ne, ne_eq] at hn
    rw [Ledger.release_table, if_neg hn.2]
    exact k.exported_requested n hn.1

/-- The caller makes the release calls of a list, in order. -/
def releaseAll (me : ω) (xs : List Release) (k : Kernel ω) : Kernel ω :=
  xs.foldl (fun k x => k.release me x) k

/-- An acquisition ladder run on the kernel. -/
def climb (me : ω) : List (Rung γ Res Release) → Kernel ω → Kernel ω × Bool
  | [], k => (k, true)
  | r :: rs, k =>
    if r.ok k.ledger then climb me rs (k.acquireAll me r.gets.toList)
    else (k.releaseAll me r.undo, false)

variable {me : ω} {k : Kernel ω} {rs : List Res} {xs : List Release}
  {rungs : List (Rung γ Res Release)} {r : Rung γ Res Release}

omit [DecidableEq ω] in
@[simp] theorem acquireAll_nil : k.acquireAll me [] = k := rfl

omit [DecidableEq ω] in
@[simp] theorem acquireAll_cons (r : Res) :
    k.acquireAll me (r :: rs) = (k.acquire me r).acquireAll me rs := rfl

@[simp] theorem releaseAll_nil : k.releaseAll me [] = k := rfl

@[simp] theorem releaseAll_cons (x : Release) :
    k.releaseAll me (x :: xs) = (k.release me x).releaseAll me xs := rfl

omit [DecidableEq ω] in
theorem acquireAll_ledger : (k.acquireAll me rs).ledger = k.ledger.acquireAll me rs := by
  induction rs generalizing k with
  | nil => rfl
  | cons r rs ih => exact ih

omit [DecidableEq ω] in
theorem acquireAll_sheet :
    (k.acquireAll me rs).exported = k.exported ∧ (k.acquireAll me rs).wake = k.wake := by
  induction rs generalizing k with
  | nil => exact ⟨rfl, rfl⟩
  | cons r rs ih => exact ih

theorem releaseAll_ledger :
    (k.releaseAll me xs).ledger = k.ledger.releaseAll Release.target me xs := by
  induction xs generalizing k with
  | nil => rfl
  | cons x xs ih => exact ih

theorem releaseAll_wake : (k.releaseAll me xs).wake = k.wake := by
  induction xs generalizing k with
  | nil => rfl
  | cons x xs ih => exact ih

theorem releaseAll_exported (n : ℕ) :
    (k.releaseAll me xs).exported n = true ↔
      k.exported n = true ∧ some (Res.gpio n) ∉ xs.map Release.target := by
  induction xs generalizing k with
  | nil => simp
  | cons x xs ih =>
    rw [releaseAll_cons, ih]
    simp only [release, Bool.and_eq_true, bne_iff_ne, ne_eq, List.map_cons, List.mem_cons,
      not_or, eq_comm (b := x.target), and_assoc]

/-- Releases that leave the tables of `k` leave `k`: a GPIO they free was not exported in `k`,
since it was not requested there. -/
theorem releaseAll_eq_of_ledger {k' : Kernel ω} (hk' : k'.exported = k.exported)
    (hw : k'.wake = k.wake) (hl : (k'.releaseAll me xs).ledger = k.ledger) :
    k'.releaseAll me xs = k := by
  refine Kernel.ext hl (funext fun n => ?_) (releaseAll_wake.trans hw)
  rw [Bool.eq_iff_iff, releaseAll_exported, hk']
  refine ⟨And.left, fun hn => ⟨hn, fun hmem => k.exported_requested n hn ?_⟩⟩
  rw [← hl, releaseAll_ledger, Ledger.releaseAll_table, if_pos hmem]

/-- The tables after a climb are those of the climb on the registry. -/
theorem climb_ledger : (k.climb me rungs).1.ledger =
      (Registry.climb Release.target me rungs k.ledger).1 ∧
    (k.climb me rungs).2 = (Registry.climb Release.target me rungs k.ledger).2 := by
  induction rungs generalizing k with
  | nil => exact ⟨rfl, rfl⟩
  | cons r rungs ih =>
    by_cases h : r.ok k.ledger
    · rw [climb, if_pos h, climb_cons_of_ok h, ← acquireAll_ledger]
      exact ih
    · rw [climb, if_neg h, climb_cons_of_not_ok h]
      exact ⟨releaseAll_ledger, rfl⟩

theorem climb_cons_ok (h : r.ok k.ledger = true) :
    k.climb me (r :: rungs) = (k.acquireAll me r.gets.toList).climb me rungs := by
  rw [climb, if_pos h]

theorem climb_cons_fail (h : r.ok k.ledger = false) :
    k.climb me (r :: rungs) = (k.releaseAll me r.undo, false) := by
  rw [climb, if_neg (by simp [h])]

/-- A failing climb acquires some keys and makes some releases. -/
theorem climb_of_failure (h : (k.climb me rungs).2 = false) :
    ∃ got undo, (k.climb me rungs).1 = (k.acquireAll me got).releaseAll me undo := by
  induction rungs generalizing k with
  | nil => cases h
  | cons r rungs ih =>
    by_cases hr : r.ok k.ledger
    · rw [climb_cons_ok hr] at h ⊢
      obtain ⟨got, undo, he⟩ := ih h
      refine ⟨r.gets.toList ++ got, undo, he.trans ?_⟩
      rw [acquireAll, acquireAll, acquireAll, List.foldl_append]
    · rw [climb_cons_fail (by simpa using hr)]
      exact ⟨[], r.undo, rfl⟩

/-- **A failing climb leaves the kernel as it was**, with no stray release, iff the ladder
unwinds. -/
theorem climb_restores_iff (hme : ∀ r, k.ledger.table r ≠ some me) (hnd : (keys rungs).Nodup) :
    ((k.climb me rungs).2 = false → (k.climb me rungs).1 = k) ↔
      Unwinds Release.target k.ledger [] rungs := by
  rw [← Registry.climb_restores_iff hme hnd, ← climb_ledger.1, ← climb_ledger.2]
  refine forall_congr' fun h => ⟨fun he => by rw [he], fun hl => ?_⟩
  obtain ⟨got, undo, he⟩ := climb_of_failure h
  rw [he] at hl ⊢
  exact releaseAll_eq_of_ledger acquireAll_sheet.1 acquireAll_sheet.2 hl

/-- A climb without failure acquires the keys of its rungs. -/
theorem climb_of_success (h : (k.climb me rungs).2 = true) :
    (k.climb me rungs).1 = k.acquireAll me (keys rungs) := by
  induction rungs generalizing k with
  | nil => rfl
  | cons r rungs ih =>
    by_cases hr : r.ok k.ledger
    · rw [climb_cons_ok hr] at h ⊢
      rw [ih h, keys_cons, acquireAll, acquireAll, acquireAll, List.foldl_append]
    · rw [climb_cons_fail (by simpa using hr)] at h
      cases h

/-- A climb makes no entries for others. -/
theorem climb_table_of_ne {o : ω} (ho : o ≠ me) {r : Res}
    (h : (k.climb me rungs).1.ledger.table r = some o) : k.ledger.table r = some o := by
  have hacquired : ∀ rs : List Res,
      (k.acquireAll me rs).ledger.table r = some o → k.ledger.table r = some o := by
    intro rs ht
    rw [acquireAll_ledger, Ledger.acquireAll_table] at ht
    split_ifs at ht
    · exact absurd (Option.some.inj ht).symm ho
    · exact ht
  cases hc : (k.climb me rungs).2 with
  | true =>
    rw [climb_of_success hc] at h
    exact hacquired _ h
  | false =>
    obtain ⟨got, undo, he⟩ := climb_of_failure hc
    rw [he, releaseAll_ledger, Ledger.releaseAll_table] at h
    split_ifs at h
    exact hacquired got h

/-- **Releases undo a climb without failure**, with none stray, iff they are aimed at a
permutation of its keys. -/
theorem releaseAll_climb_eq_iff (hme : ∀ r, k.ledger.table r ≠ some me)
    (hnd : (keys rungs).Nodup) (h : (k.climb me rungs).2 = true) :
    (k.climb me rungs).1.releaseAll me xs = k ↔
      (xs.map Release.target).Perm ((keys rungs).map some) := by
  have hr : (Registry.climb Release.target me rungs k.ledger).2 = true :=
    climb_ledger.2.symm.trans h
  rw [← Registry.releaseAll_climb_eq_iff hme hnd hr, ← climb_ledger.1, ← releaseAll_ledger]
  refine ⟨fun he => by rw [he], fun hl => ?_⟩
  rw [climb_of_success h] at hl ⊢
  exact releaseAll_eq_of_ledger acquireAll_sheet.1 acquireAll_sheet.2 hl

end Kernel

end LinuxStack
