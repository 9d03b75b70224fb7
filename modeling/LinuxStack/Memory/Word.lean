import LinuxStack.Memory.Bytes
import Mathlib.Data.Nat.Digits.Lemmas

/-!
# Little-endian words

A number is stored in a flat memory of bytes with its lowest byte first. A load of fewer bytes
than were stored delivers the number modulo the range of the load, and words that do not overlap
are independent.

## Main definitions

* `leBytes n v`, `leValue bs`: the lowest bytes of a number, and the number that bytes stand for
* `storeWord`, `loadWord`: writing and reading a number of some bytes at an address

## Main results

* `leValue_leBytes`, `leBytes_leValue`: the two are inverse to each other up to the width
* `loadWord_storeWord`, `loadWord_storeWord_of_disjoint`: a load of what was stored, and of what
  lies beside it
* `loadWord_mod`: a narrow load delivers the lower part of a wide one
* `storeWord_eq_storeWord_iff`: when a wide store of a narrow number shows
-/

namespace Memory

variable {mem : ℕ → UInt8} {p q m n v : ℕ} {bs : List UInt8}

/-- The lowest `n` bytes of a number, the lowest one first. -/
def leBytes : ℕ → ℕ → List UInt8
  | 0, _ => []
  | n + 1, v => UInt8.ofNat v :: leBytes n (v / 256)

/-- The number that bytes stand for, the lowest one first. -/
def leValue (bs : List UInt8) : ℕ := Nat.ofDigits 256 (bs.map UInt8.toNat)

@[simp] theorem leBytes_length (n v : ℕ) : (leBytes n v).length = n := by
  induction n generalizing v with
  | zero => rfl
  | succ n ih => rw [leBytes, List.length_cons, ih]

theorem leValue_cons (b : UInt8) (bs : List UInt8) :
    leValue (b :: bs) = b.toNat + 256 * leValue bs := by
  unfold leValue
  rw [List.map_cons, Nat.ofDigits_cons]

/-- Bytes of a number stand for the number, as far as they go. -/
theorem leValue_leBytes (n v : ℕ) : leValue (leBytes n v) = v % 256 ^ n := by
  induction n generalizing v with
  | zero => rw [Nat.pow_zero, Nat.mod_one]; rfl
  | succ n ih =>
    have hlow : (UInt8.ofNat v).toNat = v % 256 := UInt8.toNat_ofNat'
    have hsplit : v % (256 * 256 ^ n) = v % 256 + 256 * (v / 256 % 256 ^ n) := Nat.mod_mul
    rw [leBytes, leValue_cons, ih, hlow, Nat.pow_succ', hsplit]

theorem leBytes_leValue (bs : List UInt8) : leBytes bs.length (leValue bs) = bs := by
  induction bs with
  | nil => rfl
  | cons b bs ih =>
    have hb := b.toNat_lt
    have hdiv : (b.toNat + 256 * leValue bs) / 256 = leValue bs := by omega
    have hlow : UInt8.ofNat (b.toNat + 256 * leValue bs) = b := by
      apply UInt8.toNat_inj.mp
      rw [UInt8.toNat_ofNat']
      omega
    rw [List.length_cons, leBytes, leValue_cons, hdiv, ih, hlow]

theorem leValue_lt (bs : List UInt8) : leValue bs < 256 ^ bs.length := by
  have hround := leValue_leBytes bs.length (leValue bs)
  rw [leBytes_leValue] at hround
  rw [hround]
  exact Nat.mod_lt _ (Nat.pow_pos (by omega))

/-- The lower bytes stand for the lower part of the number. -/
theorem leValue_take (bs : List UInt8) (m : ℕ) : leValue (bs.take m) = leValue bs % 256 ^ m := by
  induction bs generalizing m with
  | nil => rw [List.take_nil]; exact (Nat.zero_mod _).symm
  | cons b bs ih =>
    have hb := b.toNat_lt
    cases m with
    | zero => rw [Nat.pow_zero, Nat.mod_one]; rfl
    | succ m =>
      rw [List.take_succ_cons, leValue_cons, leValue_cons, ih, Nat.pow_succ', Nat.mod_mul]
      have hdiv : (b.toNat + 256 * leValue bs) / 256 = leValue bs := by omega
      rw [hdiv]
      omega

theorem leBytes_add (m k v : ℕ) : leBytes (m + k) v = leBytes m v ++ leBytes k (v / 256 ^ m) := by
  induction m generalizing v with
  | zero => rw [Nat.zero_add, Nat.pow_zero, Nat.div_one]; rfl
  | succ m ih =>
    have hdiv : v / 256 / 256 ^ m = v / 256 ^ (m + 1) := by
      rw [Nat.div_div_eq_div_mul, Nat.pow_succ']
    rw [Nat.succ_add, leBytes, ih, hdiv]
    rfl

/-! ## Words in a memory -/

/-- The number of `n` bytes at `p`. -/
def loadWord (mem : ℕ → UInt8) (p n : ℕ) : ℕ := leValue (load mem p n)

/-- The memory after the lowest `n` bytes of `v` are stored at `p`. -/
def storeWord (mem : ℕ → UInt8) (p n v : ℕ) : ℕ → UInt8 := store mem p (leBytes n v)

theorem loadWord_lt : loadWord mem p n < 256 ^ n := by
  have hlt := leValue_lt (load mem p n)
  rwa [load_length] at hlt

/-- A narrow load delivers the lower part of a wide one. -/
theorem loadWord_mod (h : m ≤ n) : loadWord mem p n % 256 ^ m = loadWord mem p m := by
  obtain ⟨k, rfl⟩ := Nat.exists_eq_add_of_le h
  unfold loadWord
  have htake : (load mem p (m + k)).take m = load mem p m := by
    rw [load_add]
    exact List.take_left' (load_length m)
  rw [← leValue_take, htake]

/-- **A load delivers what was stored in its place.** -/
theorem loadWord_storeWord : loadWord (storeWord mem p n v) p n = v % 256 ^ n := by
  have hload : load (storeWord mem p n v) p (leBytes n v).length = leBytes n v := load_store
  rw [leBytes_length] at hload
  rw [loadWord, hload, leValue_leBytes]

/-- A store takes the lowest bytes of a number. -/
theorem storeWord_mod : storeWord mem p n (v % 256 ^ n) = storeWord mem p n v := by
  have hround := leBytes_leValue (leBytes n v)
  rw [leValue_leBytes, leBytes_length] at hround
  rw [storeWord, storeWord, hround]

/-- **A load does not see a store beside it.** -/
theorem loadWord_storeWord_of_disjoint (h : p + m ≤ q ∨ q + n ≤ p) :
    loadWord (storeWord mem q n v) p m = loadWord mem p m := by
  unfold loadWord storeWord
  rcases h with h | h
  · rw [load_store_of_le h]
  · rw [load_store_of_ge (by rwa [leBytes_length])]

/-- **A wide store of a narrow number** is the narrow store iff there are zeros behind it. -/
theorem storeWord_eq_storeWord_iff (hle : m ≤ n) (hv : v < 256 ^ m) :
    storeWord mem p n v = storeWord mem p m v ↔ loadWord mem (p + m) (n - m) = 0 := by
  obtain ⟨k, rfl⟩ := Nat.exists_eq_add_of_le hle
  have hbehind : load (storeWord mem p m v) (p + m) k = load mem (p + m) k :=
    load_store_of_ge (by rw [leBytes_length])
  have hsplit : storeWord mem p (m + k) v = store (storeWord mem p m v) (p + m) (leBytes k 0) := by
    unfold storeWord
    rw [leBytes_add, Nat.div_eq_of_lt hv, store_append, leBytes_length]
  have hself : store (storeWord mem p m v) (p + m) (leBytes k 0) = storeWord mem p m v ↔
      load mem (p + m) k = leBytes k 0 := by
    rw [store_eq_self_iff, leBytes_length, hbehind]
  rw [hsplit, hself, Nat.add_sub_cancel_left, loadWord]
  constructor
  · intro hzero
    rw [hzero, leValue_leBytes, Nat.zero_mod]
  · intro hzero
    have hround := leBytes_leValue (load mem (p + m) k)
    rw [load_length, hzero] at hround
    exact hround.symm

end Memory
