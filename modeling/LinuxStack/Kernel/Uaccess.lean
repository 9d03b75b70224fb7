import Mathlib.Data.List.Basic

/-!
# Copies to and from user space

A copy that faults transfers a prefix. `copy_from_user` then fills the rest of its destination
with zeros, and both calls return the number of bytes they did not transfer. The count is chosen
by the caller: bytes that `copy_from_user` stores past the end of the destination are kept apart.

## Main definitions

* `copyFromUser`: a copy into a kernel buffer
* `copyToUser`: a copy of a kernel buffer

## Main results

* `copyFromUser_buf_length`: the destination keeps its length
* `copyFromUser_buf_head`: the first byte of the destination after a copy
* `copyFromUser_buf_of_uncopied`, `copyToUser_of_uncopied`: copies that transfer all bytes
-/

namespace LinuxStack

/-- The effect of a `copy_from_user`: the destination, the bytes stored past its end, and the
number of bytes not copied. -/
structure FromUser where
  buf : List UInt8
  beyond : List UInt8
  left : ℕ

/-- The bytes a `copy_from_user` stores, when it faults after `fault` bytes or does not. -/
def stored (src : List UInt8) : Option ℕ → List UInt8
  | none => src
  | some m => src.take m ++ List.replicate (src.length - m) 0

/-- The bytes a copy of length `n` does not transfer. -/
def uncopied (n : ℕ) : Option ℕ → ℕ
  | none => 0
  | some m => n - m

/-- `copy_from_user`, of as many bytes as `src` has. -/
def copyFromUser (dst src : List UInt8) (fault : Option ℕ) : FromUser where
  buf := (stored src fault).take dst.length ++ dst.drop src.length
  beyond := (stored src fault).drop dst.length
  left := uncopied src.length fault

/-- `copy_to_user` of a whole kernel buffer: the bytes delivered, and the number not copied. -/
def copyToUser (src : List UInt8) (fault : Option ℕ) : List UInt8 × ℕ :=
  (src.take (src.length - uncopied src.length fault), uncopied src.length fault)

variable {dst src : List UInt8} {fault : Option ℕ}

@[simp] theorem stored_length : (stored src fault).length = src.length := by
  cases fault with
  | none => rfl
  | some m =>
    simp only [stored, List.length_append, List.length_take, List.length_replicate]
    omega

@[simp] theorem copyFromUser_buf_length :
    (copyFromUser dst src fault).buf.length = dst.length := by
  simp only [copyFromUser, List.length_append, List.length_take, List.length_drop, stored_length]
  omega

/-- The first byte of a destination after a copy is the first byte stored, if there is one. -/
theorem copyFromUser_buf_head (hdst : dst ≠ []) :
    (copyFromUser dst src fault).buf.head? = (stored src fault).head?.or dst.head? := by
  obtain ⟨d, dst, rfl⟩ := List.exists_cons_of_ne_nil hdst
  cases hs : stored src fault with
  | nil =>
    have hsrc : src = [] := by
      apply List.eq_nil_of_length_eq_zero
      rw [← stored_length, hs, List.length_nil]
    subst hsrc
    simp [copyFromUser, hs]
  | cons b bs => simp [copyFromUser, hs]

/-- A copy that transfers all bytes stores the bytes of its source. -/
theorem stored_of_uncopied (h : uncopied src.length fault = 0) : stored src fault = src := by
  cases fault with
  | none => rfl
  | some m =>
    have hle : src.length ≤ m := Nat.le_of_sub_eq_zero h
    simp [stored, List.take_of_length_le hle, Nat.sub_eq_zero_of_le hle]

/-- A copy that transfers all bytes replaces a destination of the same length. -/
theorem copyFromUser_buf_of_uncopied (hlen : src.length = dst.length)
    (h : uncopied src.length fault = 0) : (copyFromUser dst src fault).buf = src := by
  show (stored src fault).take dst.length ++ dst.drop src.length = src
  rw [stored_of_uncopied h, ← hlen, List.take_length, List.drop_of_length_le (Nat.le_of_eq hlen.symm),
    List.append_nil]

/-- A copy that transfers all bytes delivers its source. -/
theorem copyToUser_of_uncopied (h : uncopied src.length fault = 0) :
    copyToUser src fault = (src, 0) := by
  simp [copyToUser, h]

end LinuxStack
