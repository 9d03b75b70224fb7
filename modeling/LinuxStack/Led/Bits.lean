import LinuxStack.Led.Driver

/-!
# Masked updates

`led_open` and `led_write` read a register, change the bits of their pin and write it back.

## Main definitions

* `merge`: two values of a register, put together along a mask
* `Configures`: a change of the configuration bits of one pin

## Main results

* `getLsbD_configured`, `getLsbD_driven`, `getLsbD_merge`: the updates, bit by bit
* `configures_update`: an open changes the configuration bits of its pin
-/

namespace LinuxStack.Led

variable {nr i : ℕ}

/-- `mine` in the bits of the mask, `theirs` in all others. -/
def merge (mask mine theirs : BitVec 32) : BitVec 32 := mine &&& mask ||| theirs &&& ~~~mask

/-- The configuration bits of the pin `nr` of the register at `base` read 01, and no other bit of any
register has changed. -/
def Configures (base : BitVec 32) (nr : ℕ) (before after : BitVec 32 → BitVec 32) : Prop :=
  (after base).getLsbD (2 * nr) = true ∧ (after base).getLsbD (2 * nr + 1) = false ∧
    (∀ i, i ≠ 2 * nr → i ≠ 2 * nr + 1 →
      (after base).getLsbD i = (before base).getLsbD i) ∧
    ∀ r, r ≠ base → after r = before r

theorem getLsbD_one_shiftLeft (hnr : nr < 32) :
    ((1 : BitVec 32) <<< nr).getLsbD i = decide (i = nr) := by
  rw [BitVec.getLsbD_shiftLeft]
  show (decide (i < 32) && !decide (i < nr) && (1#32).getLsbD (i - nr)) = decide (i = nr)
  rw [BitVec.getLsbD_one, Bool.eq_iff_iff]
  simp only [Bool.and_eq_true, Bool.not_eq_true', decide_eq_true_eq, decide_eq_false_iff_not]
  omega

theorem getLsbD_three_shiftLeft (hnr : nr < 31) :
    ((3 : BitVec 32) <<< nr).getLsbD i = decide (i = nr ∨ i = nr + 1) := by
  -- The mask of two bits is the union of two masks of one.
  have hthree : (3 : BitVec 32) <<< nr = (1 : BitVec 32) <<< nr ||| (1 : BitVec 32) <<< (nr + 1) := by
    have hsum : (3 : BitVec 32) = (1 : BitVec 32) ||| (1 : BitVec 32) <<< 1 := by decide
    rw [hsum, BitVec.shiftLeft_or_distrib, ← BitVec.shiftLeft_add, Nat.add_comm]
  rw [hthree, BitVec.getLsbD_or, getLsbD_one_shiftLeft (by omega), getLsbD_one_shiftLeft (by omega),
    Bool.decide_or]

/-- **An open sets the lower configuration bit and clears the upper one**, and keeps the others. -/
theorem getLsbD_configured (hnr : nr < 16) (con : BitVec 32) :
    (configured nr con).getLsbD i =
      if i = 2 * nr then true else if i = 2 * nr + 1 then false else con.getLsbD i := by
  have hlt : con.getLsbD i = true → i < 32 := BitVec.lt_of_getLsbD
  unfold configured
  rw [BitVec.getLsbD_or, BitVec.getLsbD_and, BitVec.getLsbD_not,
    getLsbD_three_shiftLeft (by omega), getLsbD_one_shiftLeft (by omega), Nat.mul_comm nr 2]
  by_cases hlow : i = 2 * nr
  · simp [hlow]
  · by_cases hhigh : i = 2 * nr + 1
    · simp [hhigh]
    · cases hbit : con.getLsbD i with
      | false => simp [hlow, hhigh]
      | true => simp [hlow, hhigh, hlt hbit]

/-- **A write drives its own bit**, low for a value that is not zero, and keeps the others. -/
theorem getLsbD_driven (hnr : nr < 16) (val : UInt8) (dat : BitVec 32) :
    (driven nr val dat).getLsbD i = if i = nr then decide (val = 0) else dat.getLsbD i := by
  have hlt : dat.getLsbD i = true → i < 32 := BitVec.lt_of_getLsbD
  unfold driven
  by_cases hval : val = 0
  · rw [if_neg (by simpa using hval), BitVec.getLsbD_or, getLsbD_one_shiftLeft (by omega)]
    by_cases hi : i = nr <;> simp [hi, hval]
  · rw [if_pos hval, BitVec.getLsbD_and, BitVec.getLsbD_not, getLsbD_one_shiftLeft (by omega)]
    by_cases hi : i = nr
    · simp [hi, hval]
    · cases hbit : dat.getLsbD i with
      | false => simp [hi]
      | true => simp [hi, hlt hbit]

theorem getLsbD_merge (mask mine theirs : BitVec 32) :
    (merge mask mine theirs).getLsbD i =
      if mask.getLsbD i = true then mine.getLsbD i else theirs.getLsbD i := by
  have hlt : theirs.getLsbD i = true → i < 32 := BitVec.lt_of_getLsbD
  unfold merge
  rw [BitVec.getLsbD_or, BitVec.getLsbD_and, BitVec.getLsbD_and, BitVec.getLsbD_not]
  cases hmask : mask.getLsbD i with
  | true => simp
  | false =>
    cases hbit : theirs.getLsbD i with
    | false => simp
    | true => simp [hlt hbit]

/-- **An open changes the configuration bits of its pin.** -/
theorem configures_update (hnr : nr < 16) (base : BitVec 32) (reg : BitVec 32 → BitVec 32) :
    Configures base nr reg (Function.update reg base (configured nr (reg base))) := by
  unfold Configures
  simp only [Function.update_self, getLsbD_configured hnr]
  refine ⟨by simp, by simp, fun i hlow hhigh => ?_, fun r hr => Function.update_of_ne hr _ _⟩
  rw [if_neg hlow, if_neg hhigh]

end LinuxStack.Led
