import LinuxStack.Text.Decimal
import LinuxStack.Transition.Run
import Mathlib.Data.BitVec

/-!
# The value behind the sysfs file

`sysfs_show` prints `etx_value`, and `sysfs_store` scans it. The scanner computes in 64 bits, and
the `int` takes the lowest 32 of them. Nothing looks at whether there was a number, or whether it
fits.

## Main definitions

* `sysfsShow`, `sysfsStore`: the two calls, with `sprintf` and `sscanf` of `"%d"`
* `watch`: runs of calls, with the last number that a client has stored

## Main results

* `sscanf_eq`: the wrapping scanner reads the number modulo 2 ^ 32
* `store_eq_iff`: what a store does to the value
* `sysfsStore_sysfsShow`: what a show has printed can be stored again
* `shows_iff`: the shows of a run print the last number stored iff that fits an `int`
-/

namespace LinuxStack.Sysfs

open Transition Text

/-! ## The two calls -/

/-- `sysfs_show`: the bytes of the buffer, and the result. -/
def sysfsShow (etxValue : BitVec 32) : List UInt8 × ℤ :=
  let buf := printInt etxValue.toInt
  (buf, buf.length)

/-- `sscanf(buf, "%d", ..)`: a number of 64 bits, cut to an `int`. -/
def sscanf (buf : List UInt8) : Option (BitVec 32) :=
  (scan (BitVec 64) buf).map (BitVec.setWidth 32)

/-- `sysfs_store`: the value, and the result. What is no number leaves the value as it is. -/
def sysfsStore (etxValue : BitVec 32) (buf : List UInt8) : BitVec 32 × ℤ :=
  ((sscanf buf).getD etxValue, buf.length)

/-- The numbers of an `int`. -/
def Fits (z : ℤ) : Prop := -2 ^ 31 ≤ z ∧ z < 2 ^ 31

instance (z : ℤ) : Decidable (Fits z) := inferInstanceAs (Decidable (_ ∧ _))

section Calls

variable {z : ℤ} {rest : List UInt8}

/-- Both widths keep the number modulo 2 ^ 32. -/
theorem setWidth_ofInt (z : ℤ) : (BitVec.ofInt 64 z).setWidth 32 = BitVec.ofInt 32 z := by
  apply BitVec.eq_of_toNat_eq
  rw [BitVec.toNat_setWidth, BitVec.toNat_ofInt, BitVec.toNat_ofInt]
  omega

/-- **The scanner reads the number modulo 2 ^ 32**, however many digits it has. -/
theorem sscanf_eq (buf : List UInt8) : sscanf buf = (scan ℤ buf).map (BitVec.ofInt 32) := by
  rw [sscanf, scan_cast, Option.map_map]
  apply congrArg (Option.map · (scan ℤ buf))
  funext z
  exact setWidth_ofInt z

theorem toInt_ofInt_eq_iff : (BitVec.ofInt 32 z).toInt = z ↔ Fits z := by
  rw [BitVec.toInt_ofInt, Int.bmod_def, Fits]
  omega

theorem printInt_injective : Function.Injective printInt := by
  intro z w h
  have hz := scan_printInt z noDigit_nil
  rw [h, scan_printInt w noDigit_nil] at hz
  exact (Option.some.inj hz).symm

/-- **What a store does**: a string that begins with a numeral, after white space, sets the value to
the number modulo 2 ^ 32, and any other leaves it. -/
theorem store_eq_iff (v w : BitVec 32) (buf : List UInt8) :
    (sysfsStore v buf).1 = w ↔
      (∃ z, Numeral buf z ∧ w = BitVec.ofInt 32 z) ∨ (∀ z, ¬ Numeral buf z) ∧ w = v := by
  rw [sysfsStore, sscanf_eq]
  cases hscan : scan ℤ buf with
  | none =>
    have hnone := scan_eq_none_iff.mp hscan
    simp only [Option.map_none, Option.getD_none]
    constructor
    · exact fun h => Or.inr ⟨hnone, h.symm⟩
    · rintro (⟨z, hz, -⟩ | ⟨-, rfl⟩)
      · exact absurd hz (hnone z)
      · rfl
  | some z =>
    have hz := scan_eq_some_iff.mp hscan
    simp only [Option.map_some, Option.getD_some]
    constructor
    · exact fun h => Or.inl ⟨z, hz, h.symm⟩
    · rintro (⟨z', hz', rfl⟩ | ⟨hnone, -⟩)
      · -- A string begins with one numeral only.
        rw [scan_eq_some_iff.mpr hz', Option.some.injEq] at hscan
        rw [hscan]
      · exact absurd hz (hnone z)

/-- **What a show has printed can be stored again**, over any value, with anything behind it that is
not a digit. -/
theorem sysfsStore_sysfsShow (v w : BitVec 32) (hrest : NoDigit rest) :
    (sysfsStore w ((sysfsShow v).1 ++ rest)).1 = v := by
  rw [sysfsStore, sscanf_eq, sysfsShow, scan_printInt _ hrest]
  exact BitVec.ofInt_toInt

end Calls

/-! ## Runs -/

inductive Action
  | sysfsShow
  | sysfsStore (buf : List UInt8)

/-- The value, and the last number that a client has stored. -/
structure Watched where
  etxValue : BitVec 32
  last : ℤ

/-- A freshly loaded module. -/
def Watched.load : Watched := ⟨0, 0⟩

/-- A run of calls. -/
def watch (s : Watched) : Action → Watched
  | .sysfsShow => s
  | .sysfsStore buf => ⟨(sysfsStore s.etxValue buf).1, (scan ℤ buf).getD s.last⟩

/-- A show prints the last number stored. -/
def Shows (s : Watched) (a : Action) : Prop :=
  a = .sysfsShow → (sysfsShow s.etxValue).1 = printInt s.last

/-- The value is the last number, modulo 2 ^ 32. -/
def Follows (s : Watched) : Prop := s.etxValue = BitVec.ofInt 32 s.last

theorem follows_watch {s : Watched} (hs : Follows s) (a : Action) : Follows (watch s a) := by
  cases a with
  | sysfsShow => exact hs
  | sysfsStore buf =>
    show (sysfsStore s.etxValue buf).1 = BitVec.ofInt 32 ((scan ℤ buf).getD s.last)
    rw [sysfsStore, sscanf_eq]
    cases scan ℤ buf with
    | none => exact hs
    | some z => rfl

theorem shows_iff_of_follows {s : Watched} (hs : Follows s) (a : Action) :
    Shows s a ↔ (a = .sysfsShow → Fits s.last) := by
  have hprint : (sysfsShow s.etxValue).1 = printInt s.last ↔ Fits s.last := by
    rw [sysfsShow, printInt_injective.eq_iff, hs, toInt_ofInt_eq_iff]
  exact imp_congr_right fun _ => hprint

/-- **The shows of a run print the last number stored** iff that number fits an `int` at each of
them. -/
theorem shows_iff (as : List Action) :
    Along watch Shows .load as ↔
      Along watch (fun s a => a = .sysfsShow → Fits s.last) .load as := by
  have hload : Follows .load := rfl
  exact along_congr (fun s a hs => follows_watch hs a) (fun s a hs => shows_iff_of_follows hs a)
    hload

end LinuxStack.Sysfs
