import LinuxStack.Led.Bits
import Mathlib.Tactic.IntervalCases

/-!
# Pins in the device tree and in the driver

The device tree writes a pin as a bank number above sixteen bits of pin number, and the driver
takes the two apart again. The two number their banks separately: they agree up to `H`, and the
driver counts a bank `I` that the device tree does not have. Nothing checks the value in between.

## Main definitions

* `dtsBank`, `s3c2410`: the bank numbers and the macros `S3C2410_GPx` of the device tree
* `Decodes`, `Harmless`, `PinAgrees`: what an open does with an encoding, and with anything else

## Main results

* `bankOf_eq`, `pinOf_eq`: the decoding, as division by 65536
* `s3c2410_eq_some_iff`: which values are encodings
* `pinAgrees_iff`: which values the driver treats as the device tree means them
-/

namespace LinuxStack.Led

variable {M : Type*} [DecidableEq M]

/-! ## The encoding -/

/-- The bank numbers of the device tree's macros. -/
def dtsBank : Letter → Option ℕ
  | .A => some 0
  | .B => some 1
  | .C => some 2
  | .D => some 3
  | .E => some 4
  | .F => some 5
  | .G => some 6
  | .H => some 7
  | .I => none
  | .J => some 8
  | .K => some 9
  | .L => some 10
  | .M => some 11

/-- `S3C2410_GPx(nr)`, if the device tree has the bank. -/
def s3c2410 (x : Letter) (nr : ℕ) : Option (BitVec 32) :=
  (dtsBank x).map fun b => BitVec.ofNat 32 ((b <<< 16) + nr)

/-! ## The contract -/

/-- An open decodes the pin `nr` of the bank `x`: it fails before it touches a register, or it
maps the register that `gpio_base` lists for the letter, and makes the pin `nr` there an output. -/
def Decodes (x : Letter) (nr : ℕ) (before : BitVec 32 → BitVec 32)
    (res : MyLed M × ℤ × List (Access M)) : Prop :=
  (res.2.1 < 0 ∧ ∀ p, .touch p ∉ res.2.2) ∨
    ∃ base, (x, base) ∈ gpioBase ∧ (∃ m, .map base m ∈ res.2.2) ∧
      Configures base nr before res.1.reg

/-- An access that no value of `led_pin` excuses: inside `gpio_base`, not at address 0, and by
less than the width of the register. -/
def Harmless : Access M → Prop
  | .index bank => 0 ≤ bank ∧ bank < gpioBase.length
  | .map base _ => base ≠ 0
  | .shift amount => amount < 32
  | _ => True

/-- **The driver takes the value as the device tree means it.** An open decodes an encoding, and
does no harm with anything else. -/
def PinAgrees (v : BitVec 32) (before : BitVec 32 → BitVec 32)
    (res : MyLed M × ℤ × List (Access M)) : Prop :=
  (∀ x nr, nr < 16 → s3c2410 x nr = some v → Decodes x nr before res) ∧
    ((∀ x nr, nr < 16 → s3c2410 x nr ≠ some v) → ∀ a ∈ res.2.2, Harmless a)

/-! ## The decoding -/

/-- The bank number is signed: it is negative from half of the range on. -/
theorem bankOf_eq (v : BitVec 32) :
    bankOf v = if v.toNat < 2 ^ 31 then (v.toNat / 65536 : ℤ) else v.toNat / 65536 - 65536 := by
  rw [bankOf, BitVec.toInt_sshiftRight, Int.shiftRight_eq_div_pow, BitVec.toInt_eq_toNat_cond]
  split_ifs <;> omega

theorem pinOf_eq (v : BitVec 32) : pinOf v = v.toNat % 65536 := by
  rw [pinOf, BitVec.toNat_and]
  exact Nat.and_two_pow_sub_one_eq_mod _ 16

/-- The index stays inside the table iff the bank number is below ten. -/
theorem bankOf_mem_iff (v : BitVec 32) :
    (0 ≤ bankOf v ∧ bankOf v < gpioBase.length) ↔ v.toNat / 65536 < 10 := by
  have hlt := v.isLt
  have hlen : (gpioBase.length : ℤ) = 10 := rfl
  rw [hlen, bankOf_eq]
  split_ifs <;> omega

theorem dtsBank_lt {x : Letter} {b : ℕ} (h : dtsBank x = some b) : b < 12 := by
  cases x <;> simp only [dtsBank, Option.some.injEq, reduceCtorEq] at h <;> omega

theorem dtsBank_eq_some_of_lt {b : ℕ} (h : b < 12) : ∃ x, dtsBank x = some b := by
  interval_cases b
  exacts [⟨.A, rfl⟩, ⟨.B, rfl⟩, ⟨.C, rfl⟩, ⟨.D, rfl⟩, ⟨.E, rfl⟩, ⟨.F, rfl⟩, ⟨.G, rfl⟩, ⟨.H, rfl⟩,
    ⟨.J, rfl⟩, ⟨.K, rfl⟩, ⟨.L, rfl⟩, ⟨.M, rfl⟩]

/-- A value is the encoding of its own bank and pin numbers. -/
theorem s3c2410_eq_some_iff {x : Letter} {nr : ℕ} {v : BitVec 32} (hnr : nr < 16) :
    s3c2410 x nr = some v ↔ dtsBank x = some (v.toNat / 65536) ∧ v.toNat % 65536 = nr := by
  unfold s3c2410
  cases hb : dtsBank x with
  | none => simp
  | some b =>
    have hlt := dtsBank_lt hb
    have hv := v.isLt
    simp only [Option.map_some, Option.some.injEq]
    rw [← BitVec.toNat_inj, BitVec.toNat_ofNat, Nat.shiftLeft_eq]
    omega

/-- A value is an encoding iff both of its parts are in range. -/
theorem exists_s3c2410_iff (v : BitVec 32) :
    (∃ x nr, nr < 16 ∧ s3c2410 x nr = some v) ↔
      v.toNat / 65536 < 12 ∧ v.toNat % 65536 < 16 := by
  constructor
  · rintro ⟨x, nr, hnr, h⟩
    obtain ⟨hb, hpin⟩ := (s3c2410_eq_some_iff hnr).mp h
    exact ⟨dtsBank_lt hb, hpin ▸ hnr⟩
  · rintro ⟨hbank, hpin⟩
    obtain ⟨x, hx⟩ := dtsBank_eq_some_of_lt hbank
    exact ⟨x, _, hpin, (s3c2410_eq_some_iff hpin).mpr ⟨hx, rfl⟩⟩

/-- The table lists a bank of the device tree under its number iff that is below eight. -/
theorem mem_gpioBase_iff {x : Letter} {v : BitVec 32} (beyond : ℤ → BitVec 32)
    (h : dtsBank x = some (v.toNat / 65536)) :
    (x, gpioBaseAt beyond (bankOf v)) ∈ gpioBase ↔ v.toNat / 65536 < 8 := by
  have hbank : bankOf v = (v.toNat / 65536 : ℕ) := by
    have hlt := dtsBank_lt h
    rw [bankOf_eq, if_pos (by omega)]
    omega
  rw [hbank]
  generalize v.toNat / 65536 = b at h
  cases x <;> simp only [dtsBank, Option.some.injEq, reduceCtorEq] at h <;> subst h <;>
    simp [gpioBaseAt, gpioBase]

/-! ## Opens -/

section Opens

variable (s : MyLed M) (v : BitVec 32) (beyond : ℤ → BitVec 32)

/-- An open without a mapping agrees iff it stays inside the table or the value is an
encoding. -/
theorem pinAgrees_none_iff :
    PinAgrees v s.reg (ledOpen (ledProbe s v) beyond none) ↔
      v.toNat / 65536 < 10 ∨ v.toNat / 65536 < 12 ∧ v.toNat % 65536 < 16 := by
  have hopen : ledOpen (ledProbe s v) beyond none = _ := ledOpen_none _ beyond
  have hdecodes : ∀ x nr, Decodes x nr s.reg (ledOpen (ledProbe s v) beyond none) := by
    intro x nr
    left
    simp [hopen]
  have hharmless : (∀ a ∈ (ledOpen (ledProbe s v) beyond none).2.2, Harmless a) ↔
      v.toNat / 65536 < 10 := by
    simp only [hopen, List.forall_mem_singleton, Harmless]
    exact bankOf_mem_iff v
  unfold PinAgrees
  rw [hharmless, ← exists_s3c2410_iff]
  constructor
  · rintro ⟨-, hothers⟩
    by_contra hnot
    obtain ⟨hbank, hnone⟩ := not_or.mp hnot
    exact hbank (hothers fun x nr hnr h => hnone ⟨x, nr, hnr, h⟩)
  · intro h
    refine ⟨fun x nr _ _ => hdecodes x nr, fun hnone => ?_⟩
    rcases h with hbank | ⟨x, nr, hnr, h⟩
    · exact hbank
    · exact absurd h (hnone x nr hnr)

/-- An open of an encoded pin decodes it iff its bank is one of the first eight. -/
theorem decodes_some_iff (m : M) {x : Letter} {nr : ℕ} (hnr : nr < 16)
    (h : s3c2410 x nr = some v) :
    Decodes x nr s.reg (ledOpen (ledProbe s v) beyond (some m)) ↔ v.toNat / 65536 < 8 := by
  have hopen : ledOpen (ledProbe s v) beyond (some m) = _ := ledOpen_some _ beyond m
  obtain ⟨hbank, hpin⟩ := (s3c2410_eq_some_iff hnr).mp h
  have hmap : ∀ base m', .map base m' ∈ (ledOpen (ledProbe s v) beyond (some m)).2.2 ↔
      base = gpioBaseAt beyond (bankOf v) ∧ m' = m := by
    intro base m'
    rw [hopen]
    simp [ledProbe]
  rw [← mem_gpioBase_iff beyond hbank]
  constructor
  · rintro (⟨hret, -⟩ | ⟨base, hlisted, ⟨m', hmem⟩, -⟩)
    · rw [hopen] at hret
      exact absurd hret (Int.lt_irrefl 0)
    · obtain ⟨rfl, -⟩ := (hmap base m').mp hmem
      exact hlisted
  · intro hlisted
    refine Or.inr ⟨_, hlisted, ⟨m, (hmap _ m).mpr ⟨rfl, rfl⟩⟩, ?_⟩
    rw [hopen, show pinOf (ledProbe s v).ledPin = nr from (pinOf_eq v).trans hpin]
    exact configures_update hnr _ _

/-- An open with a mapping agrees iff the value is an encoding of one of the first eight
banks. -/
theorem pinAgrees_some_iff (m : M) :
    PinAgrees v s.reg (ledOpen (ledProbe s v) beyond (some m)) ↔
      v.toNat / 65536 < 8 ∧ v.toNat % 65536 < 16 := by
  by_cases henc : v.toNat / 65536 < 12 ∧ v.toNat % 65536 < 16
  · obtain ⟨x, nr, hnr, h⟩ := (exists_s3c2410_iff v).mpr henc
    constructor
    · rintro ⟨hagrees, -⟩
      exact ⟨(decodes_some_iff s v beyond m hnr h).mp (hagrees x nr hnr h), henc.2⟩
    · rintro ⟨hbank, -⟩
      refine ⟨fun x' nr' hnr' h' => ?_, fun hnone => ?_⟩
      · exact (decodes_some_iff s v beyond m hnr' h').mpr hbank
      · exact absurd h (hnone x nr hnr)
  · -- Nothing but an encoding is shifted by less than the width of the register.
    refine iff_of_false ?_ fun h => henc ⟨by omega, h.2⟩
    rintro ⟨-, hothers⟩
    have hopen : ledOpen (ledProbe s v) beyond (some m) = _ := ledOpen_some _ beyond m
    have hharmless := hothers fun x nr hnr h => henc ((exists_s3c2410_iff v).mp ⟨x, nr, hnr, h⟩)
    rw [hopen] at hharmless
    have hindex := (bankOf_mem_iff v).mp (hharmless (.index (bankOf v)) (by simp [ledProbe]))
    have hshift : pinOf v * 2 < 32 := hharmless (.shift (pinOf v * 2)) (by simp [ledProbe])
    rw [pinOf_eq] at hshift
    exact henc ⟨by omega, by omega⟩

end Opens

/-- **The driver agrees with the device tree on the first eight banks only**, or where it gets no
mapping: then on every value whose bank lies inside the table, or that is an encoding. -/
theorem pinAgrees_iff (s : MyLed M) (v : BitVec 32) (beyond : ℤ → BitVec 32) (map : Option M) :
    PinAgrees v s.reg (ledOpen (ledProbe s v) beyond map) ↔
      (v.toNat / 65536 < 8 ∧ v.toNat % 65536 < 16) ∨
        (map = none ∧
          (v.toNat / 65536 < 10 ∨ v.toNat / 65536 < 12 ∧ v.toNat % 65536 < 16)) := by
  cases map with
  | none =>
    rw [pinAgrees_none_iff]
    constructor
    · exact fun h => Or.inr ⟨rfl, h⟩
    · rintro (h | ⟨-, h⟩)
      · exact Or.inl (by omega)
      · exact h
  | some m =>
    rw [pinAgrees_some_iff]
    simp

/-- Pin 0 of the device tree's bank `J` is the driver's bank `I`, at physical address 0. -/
theorem not_pinAgrees_gpj :
    s3c2410 .J 0 = some 0x80000 ∧
      ¬ PinAgrees 0x80000 (fun _ => 0)
        (ledOpen (ledProbe (⟨0, none, none, fun _ => none, fun _ => 0⟩ : MyLed ℕ) 0x80000)
          (fun _ => 0) (some 0)) := by
  refine ⟨rfl, ?_⟩
  rintro ⟨hdecodes, -⟩
  rcases hdecodes .J 0 (by decide) rfl with ⟨hret, -⟩ | ⟨base, hmem, ⟨m, hmap⟩, -⟩
  · revert hret
    decide
  · obtain rfl : base = 0x560000D0 := by simpa [gpioBase] using hmem
    rw [ledOpen_some] at hmap
    revert hmap
    simp [ledProbe, gpioBaseAt, bankOf, gpioBase]

end LinuxStack.Led
