import LinuxStack.Led.Pin
import LinuxStack.Transition.Run

/-!
# The registers that pins share

The pins of a bank share its configuration and its data register. `led_open` and `led_write` read a
register, change the bits of their pin and write it back. Between calls, other drivers change the
bits of the other pins, and no call undoes that.

## Main definitions

* `Pin`: a pin of a bank that `gpio_base` lists
* `Shared M`: the driver with what the other drivers last gave their bits, and the last level written
* `Turn`, `Shared.step`: opens, writes, and changes by other drivers
* `Frames`: what a call does to the registers, bit by bit
* `Reflects`: the pin is an output at the last level written, and the other bits are the others'

## Main results

* `frames_of_mapped`, `step_reflects`: what one turn does, and what it keeps
* `frames_and_reflects`: the same for every run that starts with an open
-/

namespace LinuxStack.Led

open Transition

/-- `S3C2440_GPx(nr)`, by the number of the bank. -/
def s3c2440 (bank nr : ℕ) : BitVec 32 := BitVec.ofNat 32 (bank <<< 16 ||| nr)

/-- A pin of a bank whose entry in `gpio_base` is not zero. -/
structure Pin where
  bank : ℕ
  nr : ℕ
  base : BitVec 32
  listed : (gpioBase[bank]?).map (·.2) = some base
  used : base ≠ 0
  lt : nr < 16

namespace Pin

variable (p : Pin)

def ledPin : BitVec 32 := s3c2440 p.bank p.nr

/-- The address of the data register. -/
def data : BitVec 32 := p.base + 4

/-- The bits of the pin in the configuration register. -/
def conBits : BitVec 32 := (3 : BitVec 32) <<< (p.nr * 2)

/-- The bit of the pin in the data register. -/
def datBits : BitVec 32 := (1 : BitVec 32) <<< p.nr

end Pin

/-! ## Turns -/

/-- The driver among others: what the other drivers last gave the bits of their pins, and the level
that the last write asked for. -/
structure Shared (M : Type*) where
  led : MyLed M
  theirCon : BitVec 32
  theirDat : BitVec 32
  last : Option Bool

/-- A call of the driver, whose `ioremap` yields `map`, or a change of all bits of the two registers
but those of the pin. -/
inductive Turn (M : Type*) where
  | ledOpen (map : M)
  | ledWrite (val : UInt8)
  | others (con dat : BitVec 32)

variable {M : Type*} [DecidableEq M] (p : Pin) (beyond : ℤ → BitVec 32)

/-- A driver that has not been opened, on registers with any contents. -/
def Shared.load (live : M → Option (BitVec 32)) (reg : BitVec 32 → BitVec 32) : Shared M :=
  ⟨⟨p.ledPin, none, none, live, reg⟩, reg p.base, reg p.data, none⟩

/-- The state after a turn. -/
def Shared.step (s : Shared M) : Turn M → Shared M
  | .ledOpen map => { s with led := (ledOpen s.led beyond (some map)).1 }
  | .ledWrite val => { s with led := (ledWrite s.led val).1, last := some (decide (val = 0)) }
  | .others con dat =>
    let reg := Function.update s.led.reg p.base (merge p.conBits (s.led.reg p.base) con)
    { s with
      led := { s.led with reg := Function.update reg p.data (merge p.datBits (reg p.data) dat) }
      theirCon := con
      theirDat := dat }

/-- **What a call does to the registers.** An open makes the configuration bits of the pin read 01, a
write sets its data bit iff the value is zero; both keep every other bit of every register. -/
def Frames (s : Shared M) (a : Turn M) : Prop :=
  let before := s.led.reg
  let after := (s.step p beyond a).led.reg
  match a with
  | .ledOpen _ => Configures p.base p.nr before after
  | .ledWrite val =>
    (after p.data).getLsbD p.nr = decide (val = 0) ∧
      (∀ i, i ≠ p.nr → (after p.data).getLsbD i = (before p.data).getLsbD i) ∧
      ∀ r, r ≠ p.data → after r = before r
  | .others _ _ => True

/-- **The registers reflect everybody's last update**: the pin is an output, its data bit is the last
level written, and the other bits are what the other drivers last gave them. -/
def Reflects (s : Shared M) : Prop :=
  ((s.led.reg p.base).getLsbD (2 * p.nr) = true ∧
    (s.led.reg p.base).getLsbD (2 * p.nr + 1) = false ∧
    ∀ i, i ≠ 2 * p.nr → i ≠ 2 * p.nr + 1 →
      (s.led.reg p.base).getLsbD i = s.theirCon.getLsbD i) ∧
  (∀ level ∈ s.last, (s.led.reg p.data).getLsbD p.nr = level) ∧
    ∀ i, i ≠ p.nr → (s.led.reg p.data).getLsbD i = s.theirDat.getLsbD i

/-- The driver has the pin, and its pointers point into a live mapping of the bank. -/
def Mapped (s : MyLed M) : Prop :=
  s.ledPin = p.ledPin ∧
    ∃ m, s.gpioCon = some ⟨m, 0⟩ ∧ s.gpioDat = some ⟨m, 1⟩ ∧ s.live m = some p.base

variable {p beyond}

/-! ## The two calls -/

theorem Pin.bank_lt (p : Pin) : p.bank < 10 := by
  have hlisted := p.listed
  by_contra hge
  have hnone : gpioBase[p.bank]? = none := List.getElem?_eq_none (by show 10 ≤ p.bank; omega)
  simp [hnone] at hlisted

theorem Pin.ledPin_toNat (p : Pin) : p.ledPin.toNat = p.bank * 65536 + p.nr := by
  have hbank := p.bank_lt
  have hnr := p.lt
  -- The number of the pin fits the lower half, so the two parts do not overlap.
  have hor : p.bank <<< 16 ||| p.nr = p.bank * 65536 + p.nr := by
    rw [← Nat.shiftLeft_add_eq_or_of_lt (by omega), Nat.shiftLeft_eq]
  rw [Pin.ledPin, s3c2440, hor, BitVec.toNat_ofNat, Nat.mod_eq_of_lt (by omega)]

theorem Pin.pinOf_ledPin (p : Pin) : pinOf p.ledPin = p.nr := by
  have hnr := p.lt
  rw [pinOf_eq, p.ledPin_toNat]
  omega

theorem Pin.gpioBaseAt_ledPin (p : Pin) (beyond : ℤ → BitVec 32) :
    gpioBaseAt beyond (bankOf p.ledPin) = p.base := by
  have hbank : bankOf p.ledPin = p.bank := by
    have hlt := p.bank_lt
    have hnr := p.lt
    rw [bankOf_eq, p.ledPin_toNat, if_pos (by omega)]
    omega
  unfold gpioBaseAt
  rw [hbank, if_pos (by omega), Int.toNat_natCast, p.listed, Option.getD_some]

theorem Pin.data_ne_base (p : Pin) : p.data ≠ p.base := by
  intro h
  have hzero : p.base + 4 = p.base + 0 := h.trans (BitVec.add_zero p.base).symm
  have hfour : (4 : BitVec 32) = 0 := BitVec.add_right_inj p.base |>.mp hzero
  revert hfour
  decide

/-- An open of a driver that has the pin. -/
theorem ledOpen_eq {s : MyLed M} (hpin : s.ledPin = p.ledPin) (m : M) :
    (ledOpen s beyond (some m)).1 =
      { s with
        gpioCon := some ⟨m, 0⟩
        gpioDat := some ⟨m, 1⟩
        live := Function.update s.live m (some p.base)
        reg := Function.update s.reg p.base (configured p.nr (s.reg p.base)) } := by
  rw [ledOpen_some, hpin, p.gpioBaseAt_ledPin, p.pinOf_ledPin]

omit [DecidableEq M] in
/-- A write of a mapped driver. -/
theorem ledWrite_eq {s : MyLed M} (hs : Mapped p s) (val : UInt8) :
    (ledWrite s val).1 =
      { s with reg := Function.update s.reg p.data (driven p.nr val (s.reg p.data)) } := by
  obtain ⟨hpin, m, -, hdat, hlive⟩ := hs
  rw [ledWrite_of_live hdat hlive, hpin, p.pinOf_ledPin]
  rfl

/-! ## One turn -/

/-- An open of any driver that has the pin leaves it mapped. -/
theorem mapped_of_ledOpen {s : Shared M} (hpin : s.led.ledPin = p.ledPin) (m : M) :
    Mapped p (s.step p beyond (.ledOpen m)).led := by
  show Mapped p (ledOpen s.led beyond (some m)).1
  rw [ledOpen_eq hpin]
  exact ⟨hpin, m, rfl, rfl, Function.update_self ..⟩

theorem step_mapped {s : Shared M} (hs : Mapped p s.led) (a : Turn M) :
    Mapped p (s.step p beyond a).led := by
  cases a with
  | ledOpen m => exact mapped_of_ledOpen hs.1 m
  | ledWrite val =>
    show Mapped p (ledWrite s.led val).1
    rw [ledWrite_eq hs]
    exact hs
  | others con dat => exact hs

/-- An open frames the configuration bits of its pin. -/
theorem frames_ledOpen {s : Shared M} (hpin : s.led.ledPin = p.ledPin) (m : M) :
    Frames p beyond s (.ledOpen m) := by
  have hreg : (s.step p beyond (.ledOpen m)).led.reg =
      Function.update s.led.reg p.base (configured p.nr (s.led.reg p.base)) := by
    show (ledOpen s.led beyond (some m)).1.reg = _
    rw [ledOpen_eq hpin]
  show Configures p.base p.nr s.led.reg _
  rw [hreg]
  exact configures_update p.lt _ _

/-- **A call of a mapped driver frames the bits of its pin.** -/
theorem frames_of_mapped {s : Shared M} (hs : Mapped p s.led) (a : Turn M) :
    Frames p beyond s a := by
  cases a with
  | ledOpen m => exact frames_ledOpen hs.1 m
  | ledWrite val =>
    have hreg : (s.step p beyond (.ledWrite val)).led.reg =
        Function.update s.led.reg p.data (driven p.nr val (s.led.reg p.data)) := by
      show (ledWrite s.led val).1.reg = _
      rw [ledWrite_eq hs]
    unfold Frames
    simp only [hreg, Function.update_self, getLsbD_driven p.lt]
    refine ⟨by simp, fun i hi => ?_, fun r hr => Function.update_of_ne hr _ _⟩
    rw [if_neg hi]
  | others con dat => trivial

/-- The other drivers keep the bits of the pin and set all others. -/
theorem reflects_of_others {s : Shared M} (hs : Reflects p s) (con dat : BitVec 32) :
    Reflects p (s.step p beyond (.others con dat)) := by
  have hnr := p.lt
  have hne := p.data_ne_base
  obtain ⟨⟨hlow, hhigh, -⟩, hlast, -⟩ := hs
  have hcon : (s.step p beyond (.others con dat)).led.reg p.base =
      merge p.conBits (s.led.reg p.base) con := by
    simp [Shared.step, hne.symm]
  have hdat : (s.step p beyond (.others con dat)).led.reg p.data =
      merge p.datBits (s.led.reg p.data) dat := by
    simp [Shared.step, hne]
  have hconBits : ∀ i, p.conBits.getLsbD i = decide (i = 2 * p.nr ∨ i = 2 * p.nr + 1) := by
    intro i
    rw [Pin.conBits, getLsbD_three_shiftLeft (by omega), Nat.mul_comm]
  have hdatBits : ∀ i, p.datBits.getLsbD i = decide (i = p.nr) := by
    intro i
    rw [Pin.datBits, getLsbD_one_shiftLeft (by omega)]
  unfold Reflects
  simp only [hcon, hdat, getLsbD_merge, hconBits, hdatBits]
  refine ⟨⟨by simpa using hlow, by simpa using hhigh, fun i hi hi' => ?_⟩,
    fun level hlevel => by simpa using hlast level hlevel, fun i hi => ?_⟩
  · simp [hi, hi', Shared.step]
  · simp [hi, Shared.step]

/-- **The registers go on reflecting everybody's last update.** -/
theorem step_reflects {s : Shared M} (hmapped : Mapped p s.led) (hs : Reflects p s) (a : Turn M) :
    Reflects p (s.step p beyond a) := by
  have hne := p.data_ne_base
  have hframes : Frames p beyond s a := frames_of_mapped hmapped a
  obtain ⟨⟨hlow, hhigh, hcon⟩, hlast, hdat⟩ := hs
  cases a with
  | ledOpen m =>
    -- An open keeps the data register.
    obtain ⟨hlow', hhigh', hkept, hother⟩ := hframes
    have hdata := hother p.data hne
    refine ⟨⟨hlow', hhigh', fun i hi hi' => (hkept i hi hi').trans (hcon i hi hi')⟩, ?_, ?_⟩
    · exact fun level hlevel => hdata ▸ hlast level hlevel
    · exact fun i hi => hdata ▸ hdat i hi
  | ledWrite val =>
    -- The configuration register stays, and the level asked for becomes the last one.
    obtain ⟨hown, hkept, hother⟩ := hframes
    have hbase := hother p.base hne.symm
    refine ⟨hbase ▸ ⟨hlow, hhigh, hcon⟩, ?_, fun i hi => (hkept i hi).trans (hdat i hi)⟩
    intro level hlevel
    exact hown.trans (Option.some.inj hlevel)
  | others con dat => exact reflects_of_others ⟨⟨hlow, hhigh, hcon⟩, hlast, hdat⟩ con dat

/-! ## Runs -/

/-- **The driver touches its own pin only.** For every pin of a listed bank, any contents of the
registers, and any turns from a first open on: each call changes the bits of the pin as it should
and no others, and at the end the pin is an output at the last level written, and every other bit is
what the other drivers last gave it. -/
theorem frames_and_reflects (p : Pin) (beyond : ℤ → BitVec 32) (live : M → Option (BitVec 32))
    (reg : BitVec 32 → BitVec 32) (m : M) (as : List (Turn M)) :
    Along (Shared.step p beyond) (Frames p beyond) (.load p live reg) (.ledOpen m :: as) ∧
      Reflects p (run (Shared.step p beyond) (.load p live reg) (.ledOpen m :: as)) := by
  -- The first open maps the bank, and no turn undoes that.
  have hopen : Frames p beyond (.load p live reg) (.ledOpen m) := frames_ledOpen rfl m
  have hmapped : Mapped p (Shared.step p beyond (.load p live reg) (.ledOpen m)).led :=
    mapped_of_ledOpen rfl m
  have hreflects : Reflects p (Shared.step p beyond (.load p live reg) (.ledOpen m)) := by
    obtain ⟨hlow, hhigh, hkept, hother⟩ := hopen
    have hdata := hother p.data p.data_ne_base
    exact ⟨⟨hlow, hhigh, hkept⟩, nofun, fun i _ => congrArg (·.getLsbD i) hdata⟩
  have hframes : Along (Shared.step p beyond) (Frames p beyond)
      (Shared.step p beyond (.load p live reg) (.ledOpen m)) as :=
    along_of_invariant (I := fun s => Mapped p s.led) (fun s a hs => step_mapped hs a)
      (fun s a hs => frames_of_mapped hs a) hmapped
  refine ⟨⟨hopen, hframes⟩, ?_⟩
  have hinv : Mapped p (run (Shared.step p beyond) _ as).led ∧
      Reflects p (run (Shared.step p beyond) _ as) :=
    run_invariant (I := fun s => Mapped p s.led ∧ Reflects p s)
      (fun s a hs => ⟨step_mapped hs.1 a, step_reflects hs.1 hs.2 a⟩) ⟨hmapped, hreflects⟩
  exact hinv.2

end LinuxStack.Led
