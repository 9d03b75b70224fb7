import LinuxStack.Ch36x.Bus
import LinuxStack.Transition.Run

/-!
# Interrupt control

Enabling an interrupt adds the bits of its trigger to the control register, and only disabling
takes bits away. The driver keeps the mode of the last enable, and disables on a release if that
mode is not zero. So the register is determined by the modes enabled since it was last cleared.

## Main definitions

* `enableInterrupts`, `disableInterrupts`, `fopsRelease`: the functions of the driver
* `Hardware.Holds`: a register that reads as it was written
* `since`: the modes enabled since the interrupts were last disabled
* `Programmed`: the chip and the driver agree with such a list

## Main results

* `programmed_run`: they agree after every run of calls
* `trigger_iff`: when an enable programs the trigger it was asked for
* `release_off_iff`: when a release leaves the interrupts off
-/

namespace LinuxStack.Ch36x

open Transition

/-! ## The functions -/

def CH365_STATUS_REG : ℕ := 0x42
def mCH367IntCtr : ℕ := 0xEB
/-- The offset of `mCH367Status`, and of `mCh365IoCtrl` on the other chip. -/
def mCH367Status : ℕ := 0xF8

def intaBit : BitVec 8 := 0x04
def intsBit : BitVec 8 := 0x08
def ch365StatusEnableBit : BitVec 8 := 0x80
def intcrIntEnableBit : BitVec 8 := 0x02
def intcrIntPolarBit : BitVec 8 := 0x04
def intcrIntTypeBit : BitVec 8 := 0x08

/-- The trigger of a mode, `TRIGGER_LOW` to `TRIGGER_FALLING`. -/
def trigger (mode : BitVec 32) : Option (BitVec 8) :=
  if mode = 1 then some 0xe0
  else if mode = 2 then some 0xe4
  else if mode = 3 then some 0xe8
  else if mode = 4 then some 0xec
  else none

section Functions

variable (hw : Hardware) (s : State Ch36xDev)

def enableInterrupts (mode : BitVec 32) : State Ch36xDev :=
  let s :=
    if s.dev.chiptype = .ch365 then
      let (ctrlval, s) := s.pciReadConfigByte hw CH365_STATUS_REG
      s.pciWriteConfigByte (ctrlval ||| ch365StatusEnableBit) CH365_STATUS_REG
    else
      let (ctrlval, s) := s.inb hw (s.dev.ioaddr + mCH367IntCtr)
      let s :=
        match trigger mode with
        | some bits => s.outb (ctrlval ||| bits) (s.dev.ioaddr + mCH367IntCtr)
        | none => s
      -- The register is read again for the enable bit.
      let (ctrlval, s) := s.inb hw (s.dev.ioaddr + mCH367IntCtr)
      let s := s.outb (ctrlval ||| intcrIntEnableBit) (s.dev.ioaddr + mCH367IntCtr)
      let (intval, s) := s.inb hw (s.dev.ioaddr + mCH367Status)
      s.outb (intval &&& ~~~intaBit) (s.dev.ioaddr + mCH367Status)
  { s with dev.intmode := mode }

def disableInterrupts : State Ch36xDev :=
  let s :=
    if s.dev.chiptype = .ch365 then
      let (ctrlval, s) := s.pciReadConfigByte hw CH365_STATUS_REG
      s.pciWriteConfigByte (ctrlval &&& ~~~ch365StatusEnableBit) CH365_STATUS_REG
    else
      let (ctrlval, s) := s.inb hw (s.dev.ioaddr + mCH367IntCtr)
      let s := s.outb (ctrlval &&& ~~~(intcrIntPolarBit ||| intcrIntTypeBit ||| intcrIntEnableBit))
        (s.dev.ioaddr + mCH367IntCtr)
      let (intval, s) := s.inb hw (s.dev.ioaddr + mCH367Status)
      s.outb (intval &&& ~~~intaBit) (s.dev.ioaddr + mCH367Status)
  { s with dev.intmode := 0 }

/-- A release of the open device. -/
def fopsRelease : State Ch36xDev := if s.dev.intmode ≠ 0 then disableInterrupts hw s else s

end Functions

/-! ## Registers that hold -/

/-- What an access leaves in a byte of a space. -/
def heldStep (space : Space) (addr : ℕ) (v : BitVec 8) : Access → BitVec 8
  | .write sp w a val =>
    if sp = space ∧ a ≤ addr ∧ addr < a + w.bytes then BitVec.ofNat 8 (val / 256 ^ (addr - a))
    else v
  | _ => v

/-- The byte last written, or the byte at first. -/
def held (space : Space) (addr : ℕ) (init : BitVec 8) (log : List Access) : BitVec 8 :=
  run (heldStep space addr) init log

/-- The chip answers at an address what was last written there. -/
def Hardware.Holds (hw : Hardware) (space : Space) (addr : ℕ) (init : BitVec 8) : Prop :=
  ∀ log, BitVec.ofNat 8 (hw.read log space .byte addr) = held space addr init log

/-- A chip that answers everywhere what was last written, and zero at first. -/
def Hardware.ram : Hardware where
  read log space _ addr := (held space addr 0 log).toNat
  byte log addr := UInt8.ofBitVec (held .mem addr 0 log)
  unset _ _ := 0

theorem ram_holds (space : Space) (addr : ℕ) : Hardware.ram.Holds space addr 0 := fun _ =>
  (BitVec.ofNat_toNat ..).trans (BitVec.setWidth_eq _)

section Held

variable {hw : Hardware} {space : Space} {addr a : ℕ} {init : BitVec 8} {log : List Access}
  {s : State Ch36xDev}

theorem answer_of_holds (h : hw.Holds space addr init) :
    s.answer hw space addr = held space addr init s.log := h s.log

theorem held_append (as : List Access) :
    held space addr init (log ++ as) = run (heldStep space addr) (held space addr init log) as :=
  run_append _ _ _ _

@[simp] theorem heldStep_read (v : BitVec 8) (sp : Space) (w : Width) :
    heldStep space addr v (.read sp w a) = v := rfl

@[simp] theorem heldStep_write (v val : BitVec 8) :
    heldStep space addr v (.write space .byte addr val.toNat) = val := by
  have hin : space = space ∧ addr ≤ addr ∧ addr < addr + Width.byte.bytes :=
    ⟨rfl, Nat.le_refl addr, Nat.lt_succ_self addr⟩
  rw [heldStep, if_pos hin, Nat.sub_self, Nat.pow_zero, Nat.div_one, BitVec.ofNat_toNat,
    BitVec.setWidth_eq]

theorem heldStep_write_of_ne (v : BitVec 8) (val : ℕ) (h : a ≠ addr) :
    heldStep space addr v (.write space .byte a val) = v := by
  apply if_neg
  rintro ⟨-, hle, hlt⟩
  have hbytes : Width.byte.bytes = 1 := rfl
  omega

end Held

/-! ## The control register -/

/-- Where the chip is told to interrupt. -/
def Ch36xDev.controlSpace (d : Ch36xDev) : Space := if d.chiptype = .ch365 then .config else .io

def Ch36xDev.controlAddr (d : Ch36xDev) : ℕ :=
  if d.chiptype = .ch365 then CH365_STATUS_REG else d.ioaddr + mCH367IntCtr

/-- The bit that lets the chip interrupt. -/
def Ch36xDev.enableBit (d : Ch36xDev) : ℕ := if d.chiptype = .ch365 then 7 else 1

/-- The control register, which holds `init` at first. -/
def State.control (init : BitVec 8) (s : State Ch36xDev) : BitVec 8 :=
  held s.dev.controlSpace s.dev.controlAddr init s.log

/-- The control register reads as it was written. -/
def HoldsControl (hw : Hardware) (init : BitVec 8) (s : State Ch36xDev) : Prop :=
  hw.Holds s.dev.controlSpace s.dev.controlAddr init

section Control

variable {hw : Hardware} {init : BitVec 8} {s : State Ch36xDev} {mode : BitVec 32}

theorem enableInterrupts_dev :
    (enableInterrupts hw s mode).dev = { s.dev with intmode := mode } := by
  unfold enableInterrupts
  by_cases hc : s.dev.chiptype = .ch365
  · simp [hc]
  · cases ht : trigger mode <;> simp [hc]

theorem disableInterrupts_dev :
    (disableInterrupts hw s).dev = { s.dev with intmode := 0 } := by
  unfold disableInterrupts
  by_cases hc : s.dev.chiptype = .ch365 <;> simp [hc]

/-- An enable only sets bits. -/
theorem control_enableInterrupts (h : HoldsControl hw init s) :
    (enableInterrupts hw s mode).control init =
      if s.dev.chiptype = .ch365 then s.control init ||| ch365StatusEnableBit
      else s.control init ||| (trigger mode).getD 0 ||| intcrIntEnableBit := by
  by_cases hc : s.dev.chiptype = .ch365
  · have hold : hw.Holds .config CH365_STATUS_REG init := by
      simpa [HoldsControl, Ch36xDev.controlSpace, Ch36xDev.controlAddr, hc] using h
    simp [-BitVec.toNat_or, -BitVec.toNat_and, enableInterrupts, State.control,
      Ch36xDev.controlSpace, Ch36xDev.controlAddr, hc, held_append, answer_of_holds hold]
  · have hold : hw.Holds .io (s.dev.ioaddr + mCH367IntCtr) init := by
      simpa [HoldsControl, Ch36xDev.controlSpace, Ch36xDev.controlAddr, hc] using h
    -- The write to the status register is one elsewhere.
    have hne : s.dev.ioaddr + mCH367Status ≠ s.dev.ioaddr + mCH367IntCtr := by
      simp [mCH367Status, mCH367IntCtr]
    cases ht : trigger mode <;>
      simp [-BitVec.toNat_or, -BitVec.toNat_and, enableInterrupts, State.control,
        Ch36xDev.controlSpace, Ch36xDev.controlAddr, hc, ht, held_append, answer_of_holds hold,
        heldStep_write_of_ne _ _ hne]

/-- Disabling clears the enable bit and the bits of the trigger. -/
theorem control_disableInterrupts (h : HoldsControl hw init s) :
    (disableInterrupts hw s).control init =
      if s.dev.chiptype = .ch365 then s.control init &&& ~~~ch365StatusEnableBit
      else s.control init &&&
        ~~~(intcrIntPolarBit ||| intcrIntTypeBit ||| intcrIntEnableBit) := by
  by_cases hc : s.dev.chiptype = .ch365
  · have hold : hw.Holds .config CH365_STATUS_REG init := by
      simpa [HoldsControl, Ch36xDev.controlSpace, Ch36xDev.controlAddr, hc] using h
    simp [-BitVec.toNat_or, -BitVec.toNat_and, disableInterrupts, State.control,
      Ch36xDev.controlSpace, Ch36xDev.controlAddr, hc, held_append, answer_of_holds hold]
  · have hold : hw.Holds .io (s.dev.ioaddr + mCH367IntCtr) init := by
      simpa [HoldsControl, Ch36xDev.controlSpace, Ch36xDev.controlAddr, hc] using h
    have hne : s.dev.ioaddr + mCH367Status ≠ s.dev.ioaddr + mCH367IntCtr := by
      simp [mCH367Status, mCH367IntCtr]
    simp [-BitVec.toNat_or, -BitVec.toNat_and, disableInterrupts, State.control,
      Ch36xDev.controlSpace, Ch36xDev.controlAddr, hc, held_append, answer_of_holds hold,
      heldStep_write_of_ne _ _ hne]

end Control

/-! ## Runs of calls -/

/-- The calls that program interrupts. Any process that has the device open can make them. -/
inductive IntCall where
  | enable (mode : BitVec 32)
  | disable
  | release

def intStep (hw : Hardware) (s : State Ch36xDev) : IntCall → State Ch36xDev
  | .enable mode => enableInterrupts hw s mode
  | .disable => disableInterrupts hw s
  | .release => fopsRelease hw s

def sinceStep (modes : List (BitVec 32)) : IntCall → List (BitVec 32)
  | .enable mode => modes ++ [mode]
  | .disable => []
  | .release => if modes.getLastD 0 ≠ 0 then [] else modes

/-- The modes enabled since the interrupts were last disabled. -/
def since (cs : List IntCall) : List (BitVec 32) := run sinceStep [] cs

/-- A bit of the trigger of a mode. -/
def triggerBit (i : ℕ) (mode : BitVec 32) : Bool := ((trigger mode).getD 0).getLsbD i

/-- The bits of the control register that tell a trigger from another. -/
def IsTriggerBit (i : ℕ) : Prop := i = 2 ∨ i = 3

/-- The driver has the last mode, and the chip those of all. -/
structure Programmed (init : BitVec 8) (s : State Ch36xDev) (modes : List (BitVec 32)) : Prop where
  intmode : s.dev.intmode = modes.getLastD 0
  enabled : (s.control init).getLsbD s.dev.enableBit = !modes.isEmpty
  triggered : s.dev.chiptype ≠ .ch365 → ∀ i, IsTriggerBit i →
    (s.control init).getLsbD i = modes.any (triggerBit i)

section Calls

variable {hw : Hardware} {init : BitVec 8} {s : State Ch36xDev} {modes : List (BitVec 32)}

/-- After its probe, a chip whose control register is zero has no mode enabled. -/
theorem programmed_probed (chiptype : ChipType) (ioaddr memaddr : ℕ) (user : User) :
    Programmed 0 ⟨.probed chiptype ioaddr memaddr, [], user⟩ [] := by
  constructor
  · rfl
  · exact BitVec.getLsbD_zero
  · intro _ i _
    exact BitVec.getLsbD_zero

theorem programmed_enable (h : HoldsControl hw init s) (hp : Programmed init s modes)
    (mode : BitVec 32) : Programmed init (enableInterrupts hw s mode) (modes ++ [mode]) := by
  have hctrl : (enableInterrupts hw s mode).control init = _ := control_enableInterrupts h
  constructor
  · simp [enableInterrupts_dev]
  · rw [hctrl, enableInterrupts_dev]
    by_cases hc : s.dev.chiptype = .ch365
    · simp [hc, Ch36xDev.enableBit, ch365StatusEnableBit]
    · simp [hc, Ch36xDev.enableBit, intcrIntEnableBit]
  · intro hc i hi
    have hc' : s.dev.chiptype ≠ .ch365 := by simpa [enableInterrupts_dev] using hc
    -- The enable bit is none of the trigger.
    have hmask : intcrIntEnableBit.getLsbD i = false := by
      rcases hi with rfl | rfl <;> rfl
    rw [hctrl, if_neg hc', BitVec.getLsbD_or, BitVec.getLsbD_or, hp.triggered hc' i hi, hmask]
    simp [triggerBit]

theorem programmed_disable (h : HoldsControl hw init s) :
    Programmed init (disableInterrupts hw s) [] := by
  have hctrl : (disableInterrupts hw s).control init = _ := control_disableInterrupts h
  constructor
  · simp [disableInterrupts_dev]
  · rw [hctrl, disableInterrupts_dev]
    by_cases hc : s.dev.chiptype = .ch365
    · simp [hc, Ch36xDev.enableBit, ch365StatusEnableBit]
    · simp [hc, Ch36xDev.enableBit, intcrIntEnableBit, intcrIntPolarBit, intcrIntTypeBit]
  · intro hc i hi
    have hc' : s.dev.chiptype ≠ .ch365 := by simpa [disableInterrupts_dev] using hc
    have hmask : (~~~(intcrIntPolarBit ||| intcrIntTypeBit ||| intcrIntEnableBit)).getLsbD i =
        false := by
      rcases hi with rfl | rfl <;> rfl
    rw [hctrl, if_neg hc', BitVec.getLsbD_and, hmask, Bool.and_false]
    rfl

/-- Each call keeps the chip and the driver in agreement with the modes enabled. -/
theorem programmed_step (h : HoldsControl hw init s) (hp : Programmed init s modes)
    (c : IntCall) : Programmed init (intStep hw s c) (sinceStep modes c) := by
  cases c with
  | enable mode => exact programmed_enable h hp mode
  | disable => exact programmed_disable h
  | release =>
    simp only [intStep, fopsRelease, sinceStep, hp.intmode]
    split
    · exact programmed_disable h
    · exact hp

theorem intStep_dev (hw : Hardware) (s : State Ch36xDev) (c : IntCall) :
    ∃ mode, (intStep hw s c).dev = { s.dev with intmode := mode } := by
  cases c with
  | enable mode => exact ⟨mode, enableInterrupts_dev⟩
  | disable => exact ⟨0, disableInterrupts_dev⟩
  | release =>
    unfold intStep fopsRelease
    split_ifs
    · exact ⟨0, disableInterrupts_dev⟩
    · exact ⟨s.dev.intmode, rfl⟩

theorem holdsControl_step (h : HoldsControl hw init s) (c : IntCall) :
    HoldsControl hw init (intStep hw s c) := by
  obtain ⟨mode, hdev⟩ := intStep_dev hw s c
  unfold HoldsControl
  rw [hdev]
  exact h

/-- **The chip and the driver agree with the modes enabled**, after every run of calls. -/
theorem programmed_run (h : HoldsControl hw init s) (hp : Programmed init s modes)
    (cs : List IntCall) : Programmed init (run (intStep hw) s cs) (run sinceStep modes cs) := by
  induction cs generalizing s modes with
  | nil => exact hp
  | cons c cs ih => exact ih (holdsControl_step h c) (programmed_step h hp c)

theorem run_intStep_dev (hw : Hardware) (s : State Ch36xDev) (cs : List IntCall) :
    ∃ mode, (run (intStep hw) s cs).dev = { s.dev with intmode := mode } := by
  induction cs generalizing s with
  | nil => exact ⟨s.dev.intmode, rfl⟩
  | cons c cs ih =>
    obtain ⟨mode, hdev⟩ := intStep_dev hw s c
    obtain ⟨mode', hdev'⟩ := ih (intStep hw s c)
    exact ⟨mode', by rw [run_cons, hdev', hdev]⟩

/-- **An enable programs the trigger it was asked for** iff every mode enabled since the interrupts
were last disabled has no other bits. -/
theorem trigger_iff (h : HoldsControl hw init s) (hp : Programmed init s [])
    (hc : s.dev.chiptype ≠ .ch365) (cs : List IntCall) (mode : BitVec 32) :
    (∀ i, IsTriggerBit i →
      ((run (intStep hw) s (cs ++ [.enable mode])).control init).getLsbD i =
        triggerBit i mode) ↔
      ∀ m ∈ since cs, ∀ i, IsTriggerBit i → triggerBit i m = true → triggerBit i mode = true := by
  have hrun := programmed_run h hp (cs ++ [.enable mode])
  obtain ⟨_, hdev⟩ := run_intStep_dev hw s (cs ++ [.enable mode])
  have hbits := hrun.triggered (by rw [hdev]; exact hc)
  have hmodes : run sinceStep [] (cs ++ [.enable mode]) = since cs ++ [mode] := run_append ..
  rw [hmodes] at hbits
  -- The register has the bits of the new trigger and those of the modes before.
  have hbit : ∀ i, IsTriggerBit i →
      (((run (intStep hw) s (cs ++ [.enable mode])).control init).getLsbD i =
          triggerBit i mode ↔
        ∀ m ∈ since cs, triggerBit i m = true → triggerBit i mode = true) := by
    intro i hi
    rw [hbits i hi, List.any_append]
    cases hbit : triggerBit i mode <;> simp [hbit]
  constructor
  · intro hexact m hm i hi
    exact (hbit i hi).mp (hexact i hi) m hm
  · intro hcovers i hi
    exact (hbit i hi).mpr fun m hm => hcovers m hm i hi

/-- High level and then rising edge is a falling edge. -/
theorem trigger_high_rising :
    ¬ ∀ i, IsTriggerBit i →
      ((run (intStep Hardware.ram) ⟨.probed .ch367 0xE000 0, [], .zero⟩
        [.enable 2, .enable 3]).control 0).getLsbD i = triggerBit i 3 := by
  intro hexact
  have hcovers := (trigger_iff (ram_holds _ _) (programmed_probed _ _ _ _) (by decide)
    [.enable 2] 3).mp hexact 2 (by decide) 2 (Or.inl rfl) (by decide)
  exact absurd hcovers (by decide)

/-- **A release leaves the interrupts off** iff mode zero was not the last to be enabled since they
were disabled. -/
theorem release_off_iff (h : HoldsControl hw init s) (hp : Programmed init s [])
    (cs : List IntCall) :
    ((run (intStep hw) s (cs ++ [.release])).control init).getLsbD s.dev.enableBit = false ↔
      (since cs).getLast? ≠ some 0 := by
  have hrun := programmed_run h hp (cs ++ [.release])
  obtain ⟨_, hdev⟩ := run_intStep_dev hw s (cs ++ [.release])
  have hmodes : run sinceStep [] (cs ++ [.release]) = sinceStep (since cs) .release :=
    run_append ..
  have henabled : ((run (intStep hw) s (cs ++ [.release])).control init).getLsbD s.dev.enableBit =
      !(sinceStep (since cs) .release).isEmpty := by
    have hon := hrun.enabled
    rw [hdev, hmodes] at hon
    exact hon
  rw [henabled]
  -- Only the last mode tells the release whether there is something to disable.
  rcases List.eq_nil_or_concat (since cs) with hnil | ⟨modes, mode, hlast⟩
  · simp [hnil, sinceStep]
  · rw [hlast]
    by_cases hmode : mode = 0 <;> simp [sinceStep, hmode]

/-- A release does not undo an enable of mode zero. -/
theorem release_enable_zero :
    ((run (intStep Hardware.ram) ⟨.probed .ch365 0xE000 0, [], .zero⟩
      [.enable 0, .release]).control 0).getLsbD 7 ≠ false := by
  intro hoff
  have hlast := (release_off_iff (ram_holds _ _) (programmed_probed _ _ _ _) [.enable 0]).mp hoff
  exact hlast (by decide)

end Calls

end LinuxStack.Ch36x
