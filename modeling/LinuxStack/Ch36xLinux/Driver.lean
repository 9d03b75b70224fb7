import LinuxStack.Ch36x.Isr
import LinuxStack.Kernel.Calls

/-!
# The first CH36x driver, its interrupts

`CH36X_LINUX/drv/ch36x.c` requests the handler of a device when a process enables the interrupt,
and frees it when a process closes the device and the chip says that the interrupt is on. The
handler sets a flag that `poll` takes. The registers of the chip that these functions use hold
what is written to them; the chip sets the active bit by itself.

## Main definitions

* `PciDev.isCH365`, `PciDev.isCH367`, `PciDev.isCH368`: the chips, by their ids
* `State`: the registers, the flag, and the handlers that are requested for the device
* `fopsOpen`, `fopsRelease`, `enableInt`, `disableInt`, `fopsPoll`: the calls
* `ch365InterruptHandler`, `ch367InterruptHandler`, `ch368InterruptHandler`: the handlers

## Main results

* `enableInt_eq`, `disableInt_eq`, `fopsRelease_eq`: what the calls do to the interrupt control
  register and to the handlers
-/

namespace LinuxStack.Ch36xLinux

open Ch36x (IrqReturn)

/-! ## Devices -/

def CH365_VID : ℕ := 0x4348
def CH365_DID : ℕ := 0x5049
def CH367_VID : ℕ := 0x1C00
def CH367_DID_SID_HIGH : ℕ := 0x5831
def CH367_DID_SID_LOW : ℕ := 0x5830
def CH368_VID : ℕ := 0x1C00
def CH368_DID : ℕ := 0x5834

/-- `struct pci_dev`, as far as these functions read it. -/
structure PciDev where
  vendor : ℕ
  device : ℕ
  deriving DecidableEq

namespace PciDev

variable (p : PciDev)

def isCH365 : Bool := CH365_VID = p.vendor ∧ CH365_DID = p.device

def isCH367 : Bool :=
  CH367_VID = p.vendor ∧ (CH367_DID_SID_HIGH = p.device ∨ CH367_DID_SID_LOW = p.device)

def isCH368 : Bool := CH368_VID = p.vendor ∧ CH368_DID = p.device

end PciDev

def CH365_OFFSET_INT_FUN_STAT : ℕ := 0x42
def CH365_OFFSET_INT_ACTIVE_STAT : ℕ := 0x40
def CH367_OFFSET_INT_FUN_STAT : ℕ := 0xeb
def CH367_OFFSET_INT_ACTIVE_STAT : ℕ := 0xf8
def CH368_OFFSET_INT_FUN_STAT : ℕ := 0xeb
def CH368_OFFSET_INT_ACTIVE_STAT : ℕ := 0xf8

/-- The bits of a trigger, `TRIGGER_LOW` to `TRIGGER_FALLING`. -/
def trigger : ℕ → Option (BitVec 8)
  | 1 => some 0xe0
  | 2 => some 0xe4
  | 3 => some 0xe8
  | 4 => some 0xec
  | _ => none

/-- The bit that `CH36x_DISABLE_INT` clears. -/
def intPolarBit : BitVec 8 := 1 <<< 2

/-- A device: the registers behind `READ8` and in the configuration space, `poll_flag`, the
handlers requested with the device, and the calls to `free_irq` that found none. -/
structure State where
  pdev : PciDev
  ioVirtsAddr : ℕ
  regs : ℕ → BitVec 8
  config : ℕ → BitVec 8
  pollFlag : Bool
  handlers : ℕ
  strayFrees : ℕ

namespace State

variable (s : State)

def write8 (value : BitVec 8) (addr : ℕ) : State :=
  { s with regs := Function.update s.regs addr value }

def pciWriteConfigByte (value : BitVec 8) (addr : ℕ) : State :=
  { s with config := Function.update s.config addr value }

/-- `request_irq` of the handler, which other handlers may share the line with. -/
def requestIrq (fault : Option Errno) : State :=
  if fault.isNone then { s with handlers := s.handlers + 1 } else s

/-- `free_irq` of the handler. -/
def freeIrq : State :=
  if s.handlers = 0 then { s with strayFrees := s.strayFrees + 1 }
  else { s with handlers := s.handlers - 1 }

end State

/-! ## The calls -/

section Calls

variable (s : State)

/-- An open, which turns the interrupt off and selects a falling edge. -/
def fopsOpen : State :=
  let readByte := s.regs (s.ioVirtsAddr + CH367_OFFSET_INT_FUN_STAT)
  s.write8 ((readByte &&& 0xe0) ||| 0xec) (s.ioVirtsAddr + CH367_OFFSET_INT_FUN_STAT)

/-- The close of a file. -/
def fopsRelease : State :=
  if s.pdev.isCH365 then
    let readByte := s.config CH365_OFFSET_INT_FUN_STAT
    if readByte &&& 0x80 = 0 then s else s.freeIrq
  else if s.pdev.isCH367 then
    let readByte := s.regs (s.ioVirtsAddr + CH367_OFFSET_INT_FUN_STAT)
    if readByte &&& 0x02 = 0 then s else s.freeIrq
  else if s.pdev.isCH368 then
    let readByte := s.regs (s.ioVirtsAddr + CH368_OFFSET_INT_FUN_STAT)
    if readByte &&& 0x02 = 0 then s else s.freeIrq
  else s.freeIrq

/-- `CH36x_ENABLE_INT`. Whatever `request_irq` returns, the caller gets `-EINVAL` if it fails. -/
def enableInt (arg : ℕ) (fault : Option Errno) : ℤ × State :=
  let retval : ℤ := if fault.isNone then 0 else -EINVAL
  if s.pdev.isCH367 then
    let readByte := s.regs (s.ioVirtsAddr + CH367_OFFSET_INT_FUN_STAT)
    match trigger arg with
    | none => (-EINVAL, s)
    | some bits =>
      let s := s.write8 (readByte ||| bits) (s.ioVirtsAddr + CH367_OFFSET_INT_FUN_STAT)
      let readByte := s.regs (s.ioVirtsAddr + CH367_OFFSET_INT_FUN_STAT)
      let s := s.write8 (readByte ||| 0x02) (s.ioVirtsAddr + CH367_OFFSET_INT_FUN_STAT)
      (retval, s.requestIrq fault)
  else if s.pdev.isCH368 then
    let readByte := s.regs (s.ioVirtsAddr + CH368_OFFSET_INT_FUN_STAT)
    let s := s.write8 (readByte ||| 0x02) (s.ioVirtsAddr + CH368_OFFSET_INT_FUN_STAT)
    (retval, s.requestIrq fault)
  else (0, s)

/-- `CH36x_DISABLE_INT`. The two vendor ids are one, so there is no second case. -/
def disableInt : State :=
  if s.pdev.vendor = CH367_VID ∨ s.pdev.vendor = CH368_VID then
    let readByte := s.regs (s.ioVirtsAddr + CH367_OFFSET_INT_FUN_STAT)
    s.write8 (readByte &&& ~~~intPolarBit) (s.ioVirtsAddr + CH367_OFFSET_INT_FUN_STAT)
  else s

/-- A poll of the device: whether it answers `POLLIN`. -/
def fopsPoll : Bool × State :=
  if s.pollFlag then (true, { s with pollFlag := false }) else (false, s)

/-! ## The handlers -/

def ch365InterruptHandler : IrqReturn × State :=
  let readByte := s.config CH365_OFFSET_INT_ACTIVE_STAT
  if readByte &&& 0x04 = 0 then (.none, s)
  else
    let s := { s with pollFlag := true }
    (.handled, s.pciWriteConfigByte (readByte &&& 0xfb) CH365_OFFSET_INT_ACTIVE_STAT)

/-- The handlers of the other chips, which read and write the register at some offsets. -/
def statusInterruptHandler (readOffset writeOffset : ℕ) : IrqReturn × State :=
  let readByte := s.regs (s.ioVirtsAddr + readOffset)
  if readByte &&& 0x04 = 0 then (.none, s)
  else
    let s := { s with pollFlag := true }
    (.handled, s.write8 (readByte &&& 0xfb) (s.ioVirtsAddr + writeOffset))

def ch367InterruptHandler : IrqReturn × State :=
  statusInterruptHandler s CH367_OFFSET_INT_ACTIVE_STAT CH367_OFFSET_INT_ACTIVE_STAT

/-- The handler reads at the offset of the other chip, which is the same. -/
def ch368InterruptHandler : IrqReturn × State :=
  statusInterruptHandler s CH367_OFFSET_INT_ACTIVE_STAT CH368_OFFSET_INT_ACTIVE_STAT

end Calls

/-! ## The interrupt control register -/

/-- The chips that have the register. -/
def PciDev.HasIntCtr (p : PciDev) : Prop := p.isCH367 = true ∨ p.isCH368 = true

instance (p : PciDev) : Decidable p.HasIntCtr := inferInstanceAs (Decidable (_ ∨ _))

/-- The interrupt control register. -/
def State.intCtr (s : State) : BitVec 8 := s.regs (s.ioVirtsAddr + CH367_OFFSET_INT_FUN_STAT)

/-- The bits that an enable sets, if the device takes it. -/
def PciDev.enableBits (p : PciDev) (arg : ℕ) : Option (BitVec 8) :=
  if p.isCH367 then (trigger arg).map (· ||| 0x02)
  else if p.isCH368 then some 0x02
  else none

section IntCtr

variable {s : State} {arg : ℕ} {fault : Option Errno}

theorem PciDev.HasIntCtr.vendor_eq {p : PciDev} (hp : p.HasIntCtr) : p.vendor = CH367_VID := by
  rcases hp with h | h <;> exact (of_decide_eq_true h).1.symm

theorem PciDev.HasIntCtr.not_isCH365 {p : PciDev} (hp : p.HasIntCtr) : p.isCH365 = false := by
  simp [isCH365, hp.vendor_eq, CH365_VID, CH367_VID]

@[simp] theorem intCtr_write8 (value : BitVec 8) :
    (s.write8 value (s.ioVirtsAddr + CH367_OFFSET_INT_FUN_STAT)).intCtr = value := by
  simp [State.write8, State.intCtr]

@[simp] theorem intCtr_requestIrq : (s.requestIrq fault).intCtr = s.intCtr := by
  unfold State.requestIrq
  split <;> rfl

@[simp] theorem intCtr_freeIrq : s.freeIrq.intCtr = s.intCtr := by
  unfold State.freeIrq
  split <;> rfl

theorem intCtr_fopsOpen : (fopsOpen s).intCtr = (s.intCtr &&& 0xe0) ||| 0xec := intCtr_write8 _

theorem disableInt_eq (hp : s.pdev.HasIntCtr) :
    disableInt s = s.write8 (s.intCtr &&& ~~~intPolarBit)
      (s.ioVirtsAddr + CH367_OFFSET_INT_FUN_STAT) := by
  rw [disableInt, if_pos (Or.inl hp.vendor_eq)]
  rfl

/-- An enable adds its bits and requests the handler, or does nothing. -/
theorem enableInt_eq :
    (enableInt s arg fault).2 =
      match s.pdev.enableBits arg with
      | none => s
      | some bits => (s.write8 (s.intCtr ||| bits)
          (s.ioVirtsAddr + CH367_OFFSET_INT_FUN_STAT)).requestIrq fault := by
  unfold enableInt PciDev.enableBits
  by_cases h367 : s.pdev.isCH367 = true
  · cases ht : trigger arg <;>
      simp [h367, State.write8, State.intCtr, BitVec.or_assoc]
  · by_cases h368 : s.pdev.isCH368 = true <;>
      simp [h367, h368, State.write8, State.intCtr, CH367_OFFSET_INT_FUN_STAT,
        CH368_OFFSET_INT_FUN_STAT]

/-- The close of a file frees the handler iff the interrupt is on. -/
theorem fopsRelease_eq (hp : s.pdev.HasIntCtr) :
    fopsRelease s = if s.intCtr.getLsbD 1 then s.freeIrq else s := by
  have hbit : ∀ v : BitVec 8, v &&& 0x02 = 0 ↔ v.getLsbD 1 = false := by
    intro v
    have hmask : (0x02 : BitVec 8) = BitVec.twoPow 8 1 := rfl
    rw [hmask, BitVec.and_twoPow]
    cases v.getLsbD 1 <;> decide
  unfold fopsRelease
  rw [if_neg (by simp [hp.not_isCH365])]
  by_cases h367 : s.pdev.isCH367 = true
  · rw [if_pos h367]
    cases hon : s.intCtr.getLsbD 1 <;> simp_all [State.intCtr]
  · have h368 : s.pdev.isCH368 = true := hp.resolve_left h367
    rw [if_neg h367, if_pos h368]
    cases hon : s.intCtr.getLsbD 1 <;>
      simp_all [State.intCtr, CH367_OFFSET_INT_FUN_STAT, CH368_OFFSET_INT_FUN_STAT]

end IntCtr

end LinuxStack.Ch36xLinux
