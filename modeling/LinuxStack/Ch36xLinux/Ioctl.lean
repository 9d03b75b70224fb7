import LinuxStack.Ch36x.Ioctl
import LinuxStack.Ch36xLinux.Driver
import LinuxStack.Transition.Run

/-!
# The ioctls of the first driver

`ch36x_fops_ioctl_do` follows the pointer of the caller by itself, so that the kernel crashes
where the caller's memory faults. A value that cannot be read is written to the chip as zero, and
the block loops do not look at the results of `get_user` and `put_user`. `ioread8` and the like
take the address of a mapping, of the ports as of the memory.

## Main definitions

* `Command`, `Command.number`: the commands
* `regWrite`, `memReadBlock`, `memWriteBlock`, `ioReadBlock`, `ioWriteBlock`: the accesses to the
  chip
* `enableInt`, `disableInt`: the commands for the interrupt, access by access
* `ioctlCase`, `ioctlDo`: the command switch
* `Agrees`: the chip behaves as the register file of `Ch36xLinux.State`

## Main results

* `ioctlDo_number`: a number takes its own case
* `ioctlDo_crashes_iff`: when a process crashes the kernel
* `enableInt_agrees`, `disableInt_agrees`: the two models of these commands agree
-/

namespace LinuxStack.Ch36xLinux.Wire

open Memory Transition
open Ch36x (Abi Access EFAULT Hardware Space Width)

/-! ## Commands -/

inductive Command where
  | getIoBaseAddr
  | setIoBaseAddr
  | getMemBaseAddr
  | setMemBaseAddr
  | readConfig (w : Width)
  | writeConfig (w : Width)
  | getIntLine
  | setIntLine
  | readIo (w : Width)
  | writeIo (w : Width)
  | readMem (w : Width)
  | writeMem (w : Width)
  | readMemBlock
  | writeMemBlock
  | readIoBlock
  | writeIoBlock
  | enableInt
  | disableInt
  | getDrvVersion
  deriving DecidableEq

/-- The number of a command, which the driver and the library define alike. -/
def Command.number : Command → ℕ
  | .getIoBaseAddr => 0x01
  | .setIoBaseAddr => 0x02
  | .getMemBaseAddr => 0x03
  | .setMemBaseAddr => 0x04
  | .readConfig .byte => 0x05
  | .writeConfig .byte => 0x06
  | .getIntLine => 0x07
  | .setIntLine => 0x08
  | .readIo .byte => 0x09
  | .readIo .word => 0x0a
  | .readIo .dword => 0x0b
  | .writeIo .byte => 0x0c
  | .writeIo .word => 0x0d
  | .writeIo .dword => 0x0e
  | .readMem .byte => 0x0f
  | .readMem .word => 0x10
  | .readMem .dword => 0x11
  | .writeMem .byte => 0x12
  | .writeMem .word => 0x13
  | .writeMem .dword => 0x14
  | .readMemBlock => 0x15
  | .writeMemBlock => 0x16
  | .readIoBlock => 0x17
  | .writeIoBlock => 0x18
  | .readConfig .word => 0x19
  | .writeConfig .word => 0x1a
  | .readConfig .dword => 0x1b
  | .writeConfig .dword => 0x1c
  | .enableInt => 0x1d
  | .disableInt => 0x1e
  | .getDrvVersion => 0xff

def Command.all : List Command :=
  [.enableInt, .disableInt, .getDrvVersion, .getIoBaseAddr, .setIoBaseAddr, .getMemBaseAddr,
      .setMemBaseAddr, .getIntLine, .setIntLine] ++
    Width.all.map readConfig ++ Width.all.map writeConfig ++ Width.all.map readIo ++
    Width.all.map writeIo ++ Width.all.map readMem ++ Width.all.map writeMem ++
    [.readMemBlock, .writeMemBlock, .readIoBlock, .writeIoBlock]

/-- The `case` that a number takes, if it takes one. -/
def Command.ofNumber (n : ℕ) : Option Command := Command.all.find? fun c => c.number = n

/-- The numbers of the commands are distinct. -/
theorem ofNumber_number (c : Command) : Command.ofNumber c.number = some c := by
  cases c with
  | readConfig w | writeConfig w | readIo w | writeIo w | readMem w | writeMem w =>
    cases w <;> rfl
  | _ => rfl

/-! ## Accesses to the chip -/

/-- `struct ch36x_dev_private`, as far as the commands read it, and the handlers requested with
it. -/
structure Ch36xDevPrivate where
  pdev : PciDev
  ioVirtsAddr : ℕ
  memVirtsAddr : ℕ
  irq : ℕ
  handlers : ℕ

/-- The state of a call. -/
abbrev Io := Ch36x.State Ch36xDevPrivate

def CH365_MEM_SPACE_RANGE : ℕ := 0x8000
def CH365_IO_SPACE_RANGE : ℕ := 0xff

section Accesses

variable (hw : Hardware) (l : Abi) (s : Io)

def cfgRead : Width → ℕ → ℕ → Io × ℤ := Ch36x.cfgRead hw l s
def ioRead : Width → ℕ → ℕ → Io × ℤ := Ch36x.regRead hw l.long s .mem
def memRead : Width → ℕ → ℕ → Io × ℤ := Ch36x.regRead hw l.long s .mem

/-- A write of a register, also of a value that could not be read. -/
def regWrite (failure : ℤ) (space : Space) (w : Width) (addr arg : ℕ) : Io × ℤ :=
  let (val, retval) := s.getUser l.long arg
  (s.output space w val addr, if retval ≠ 0 then failure else 0)

/-- The same for the configuration space, where the kernel refuses what is not aligned. -/
def cfgWrite (w : Width) (offset arg : ℕ) : Io × ℤ :=
  let (val, retval) := s.getUser l.long arg
  (s.pciWriteConfig w val offset, if retval ≠ 0 then -EFAULT else 0)

def ioWrite : Width → ℕ → ℕ → Io × ℤ := regWrite l s (-EFAULT) .mem
def memWrite : Width → ℕ → ℕ → Io × ℤ := regWrite l s (-EINVAL) .mem

def memReadBlock (addr buf size : ℕ) : Io × ℤ :=
  if CH365_MEM_SPACE_RANGE < size then (s, -1)
  else
    let (s, left) := Ch36x.memReadBlock hw s addr buf size
    (s, if left ≠ 0 then -1 else 0)

def memWriteBlock (addr buf size : ℕ) : Io × ℤ :=
  if CH365_MEM_SPACE_RANGE < size then (s, -1)
  else
    let (s, left) := Ch36x.memWriteBlock s addr buf size
    (s, if left ≠ 0 then -1 else 0)

/-- The loop of `ch36x_io_read_block`. -/
def ioReadLoop (s : Io) (addr buf : ℕ) : ℕ → Io
  | 0 => s
  | n + 1 =>
    let (readByte, s) := s.input hw .mem .byte addr
    ioReadLoop (s.putUser 1 buf readByte).1 (addr + 1) (buf + 1) n

/-- The loop of `ch36x_io_write_block`. -/
def ioWriteLoop (s : Io) (addr buf : ℕ) : ℕ → Io
  | 0 => s
  | n + 1 =>
    let (writeByte, _) := s.getUser 1 buf
    ioWriteLoop (s.output .mem .byte writeByte addr) (addr + 1) (buf + 1) n

def ioReadBlock (addr buf size : ℕ) : Io × ℤ :=
  if CH365_IO_SPACE_RANGE < size then (s, -1) else (ioReadLoop hw s addr buf size, 0)

def ioWriteBlock (addr buf size : ℕ) : Io × ℤ :=
  if CH365_IO_SPACE_RANGE < size then (s, -1) else (ioWriteLoop s addr buf size, 0)

/-- `READ8` and `WRITE8` of a register. -/
def read8 (addr : ℕ) : BitVec 8 × Io := s.readByte hw .mem addr
def write8 (value : BitVec 8) (addr : ℕ) : Io := s.writeByte .mem value addr

/-- `request_irq` of the handler. -/
def requestIrq (fault : Option Errno) : Io :=
  if fault.isNone then { s with dev.handlers := s.dev.handlers + 1 } else s

/-- `CH36x_ENABLE_INT`, access by access. -/
def enableInt (arg : ℕ) (fault : Option Errno) : Io × ℤ :=
  let retval : ℤ := if fault.isNone then 0 else -EINVAL
  if s.dev.pdev.isCH367 then
    let intCtr := s.dev.ioVirtsAddr + CH367_OFFSET_INT_FUN_STAT
    let (readByte, s) := read8 hw s intCtr
    match trigger arg with
    | none => (s, -EINVAL)
    | some bits =>
      let s := write8 s (readByte ||| bits) intCtr
      let (readByte, s) := read8 hw s intCtr
      let s := write8 s (readByte ||| 0x02) intCtr
      let (_, s) := read8 hw s intCtr
      (requestIrq s fault, retval)
  else if s.dev.pdev.isCH368 then
    let intCtr := s.dev.ioVirtsAddr + CH368_OFFSET_INT_FUN_STAT
    let (readByte, s) := read8 hw s intCtr
    (requestIrq (write8 s (readByte ||| 0x02) intCtr) fault, retval)
  else (s, 0)

/-- `CH36x_DISABLE_INT`, access by access. -/
def disableInt : Io × ℤ :=
  if s.dev.pdev.vendor = CH367_VID ∨ s.dev.pdev.vendor = CH368_VID then
    let intCtr := s.dev.ioVirtsAddr + CH367_OFFSET_INT_FUN_STAT
    let (readByte, s) := read8 hw s intCtr
    (write8 s (readByte &&& ~~~intPolarBit) intCtr, 0)
  else (s, 0)

end Accesses

/-! ## The switch -/

def DRV_VERSION : List UInt8 :=
  "WCH CH36x Driver Version-1.2".toList.map fun c => UInt8.ofNat c.toNat

def OFFSET_INT_LINE : ℕ := 0x3C

section Switch

variable (hw : Hardware) (l : Abi) (fault : Option Errno)

/-- `*((long *) ch36x_arg + i)`, without which there is no result. -/
def deref (s : Io) (arg i : ℕ) : Option ℕ :=
  match s.user.fault (arg + i * l.long) l.long with
  | none => some (loadWord s.user.byte (arg + i * l.long) l.long)
  | some _ => none

/-- The first two arguments, for a routine that takes them. -/
def deref2 (s : Io) (arg : ℕ) (f : ℕ → ℕ → Io × ℤ) : Option (Io × ℤ) := do
  let x ← deref l s arg 0
  let y ← deref l s arg 1
  return f x y

/-- The first three arguments, for a routine that takes them. -/
def deref3 (s : Io) (arg : ℕ) (f : ℕ → ℕ → ℕ → Io × ℤ) : Option (Io × ℤ) := do
  let x ← deref l s arg 0
  let y ← deref l s arg 1
  let z ← deref l s arg 2
  return f x y z

/-- The first argument, for a routine that reads the value behind it by `get_user`. -/
def derefWrite (s : Io) (arg : ℕ) (f : ℕ → ℕ → Io × ℤ) : Option (Io × ℤ) := do
  let x ← deref l s arg 0
  return f x (arg + l.long)

/-- The cases of the switch; `fault` is what `request_irq` returns. -/
def ioctlCase (s : Io) (arg : ℕ) : Command → Option (Io × ℤ)
  | .enableInt => some (enableInt hw s arg fault)
  | .disableInt => some (disableInt hw s)
  | .getDrvVersion =>
    let (s, left) := s.copyToUser arg DRV_VERSION
    some (s, left)
  | .getIoBaseAddr => some (s.putUser l.long arg s.dev.ioVirtsAddr)
  | .setIoBaseAddr => some (s, 0)
  | .getMemBaseAddr => some (s.putUser l.long arg s.dev.memVirtsAddr)
  | .setMemBaseAddr => some (s, 0)
  | .getIntLine => some (s.putUser l.long arg s.dev.irq)
  | .setIntLine => some (cfgWrite l s .byte OFFSET_INT_LINE arg)
  | .readConfig w => deref2 l s arg fun offset out => cfgRead hw l s w (offset % 256) out
  | .writeConfig w => derefWrite l s arg fun offset p => cfgWrite l s w (offset % 256) p
  | .readIo w => deref2 l s arg (ioRead hw l s w)
  | .writeIo w => derefWrite l s arg (ioWrite l s w)
  | .readMem w => deref2 l s arg (memRead hw l s w)
  | .writeMem w => derefWrite l s arg (memWrite l s w)
  | .readMemBlock => deref3 l s arg (memReadBlock hw s)
  | .writeMemBlock => deref3 l s arg (memWriteBlock s)
  | .readIoBlock => deref3 l s arg (ioReadBlock hw s)
  | .writeIoBlock => deref3 l s arg (ioWriteBlock s)

/-- `ch36x_fops_ioctl_do`. Whatever fails, the caller gets `-EINVAL`. -/
def ioctlDo (s : Io) (cmd arg : ℕ) : Option (Io × ℤ) :=
  match Command.ofNumber cmd with
  | some c =>
    (ioctlCase hw l fault s arg c).map fun (s, retval) => (s, if retval ≠ 0 then -EINVAL else 0)
  | none => some (s, -EINVAL)

/-- A number takes its own case. -/
theorem ioctlDo_number (s : Io) (c : Command) (arg : ℕ) :
    ioctlDo hw l fault s c.number arg =
      (ioctlCase hw l fault s arg c).map
        fun (s, retval) => (s, if retval ≠ 0 then -EINVAL else 0) := by
  rw [ioctlDo, ofNumber_number]

end Switch

/-! ## Pointers that fault -/

/-- How many arguments of a command the kernel follows the pointer to. -/
def Command.derefs : Command → ℕ
  | .readConfig _ | .readIo _ | .readMem _ => 2
  | .writeConfig _ | .writeIo _ | .writeMem _ => 1
  | .readMemBlock | .writeMemBlock | .readIoBlock | .writeIoBlock => 3
  | _ => 0

section Faults

variable {hw : Hardware} {l : Abi} {fault : Option Errno} {s : Io} {arg i : ℕ}

theorem deref_eq_none_iff :
    deref l s arg i = none ↔ (s.user.fault (arg + i * l.long) l.long).isSome := by
  unfold deref
  cases s.user.fault (arg + i * l.long) l.long <;> simp

theorem deref2_eq_none_iff {f : ℕ → ℕ → Io × ℤ} :
    deref2 l s arg f = none ↔ ∃ i < 2, (s.user.fault (arg + i * l.long) l.long).isSome := by
  simp only [← deref_eq_none_iff, deref2, Nat.exists_lt_succ_right, Nat.not_lt_zero, false_and,
    exists_false, false_or]
  cases deref l s arg 0 <;> cases deref l s arg 1 <;> simp

theorem deref3_eq_none_iff {f : ℕ → ℕ → ℕ → Io × ℤ} :
    deref3 l s arg f = none ↔ ∃ i < 3, (s.user.fault (arg + i * l.long) l.long).isSome := by
  simp only [← deref_eq_none_iff, deref3, Nat.exists_lt_succ_right, Nat.not_lt_zero, false_and,
    exists_false, false_or]
  cases deref l s arg 0 <;> cases deref l s arg 1 <;> cases deref l s arg 2 <;> simp

theorem derefWrite_eq_none_iff {f : ℕ → ℕ → Io × ℤ} :
    derefWrite l s arg f = none ↔ ∃ i < 1, (s.user.fault (arg + i * l.long) l.long).isSome := by
  simp only [← deref_eq_none_iff, derefWrite, Nat.exists_lt_succ_right, Nat.not_lt_zero, false_and,
    exists_false, false_or]
  cases deref l s arg 0 <;> simp

theorem ioctlCase_eq_none_iff (c : Command) :
    ioctlCase hw l fault s arg c = none ↔
      ∃ i < c.derefs, (s.user.fault (arg + i * l.long) l.long).isSome := by
  cases c with
  | readConfig w | readIo w | readMem w => exact deref2_eq_none_iff
  | writeConfig w | writeIo w | writeMem w => exact derefWrite_eq_none_iff
  | readMemBlock | writeMemBlock | readIoBlock | writeIoBlock => exact deref3_eq_none_iff
  | _ => simp [ioctlCase, Command.derefs]

/-- **An `ioctl` crashes the kernel** iff the process passes a pointer to arguments that fault, to
one of the commands that have arguments there. -/
theorem ioctlDo_crashes_iff (cmd : ℕ) :
    ioctlDo hw l fault s cmd arg = none ↔
      ∃ c, Command.ofNumber cmd = some c ∧
        ∃ i < c.derefs, (s.user.fault (arg + i * l.long) l.long).isSome := by
  unfold ioctlDo
  cases hc : Command.ofNumber cmd with
  | none => simp
  | some c => simp [ioctlCase_eq_none_iff]

end Faults

/-! ## The register file -/

/-- What an access does to a register file. -/
def regStep (regs : ℕ → BitVec 8) : Access → ℕ → BitVec 8
  | .write .mem .byte addr val => Function.update regs addr (BitVec.ofNat 8 val)
  | _ => regs

/-- **The chip answers as the registers of the other model do**, now and after any more accesses
to single registers. -/
structure Agrees (hw : Hardware) (s : Io) (t : State) : Prop where
  pdev : s.dev.pdev = t.pdev
  ioVirtsAddr : s.dev.ioVirtsAddr = t.ioVirtsAddr
  handlers : s.dev.handlers = t.handlers
  answers : ∀ as addr, Ch36x.State.answer hw (s.push as) .mem addr = run regStep t.regs as addr

section Simulation

variable {hw : Hardware} {s : Io} {t : State}

theorem Agrees.read8_fst (h : Agrees hw s t) (addr : ℕ) :
    (Wire.read8 hw s addr).1 = t.regs addr := by
  have hanswer := h.answers [] addr
  rw [Ch36x.State.push_nil] at hanswer
  rw [Wire.read8, Ch36x.State.readByte_eq, hanswer]
  rfl

theorem Agrees.read8 (h : Agrees hw s t) (addr : ℕ) : Agrees hw (Wire.read8 hw s addr).2 t := by
  rw [Wire.read8, Ch36x.State.readByte_eq]
  refine ⟨h.pdev, h.ioVirtsAddr, h.handlers, ?_⟩
  intro as addr'
  rw [Ch36x.State.push_push]
  exact h.answers (.read .mem .byte addr :: as) addr'

theorem Agrees.write8 (h : Agrees hw s t) (value : BitVec 8) (addr : ℕ) :
    Agrees hw (Wire.write8 s value addr) (t.write8 value addr) := by
  rw [Wire.write8, Ch36x.State.writeByte_eq]
  refine ⟨h.pdev, h.ioVirtsAddr, h.handlers, ?_⟩
  intro as addr'
  rw [Ch36x.State.push_push]
  refine (h.answers (.write .mem .byte addr value.toNat :: as) addr').trans ?_
  rw [run_cons, regStep, BitVec.ofNat_toNat, BitVec.setWidth_eq]
  rfl

theorem Agrees.requestIrq (h : Agrees hw s t) (fault : Option Errno) :
    Agrees hw (Wire.requestIrq s fault) (t.requestIrq fault) := by
  unfold Wire.requestIrq State.requestIrq
  split
  · exact ⟨h.pdev, h.ioVirtsAddr, congrArg (· + 1) h.handlers, h.answers⟩
  · exact h

/-- **An enable does to the chip what the model of the register file says.** -/
theorem enableInt_agrees (h : Agrees hw s t) (arg : ℕ) (fault : Option Errno) :
    (enableInt hw s arg fault).2 = (Ch36xLinux.enableInt t arg fault).1 ∧
      Agrees hw (enableInt hw s arg fault).1 (Ch36xLinux.enableInt t arg fault).2 := by
  unfold enableInt Ch36xLinux.enableInt
  rw [h.pdev, h.ioVirtsAddr]
  by_cases h367 : t.pdev.isCH367 = true
  · have hread := h.read8 (t.ioVirtsAddr + CH367_OFFSET_INT_FUN_STAT)
    simp only [h367, if_true, h.read8_fst]
    cases trigger arg with
    | none => exact ⟨rfl, hread⟩
    | some bits =>
      have htype := hread.write8 (t.regs (t.ioVirtsAddr + CH367_OFFSET_INT_FUN_STAT) ||| bits)
        (t.ioVirtsAddr + CH367_OFFSET_INT_FUN_STAT)
      simp only [htype.read8_fst]
      exact ⟨trivial, (((htype.read8 _).write8 _ _).read8 _).requestIrq fault⟩
  · by_cases h368 : t.pdev.isCH368 = true
    · simp only [h367, h368, if_true, h.read8_fst]
      exact ⟨rfl, ((h.read8 _).write8 _ _).requestIrq fault⟩
    · simp only [h367, h368]
      exact ⟨rfl, h⟩

theorem disableInt_agrees (h : Agrees hw s t) :
    Agrees hw (disableInt hw s).1 (Ch36xLinux.disableInt t) := by
  unfold disableInt Ch36xLinux.disableInt
  rw [h.pdev, h.ioVirtsAddr]
  by_cases hv : t.pdev.vendor = CH367_VID ∨ t.pdev.vendor = CH368_VID
  · simp only [hv, if_true, h.read8_fst]
    exact (h.read8 _).write8 _ _
  · simp only [hv, if_false]
    exact h

end Simulation

end LinuxStack.Ch36xLinux.Wire
