import LinuxStack.Ch36x.Interrupt
import LinuxStack.Ch36x.Spi

/-!
# The ioctls of the driver

`ch36x_fops_ioctl_do` decodes a command and reads its arguments as consecutive `long`s of the
caller. The results of these reads are not checked: an argument that faults is zero. Values, too,
are read and written as `long`s.

## Main definitions

* `Command`, `Command.number`: the commands, and the numbers of both headers
* `regRead`, `regWrite`, `memReadBlock`, `memWriteBlock`: the accesses to the chip
* `ioctlCase`, `ioctlDo`: the command switch

## Main results

* `ofNumber_number`, `ioctlDo_number`: the numbers are distinct, and take their own cases
-/

namespace LinuxStack.Ch36x

open Memory

/-! ## Commands -/

inductive Command where
  | getIoBaseAddr
  | getMemBaseAddr
  | readConfig (w : Width)
  | writeConfig (w : Width)
  | readIo (w : Width)
  | writeIo (w : Width)
  | readMem (w : Width)
  | writeMem (w : Width)
  | readMemBlock
  | writeMemBlock
  | enableInt
  | disableInt
  | getChiptype
  | getVersion
  | setStream
  | streamSpi
  deriving DecidableEq

/-- `_IOC(dir, 'P', nr, sizeof(u16))`. -/
def ioc (dir nr : ℕ) : ℕ := dir <<< 30 ||| 2 <<< 16 ||| 0x50 <<< 8 ||| nr

/-- `_IOW`, `_IOR` and `_IOWR` of a `u16` under the magic of the driver. -/
def iow (nr : ℕ) : ℕ := ioc 1 nr
def ior (nr : ℕ) : ℕ := ioc 2 nr
def iowr (nr : ℕ) : ℕ := ioc 3 nr

/-- The number of a command, which the driver and the library define alike. -/
def Command.number : Command → ℕ
  | .getIoBaseAddr => ior 0x80
  | .getMemBaseAddr => ior 0x81
  | .readConfig .byte => ior 0x82
  | .readConfig .word => ior 0x83
  | .readConfig .dword => ior 0x84
  | .writeConfig .byte => iow 0x85
  | .writeConfig .word => iow 0x86
  | .writeConfig .dword => iow 0x87
  | .readIo .byte => ior 0x88
  | .readIo .word => ior 0x89
  | .readIo .dword => ior 0x8a
  | .writeIo .byte => iow 0x8b
  | .writeIo .word => iow 0x8c
  | .writeIo .dword => iow 0x8d
  | .readMem .byte => ior 0x8e
  | .readMem .word => ior 0x8f
  | .readMem .dword => ior 0x90
  | .writeMem .byte => iow 0x91
  | .writeMem .word => iow 0x92
  | .writeMem .dword => iow 0x93
  | .readMemBlock => ior 0x94
  | .writeMemBlock => iow 0x95
  | .enableInt => iow 0x96
  | .disableInt => iow 0x97
  | .getChiptype => ior 0x98
  | .getVersion => ior 0x99
  | .setStream => iow 0x9a
  | .streamSpi => iowr 0x9b

def Width.all : List Width := [.byte, .word, .dword]

def Command.all : List Command :=
  [.getChiptype, .getVersion, .enableInt, .disableInt, .getIoBaseAddr, .getMemBaseAddr] ++
    Width.all.map readConfig ++ Width.all.map writeConfig ++ Width.all.map readIo ++
    Width.all.map writeIo ++ Width.all.map readMem ++ Width.all.map writeMem ++
    [.readMemBlock, .writeMemBlock, .setStream, .streamSpi]

/-- The `case` that a number takes, if it takes one. -/
def Command.ofNumber (n : ℕ) : Option Command := Command.all.find? fun c => c.number = n

/-- The numbers of the commands are distinct. -/
theorem ofNumber_number (c : Command) : Command.ofNumber c.number = some c := by
  cases c with
  | readConfig w | writeConfig w | readIo w | writeIo w | readMem w | writeMem w =>
    cases w <;> rfl
  | _ => rfl

/-! ## Accesses to the chip -/

section Accesses

variable {δ : Type} (hw : Hardware) (l : Abi) (n : ℕ) (s : State δ)

/-- A read of a register, delivered to the caller as `n` bytes. -/
def regRead (space : Space) (w : Width) (addr arg : ℕ) : State δ × ℤ :=
  let (val, s) := s.input hw space w addr
  s.putUser n arg val

@[simp] theorem regRead_log (space : Space) (w : Width) (addr p : ℕ) :
    (regRead hw n s space w addr p).1.log = s.log ++ [.read space w addr] := by
  simp [regRead, State.input]

/-- **A register delivered as too many bytes** does what is meant, unless it spills. -/
theorem regRead_eq_iff {m : ℕ} (space : Space) {w : Width} (addr p : ℕ) (hw' : w.bytes ≤ m)
    (hle : m ≤ n) :
    regRead hw n s space w addr p = regRead hw m s space w addr p ↔ ¬ s.user.Spills p m n := by
  have hval : hw.read s.log space w addr % 256 ^ w.bytes < 256 ^ m :=
    Nat.lt_of_lt_of_le (Nat.mod_lt _ (Nat.pow_pos (by decide)))
      (Nat.pow_le_pow_right (by decide) hw')
  exact State.putUser_eq_iff hle hval

/-- A write of a register, whose value is read from the caller as a `long`. -/
def regWrite (space : Space) (w : Width) (addr arg : ℕ) : State δ × ℤ :=
  let (val, retval) := s.getUser l.long arg
  if retval ≠ 0 then (s, retval) else (s.output space w val addr, retval)

/-- What `pci_read_config_word` and the like return is not looked at. -/
def cfgRead (w : Width) (offset arg : ℕ) : State δ × ℤ :=
  let (val, s) := s.pciReadConfig hw w offset
  s.putUser l.long arg val

def cfgWrite (w : Width) (offset arg : ℕ) : State δ × ℤ :=
  let (val, retval) := s.getUser l.long arg
  if retval ≠ 0 then (s, retval) else (s.pciWriteConfig w val offset, retval)

variable {hw l s} in
theorem cfgRead_of_dvd {w : Width} {offset : ℕ} (h : w.bytes ∣ offset) (arg : ℕ) :
    cfgRead hw l s w offset arg = regRead hw l.long s .config w offset arg := by
  rw [cfgRead, State.pciReadConfig_of_dvd h]
  rfl

/-- A read that the kernel refuses delivers a value without any access to the chip. -/
@[simp] theorem cfgRead_log (w : Width) (offset arg : ℕ) :
    (cfgRead hw l s w offset arg).1.log =
      s.log ++ if w.bytes ∣ offset then [.read .config w offset] else [] := by
  rw [← State.pciReadConfig_log]
  exact State.putUser_log _

def ioRead : Width → ℕ → ℕ → State δ × ℤ := regRead hw l.long s .io
def ioWrite : Width → ℕ → ℕ → State δ × ℤ := regWrite l s .io
def mmioRead : Width → ℕ → ℕ → State δ × ℤ := regRead hw l.long s .mem
def mmioWrite : Width → ℕ → ℕ → State δ × ℤ := regWrite l s .mem

/-- `copy_to_user` out of the memory of the chip. -/
def memReadBlock (addr buf size : ℕ) : State δ × ℤ :=
  let src := load (hw.byte s.log) addr size
  let (s, retval) := (s.push [.readBlock addr size]).copyToUser buf src
  (s, retval)

/-- `copy_from_user` into the memory of the chip, which gets zeros for what faults. -/
def memWriteBlock (addr buf size : ℕ) : State δ × ℤ :=
  let (bytes, retval) := s.user.copyFromUser buf size
  (s.push [.writeBlock addr bytes], retval)

end Accesses

/-! ## The switch -/

def VERSION_DESC : List UInt8 := "V1.21 On 2021.02.04".toList.map fun c => UInt8.ofNat c.toNat

section Switch

variable (hw : Hardware) (l : Abi) (kmalloc : Bool)

/-- The argument `i` of a command: a `long` of the caller, unchecked. -/
def State.arg (s : State Ch36xDev) (p i : ℕ) : ℕ := (s.getUser l.long (p + i * l.long)).1

/-- The cases of the switch. -/
def ioctlCase (s : State Ch36xDev) (arg : ℕ) : Command → State Ch36xDev × ℤ
  | .getChiptype => s.putUser l.long arg s.dev.chiptype.number
  | .getVersion =>
    let (s, retval) := s.copyToUser arg VERSION_DESC
    (s, retval)
  | .enableInt => (enableInterrupts hw s (BitVec.ofNat 32 (s.arg l arg 0)), 0)
  | .disableInt => (disableInterrupts hw s, 0)
  | .getIoBaseAddr => s.putUser l.long arg s.dev.ioaddr
  | .getMemBaseAddr => s.putUser l.long arg s.dev.memaddr
  | .readConfig w => cfgRead hw l s w (s.arg l arg 0 % 256) (s.arg l arg 1)
  | .writeConfig w => cfgWrite l s w (s.arg l arg 0 % 256) (arg + l.long)
  | .readIo w => ioRead hw l s w (s.arg l arg 0) (s.arg l arg 1)
  | .writeIo w => ioWrite l s w (s.arg l arg 0) (arg + l.long)
  | .readMem w => mmioRead hw l s w (s.arg l arg 0) (s.arg l arg 1)
  | .writeMem w => mmioWrite l s w (s.arg l arg 0) (arg + l.long)
  | .readMemBlock => memReadBlock hw s (s.arg l arg 0) (s.arg l arg 1) (s.arg l arg 2)
  | .writeMemBlock => memWriteBlock s (s.arg l arg 0) (s.arg l arg 1) (s.arg l arg 2)
  | .setStream => ({ s with dev.spimode := s.arg l arg 0 }, 0)
  | .streamSpi =>
    streamSpi hw kmalloc s (s.arg l arg 0) (s.arg l arg 1) (s.arg l arg 2) (s.arg l arg 3)

def ioctlDo (s : State Ch36xDev) (cmd arg : ℕ) : State Ch36xDev × ℤ :=
  match Command.ofNumber cmd with
  | some c => ioctlCase hw l kmalloc s arg c
  | none => (s, -EINVAL)

/-- A number takes its own case. -/
theorem ioctlDo_number (s : State Ch36xDev) (c : Command) (arg : ℕ) :
    ioctlDo hw l kmalloc s c.number arg = ioctlCase hw l kmalloc s arg c := by
  rw [ioctlDo, ofNumber_number]

end Switch

end LinuxStack.Ch36x
