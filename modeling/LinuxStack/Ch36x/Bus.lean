import LinuxStack.Kernel.Uaccess
import LinuxStack.Memory.Layout
import Mathlib.Data.Int.Notation

/-!
# The CH36x driver, its device and its caller

`drv/ch36x.c` reaches a PCI chip through its configuration space, its I/O ports and its memory,
and the memory of the calling process through `get_user`, `put_user` and block copies. The chip is
anything that answers from the accesses made so far. What the calls keep of the device is a
parameter: there are two drivers.

## Main definitions

* `Abi`: the size of a `long`
* `Access`, `Hardware`: an access to the chip, and how a chip answers
* `User`: the memory of the caller, and where it faults
* `Ch36xDev`, `State`: `struct ch36x_dev`, and the state of a call
* `State.push`, `State.input`, `State.output`, `State.getUser`, `State.putUser`: the accesses of
  a call
* `State.pciReadConfig`, `State.pciWriteConfig`: what the kernel does for the configuration space

## Main results

* `State.inb_eq`, `State.outb_eq`: an access to a register is one more access in the log
* `State.getUser_of_ok`: an access to the caller that does not fault
* `State.putUser_eq_iff`: when a `put_user` of too many bytes shows
-/

namespace LinuxStack.Ch36x

open Memory

/-! ## The caller -/

/-- The sizes of C types that differ between machines: a `long` has four or eight bytes. -/
structure Abi where
  long : ℕ
  long_eq : long = 4 ∨ long = 8

/-- An `unsigned long`, or a pointer. -/
abbrev Abi.Ulong (l : Abi) := BitVec (8 * l.long)

theorem Abi.long_pos (l : Abi) : 0 < l.long := by
  rcases l.long_eq with h | h <;> omega

/-- A value of some bytes is below their range. -/
theorem toNat_mod_bytes {n : ℕ} (x : BitVec (8 * n)) : x.toNat % 256 ^ n = x.toNat := by
  have hpow : 2 ^ (8 * n) = 256 ^ n := Nat.pow_mul 2 8 n
  exact Nat.mod_eq_of_lt (hpow ▸ x.isLt)

/-- The memory of a process. An access of some bytes at an address faults after some of them, or
does not fault. -/
structure User where
  byte : ℕ → UInt8
  fault : ℕ → ℕ → Option ℕ

/-- A process whose memory is zero and never faults. -/
def User.zero : User := ⟨fun _ => 0, fun _ _ => none⟩

/-- `copy_from_user`: the bytes stored, and the number not copied. -/
def User.copyFromUser (u : User) (p n : ℕ) : List UInt8 × ℕ :=
  (stored (load u.byte p n) (u.fault p n), uncopied n (u.fault p n))

/-- `copy_to_user`: the caller afterwards, and the number not copied. -/
def User.copyToUser (u : User) (p : ℕ) (src : List UInt8) : User × ℕ :=
  let (delivered, left) := LinuxStack.copyToUser src (u.fault p src.length)
  ({ u with byte := store u.byte p delivered }, left)

/-! ## The chip -/

inductive Space
  | config
  | io
  | mem
  deriving DecidableEq

/-- `SIZE_BYTE`, `SIZE_WORD` and `SIZE_DWORD`. -/
inductive Width
  | byte
  | word
  | dword
  deriving DecidableEq

def Width.bytes : Width → ℕ
  | .byte => 1
  | .word => 2
  | .dword => 4

/-- An access to the chip. The block copies go to its memory. -/
inductive Access where
  | read (space : Space) (width : Width) (addr : ℕ)
  | write (space : Space) (width : Width) (addr val : ℕ)
  | readBlock (addr n : ℕ)
  | writeBlock (addr : ℕ) (bytes : List UInt8)
  deriving DecidableEq

/-- A chip: what it answers, after some accesses. Beside it, what a local variable of the driver
holds that nobody has set. -/
structure Hardware where
  read : List Access → Space → Width → ℕ → ℕ
  byte : List Access → ℕ → UInt8
  unset : List Access → Width → ℕ

/-! ## The driver -/

/-- `enum CHIP_TYPE`. -/
inductive ChipType
  | ch365
  | ch367
  | ch368
  deriving DecidableEq

def ChipType.number : ChipType → ℕ
  | .ch365 => 1
  | .ch367 => 2
  | .ch368 => 3

/-- What the calls read and write of `struct ch36x_dev`. Nothing keeps `intmode` among the values
of `enum INTMODE`. -/
structure Ch36xDev where
  chiptype : ChipType
  ioaddr : ℕ
  memaddr : ℕ
  intmode : BitVec 32
  spimode : ℕ

/-- A device after its probe, which allocates it zeroed. -/
def Ch36xDev.probed (chiptype : ChipType) (ioaddr memaddr : ℕ) : Ch36xDev :=
  ⟨chiptype, ioaddr, memaddr, 0, 0⟩

/-- The state of a call: the device, the accesses to it so far, and the caller. -/
structure State (δ : Type) where
  dev : δ
  log : List Access
  user : User

def EFAULT : ℕ := 14

def EINVAL : ℕ := 22

def ENOMEM : ℕ := 12

namespace State

variable {δ : Type} (hw : Hardware) (n : ℕ) (s : State δ)

/-- The state after some more accesses. -/
def push (as : List Access) : State δ := { s with log := s.log ++ as }

/-- `inb`, `ioread8` and the wider ones. -/
def input (space : Space) (w : Width) (addr : ℕ) : ℕ × State δ :=
  (hw.read s.log space w addr % 256 ^ w.bytes, s.push [.read space w addr])

/-- `outb`, `iowrite8` and the wider ones. -/
def output (space : Space) (w : Width) (val addr : ℕ) : State δ :=
  s.push [.write space w addr (val % 256 ^ w.bytes)]

/-- The byte that the chip answers to a read. -/
def answer (space : Space) (addr : ℕ) : BitVec 8 :=
  BitVec.ofNat 8 (hw.read s.log space .byte addr)

/-- A read of a register, as a byte. -/
def readByte (space : Space) (addr : ℕ) : BitVec 8 × State δ :=
  let (val, s) := s.input hw space .byte addr
  (BitVec.ofNat 8 val, s)

/-- A write of a register, as a byte. -/
def writeByte (space : Space) (val : BitVec 8) (addr : ℕ) : State δ :=
  s.output space .byte val.toNat addr

def inb (addr : ℕ) : BitVec 8 × State δ := s.readByte hw .io addr

def outb (val : BitVec 8) (addr : ℕ) : State δ := s.writeByte .io val addr

def pciReadConfigByte (addr : ℕ) : BitVec 8 × State δ := s.readByte hw .config addr

def pciWriteConfigByte (val : BitVec 8) (addr : ℕ) : State δ := s.writeByte .config val addr

/-- `pci_read_config_byte` and the wider ones, into a local variable that is not set before. The
kernel refuses an offset that is not aligned: it does not access the chip, nor the variable. -/
def pciReadConfig (w : Width) (offset : ℕ) : ℕ × State δ :=
  if w.bytes ∣ offset then s.input hw .config w offset
  else (hw.unset s.log w % 256 ^ w.bytes, s)

/-- `pci_write_config_byte` and the wider ones, with the same refusal. -/
def pciWriteConfig (w : Width) (val offset : ℕ) : State δ :=
  if w.bytes ∣ offset then s.output .config w val offset else s

/-- `get_user` of `n` bytes, which reads zero where it faults. -/
def getUser (p : ℕ) : ℕ × ℤ :=
  match s.user.fault p n with
  | none => (loadWord s.user.byte p n, 0)
  | some _ => (0, -EFAULT)

/-- `put_user` of `n` bytes. -/
def putUser (p val : ℕ) : State δ × ℤ :=
  match s.user.fault p n with
  | none => ({ s with user.byte := storeWord s.user.byte p n val }, 0)
  | some _ => (s, -EFAULT)

/-- `copy_to_user`. -/
def copyToUser (p : ℕ) (src : List UInt8) : State δ × ℕ :=
  let (user, left) := s.user.copyToUser p src
  ({ s with user := user }, left)

variable {hw n s} {p : ℕ}

@[simp] theorem push_dev (as : List Access) : (s.push as).dev = s.dev := rfl

@[simp] theorem push_user (as : List Access) : (s.push as).user = s.user := rfl

@[simp] theorem push_log (as : List Access) : (s.push as).log = s.log ++ as := rfl

@[simp] theorem push_nil : s.push [] = s := by simp [push]

@[simp] theorem push_push (as bs : List Access) : (s.push as).push bs = s.push (as ++ bs) := by
  simp [push, List.append_assoc]

/-- An access that is made under a condition. -/
@[simp] theorem ite_push (c : Prop) [Decidable c] (as bs : List Access) :
    (if c then s.push (as ++ bs) else s.push as) = s.push (as ++ if c then bs else []) := by
  split <;> simp

theorem readByte_eq (space : Space) (addr : ℕ) :
    s.readByte hw space addr = (s.answer hw space addr, s.push [.read space .byte addr]) := by
  have hmod : BitVec.ofNat 8 (hw.read s.log space .byte addr % 256 ^ Width.byte.bytes) =
      s.answer hw space addr := BitVec.eq_of_toNat_eq (Nat.mod_mod _ _)
  simp [readByte, input, hmod]

theorem writeByte_eq (space : Space) (val : BitVec 8) (addr : ℕ) :
    s.writeByte space val addr = s.push [.write space .byte addr val.toNat] := by
  have hmod : val.toNat % 256 ^ Width.byte.bytes = val.toNat := Nat.mod_eq_of_lt val.isLt
  rw [writeByte, output, hmod]

@[simp] theorem inb_eq (addr : ℕ) :
    s.inb hw addr = (s.answer hw .io addr, s.push [.read .io .byte addr]) := readByte_eq .io addr

@[simp] theorem outb_eq (val : BitVec 8) (addr : ℕ) :
    s.outb val addr = s.push [.write .io .byte addr val.toNat] := writeByte_eq .io val addr

@[simp] theorem pciReadConfigByte_eq (addr : ℕ) :
    s.pciReadConfigByte hw addr =
      (s.answer hw .config addr, s.push [.read .config .byte addr]) := readByte_eq .config addr

@[simp] theorem pciWriteConfigByte_eq (val : BitVec 8) (addr : ℕ) :
    s.pciWriteConfigByte val addr = s.push [.write .config .byte addr val.toNat] :=
  writeByte_eq .config val addr

theorem pciReadConfig_of_dvd {w : Width} {offset : ℕ} (h : w.bytes ∣ offset) :
    s.pciReadConfig hw w offset = s.input hw .config w offset := if_pos h

theorem pciWriteConfig_of_dvd {w : Width} {offset : ℕ} (h : w.bytes ∣ offset) (val : ℕ) :
    s.pciWriteConfig w val offset = s.output .config w val offset := if_pos h

/-- What a read of the configuration space does to the chip. -/
theorem pciReadConfig_log (w : Width) (offset : ℕ) :
    (s.pciReadConfig hw w offset).2.log =
      s.log ++ if w.bytes ∣ offset then [.read .config w offset] else [] := by
  unfold pciReadConfig
  split <;> simp [input]

theorem pciWriteConfig_log (w : Width) (val offset : ℕ) :
    (s.pciWriteConfig w val offset).log =
      s.log ++ if w.bytes ∣ offset then [.write .config w offset (val % 256 ^ w.bytes)] else [] := by
  unfold pciWriteConfig
  split <;> simp [output]

@[simp] theorem putUser_log (val : ℕ) : (s.putUser n p val).1.log = s.log := by
  unfold putUser
  split <;> rfl

@[simp] theorem copyToUser_log (src : List UInt8) : (s.copyToUser p src).1.log = s.log := rfl

theorem getUser_of_ok (h : s.user.fault p n = none) :
    s.getUser n p = (loadWord s.user.byte p n, 0) := by
  rw [getUser, h]

end State

/-- A store of `n` bytes shows, where `m` of them are meant: it faults and the other does not or
the other way round, or what lies behind is not zero. -/
def User.Spills (u : User) (p m n : ℕ) : Prop :=
  (u.fault p m).isSome ≠ (u.fault p n).isSome ∨
    u.fault p n = none ∧ loadWord u.byte (p + m) (n - m) ≠ 0

/-- **A `put_user` of more bytes** than the value needs does what one of fewer bytes does, unless
it spills. -/
theorem State.putUser_eq_iff {δ : Type} {s : State δ} {p m n v : ℕ} (hle : m ≤ n)
    (hv : v < 256 ^ m) : s.putUser n p v = s.putUser m p v ↔ ¬ s.user.Spills p m n := by
  unfold putUser User.Spills
  cases hm : s.user.fault p m <;> cases hn : s.user.fault p n
  · simp [storeWord_eq_storeWord_iff hle hv]
  all_goals simp [EFAULT]

end LinuxStack.Ch36x
