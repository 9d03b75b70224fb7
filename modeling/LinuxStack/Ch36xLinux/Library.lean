import LinuxStack.Ch36x.Library
import LinuxStack.Ch36xLinux.Ioctl

/-!
# The library of the first driver

Each function of `CH36X_LINUX/lib/ch36x_lib.c` fills a struct of its arguments on the stack and
passes its address to `ioctl`. It answers whether that succeeded, in a `BOOL`: the functions for
blocks of ports answer -1 if it did not, which is true to a caller.

## Main definitions

* `ch36xGetDrvVer` to `ch36xWriteMemBlock`: what the functions of the library pass to `ioctl`
* `Request`, `Request.ioctl`: a call of the library, and the `ioctl` it makes, if it makes one
* `Request.onError`: what the call answers if the `ioctl` fails
* `Request.perform`: what the call asks for
-/

namespace LinuxStack.Ch36xLinux.Wire

open Memory
open Ch36x (Abi Argument Hardware Space Width)

/-- The size of `UCHAR`, `USHORT` and `ULONG`, which is a `long`. -/
def valueBytes (l : Abi) : Width → ℕ
  | .byte => 1
  | .word => 2
  | .dword => l.long

/-! ## The functions -/

section Functions

variable (l : Abi)

/-- `struct { PVOID iAddr; PUCHAR oByte; }`, and the same for the other widths. -/
def libRead (cmd : Command) (iAddr oByte : l.Ulong) : Ch36x.Ioctl :=
  ⟨cmd.number, .struct [⟨l.long, iAddr.toNat⟩, ⟨l.long, oByte.toNat⟩]⟩

def ch36xReadConfig := libRead l (.readConfig .byte)
def ch36xReadConfigWord := libRead l (.readConfig .word)
def ch36xReadConfigDword := libRead l (.readConfig .dword)
def ch36xReadIoByte := libRead l (.readIo .byte)
def ch36xReadIoWord := libRead l (.readIo .word)
def ch36xReadIoDword := libRead l (.readIo .dword)
def ch36xReadMemByte := libRead l (.readMem .byte)
def ch36xReadMemWord := libRead l (.readMem .word)
def ch36xReadMemDword := libRead l (.readMem .dword)

/-- `struct { PVOID iAddr; UCHAR iByte; }`, and the same for the other widths. -/
def libWrite (cmd : Command) (w : Width) (iAddr : l.Ulong)
    (iByte : BitVec (8 * valueBytes l w)) : Ch36x.Ioctl :=
  ⟨cmd.number, .struct [⟨l.long, iAddr.toNat⟩, ⟨valueBytes l w, iByte.toNat⟩]⟩

def ch36xWriteConfig := libWrite l (.writeConfig .byte) .byte
def ch36xWriteConfigWord := libWrite l (.writeConfig .word) .word
def ch36xWriteConfigDword := libWrite l (.writeConfig .dword) .dword
def ch36xWriteIoByte := libWrite l (.writeIo .byte) .byte
def ch36xWriteIoWord := libWrite l (.writeIo .word) .word
def ch36xWriteIoDword := libWrite l (.writeIo .dword) .dword
def ch36xWriteMemByte := libWrite l (.writeMem .byte) .byte
def ch36xWriteMemWord := libWrite l (.writeMem .word) .word
def ch36xWriteMemDword := libWrite l (.writeMem .dword) .dword

/-- `struct { PVOID iAddr; PUCHAR oByte; ULONG oLength; }`. -/
def libBlock (cmd : Command) (iAddr oByte oLength : l.Ulong) : Ch36x.Ioctl :=
  ⟨cmd.number, .struct [⟨l.long, iAddr.toNat⟩, ⟨l.long, oByte.toNat⟩, ⟨l.long, oLength.toNat⟩]⟩

def ch36xReadIoBlock := libBlock l .readIoBlock
def ch36xWriteIoBlock := libBlock l .writeIoBlock
def ch36xReadMemBlock := libBlock l .readMemBlock
def ch36xWriteMemBlock := libBlock l .writeMemBlock

def libPointer (cmd : Command) (p : l.Ulong) : Ch36x.Ioctl := ⟨cmd.number, .pointer p.toNat⟩

def ch36xGetDrvVer := libPointer l .getDrvVersion
def ch36xGetIoBaseAddr := libPointer l .getIoBaseAddr
def ch36xGetMemBaseAddr := libPointer l .getMemBaseAddr
def ch36xGetIntLine := libPointer l .getIntLine

/-- The address of the parameter. -/
def ch36xSetIntLine (iIntLine : l.Ulong) : Ch36x.Ioctl :=
  ⟨Command.setIntLine.number, .struct [⟨l.long, iIntLine.toNat⟩]⟩

end Functions

/-! ## Requests -/

/-- A call of the library, with its arguments. -/
inductive Request (l : Abi) where
  | getDrvVer (drvVersion : l.Ulong)
  | getIoBaseAddr (oIoBaseAddr : l.Ulong)
  | setIoBaseAddr (iIoBaseAddr : l.Ulong)
  | getMemBaseAddr (oMemBaseAddr : l.Ulong)
  | setMemBaseAddr (iMemBaseAddr : l.Ulong)
  | getIntLine (oIntLine : l.Ulong)
  | setIntLine (iIntLine : l.Ulong)
  | readConfig (w : Width) (iOffset oByte : l.Ulong)
  | writeConfig (w : Width) (iOffset : l.Ulong) (iByte : BitVec (8 * valueBytes l w))
  | readIo (w : Width) (iAddr oByte : l.Ulong)
  | writeIo (w : Width) (iAddr : l.Ulong) (iByte : BitVec (8 * valueBytes l w))
  | readMem (w : Width) (iAddr oByte : l.Ulong)
  | writeMem (w : Width) (iAddr : l.Ulong) (iByte : BitVec (8 * valueBytes l w))
  | readIoBlock (iAddr oByte oLength : l.Ulong)
  | writeIoBlock (iAddr iByte iLength : l.Ulong)
  | readMemBlock (iAddr oByte oLength : l.Ulong)
  | writeMemBlock (iAddr iByte iLength : l.Ulong)

namespace Request

variable {l : Abi}

/-- The `ioctl` of a call, if it makes one. -/
def ioctl : Request l → Option Ch36x.Ioctl
  | .getDrvVer p => some (ch36xGetDrvVer l p)
  | .getIoBaseAddr p => some (ch36xGetIoBaseAddr l p)
  | .setIoBaseAddr _ => none
  | .getMemBaseAddr p => some (ch36xGetMemBaseAddr l p)
  | .setMemBaseAddr _ => none
  | .getIntLine p => some (ch36xGetIntLine l p)
  | .setIntLine iIntLine => some (ch36xSetIntLine l iIntLine)
  | .readConfig .byte iOffset oByte => some (ch36xReadConfig l iOffset oByte)
  | .readConfig .word iOffset oByte => some (ch36xReadConfigWord l iOffset oByte)
  | .readConfig .dword iOffset oByte => some (ch36xReadConfigDword l iOffset oByte)
  | .writeConfig .byte iOffset iByte => some (ch36xWriteConfig l iOffset iByte)
  | .writeConfig .word iOffset iByte => some (ch36xWriteConfigWord l iOffset iByte)
  | .writeConfig .dword iOffset iByte => some (ch36xWriteConfigDword l iOffset iByte)
  | .readIo .byte iAddr oByte => some (ch36xReadIoByte l iAddr oByte)
  | .readIo .word iAddr oByte => some (ch36xReadIoWord l iAddr oByte)
  | .readIo .dword iAddr oByte => some (ch36xReadIoDword l iAddr oByte)
  | .writeIo .byte iAddr iByte => some (ch36xWriteIoByte l iAddr iByte)
  | .writeIo .word iAddr iByte => some (ch36xWriteIoWord l iAddr iByte)
  | .writeIo .dword iAddr iByte => some (ch36xWriteIoDword l iAddr iByte)
  | .readMem .byte iAddr oByte => some (ch36xReadMemByte l iAddr oByte)
  | .readMem .word iAddr oByte => some (ch36xReadMemWord l iAddr oByte)
  | .readMem .dword iAddr oByte => some (ch36xReadMemDword l iAddr oByte)
  | .writeMem .byte iAddr iByte => some (ch36xWriteMemByte l iAddr iByte)
  | .writeMem .word iAddr iByte => some (ch36xWriteMemWord l iAddr iByte)
  | .writeMem .dword iAddr iByte => some (ch36xWriteMemDword l iAddr iByte)
  | .readIoBlock iAddr oByte oLength => some (ch36xReadIoBlock l iAddr oByte oLength)
  | .writeIoBlock iAddr iByte iLength => some (ch36xWriteIoBlock l iAddr iByte iLength)
  | .readMemBlock iAddr oByte oLength => some (ch36xReadMemBlock l iAddr oByte oLength)
  | .writeMemBlock iAddr iByte iLength => some (ch36xWriteMemBlock l iAddr iByte iLength)

/-- What a call answers if its `ioctl` fails. -/
def onError : Request l → ℤ
  | .readIoBlock .. | .writeIoBlock .. => -1
  | _ => 0

section Perform

variable (hw : Hardware) (s : Io)

/-- The answer of a call that reports what failed: false, or true. -/
def report {ι : Type} (r : Io × ι) [DecidableEq ι] [Zero ι] : Io × ℤ :=
  (r.1, if r.2 ≠ 0 then 0 else 1)

/-- What a call asks the driver to do, in terms of its own arguments. -/
def perform : Request l → Io × ℤ
  | .getDrvVer p => report (s.copyToUser p.toNat DRV_VERSION)
  | .getIoBaseAddr p => report (s.putUser l.long p.toNat s.dev.ioVirtsAddr)
  | .setIoBaseAddr _ => (s, 1)
  | .getMemBaseAddr p => report (s.putUser l.long p.toNat s.dev.memVirtsAddr)
  | .setMemBaseAddr _ => (s, 1)
  | .getIntLine p => report (s.putUser l.long p.toNat s.dev.irq)
  | .setIntLine iIntLine => (s.output .config .byte iIntLine.toNat OFFSET_INT_LINE, 1)
  | .readConfig w iOffset oByte =>
    report (Ch36x.regRead hw (valueBytes l w) s .config w iOffset.toNat oByte.toNat)
  | .writeConfig w iOffset iByte => (s.output .config w iByte.toNat iOffset.toNat, 1)
  | .readIo w iAddr oByte | .readMem w iAddr oByte =>
    report (Ch36x.regRead hw (valueBytes l w) s .mem w iAddr.toNat oByte.toNat)
  | .writeIo w iAddr iByte | .writeMem w iAddr iByte =>
    (s.output .mem w iByte.toNat iAddr.toNat, 1)
  | .readIoBlock iAddr oByte oLength =>
    if CH365_IO_SPACE_RANGE < oLength.toNat then (s, 0)
    else (ioReadLoop hw s iAddr.toNat oByte.toNat oLength.toNat,
      if ∀ i < oLength.toNat, s.user.fault (oByte.toNat + i) 1 = none then 1 else 0)
  | .writeIoBlock iAddr iByte iLength =>
    if CH365_IO_SPACE_RANGE < iLength.toNat then (s, 0)
    else (ioWriteLoop s iAddr.toNat iByte.toNat iLength.toNat,
      if ∀ i < iLength.toNat, s.user.fault (iByte.toNat + i) 1 = none then 1 else 0)
  | .readMemBlock iAddr oByte oLength =>
    if CH365_MEM_SPACE_RANGE < oLength.toNat then (s, 0)
    else report (Ch36x.memReadBlock hw s iAddr.toNat oByte.toNat oLength.toNat)
  | .writeMemBlock iAddr iByte iLength =>
    if CH365_MEM_SPACE_RANGE < iLength.toNat then (s, 0)
    else report (Ch36x.memWriteBlock s iAddr.toNat iByte.toNat iLength.toNat)

end Perform

end Request

end LinuxStack.Ch36xLinux.Wire
