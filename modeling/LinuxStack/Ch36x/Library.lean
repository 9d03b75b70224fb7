import LinuxStack.Ch36x.Ioctl

/-!
# The library

Each function of `lib/ch36x_lib.c` fills a struct of its arguments on the stack, in most cases,
and passes its address to `ioctl`. The values of a write are members of their own width.

## Main definitions

* `Ioctl`: the command and the argument of an `ioctl`
* `ch36xReadConfigByte` to `ch36xStreamSpi`: the functions of the library
* `Request`, `Request.ioctl`: a call of the library, and the `ioctl` it makes, if it makes one
* `Request.perform`: what the call asks for
-/

namespace LinuxStack.Ch36x

open Memory

/-- What a function of the library passes to `ioctl`: a struct on its stack, or a pointer. -/
inductive Argument where
  | struct (members : List Member)
  | pointer (p : ℕ)

structure Ioctl where
  cmd : ℕ
  arg : Argument

/-! ## The functions -/

section Functions

variable (l : Abi)

/-- `struct { uint8_t offset; uintN_t *out; }`. -/
def libReadConfig (w : Width) (offset : BitVec 8) (out : l.Ulong) : Ioctl :=
  ⟨(Command.readConfig w).number, .struct [⟨1, offset.toNat⟩, ⟨l.long, out.toNat⟩]⟩

def ch36xReadConfigByte := libReadConfig l .byte
def ch36xReadConfigWord := libReadConfig l .word
def ch36xReadConfigDword := libReadConfig l .dword

/-- `struct { uint8_t offset; uintN_t in; }`. -/
def libWriteConfig (w : Width) (offset : BitVec 8) (val : BitVec (8 * w.bytes)) : Ioctl :=
  ⟨(Command.writeConfig w).number, .struct [⟨1, offset.toNat⟩, ⟨w.bytes, val.toNat⟩]⟩

def ch36xWriteConfigByte := libWriteConfig .byte
def ch36xWriteConfigWord := libWriteConfig .word
def ch36xWriteConfigDword := libWriteConfig .dword

/-- `struct { unsigned long addr; uintN_t *out; }`. -/
def libRead (cmd : Command) (addr out : l.Ulong) : Ioctl :=
  ⟨cmd.number, .struct [⟨l.long, addr.toNat⟩, ⟨l.long, out.toNat⟩]⟩

def ch36xReadIoByte := libRead l (.readIo .byte)
def ch36xReadIoWord := libRead l (.readIo .word)
def ch36xReadIoDword := libRead l (.readIo .dword)
def ch36xReadMemByte := libRead l (.readMem .byte)
def ch36xReadMemWord := libRead l (.readMem .word)
def ch36xReadMemDword := libRead l (.readMem .dword)

/-- `struct { unsigned long addr; uintN_t in; }`. -/
def libWrite (cmd : Command) (w : Width) (addr : l.Ulong) (val : BitVec (8 * w.bytes)) : Ioctl :=
  ⟨cmd.number, .struct [⟨l.long, addr.toNat⟩, ⟨w.bytes, val.toNat⟩]⟩

def ch36xWriteIoByte := libWrite l (.writeIo .byte) .byte
def ch36xWriteIoWord := libWrite l (.writeIo .word) .word
def ch36xWriteIoDword := libWrite l (.writeIo .dword) .dword
def ch36xWriteMemByte := libWrite l (.writeMem .byte) .byte
def ch36xWriteMemWord := libWrite l (.writeMem .word) .word
def ch36xWriteMemDword := libWrite l (.writeMem .dword) .dword

/-- `sizeof(mCH368_MEM_REG)`, which is also `mMAX_BUFFER_LENGTH`. -/
def mMAX_BUFFER_LENGTH : ℕ := 0x8000

/-- `struct { unsigned long memaddr; uint8_t *buffer; unsigned long len; }`. -/
def libBlock (cmd : Command) (memaddr buffer len : l.Ulong) : Option Ioctl :=
  if len.toNat = 0 ∨ mMAX_BUFFER_LENGTH < len.toNat then none
  else some ⟨cmd.number,
    .struct [⟨l.long, memaddr.toNat⟩, ⟨l.long, buffer.toNat⟩, ⟨l.long, len.toNat⟩]⟩

def ch36xReadMemBlock := libBlock l .readMemBlock
def ch36xWriteMemBlock := libBlock l .writeMemBlock

def ch36xGetChiptype (chiptype : l.Ulong) : Ioctl :=
  ⟨Command.getChiptype.number, .pointer chiptype.toNat⟩

def ch36xGetVersion (version : l.Ulong) : Ioctl :=
  ⟨Command.getVersion.number, .pointer version.toNat⟩

def ch36xGetIoaddr (ioaddr : l.Ulong) : Ioctl :=
  ⟨Command.getIoBaseAddr.number, .pointer ioaddr.toNat⟩

def ch36xGetMemaddr (memaddr : l.Ulong) : Ioctl :=
  ⟨Command.getMemBaseAddr.number, .pointer memaddr.toNat⟩

/-- The address of the parameter, an `enum` of four bytes. -/
def ch36xEnableIsr (mode : BitVec 32) : Ioctl :=
  ⟨Command.enableInt.number, .struct [⟨4, mode.toNat⟩]⟩

def ch36xDisableIsr : Ioctl := ⟨Command.disableInt.number, .pointer 0⟩

/-- The address of the parameter, an `unsigned long`. -/
def ch36xSetStream (mode : l.Ulong) : Ioctl :=
  ⟨Command.setStream.number, .struct [⟨l.long, mode.toNat⟩]⟩

/-- `struct { uint8_t *ibuffer; unsigned long ilen; uint8_t *obuffer; unsigned long olen; }`. -/
def ch36xStreamSpi (ibuffer ilen obuffer olen : l.Ulong) : Option Ioctl :=
  if mMAX_BUFFER_LENGTH < ilen.toNat then none
  else if mMAX_BUFFER_LENGTH < olen.toNat then none
  else some ⟨Command.streamSpi.number,
    .struct [⟨l.long, ibuffer.toNat⟩, ⟨l.long, ilen.toNat⟩, ⟨l.long, obuffer.toNat⟩,
      ⟨l.long, olen.toNat⟩]⟩

end Functions

/-! ## Requests -/

/-- A call of the library, with its arguments. -/
inductive Request (l : Abi) where
  | getChiptype (chiptype : l.Ulong)
  | getVersion (version : l.Ulong)
  | getIoaddr (ioaddr : l.Ulong)
  | getMemaddr (memaddr : l.Ulong)
  | readConfig (w : Width) (offset : BitVec 8) (out : l.Ulong)
  | writeConfig (w : Width) (offset : BitVec 8) (val : BitVec (8 * w.bytes))
  | readIo (w : Width) (addr out : l.Ulong)
  | writeIo (w : Width) (addr : l.Ulong) (val : BitVec (8 * w.bytes))
  | readMem (w : Width) (addr out : l.Ulong)
  | writeMem (w : Width) (addr : l.Ulong) (val : BitVec (8 * w.bytes))
  | readMemBlock (memaddr buffer len : l.Ulong)
  | writeMemBlock (memaddr buffer len : l.Ulong)
  | enableIsr (mode : BitVec 32)
  | disableIsr
  | setStream (mode : l.Ulong)
  | streamSpi (ibuffer ilen obuffer olen : l.Ulong)

namespace Request

variable {l : Abi}

/-- The `ioctl` of a call, unless the library refuses it. -/
def ioctl : Request l → Option Ioctl
  | .getChiptype chiptype => some (ch36xGetChiptype l chiptype)
  | .getVersion version => some (ch36xGetVersion l version)
  | .getIoaddr ioaddr => some (ch36xGetIoaddr l ioaddr)
  | .getMemaddr memaddr => some (ch36xGetMemaddr l memaddr)
  | .readConfig .byte offset out => some (ch36xReadConfigByte l offset out)
  | .readConfig .word offset out => some (ch36xReadConfigWord l offset out)
  | .readConfig .dword offset out => some (ch36xReadConfigDword l offset out)
  | .writeConfig .byte offset val => some (ch36xWriteConfigByte offset val)
  | .writeConfig .word offset val => some (ch36xWriteConfigWord offset val)
  | .writeConfig .dword offset val => some (ch36xWriteConfigDword offset val)
  | .readIo .byte addr out => some (ch36xReadIoByte l addr out)
  | .readIo .word addr out => some (ch36xReadIoWord l addr out)
  | .readIo .dword addr out => some (ch36xReadIoDword l addr out)
  | .writeIo .byte addr val => some (ch36xWriteIoByte l addr val)
  | .writeIo .word addr val => some (ch36xWriteIoWord l addr val)
  | .writeIo .dword addr val => some (ch36xWriteIoDword l addr val)
  | .readMem .byte addr out => some (ch36xReadMemByte l addr out)
  | .readMem .word addr out => some (ch36xReadMemWord l addr out)
  | .readMem .dword addr out => some (ch36xReadMemDword l addr out)
  | .writeMem .byte addr val => some (ch36xWriteMemByte l addr val)
  | .writeMem .word addr val => some (ch36xWriteMemWord l addr val)
  | .writeMem .dword addr val => some (ch36xWriteMemDword l addr val)
  | .readMemBlock memaddr buffer len => ch36xReadMemBlock l memaddr buffer len
  | .writeMemBlock memaddr buffer len => ch36xWriteMemBlock l memaddr buffer len
  | .enableIsr mode => some (ch36xEnableIsr mode)
  | .disableIsr => some ch36xDisableIsr
  | .setStream mode => some (ch36xSetStream l mode)
  | .streamSpi ibuffer ilen obuffer olen => ch36xStreamSpi l ibuffer ilen obuffer olen

section Perform

variable (hw : Hardware) (kmalloc : Bool) (s : State Ch36xDev)

/-- What a call asks the driver to do, in terms of its own arguments. `enum CHIP_TYPE` has four
bytes. -/
def perform : Request l → State Ch36xDev × ℤ
  | .getChiptype chiptype => s.putUser 4 chiptype.toNat s.dev.chiptype.number
  | .getVersion version =>
    let (s, left) := s.copyToUser version.toNat VERSION_DESC
    (s, left)
  | .getIoaddr ioaddr => s.putUser l.long ioaddr.toNat s.dev.ioaddr
  | .getMemaddr memaddr => s.putUser l.long memaddr.toNat s.dev.memaddr
  | .readConfig w offset out => regRead hw w.bytes s .config w offset.toNat out.toNat
  | .writeConfig w offset val => (s.output .config w val.toNat offset.toNat, 0)
  | .readIo w addr out => regRead hw w.bytes s .io w addr.toNat out.toNat
  | .writeIo w addr val => (s.output .io w val.toNat addr.toNat, 0)
  | .readMem w addr out => regRead hw w.bytes s .mem w addr.toNat out.toNat
  | .writeMem w addr val => (s.output .mem w val.toNat addr.toNat, 0)
  | .readMemBlock memaddr buffer len =>
    if len.toNat = 0 ∨ mMAX_BUFFER_LENGTH < len.toNat then (s, -1)
    else memReadBlock hw s memaddr.toNat buffer.toNat len.toNat
  | .writeMemBlock memaddr buffer len =>
    if len.toNat = 0 ∨ mMAX_BUFFER_LENGTH < len.toNat then (s, -1)
    else memWriteBlock s memaddr.toNat buffer.toNat len.toNat
  | .enableIsr mode => (enableInterrupts hw s mode, 0)
  | .disableIsr => (disableInterrupts hw s, 0)
  | .setStream mode => ({ s with dev.spimode := mode.toNat }, 0)
  | .streamSpi ibuffer ilen obuffer olen =>
    if mMAX_BUFFER_LENGTH < ilen.toNat then (s, -1)
    else if mMAX_BUFFER_LENGTH < olen.toNat then (s, -1)
    else Ch36x.streamSpi hw kmalloc s ibuffer.toNat ilen.toNat obuffer.toNat olen.toNat

end Perform

end Request

end LinuxStack.Ch36x
