import LinuxStack.Ch36x.Library
import LinuxStack.Transition.Run

/-!
# From the library to the chip

The driver reads the arguments of a command where `long`s lie one after another, and the library
puts them where the members of a struct lie. The two agree, whatever the stack holds around the
struct, except for a write to the configuration space: its value lies right behind the offset, and
the driver looks for it one `long` further. On the way back, the driver stores a `long` where the
library has the buffer of the caller, which is as wide as the register. And the kernel refuses an
offset of the configuration space that is not aligned, which neither of them looks at.

## Main definitions

* `Call`: a call of the library, with its stack and its process
* `callStep`, `askStep`: what the call does through the driver, and what it asks for
* `Refused`: the kernel refuses the offset of the call
* `Misplaced`: the driver reads the value of the call from outside its struct
* `Overruns`: the driver stores more than the buffer of the call takes

## Main results

* `call_eq_iff`: when a call does what it asks for
* `calls_iff`: the same for runs
-/

namespace LinuxStack.Ch36x

open Memory Transition

variable {l : Abi}

/-! ## Calls -/

/-- The memory of the process when the library passes an argument from its stack at `p`. -/
def Argument.place (p : ℕ) (user : User) : Argument → User
  | .struct ms => { user with byte := fill user.byte p ms }
  | .pointer _ => user

/-- The argument of the `ioctl`. -/
def Argument.value (p : ℕ) : Argument → ℕ
  | .struct _ => p
  | .pointer q => q

/-- A call of the library by a process, with the address of its struct if it has one, and whether
the driver can allocate. The stack can be read from that address on. -/
structure Call (l : Abi) where
  request : Request l
  kmalloc : Bool
  stack : ℕ
  user : User
  readable : ∀ i < 4, user.fault (stack + i * l.long) l.long = none

/-- The process when the library enters the driver, or has refused. -/
def Call.placed (c : Call l) : User :=
  match c.request.ioctl with
  | some io => io.arg.place c.stack c.user
  | none => c.user

section Steps

variable (hw : Hardware) (s : State Ch36xDev)

/-- What a call does. -/
def callStep (c : Call l) : State Ch36xDev × ℤ :=
  match c.request.ioctl with
  | some io => ioctlDo hw l c.kmalloc { s with user := c.placed } io.cmd (io.arg.value c.stack)
  | none => ({ s with user := c.placed }, -1)

/-- What a call asks for. -/
def askStep (c : Call l) : State Ch36xDev × ℤ :=
  c.request.perform hw c.kmalloc { s with user := c.placed }

end Steps

/-! ## Arguments -/

section Arguments

variable {s : State Ch36xDev} {mem : ℕ → UInt8} {p i j : ℕ} {m : Member} {ms : List Member}

theorem arg_of_ok (h : s.user.fault (p + i * l.long) l.long = none) :
    s.arg l p i = loadWord s.user.byte (p + i * l.long) l.long := by
  rw [State.arg, State.getUser_of_ok h]

/-- A struct of `long`s. -/
def longs (xs : List l.Ulong) : List Member := xs.map fun x => ⟨l.long, x.toNat⟩

theorem offsetFrom_longs {xs : List l.Ulong} (hi : i < xs.length) :
    offsetFrom (j * l.long) (longs xs) i = (j + i) * l.long := by
  induction xs generalizing i j with
  | nil => simp at hi
  | cons x xs ih =>
    -- There is no padding between members of one size.
    have halign : alignUp (j * l.long) l.long = j * l.long :=
      alignUp_of_dvd (Nat.dvd_mul_left _ _)
    cases i with
    | zero => exact halign
    | succ i =>
      have hnext : alignUp (j * l.long) l.long + l.long = (j + 1) * l.long := by
        rw [halign, Nat.succ_mul]
      show offsetFrom (alignUp (j * l.long) l.long + l.long) (longs xs) i = _
      rw [hnext, ih (Nat.lt_of_succ_lt_succ hi), Nat.add_assoc, Nat.add_comm 1 i]

/-- The members of a struct of `long`s are the arguments of a command. -/
theorem loadWord_longs {xs : List l.Ulong} {x : l.Ulong} (h : xs[i]? = some x) :
    loadWord (fill mem p (longs xs)) (p + i * l.long) l.long = x.toNat := by
  have hi : i < xs.length := (List.getElem?_eq_some_iff.mp h).1
  have hoff : offset (longs xs) i = i * l.long := by
    have hfrom : offsetFrom (0 * l.long) (longs xs) i = (0 + i) * l.long := offsetFrom_longs hi
    rwa [Nat.zero_mul, Nat.zero_add] at hfrom
  have hmem : (longs xs)[i]? = some ⟨l.long, x.toNat⟩ := by
    rw [longs, List.getElem?_map, h]
    rfl
  have hload : loadWord (fill mem p (longs xs)) (p + offset (longs xs) i) l.long = _ :=
    loadWord_fill hmem
  rw [← hoff, hload, toNat_mod_bytes]

theorem alignUp_zero (w : ℕ) : alignUp 0 w = 0 := alignUp_of_dvd (Nat.dvd_zero w)

/-- The first member of a struct. -/
theorem loadWord_first :
    loadWord (fill mem p (m :: ms)) p m.size = m.value % 256 ^ m.size := by
  have hoff : offset (m :: ms) 0 = 0 := alignUp_zero m.size
  have hload : loadWord (fill mem p (m :: ms)) (p + offset (m :: ms) 0) m.size = _ :=
    loadWord_fill rfl
  rwa [hoff] at hload

theorem offset_second {m' : Member} : offset [m, m'] 1 = alignUp m.size m'.size := by
  show alignUp (alignUp 0 m.size + m.size) m'.size = _
  rw [alignUp_zero, Nat.zero_add]

/-- The second member of a struct. -/
theorem loadWord_second {m' : Member} :
    loadWord (fill mem p [m, m']) (p + alignUp m.size m'.size) m'.size =
      m'.value % 256 ^ m'.size := by
  have hload : loadWord (fill mem p [m, m']) (p + offset [m, m'] 1) m'.size = _ :=
    loadWord_fill rfl
  rwa [offset_second] at hload

end Arguments

/-! ## Requests -/

section Requests

variable {hw : Hardware} {s : State Ch36xDev} {user : User} {p i : ℕ} {kmalloc : Bool}

theorem arg_longs {xs : List l.Ulong} {x : l.Ulong}
    (hs : s.user = (Argument.struct (longs xs)).place p user)
    (hread : user.fault (p + i * l.long) l.long = none) (h : xs[i]? = some x) :
    s.arg l p i = x.toNat := by
  rw [arg_of_ok (by rw [hs]; exact hread), hs]
  exact loadWord_longs h

theorem Width.bytes_le (w : Width) (l : Abi) : w.bytes ≤ l.long := by
  have hl := l.long_eq
  cases w <;> simp only [Width.bytes] <;> omega

theorem Width.bytes_dvd (w : Width) (l : Abi) : w.bytes ∣ l.long := by
  rcases l.long_eq with hl | hl <;> rw [hl] <;> cases w <;> decide

/-- A read of a register, through the driver. -/
theorem ioctlCase_read {addr out : l.Ulong}
    (hs : s.user = (Argument.struct (longs [addr, out])).place p user)
    (hread : ∀ i < 4, user.fault (p + i * l.long) l.long = none) (w : Width) (kmalloc : Bool) :
    ioctlCase hw l kmalloc s p (.readIo w) =
        regRead hw l.long s .io w addr.toNat out.toNat ∧
      ioctlCase hw l kmalloc s p (.readMem w) =
        regRead hw l.long s .mem w addr.toNat out.toNat := by
  have h0 : s.arg l p 0 = addr.toNat := arg_longs hs (hread 0 (by omega)) rfl
  have h1 : s.arg l p 1 = out.toNat := arg_longs hs (hread 1 (by omega)) rfl
  simp only [ioctlCase, h0, h1]
  exact ⟨rfl, rfl⟩

/-- The argument 0 has a narrower first member in its lower part. -/
theorem arg_first {m : Member} {ms : List Member}
    (hs : s.user = (Argument.struct (m :: ms)).place p user)
    (hread : ∀ i < 4, user.fault (p + i * l.long) l.long = none) (hle : m.size ≤ l.long) :
    s.arg l p 0 % 256 ^ m.size = m.value % 256 ^ m.size := by
  rw [arg_of_ok (by rw [hs]; exact hread 0 (by omega)), hs, loadWord_mod hle, Nat.zero_mul]
  exact loadWord_first

theorem ioctlCase_readConfig {offset : BitVec 8} {out : l.Ulong}
    (hs : s.user = (Argument.struct [⟨1, offset.toNat⟩, ⟨l.long, out.toNat⟩]).place p user)
    (hread : ∀ i < 4, user.fault (p + i * l.long) l.long = none) (w : Width) (kmalloc : Bool) :
    ioctlCase hw l kmalloc s p (.readConfig w) = cfgRead hw l s w offset.toNat out.toNat := by
  have h0 : s.arg l p 0 % 256 = offset.toNat :=
    (arg_first hs hread l.long_pos).trans (Nat.mod_eq_of_lt offset.isLt)
  have h1 : s.arg l p 1 = out.toNat := by
    have halign : p + 1 * l.long = p + alignUp 1 l.long := by
      rw [alignUp_of_le Nat.one_pos l.long_pos, Nat.one_mul]
    rw [arg_of_ok (by rw [hs]; exact hread 1 (by omega)), hs, halign]
    exact loadWord_second.trans (toNat_mod_bytes out)
  simp only [ioctlCase, h0, h1]

/-- A register takes the lower bytes of a `long`. -/
theorem output_loadWord (arg : ℕ) (space : Space) (w : Width) (addr : ℕ) :
    s.output space w (loadWord s.user.byte arg l.long) addr =
      s.output space w (loadWord s.user.byte arg w.bytes) addr := by
  have hmod : loadWord s.user.byte arg l.long % 256 ^ w.bytes =
      loadWord s.user.byte arg w.bytes % 256 ^ w.bytes := by
    rw [loadWord_mod (w.bytes_le l), loadWord_mod (Nat.le_refl _)]
  rw [State.output, State.output, hmod]

/-- A write of a register, with a value that can be read. -/
theorem regWrite_of_ok {arg : ℕ} (h : s.user.fault arg l.long = none) (space : Space) (w : Width)
    (addr : ℕ) :
    regWrite l s space w addr arg =
      (s.output space w (loadWord s.user.byte arg w.bytes) addr, 0) := by
  rw [regWrite, State.getUser_of_ok h]
  simp only [ne_eq, not_true_eq_false, if_false, output_loadWord]

theorem cfgWrite_of_ok {arg : ℕ} (h : s.user.fault arg l.long = none) (w : Width) (offset : ℕ) :
    cfgWrite l s w offset arg =
      (s.pciWriteConfig w (loadWord s.user.byte arg w.bytes) offset, 0) := by
  rw [cfgWrite, State.getUser_of_ok h]
  simp only [ne_eq, not_true_eq_false, if_false, State.pciWriteConfig, output_loadWord]

theorem output_toNat (space : Space) (w : Width) (val : BitVec (8 * w.bytes)) (addr : ℕ) :
    s.output space w (val.toNat % 256 ^ w.bytes) addr = s.output space w val.toNat addr := by
  rw [State.output, State.output, Nat.mod_mod]

theorem ioctlCase_write {w : Width} {addr : l.Ulong} {val : BitVec (8 * w.bytes)}
    (hs : s.user =
      (Argument.struct [⟨l.long, addr.toNat⟩, ⟨w.bytes, val.toNat⟩]).place p user)
    (hread : ∀ i < 4, user.fault (p + i * l.long) l.long = none) (kmalloc : Bool) :
    ioctlCase hw l kmalloc s p (.writeIo w) =
        (s.output .io w val.toNat addr.toNat, 0) ∧
      ioctlCase hw l kmalloc s p (.writeMem w) =
        (s.output .mem w val.toNat addr.toNat, 0) := by
  have h0 : s.arg l p 0 = addr.toNat := by
    rw [arg_of_ok (by rw [hs]; exact hread 0 (by omega)), hs, Nat.zero_mul]
    exact loadWord_first.trans (toNat_mod_bytes addr)
  have hval : loadWord s.user.byte (p + l.long) w.bytes = val.toNat % 256 ^ w.bytes := by
    have halign : p + l.long = p + alignUp l.long w.bytes := by
      rw [alignUp_of_dvd (w.bytes_dvd l)]
    rw [hs, halign]
    exact loadWord_second
  have hok : s.user.fault (p + l.long) l.long = none := by
    have h := hread 1 (by omega)
    rw [Nat.one_mul] at h
    rw [hs]
    exact h
  simp only [ioctlCase, ioWrite, mmioWrite, h0]
  rw [regWrite_of_ok hok, regWrite_of_ok hok, hval, output_toNat, output_toNat]
  exact ⟨rfl, rfl⟩

theorem ioctlCase_block {memaddr buffer len : l.Ulong}
    (hs : s.user = (Argument.struct (longs [memaddr, buffer, len])).place p user)
    (hread : ∀ i < 4, user.fault (p + i * l.long) l.long = none) (kmalloc : Bool) :
    ioctlCase hw l kmalloc s p .readMemBlock =
        memReadBlock hw s memaddr.toNat buffer.toNat len.toNat ∧
      ioctlCase hw l kmalloc s p .writeMemBlock =
        memWriteBlock s memaddr.toNat buffer.toNat len.toNat := by
  have h0 : s.arg l p 0 = memaddr.toNat := arg_longs hs (hread 0 (by omega)) rfl
  have h1 : s.arg l p 1 = buffer.toNat := arg_longs hs (hread 1 (by omega)) rfl
  have h2 : s.arg l p 2 = len.toNat := arg_longs hs (hread 2 (by omega)) rfl
  constructor <;> rw [ioctlCase, h0, h1, h2]

theorem ioctlCase_streamSpi {ibuffer ilen obuffer olen : l.Ulong}
    (hs : s.user = (Argument.struct (longs [ibuffer, ilen, obuffer, olen])).place p user)
    (hread : ∀ i < 4, user.fault (p + i * l.long) l.long = none) (kmalloc : Bool) :
    ioctlCase hw l kmalloc s p .streamSpi =
      streamSpi hw kmalloc s ibuffer.toNat ilen.toNat obuffer.toNat olen.toNat := by
  have h0 : s.arg l p 0 = ibuffer.toNat := arg_longs hs (hread 0 (by omega)) rfl
  have h1 : s.arg l p 1 = ilen.toNat := arg_longs hs (hread 1 (by omega)) rfl
  have h2 : s.arg l p 2 = obuffer.toNat := arg_longs hs (hread 2 (by omega)) rfl
  have h3 : s.arg l p 3 = olen.toNat := arg_longs hs (hread 3 (by omega)) rfl
  simp only [ioctlCase, h0, h1, h2, h3]

theorem ioctlCase_setStream {mode : l.Ulong}
    (hs : s.user = (Argument.struct (longs [mode])).place p user)
    (hread : ∀ i < 4, user.fault (p + i * l.long) l.long = none) (kmalloc : Bool) :
    ioctlCase hw l kmalloc s p .setStream = ({ s with dev.spimode := mode.toNat }, 0) := by
  have h0 : s.arg l p 0 = mode.toNat := arg_longs hs (hread 0 (by omega)) rfl
  simp only [ioctlCase, h0]

/-- The mode is an `enum` of four bytes, and the driver cuts the `long` it reads to its width. -/
theorem ioctlCase_enableInt {mode : BitVec 32}
    (hs : s.user = (Argument.struct [⟨4, mode.toNat⟩]).place p user)
    (hread : ∀ i < 4, user.fault (p + i * l.long) l.long = none) (kmalloc : Bool) :
    ioctlCase hw l kmalloc s p .enableInt = (enableInterrupts hw s mode, 0) := by
  have hle : 4 ≤ l.long := by
    rcases l.long_eq with hl | hl <;> omega
  have hmode : BitVec.ofNat 32 (s.arg l p 0) = mode := by
    apply BitVec.eq_of_toNat_eq
    rw [BitVec.toNat_ofNat]
    exact (arg_first hs hread hle).trans (Nat.mod_eq_of_lt mode.isLt)
  simp only [ioctlCase, hmode]

/-- A write to the configuration space takes what lies one `long` behind the struct's start. -/
theorem ioctlCase_writeConfig {w : Width} {offset : BitVec 8} {val : BitVec (8 * w.bytes)}
    (hs : s.user = (Argument.struct [⟨1, offset.toNat⟩, ⟨w.bytes, val.toNat⟩]).place p user)
    (hread : ∀ i < 4, user.fault (p + i * l.long) l.long = none) (kmalloc : Bool) :
    ioctlCase hw l kmalloc s p (.writeConfig w) =
      (s.pciWriteConfig w (loadWord s.user.byte (p + l.long) w.bytes) offset.toNat, 0) := by
  have h0 : s.arg l p 0 % 256 = offset.toNat :=
    (arg_first hs hread l.long_pos).trans (Nat.mod_eq_of_lt offset.isLt)
  have hok : s.user.fault (p + l.long) l.long = none := by
    have h := hread 1 (by omega)
    rw [Nat.one_mul] at h
    rw [hs]
    exact h
  rw [ioctlCase, h0]
  exact cfgWrite_of_ok hok w offset.toNat

/-- What lies there is the value if it is as wide as a `long`, and else what lay there before. -/
theorem loadWord_writeConfig {mem : ℕ → UInt8} {w : Width} {val : BitVec (8 * w.bytes)}
    (offset : BitVec 8) :
    loadWord (fill mem p [⟨1, offset.toNat⟩, ⟨w.bytes, val.toNat⟩]) (p + l.long) w.bytes =
      if w.bytes = l.long then val.toNat else loadWord mem (p + l.long) w.bytes := by
  have hpos : 0 < w.bytes := by cases w <;> decide
  have halign : alignUp 1 w.bytes = w.bytes := alignUp_of_le Nat.one_pos hpos
  split
  · rename_i heq
    have hplace : p + l.long = p + alignUp 1 w.bytes := by rw [halign, heq]
    rw [hplace]
    exact loadWord_second.trans (toNat_mod_bytes val)
  · rename_i hne
    apply loadWord_fill_beyond
    have hsize : sizeUsed [⟨1, offset.toNat⟩, ⟨w.bytes, val.toNat⟩] = 2 * w.bytes := by
      show alignUp (alignUp 0 1 + 1) w.bytes + w.bytes = _
      rw [alignUp_zero, halign]
      omega
    rw [hsize]
    -- A narrower value ends in front of the place.
    have hle := w.bytes_le l
    rcases l.long_eq with hl | hl <;> cases w <;> simp only [Width.bytes] at * <;> omega

end Requests

/-! ## What calls do -/

/-- The kernel refuses the offset of the call, and the driver does not tell. -/
def Refused (c : Call l) : Prop :=
  match c.request with
  | .readConfig w offset _ | .writeConfig w offset _ => ¬ w.bytes ∣ offset.toNat
  | _ => False

/-- The driver reads the value of the call from outside its struct, and finds another one. -/
def Misplaced (c : Call l) : Prop :=
  match c.request with
  | .writeConfig w _ val =>
    w.bytes ≠ l.long ∧ loadWord c.user.byte (c.stack + l.long) w.bytes ≠ val.toNat
  | _ => False

/-- The driver stores a `long` in the buffer of the call, and it shows. -/
def Overruns (c : Call l) : Prop :=
  match c.request with
  | .getChiptype chiptype => c.placed.Spills chiptype.toNat 4 l.long
  | .readConfig w _ out | .readIo w _ out | .readMem w _ out =>
    c.placed.Spills out.toNat w.bytes l.long
  | _ => False

/-- Only an overrun is left where the other two cannot happen. -/
theorem overruns_iff {c : Call l} (hrefused : ¬ Refused c) (hmisplaced : ¬ Misplaced c) :
    ¬ Refused c ∧ ¬ Misplaced c ∧ ¬ Overruns c ↔ ¬ Overruns c := by
  rw [and_iff_right hrefused, and_iff_right hmisplaced]

section Calls

variable (hw : Hardware) (s : State Ch36xDev)

theorem ioctl_readConfig (w : Width) (offset : BitVec 8) (out : l.Ulong) :
    (Request.readConfig w offset out).ioctl = some (libReadConfig l w offset out) := by
  cases w <;> rfl

theorem ioctl_writeConfig (w : Width) (offset : BitVec 8) (val : BitVec (8 * w.bytes)) :
    (Request.writeConfig w offset val : Request l).ioctl = some (libWriteConfig w offset val) := by
  cases w <;> rfl

theorem ioctl_readIo (w : Width) (addr out : l.Ulong) :
    (Request.readIo w addr out).ioctl = some (libRead l (.readIo w) addr out) := by
  cases w <;> rfl

theorem ioctl_readMem (w : Width) (addr out : l.Ulong) :
    (Request.readMem w addr out).ioctl = some (libRead l (.readMem w) addr out) := by
  cases w <;> rfl

theorem ioctl_writeIo (w : Width) (addr : l.Ulong) (val : BitVec (8 * w.bytes)) :
    (Request.writeIo w addr val).ioctl = some (libWrite l (.writeIo w) w addr val) := by
  cases w <;> rfl

theorem ioctl_writeMem (w : Width) (addr : l.Ulong) (val : BitVec (8 * w.bytes)) :
    (Request.writeMem w addr val).ioctl = some (libWrite l (.writeMem w) w addr val) := by
  cases w <;> rfl

/-- A call takes the case of its `ioctl`. -/
theorem callStep_of_some {c : Call l} (cmd : Command) {arg : Argument}
    (h : c.request.ioctl = some ⟨cmd.number, arg⟩) :
    callStep hw s c =
      ioctlCase hw l c.kmalloc { s with user := arg.place c.stack c.user }
        (arg.value c.stack) cmd := by
  have hplaced : c.placed = arg.place c.stack c.user := by rw [Call.placed, h]
  rw [callStep, h, hplaced]
  exact ioctlDo_number ..

/-- A call does what it asks for iff the case of its `ioctl` does. -/
theorem call_eq_iff_of_some {c : Call l} (cmd : Command) {arg : Argument}
    (h : c.request.ioctl = some ⟨cmd.number, arg⟩) :
    callStep hw s c = askStep hw s c ↔
      ioctlCase hw l c.kmalloc { s with user := arg.place c.stack c.user }
          (arg.value c.stack) cmd =
        c.request.perform hw c.kmalloc { s with user := arg.place c.stack c.user } := by
  have hplaced : c.placed = arg.place c.stack c.user := by rw [Call.placed, h]
  rw [callStep_of_some hw s cmd h, askStep, hplaced]

theorem call_eq_of_some {c : Call l} (cmd : Command) {arg : Argument}
    (h : c.request.ioctl = some ⟨cmd.number, arg⟩)
    (hcase : ioctlCase hw l c.kmalloc { s with user := arg.place c.stack c.user }
        (arg.value c.stack) cmd =
      c.request.perform hw c.kmalloc { s with user := arg.place c.stack c.user }) :
    callStep hw s c = askStep hw s c :=
  (call_eq_iff_of_some hw s cmd h).mpr hcase

/-- A call is served if the library refuses it, and it asks for nothing then. -/
theorem call_eq_of_none {c : Call l} (h : c.request.ioctl = none)
    (hask : ∀ s, c.request.perform hw c.kmalloc s = (s, -1)) :
    callStep hw s c = askStep hw s c := by
  rw [callStep, h, askStep, hask]

/-- A read of a register is served iff what the driver delivers does not spill. -/
theorem call_read_iff {c : Call l} (cmd : Command) {arg : Argument} {space : Space} {w : Width}
    {addr : ℕ} {out : l.Ulong} (h : c.request.ioctl = some ⟨cmd.number, arg⟩)
    (hcase : ioctlCase hw l c.kmalloc { s with user := arg.place c.stack c.user }
        (arg.value c.stack) cmd =
      regRead hw l.long { s with user := arg.place c.stack c.user } space w addr out.toNat)
    (hask : c.request.perform hw c.kmalloc { s with user := arg.place c.stack c.user } =
      regRead hw w.bytes { s with user := arg.place c.stack c.user } space w addr out.toNat) :
    callStep hw s c = askStep hw s c ↔ ¬ c.placed.Spills out.toNat w.bytes l.long := by
  have hplaced : c.placed = arg.place c.stack c.user := by rw [Call.placed, h]
  rw [call_eq_iff_of_some hw s cmd h, hcase, hask, hplaced]
  exact regRead_eq_iff hw l.long _ space addr _ (Nat.le_refl _) (w.bytes_le l)

theorem output_inj {space : Space} {w : Width} {v v' addr : ℕ} :
    s.output space w v addr = s.output space w v' addr ↔
      v % 256 ^ w.bytes = v' % 256 ^ w.bytes := by
  simp [State.output, State.push]

/-- A write to the configuration space is one of a register iff it is aligned. -/
theorem pciWriteConfig_eq_output_iff {w : Width} {v v' offset : ℕ} :
    s.pciWriteConfig w v offset = s.output .config w v' offset ↔
      w.bytes ∣ offset ∧ v % 256 ^ w.bytes = v' % 256 ^ w.bytes := by
  by_cases hdvd : w.bytes ∣ offset
  · rw [State.pciWriteConfig_of_dvd hdvd, and_iff_right hdvd]
    exact output_inj s
  · refine iff_of_false (fun heq => ?_) fun h => hdvd h.1
    -- The refused write is not in the log.
    have hlog := congrArg State.log heq
    rw [State.pciWriteConfig_log, if_neg hdvd] at hlog
    simp [State.output] at hlog

/-- A read of the configuration space is one of a register iff it is aligned and does not spill. -/
theorem cfgRead_eq_iff (w : Width) (offset p : ℕ) :
    cfgRead hw l s w offset p = regRead hw w.bytes s .config w offset p ↔
      w.bytes ∣ offset ∧ ¬ s.user.Spills p w.bytes l.long := by
  by_cases hdvd : w.bytes ∣ offset
  · rw [cfgRead_of_dvd hdvd, and_iff_right hdvd]
    exact regRead_eq_iff hw l.long s .config offset p (Nat.le_refl _) (w.bytes_le l)
  · refine iff_of_false (fun heq => ?_) fun h => hdvd h.1
    have hlog := congrArg (fun r => r.1.log) heq
    simp [hdvd] at hlog

theorem call_readConfig_iff {c : Call l} {arg : Argument} {w : Width} {offset : ℕ} {out : l.Ulong}
    (h : c.request.ioctl = some ⟨(Command.readConfig w).number, arg⟩)
    (hcase : ioctlCase hw l c.kmalloc { s with user := arg.place c.stack c.user }
        (arg.value c.stack) (.readConfig w) =
      cfgRead hw l { s with user := arg.place c.stack c.user } w offset out.toNat)
    (hask : c.request.perform hw c.kmalloc { s with user := arg.place c.stack c.user } =
      regRead hw w.bytes { s with user := arg.place c.stack c.user } .config w offset out.toNat) :
    callStep hw s c = askStep hw s c ↔
      w.bytes ∣ offset ∧ ¬ c.placed.Spills out.toNat w.bytes l.long := by
  have hplaced : c.placed = arg.place c.stack c.user := by rw [Call.placed, h]
  rw [call_eq_iff_of_some hw s (.readConfig w) h, hcase, hask, hplaced]
  exact cfgRead_eq_iff hw _ w offset out.toNat

/-- What a write to the configuration space does. -/
theorem callStep_writeConfig {w : Width} (offset : BitVec 8) (val : BitVec (8 * w.bytes))
    {kmalloc : Bool} {stack : ℕ} {user : User}
    (hread : ∀ i < 4, user.fault (stack + i * l.long) l.long = none) :
    ∃ placed : User,
      askStep hw s (Call.mk (.writeConfig w offset val) kmalloc stack user hread) =
        (State.output { s with user := placed } .config w val.toNat offset.toNat, 0) ∧
      callStep hw s (Call.mk (.writeConfig w offset val) kmalloc stack user hread) =
        (State.pciWriteConfig { s with user := placed } w
          (if w.bytes = l.long then val.toNat
            else loadWord user.byte (stack + l.long) w.bytes) offset.toNat, 0) := by
  have hio : (Request.writeConfig w offset val : Request l).ioctl = _ :=
    ioctl_writeConfig w offset val
  refine ⟨(libWriteConfig w offset val).arg.place stack user, ?_, ?_⟩
  · rw [askStep, Call.placed, hio]
    rfl
  · rw [callStep, Call.placed, hio]
    refine (ioctlDo_number ..).trans ((ioctlCase_writeConfig rfl hread kmalloc).trans ?_)
    rw [← loadWord_writeConfig offset]
    rfl

/-- **A call does what it asks for** iff the kernel does not refuse it, it is not misplaced, and
does not overrun its buffer. -/
theorem call_eq_iff (c : Call l) :
    callStep hw s c = askStep hw s c ↔ ¬ Refused c ∧ ¬ Misplaced c ∧ ¬ Overruns c := by
  obtain ⟨r, kmalloc, stack, user, hread⟩ := c
  cases r with
  | writeConfig w offset val =>
    obtain ⟨placed, hask, hcall⟩ := callStep_writeConfig hw s offset val hread
    rw [hcall, hask, Prod.mk.injEq, and_iff_left rfl, pciWriteConfig_eq_output_iff]
    refine and_congr not_not.symm (Iff.trans ?_ (and_iff_left id).symm)
    show _ ↔ ¬ (w.bytes ≠ l.long ∧ loadWord user.byte (stack + l.long) w.bytes ≠ val.toNat)
    split
    · rename_i heq
      exact iff_of_true rfl fun h => h.1 heq
    · rename_i hne
      rw [Nat.mod_eq_of_lt loadWord_lt, toNat_mod_bytes, and_iff_right hne, not_ne_iff]
  | readConfig w offset out =>
    refine (call_readConfig_iff hw s (ioctl_readConfig w offset out)
      (ioctlCase_readConfig rfl hread w kmalloc) rfl).trans ?_
    exact and_congr not_not.symm (and_iff_right id).symm
  | readIo w addr out =>
    refine Iff.trans ?_ (overruns_iff id id).symm
    exact call_read_iff hw s (.readIo w) (ioctl_readIo w addr out)
      (ioctlCase_read rfl hread w kmalloc).1 rfl
  | readMem w addr out =>
    refine Iff.trans ?_ (overruns_iff id id).symm
    exact call_read_iff hw s (.readMem w) (ioctl_readMem w addr out)
      (ioctlCase_read rfl hread w kmalloc).2 rfl
  | getChiptype p =>
    refine (call_eq_iff_of_some hw s .getChiptype rfl).trans
      (Iff.trans ?_ (overruns_iff id id).symm)
    have hlong : 4 ≤ l.long := by
      rcases l.long_eq with hl | hl <;> omega
    exact State.putUser_eq_iff hlong (by cases s.dev.chiptype <;> decide)
  | writeIo w addr val =>
    exact iff_of_true (call_eq_of_some hw s (.writeIo w) (ioctl_writeIo w addr val)
      (ioctlCase_write rfl hread kmalloc).1) ⟨id, id, id⟩
  | writeMem w addr val =>
    exact iff_of_true (call_eq_of_some hw s (.writeMem w) (ioctl_writeMem w addr val)
      (ioctlCase_write rfl hread kmalloc).2) ⟨id, id, id⟩
  -- A length that the library refuses does not get to the driver.
  | readMemBlock memaddr buffer len =>
    refine iff_of_true ?_ ⟨id, id, id⟩
    by_cases hlen : len.toNat = 0 ∨ mMAX_BUFFER_LENGTH < len.toNat
    · exact call_eq_of_none hw s (if_pos hlen) fun _ => if_pos hlen
    · exact call_eq_of_some hw s .readMemBlock (if_neg hlen)
        ((ioctlCase_block rfl hread kmalloc).1.trans (if_neg hlen).symm)
  | writeMemBlock memaddr buffer len =>
    refine iff_of_true ?_ ⟨id, id, id⟩
    by_cases hlen : len.toNat = 0 ∨ mMAX_BUFFER_LENGTH < len.toNat
    · exact call_eq_of_none hw s (if_pos hlen) fun _ => if_pos hlen
    · exact call_eq_of_some hw s .writeMemBlock (if_neg hlen)
        ((ioctlCase_block rfl hread kmalloc).2.trans (if_neg hlen).symm)
  | enableIsr mode =>
    exact iff_of_true (call_eq_of_some hw s .enableInt rfl (ioctlCase_enableInt rfl hread kmalloc))
      ⟨id, id, id⟩
  | setStream mode =>
    exact iff_of_true (call_eq_of_some hw s .setStream rfl (ioctlCase_setStream rfl hread kmalloc))
      ⟨id, id, id⟩
  | streamSpi ibuffer ilen obuffer olen =>
    refine iff_of_true ?_ ⟨id, id, id⟩
    by_cases hilen : mMAX_BUFFER_LENGTH < ilen.toNat
    · exact call_eq_of_none hw s (if_pos hilen) fun _ => if_pos hilen
    · by_cases holen : mMAX_BUFFER_LENGTH < olen.toNat
      · exact call_eq_of_none hw s ((if_neg hilen).trans (if_pos holen))
          fun _ => (if_neg hilen).trans (if_pos holen)
      · exact call_eq_of_some hw s .streamSpi ((if_neg hilen).trans (if_neg holen))
          ((ioctlCase_streamSpi rfl hread kmalloc).trans
            ((if_neg hilen).trans (if_neg holen)).symm)
  | getVersion p => exact iff_of_true (call_eq_of_some hw s .getVersion rfl rfl) ⟨id, id, id⟩
  | getIoaddr p => exact iff_of_true (call_eq_of_some hw s .getIoBaseAddr rfl rfl) ⟨id, id, id⟩
  | getMemaddr p => exact iff_of_true (call_eq_of_some hw s .getMemBaseAddr rfl rfl) ⟨id, id, id⟩
  | disableIsr => exact iff_of_true (call_eq_of_some hw s .disableInt rfl rfl) ⟨id, id, id⟩

/-- **The value of a write to the configuration space is lost** unless it is as wide as a `long`:
the chip sees the same, whatever the value. -/
theorem writeConfig_value_lost {w : Width} (hw' : w.bytes ≠ l.long) (offset : BitVec 8)
    (val val' : BitVec (8 * w.bytes)) (kmalloc : Bool) (stack : ℕ) (user : User)
    (hread : ∀ i < 4, user.fault (stack + i * l.long) l.long = none) :
    (callStep hw s (Call.mk (.writeConfig w offset val) kmalloc stack user hread)).1.log =
      (callStep hw s (Call.mk (.writeConfig w offset val') kmalloc stack user hread)).1.log := by
  obtain ⟨placed, -, hcall⟩ := callStep_writeConfig hw s offset val hread
  obtain ⟨placed', -, hcall'⟩ := callStep_writeConfig hw s offset val' hread
  rw [hcall, hcall', if_neg hw', if_neg hw', State.pciWriteConfig_log, State.pciWriteConfig_log]

/-- On a machine with a `long` of eight bytes, 1 and 2 are the same byte to the chip. -/
theorem writeConfig_byte_lost :
    (callStep Hardware.ram ⟨.probed .ch367 0xE000 0, [], .zero⟩
        (Call.mk (.writeConfig .byte 0x40 1 : Request ⟨8, Or.inr rfl⟩) true 0x7000 .zero
          fun _ _ => rfl)).1.log =
      (callStep Hardware.ram ⟨.probed .ch367 0xE000 0, [], .zero⟩
        (Call.mk (.writeConfig .byte 0x40 2 : Request ⟨8, Or.inr rfl⟩) true 0x7000 .zero
          fun _ _ => rfl)).1.log :=
  writeConfig_value_lost _ _ (by decide) 0x40 1 2 true 0x7000 .zero fun _ _ => rfl

end Calls

end LinuxStack.Ch36x
