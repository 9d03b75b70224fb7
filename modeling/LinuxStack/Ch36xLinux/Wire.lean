import LinuxStack.Ch36x.Wire
import LinuxStack.Ch36xLinux.Library

/-!
# From the first library to the chip

Arguments arrive where the first driver looks for them, since all structs begin with a pointer and
the kernel reads them without a fault. What goes wrong is on the way back, and at the limits: the
driver stores a `long` in the buffer of a narrower register, cuts the offset of a configuration
register to a byte, does not tell that the kernel refuses one that is not aligned, and refuses or
half transfers a block of ports without a word to the caller.

## Main definitions

* `Call`: a call of the library, with its stack and its process
* `callStep`, `askStep`: what the call does through the driver, and what it asks for
* `Served`: none of the above happens to the call

## Main results

* `callStep_isSome`: no call of the library crashes the kernel
* `served_calls_iff`: every call of a run does what it asks for iff all are served
-/

namespace LinuxStack.Ch36xLinux.Wire

open Memory Transition
open Ch36x (Abi Argument Hardware Space User Width longs loadWord_first loadWord_longs
  loadWord_second toNat_mod_bytes)

variable {l : Abi}

/-! ## Calls -/

/-- A call of the library by a process, with the address of its struct if it has one. The stack can
be read from that address on. -/
structure Call (l : Abi) where
  request : Request l
  stack : ℕ
  user : User
  readable : ∀ i < 3, user.fault (stack + i * l.long) l.long = none

/-- The process when the library enters the driver, or does not. -/
def Call.placed (c : Call l) : User :=
  match c.request.ioctl with
  | some io => io.arg.place c.stack c.user
  | none => c.user

/-- The call keeps within the offset and the range that the driver knows, and to the alignment that
the kernel asks for; what the driver stores in the buffer does not show around it; and no byte of a
block of ports faults. -/
def Served (c : Call l) : Prop :=
  match c.request with
  | .readConfig w iOffset oByte =>
    (iOffset.toNat < 256 ∧ w.bytes ∣ iOffset.toNat) ∧
      ¬ c.placed.Spills oByte.toNat (valueBytes l w) l.long
  | .writeConfig w iOffset _ => iOffset.toNat < 256 ∧ w.bytes ∣ iOffset.toNat
  | .readIo w _ oByte | .readMem w _ oByte =>
    ¬ c.placed.Spills oByte.toNat (valueBytes l w) l.long
  | .readIoBlock _ buf len | .writeIoBlock _ buf len =>
    len.toNat ≤ CH365_IO_SPACE_RANGE ∧ ∀ i < len.toNat, c.placed.fault (buf.toNat + i) 1 = none
  | _ => True

section Steps

variable (hw : Hardware) (s : Io)

/-- What a call does, unless it crashes the kernel: the library answers true, or its answer to an
error. -/
def callStep (c : Call l) : Option (Io × ℤ) :=
  match c.request.ioctl with
  | some io =>
    (ioctlDo hw l none { s with user := c.placed } io.cmd (io.arg.value c.stack)).map
      fun (s, retval) => (s, if retval < 0 then c.request.onError else 1)
  | none => some ({ s with user := c.placed }, 1)

/-- What a call asks for. -/
def askStep (c : Call l) : Io × ℤ := c.request.perform hw { s with user := c.placed }

/-- The state after a call. -/
def afterCall (c : Call l) : Io := (callStep hw s c).elim s Prod.fst

end Steps

/-! ## Arguments -/

section Arguments

variable {s : Io} {user : User} {p i : ℕ} {w : Width} {f : ℕ → ℕ → Io × ℤ}

theorem valueBytes_le (w : Width) (l : Abi) : valueBytes l w ≤ l.long := by
  rcases l.long_eq with hl | hl <;> cases w <;> simp only [valueBytes] <;> omega

theorem bytes_le_valueBytes (w : Width) (l : Abi) : w.bytes ≤ valueBytes l w := by
  rcases l.long_eq with hl | hl <;> cases w <;> simp only [valueBytes, Width.bytes] <;> omega

theorem valueBytes_dvd (w : Width) (l : Abi) : valueBytes l w ∣ l.long := by
  have h2 : 2 ∣ l.long := by
    rcases l.long_eq with hl | hl <;> rw [hl] <;> decide
  cases w with
  | byte => exact Nat.one_dvd _
  | word => exact h2
  | dword => exact Nat.dvd_refl _

/-- The kernel finds the members of a struct of `long`s. -/
theorem deref_longs {xs : List l.Ulong} {x : l.Ulong}
    (hs : s.user = (Argument.struct (longs xs)).place p user)
    (hread : user.fault (p + i * l.long) l.long = none) (h : xs[i]? = some x) :
    deref l s p i = some x.toNat := by
  have hfault : s.user.fault (p + i * l.long) l.long = none := by rw [hs]; exact hread
  have hload : loadWord s.user.byte (p + i * l.long) l.long = x.toNat := by
    rw [hs]
    exact loadWord_longs h
  rw [deref, hfault, hload]

theorem deref2_longs {x y : l.Ulong}
    (hs : s.user = (Argument.struct (longs [x, y])).place p user)
    (hread : ∀ i < 3, user.fault (p + i * l.long) l.long = none) :
    deref2 l s p f = some (f x.toNat y.toNat) := by
  rw [deref2, deref_longs hs (hread 0 (by omega)) rfl, deref_longs hs (hread 1 (by omega)) rfl]
  rfl

theorem deref3_longs {f : ℕ → ℕ → ℕ → Io × ℤ} {x y z : l.Ulong}
    (hs : s.user = (Argument.struct (longs [x, y, z])).place p user)
    (hread : ∀ i < 3, user.fault (p + i * l.long) l.long = none) :
    deref3 l s p f = some (f x.toNat y.toNat z.toNat) := by
  rw [deref3, deref_longs hs (hread 0 (by omega)) rfl, deref_longs hs (hread 1 (by omega)) rfl,
    deref_longs hs (hread 2 (by omega)) rfl]
  rfl

/-- The kernel finds the address of a write, and leaves its value to the routine. -/
theorem derefWrite_struct {x : l.Ulong} {ms : List Member}
    (hs : s.user = (Argument.struct (⟨l.long, x.toNat⟩ :: ms)).place p user)
    (hread : ∀ i < 3, user.fault (p + i * l.long) l.long = none) :
    derefWrite l s p f = some (f x.toNat (p + l.long)) := by
  have hfault : s.user.fault (p + 0 * l.long) l.long = none := by
    rw [hs]
    exact hread 0 (by omega)
  have hload : loadWord s.user.byte (p + 0 * l.long) l.long = x.toNat := by
    rw [hs, Nat.zero_mul]
    exact loadWord_first.trans (toNat_mod_bytes x)
  rw [derefWrite, deref, hfault, hload]
  rfl

/-- A write of a register takes the lowest bytes of a value that can be read. -/
theorem regWrite_of_ok {arg v : ℕ} (hfault : s.user.fault arg l.long = none)
    (hval : loadWord s.user.byte arg l.long % 256 ^ w.bytes = v % 256 ^ w.bytes) (failure : ℤ)
    (space : Space) (addr : ℕ) :
    regWrite l s failure space w addr arg = (s.output space w v addr, 0) := by
  rw [regWrite, Ch36x.State.getUser_of_ok hfault]
  simp only [Ch36x.State.output, hval, ne_eq, not_true_eq_false, if_false]

theorem cfgWrite_of_ok {arg v : ℕ} (hfault : s.user.fault arg l.long = none)
    (hval : loadWord s.user.byte arg l.long % 256 ^ w.bytes = v % 256 ^ w.bytes) (offset : ℕ) :
    cfgWrite l s w offset arg = (s.pciWriteConfig w v offset, 0) := by
  rw [cfgWrite, Ch36x.State.getUser_of_ok hfault]
  simp only [Ch36x.State.pciWriteConfig, Ch36x.State.output, hval, ne_eq, not_true_eq_false,
    if_false]

/-- The value of a write lies one `long` behind its struct's start, where the routine reads it. -/
theorem value_of_struct {x : l.Ulong} {v : BitVec (8 * valueBytes l w)}
    (hs : s.user =
      (Argument.struct [⟨l.long, x.toNat⟩, ⟨valueBytes l w, v.toNat⟩]).place p user)
    (hread : ∀ i < 3, user.fault (p + i * l.long) l.long = none) :
    s.user.fault (p + l.long) l.long = none ∧
      loadWord s.user.byte (p + l.long) l.long % 256 ^ w.bytes = v.toNat % 256 ^ w.bytes := by
  constructor
  · have h := hread 1 (by omega)
    rw [Nat.one_mul] at h
    rw [hs]
    exact h
  · -- The value is aligned, so there is no padding in front of it.
    have halign : p + l.long = p + alignUp l.long (valueBytes l w) := by
      rw [alignUp_of_dvd (valueBytes_dvd w l)]
    have hmember : loadWord s.user.byte (p + l.long) (valueBytes l w) = v.toNat := by
      rw [hs, halign]
      exact loadWord_second.trans (toNat_mod_bytes v)
    rw [← hmember, loadWord_mod (bytes_le_valueBytes w l),
      loadWord_mod (Nat.le_trans (bytes_le_valueBytes w l) (valueBytes_le w l))]

/-- The writes of registers, through the driver. -/
theorem ioctlCase_write {hw : Hardware} {x : l.Ulong} {v : BitVec (8 * valueBytes l w)}
    (hs : s.user =
      (Argument.struct [⟨l.long, x.toNat⟩, ⟨valueBytes l w, v.toNat⟩]).place p user)
    (hread : ∀ i < 3, user.fault (p + i * l.long) l.long = none) :
    ioctlCase hw l none s p (.writeConfig w) =
        some (s.pciWriteConfig w v.toNat (x.toNat % 256), 0) ∧
      ioctlCase hw l none s p (.writeIo w) = some (s.output .mem w v.toNat x.toNat, 0) ∧
      ioctlCase hw l none s p (.writeMem w) = some (s.output .mem w v.toNat x.toNat, 0) := by
  obtain ⟨hfault, hval⟩ := value_of_struct hs hread
  refine ⟨?_, ?_, ?_⟩
  · exact (derefWrite_struct hs hread).trans (congrArg some (cfgWrite_of_ok hfault hval _))
  all_goals
    exact (derefWrite_struct hs hread).trans (congrArg some (regWrite_of_ok hfault hval ..))

theorem ioctlCase_setIntLine {hw : Hardware} {x : l.Ulong}
    (hs : s.user = (Argument.struct [⟨l.long, x.toNat⟩]).place p user)
    (hread : ∀ i < 3, user.fault (p + i * l.long) l.long = none) :
    ioctlCase hw l none s p .setIntLine =
      some (s.output .config .byte x.toNat OFFSET_INT_LINE, 0) := by
  have hfault : s.user.fault p l.long = none := by
    have h := hread 0 (by omega)
    rw [Nat.zero_mul] at h
    rw [hs]
    exact h
  have hload : loadWord s.user.byte p l.long = x.toNat := by
    rw [hs]
    exact loadWord_first.trans (toNat_mod_bytes x)
  -- A byte is aligned everywhere.
  have hwrite := cfgWrite_of_ok (w := .byte) hfault (congrArg (· % _) hload) OFFSET_INT_LINE
  exact congrArg some (hwrite.trans (by rw [Ch36x.State.pciWriteConfig_of_dvd (Nat.one_dvd _)]))

/-- The copies of blocks of memory, through the driver. -/
theorem ioctlCase_memBlock {hw : Hardware} {x y z : l.Ulong}
    (hs : s.user = (Argument.struct (longs [x, y, z])).place p user)
    (hread : ∀ i < 3, user.fault (p + i * l.long) l.long = none) :
    ioctlCase hw l none s p .readMemBlock =
        some (if CH365_MEM_SPACE_RANGE < z.toNat then (s, -1)
          else ((Ch36x.memReadBlock hw s x.toNat y.toNat z.toNat).1,
            if (Ch36x.memReadBlock hw s x.toNat y.toNat z.toNat).2 ≠ 0 then -1 else 0)) ∧
      ioctlCase hw l none s p .writeMemBlock =
        some (if CH365_MEM_SPACE_RANGE < z.toNat then (s, -1)
          else ((Ch36x.memWriteBlock s x.toNat y.toNat z.toNat).1,
            if (Ch36x.memWriteBlock s x.toNat y.toNat z.toNat).2 ≠ 0 then -1 else 0)) :=
  ⟨deref3_longs hs hread, deref3_longs hs hread⟩

end Arguments

/-! ## What calls do -/

section Calls

variable (hw : Hardware) (s : Io)

theorem ioctl_readConfig (w : Width) (x y : l.Ulong) :
    (Request.readConfig w x y).ioctl = some (libRead l (.readConfig w) x y) := by
  cases w <;> rfl

theorem ioctl_readIo (w : Width) (x y : l.Ulong) :
    (Request.readIo w x y).ioctl = some (libRead l (.readIo w) x y) := by
  cases w <;> rfl

theorem ioctl_readMem (w : Width) (x y : l.Ulong) :
    (Request.readMem w x y).ioctl = some (libRead l (.readMem w) x y) := by
  cases w <;> rfl

theorem ioctl_writeConfig (w : Width) (x : l.Ulong) (v : BitVec (8 * valueBytes l w)) :
    (Request.writeConfig w x v).ioctl = some (libWrite l (.writeConfig w) w x v) := by
  cases w <;> rfl

theorem ioctl_writeIo (w : Width) (x : l.Ulong) (v : BitVec (8 * valueBytes l w)) :
    (Request.writeIo w x v).ioctl = some (libWrite l (.writeIo w) w x v) := by
  cases w <;> rfl

theorem ioctl_writeMem (w : Width) (x : l.Ulong) (v : BitVec (8 * valueBytes l w)) :
    (Request.writeMem w x v).ioctl = some (libWrite l (.writeMem w) w x v) := by
  cases w <;> rfl

/-- A call takes the case of its `ioctl`, and answers whether there was an error. -/
theorem callStep_of_some {c : Call l} (cmd : Command) {arg : Argument} {r : Io × ℤ}
    (h : c.request.ioctl = some ⟨cmd.number, arg⟩)
    (hcase : ioctlCase hw l none { s with user := arg.place c.stack c.user }
      (arg.value c.stack) cmd = some r) :
    callStep hw s c = some (r.1, if r.2 ≠ 0 then c.request.onError else 1) := by
  have hplaced : c.placed = arg.place c.stack c.user := by rw [Call.placed, h]
  rw [callStep, h, hplaced]
  simp only [ioctlDo_number, hcase, Option.map_some]
  by_cases hr : r.2 = 0 <;> simp [hr]

theorem askStep_of_some {c : Call l} (cmd : Command) {arg : Argument}
    (h : c.request.ioctl = some ⟨cmd.number, arg⟩) :
    askStep hw s c = c.request.perform hw { s with user := arg.place c.stack c.user } := by
  rw [askStep, Call.placed, h]

/-- The library answers the error of an `ioctl` by false, but for blocks of ports. -/
theorem call_eq_iff_of_report {c : Call l} (cmd : Command) {arg : Argument} {r : Io × ℤ}
    (h : c.request.ioctl = some ⟨cmd.number, arg⟩)
    (hcase : ioctlCase hw l none { s with user := arg.place c.stack c.user }
      (arg.value c.stack) cmd = some r) (herror : c.request.onError = 0) :
    callStep hw s c = some (askStep hw s c) ↔
      Request.report r = c.request.perform hw { s with user := arg.place c.stack c.user } := by
  rw [callStep_of_some hw s cmd h hcase, askStep_of_some hw s cmd h, Option.some.injEq, herror]
  rfl

/-- The answers to two deliveries of one value differ as the deliveries do. -/
theorem report_putUser_iff {s : Io} {p m n v : ℕ} :
    Request.report (s.putUser n p v) = Request.report (s.putUser m p v) ↔
      s.putUser n p v = s.putUser m p v := by
  unfold Request.report Ch36x.State.putUser
  cases s.user.fault p m <;> cases s.user.fault p n <;> simp [Ch36x.EFAULT]

/-- A read of a register is reported as it is meant iff it is one of that register, and does not
spill. -/
theorem report_regRead_iff {s : Io} (space : Space) (w : Width) (addr addr' p : ℕ) :
    Request.report (Ch36x.regRead hw l.long s space w addr p) =
        Request.report (Ch36x.regRead hw (valueBytes l w) s space w addr' p) ↔
      addr = addr' ∧ ¬ s.user.Spills p (valueBytes l w) l.long := by
  by_cases haddr : addr = addr'
  · subst haddr
    rw [and_iff_right rfl, ← Ch36x.regRead_eq_iff hw l.long s space addr p
      (bytes_le_valueBytes w l) (valueBytes_le w l)]
    exact report_putUser_iff
  · refine iff_of_false (fun hsame => haddr ?_) fun h => haddr h.1
    -- The log tells which register was read.
    have hlog := congrArg (fun r => r.1.log) hsame
    change (Ch36x.regRead hw l.long s space w addr p).1.log =
      (Ch36x.regRead hw (valueBytes l w) s space w addr' p).1.log at hlog
    rw [Ch36x.regRead_log, Ch36x.regRead_log] at hlog
    simpa using hlog

/-- A read of a register is served as far as its buffer goes. -/
theorem call_read_iff {c : Call l} (cmd : Command) {arg : Argument} {space : Space} {w : Width}
    {addr : ℕ} {out : l.Ulong} (h : c.request.ioctl = some ⟨cmd.number, arg⟩)
    (hcase : ioctlCase hw l none { s with user := arg.place c.stack c.user }
        (arg.value c.stack) cmd =
      some (Ch36x.regRead hw l.long { s with user := arg.place c.stack c.user } space w addr
        out.toNat))
    (herror : c.request.onError = 0)
    (hask : c.request.perform hw { s with user := arg.place c.stack c.user } =
      Request.report (Ch36x.regRead hw (valueBytes l w)
        { s with user := arg.place c.stack c.user } space w addr out.toNat)) :
    callStep hw s c = some (askStep hw s c) ↔
      ¬ c.placed.Spills out.toNat (valueBytes l w) l.long := by
  have hplaced : c.placed = arg.place c.stack c.user := by rw [Call.placed, h]
  rw [call_eq_iff_of_report hw s cmd h hcase herror, hask, hplaced]
  exact (report_regRead_iff hw space w addr addr _).trans (and_iff_right rfl)

theorem mod_256_eq_self_iff {n : ℕ} : n % 256 = n ↔ n < 256 :=
  ⟨fun h => h ▸ Nat.mod_lt _ (by decide), Nat.mod_eq_of_lt⟩

/-- A read of the configuration space is served as far as its offset, its alignment and its buffer
go. -/
theorem report_cfgRead_iff {s : Io} (w : Width) (offset p : ℕ) :
    Request.report (Ch36x.cfgRead hw l s w (offset % 256) p) =
        Request.report (Ch36x.regRead hw (valueBytes l w) s .config w offset p) ↔
      (offset < 256 ∧ w.bytes ∣ offset) ∧ ¬ s.user.Spills p (valueBytes l w) l.long := by
  rw [← mod_256_eq_self_iff]
  by_cases hdvd : w.bytes ∣ offset % 256
  · rw [Ch36x.cfgRead_of_dvd hdvd, report_regRead_iff]
    refine and_congr_left fun _ => (and_iff_left_of_imp fun hmod => ?_).symm
    rwa [hmod] at hdvd
  · refine iff_of_false (fun hsame => ?_) fun h => hdvd (by rw [h.1.1]; exact h.1.2)
    have hlog := congrArg (fun r => r.1.log) hsame
    change (Ch36x.cfgRead hw l s w (offset % 256) p).1.log =
      (Ch36x.regRead hw (valueBytes l w) s .config w offset p).1.log at hlog
    simp [hdvd] at hlog

/-- A write to the configuration space is served as far as its offset and its alignment go. -/
theorem report_cfgWrite_iff {s : Io} (w : Width) (v offset : ℕ) :
    Request.report (s.pciWriteConfig w v (offset % 256), (0 : ℤ)) =
        (s.output .config w v offset, 1) ↔ offset < 256 ∧ w.bytes ∣ offset := by
  rw [← mod_256_eq_self_iff]
  have hanswer : Request.report (s.pciWriteConfig w v (offset % 256), (0 : ℤ)) =
      (s.pciWriteConfig w v (offset % 256), 1) := rfl
  rw [hanswer, Prod.mk.injEq, and_iff_left rfl]
  by_cases hdvd : w.bytes ∣ offset % 256
  · have hout : s.output .config w v (offset % 256) = s.output .config w v offset ↔
        offset % 256 = offset := by simp [Ch36x.State.output, Ch36x.State.push]
    rw [Ch36x.State.pciWriteConfig_of_dvd hdvd, hout]
    refine (and_iff_left_of_imp fun hmod => ?_).symm
    rwa [hmod] at hdvd
  · refine iff_of_false (fun hsame => ?_) fun h => hdvd (by rw [h.1]; exact h.2)
    have hlog := congrArg Ch36x.State.log hsame
    rw [Ch36x.State.pciWriteConfig_log, if_neg hdvd] at hlog
    simp [Ch36x.State.output] at hlog

/-- A write of a register is served. -/
theorem call_write {c : Call l} (cmd : Command) {arg : Argument} {written : Io}
    (h : c.request.ioctl = some ⟨cmd.number, arg⟩)
    (hcase : ioctlCase hw l none { s with user := arg.place c.stack c.user }
        (arg.value c.stack) cmd = some (written, 0))
    (herror : c.request.onError = 0)
    (hask : c.request.perform hw { s with user := arg.place c.stack c.user } = (written, 1)) :
    callStep hw s c = some (askStep hw s c) := by
  rw [call_eq_iff_of_report hw s cmd h hcase herror, hask]
  rfl

/-- A block of ports is served iff it is no longer than the range, and no byte of it faults. -/
theorem call_ioBlock_iff {c : Call l} (cmd : Command) {arg : Argument} {moved : Io} {buf len : ℕ}
    (h : c.request.ioctl = some ⟨cmd.number, arg⟩)
    (hcase : ioctlCase hw l none { s with user := arg.place c.stack c.user }
        (arg.value c.stack) cmd =
      some (if CH365_IO_SPACE_RANGE < len then ({ s with user := arg.place c.stack c.user }, -1)
        else (moved, 0)))
    (herror : c.request.onError = -1)
    (hask : c.request.perform hw { s with user := arg.place c.stack c.user } =
      if CH365_IO_SPACE_RANGE < len then ({ s with user := arg.place c.stack c.user }, 0)
      else (moved, if ∀ i < len, (arg.place c.stack c.user).fault (buf + i) 1 = none then 1
        else 0)) :
    callStep hw s c = some (askStep hw s c) ↔
      len ≤ CH365_IO_SPACE_RANGE ∧ ∀ i < len, c.placed.fault (buf + i) 1 = none := by
  have hplaced : c.placed = arg.place c.stack c.user := by rw [Call.placed, h]
  rw [callStep_of_some hw s cmd h hcase, askStep_of_some hw s cmd h, hask, herror, hplaced,
    ← Nat.not_lt]
  by_cases hlen : CH365_IO_SPACE_RANGE < len
  · simp [hlen]
  · rw [if_neg hlen, if_neg hlen]
    -- Where a byte faults, the driver answers as if all had been copied.
    by_cases hfault : ∀ i < len, (arg.place c.stack c.user).fault (buf + i) 1 = none
    · rw [if_pos hfault]
      exact iff_of_true rfl ⟨hlen, hfault⟩
    · rw [if_neg hfault]
      exact iff_of_false (by simp) fun h => hfault h.2

/-- A block of memory is served. -/
theorem call_memBlock {c : Call l} (cmd : Command) {arg : Argument} {moved : Io × ℤ} {len : ℕ}
    (h : c.request.ioctl = some ⟨cmd.number, arg⟩)
    (hcase : ioctlCase hw l none { s with user := arg.place c.stack c.user }
        (arg.value c.stack) cmd =
      some (if CH365_MEM_SPACE_RANGE < len then ({ s with user := arg.place c.stack c.user }, -1)
        else (moved.1, if moved.2 ≠ 0 then -1 else 0)))
    (herror : c.request.onError = 0)
    (hask : c.request.perform hw { s with user := arg.place c.stack c.user } =
      if CH365_MEM_SPACE_RANGE < len then ({ s with user := arg.place c.stack c.user }, 0)
      else Request.report moved) :
    callStep hw s c = some (askStep hw s c) := by
  rw [call_eq_iff_of_report hw s cmd h hcase herror, hask]
  by_cases hlen : CH365_MEM_SPACE_RANGE < len
  · simp [hlen, Request.report]
  · simp only [hlen, if_false, Request.report]
    -- What cannot be copied is an error to both.
    by_cases hleft : moved.2 = 0 <;> simp [hleft]

/-- **A call does what it asks for** iff it is served. -/
theorem call_eq_iff (c : Call l) : callStep hw s c = some (askStep hw s c) ↔ Served c := by
  obtain ⟨r, stack, user, hread⟩ := c
  cases r with
  | readConfig w iOffset oByte =>
    have hio := ioctl_readConfig w iOffset oByte
    refine (call_eq_iff_of_report hw s (.readConfig w) hio (deref2_longs rfl hread) rfl).trans ?_
    rw [Served, Call.placed, hio]
    exact report_cfgRead_iff hw w iOffset.toNat oByte.toNat
  | readIo w iAddr oByte =>
    exact call_read_iff hw s (.readIo w) (ioctl_readIo w iAddr oByte) (deref2_longs rfl hread)
      rfl rfl
  | readMem w iAddr oByte =>
    exact call_read_iff hw s (.readMem w) (ioctl_readMem w iAddr oByte) (deref2_longs rfl hread)
      rfl rfl
  | writeConfig w iOffset iByte =>
    exact (call_eq_iff_of_report hw s (.writeConfig w) (ioctl_writeConfig w iOffset iByte)
      (ioctlCase_write rfl hread).1 rfl).trans (report_cfgWrite_iff w iByte.toNat iOffset.toNat)
  | writeIo w iAddr iByte =>
    exact iff_of_true (call_write hw s (.writeIo w) (ioctl_writeIo w iAddr iByte)
      (ioctlCase_write rfl hread).2.1 rfl rfl) trivial
  | writeMem w iAddr iByte =>
    exact iff_of_true (call_write hw s (.writeMem w) (ioctl_writeMem w iAddr iByte)
      (ioctlCase_write rfl hread).2.2 rfl rfl) trivial
  | readIoBlock iAddr oByte oLength =>
    exact call_ioBlock_iff hw s .readIoBlock rfl (deref3_longs rfl hread) rfl rfl
  | writeIoBlock iAddr iByte iLength =>
    exact call_ioBlock_iff hw s .writeIoBlock rfl (deref3_longs rfl hread) rfl rfl
  | readMemBlock iAddr oByte oLength =>
    exact iff_of_true
      (call_memBlock hw s .readMemBlock rfl (ioctlCase_memBlock rfl hread).1 rfl rfl) trivial
  | writeMemBlock iAddr iByte iLength =>
    exact iff_of_true
      (call_memBlock hw s .writeMemBlock rfl (ioctlCase_memBlock rfl hread).2 rfl rfl) trivial
  | getDrvVer p =>
    refine (call_eq_iff_of_report hw s .getDrvVersion rfl rfl rfl).trans (iff_of_true ?_ trivial)
    simp only [Request.perform, Request.report, ne_eq, Int.natCast_eq_zero]
    rfl
  | getIoBaseAddr p =>
    exact (call_eq_iff_of_report hw s .getIoBaseAddr rfl rfl rfl).trans (iff_of_true rfl trivial)
  | getMemBaseAddr p =>
    exact (call_eq_iff_of_report hw s .getMemBaseAddr rfl rfl rfl).trans (iff_of_true rfl trivial)
  | getIntLine p =>
    exact (call_eq_iff_of_report hw s .getIntLine rfl rfl rfl).trans (iff_of_true rfl trivial)
  | setIntLine iIntLine =>
    exact iff_of_true
      (call_write hw s .setIntLine rfl (ioctlCase_setIntLine rfl hread) rfl rfl) trivial
  | setIoBaseAddr iIoBaseAddr => exact iff_of_true rfl trivial
  | setMemBaseAddr iMemBaseAddr => exact iff_of_true rfl trivial

/-- The kernel finds the arguments of every `ioctl` of the library. -/
theorem exists_ioctlCase (c : Call l) {io : Ch36x.Ioctl} (h : c.request.ioctl = some io) :
    ∃ cmd r, io.cmd = Command.number cmd ∧
      ioctlCase hw l none { s with user := io.arg.place c.stack c.user }
        (io.arg.value c.stack) cmd = some r := by
  obtain ⟨r, stack, user, hread⟩ := c
  cases r with
  | readConfig w x y =>
    obtain rfl := Option.some.inj ((ioctl_readConfig w x y).symm.trans h)
    exact ⟨.readConfig w, _, rfl, deref2_longs rfl hread⟩
  | readIo w x y =>
    obtain rfl := Option.some.inj ((ioctl_readIo w x y).symm.trans h)
    exact ⟨.readIo w, _, rfl, deref2_longs rfl hread⟩
  | readMem w x y =>
    obtain rfl := Option.some.inj ((ioctl_readMem w x y).symm.trans h)
    exact ⟨.readMem w, _, rfl, deref2_longs rfl hread⟩
  | writeConfig w x v =>
    obtain rfl := Option.some.inj ((ioctl_writeConfig w x v).symm.trans h)
    exact ⟨.writeConfig w, _, rfl, (ioctlCase_write rfl hread).1⟩
  | writeIo w x v =>
    obtain rfl := Option.some.inj ((ioctl_writeIo w x v).symm.trans h)
    exact ⟨.writeIo w, _, rfl, (ioctlCase_write rfl hread).2.1⟩
  | writeMem w x v =>
    obtain rfl := Option.some.inj ((ioctl_writeMem w x v).symm.trans h)
    exact ⟨.writeMem w, _, rfl, (ioctlCase_write rfl hread).2.2⟩
  | readIoBlock x y z =>
    obtain rfl := Option.some.inj h
    exact ⟨.readIoBlock, _, rfl, deref3_longs rfl hread⟩
  | writeIoBlock x y z =>
    obtain rfl := Option.some.inj h
    exact ⟨.writeIoBlock, _, rfl, deref3_longs rfl hread⟩
  | readMemBlock x y z =>
    obtain rfl := Option.some.inj h
    exact ⟨.readMemBlock, _, rfl, deref3_longs rfl hread⟩
  | writeMemBlock x y z =>
    obtain rfl := Option.some.inj h
    exact ⟨.writeMemBlock, _, rfl, deref3_longs rfl hread⟩
  | getDrvVer p =>
    obtain rfl := Option.some.inj h
    exact ⟨.getDrvVersion, _, rfl, rfl⟩
  | getIoBaseAddr p =>
    obtain rfl := Option.some.inj h
    exact ⟨.getIoBaseAddr, _, rfl, rfl⟩
  | getMemBaseAddr p =>
    obtain rfl := Option.some.inj h
    exact ⟨.getMemBaseAddr, _, rfl, rfl⟩
  | getIntLine p =>
    obtain rfl := Option.some.inj h
    exact ⟨.getIntLine, _, rfl, rfl⟩
  | setIntLine x =>
    obtain rfl := Option.some.inj h
    exact ⟨.setIntLine, _, rfl, rfl⟩
  | setIoBaseAddr x => cases h
  | setMemBaseAddr x => cases h

/-- **No call of the library crashes the kernel.** -/
theorem callStep_isSome (c : Call l) : (callStep hw s c).isSome := by
  cases h : c.request.ioctl with
  | none =>
    rw [callStep, h]
    rfl
  | some io =>
    obtain ⟨cmd, r, hcmd, hcase⟩ := exists_ioctlCase hw s c h
    obtain ⟨n, arg⟩ := io
    obtain rfl : n = cmd.number := hcmd
    rw [callStep_of_some hw s cmd h hcase]
    rfl

end Calls

end LinuxStack.Ch36xLinux.Wire
