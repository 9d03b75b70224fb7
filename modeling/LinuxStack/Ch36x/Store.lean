import LinuxStack.Ch36x.Transfer
import LinuxStack.Ch36x.Wire

/-!
# The memory of the chip

The library reaches the memory of the chip through registers of three widths and through blocks. If
the chip keeps what is written to its memory, a program sees a flat store: what it writes is
stored, also where a block faults, what it reads is loaded, and no other call touches the memory.

## Main definitions

* `memory`, `Hardware.Stores`: what accesses leave in a memory, and a chip that answers it
* `Call.stored`: the store after a call, in terms of its own arguments
* `Delivered`: a caller has got what the store holds

## Main results

* `memory_callStep`, `memory_run`: the memory of the chip is the store
* `delivered_callStep`: a read delivers what it holds
* `reads_stored`: after a run of calls, a read delivers what they have stored
* `block_round_trip`: a block that was written is read again
-/

namespace LinuxStack.Ch36x

open Memory Transition

/-! ## A chip that stores -/

/-- What an access leaves in the memory of the chip. -/
def memoryStep (mem : ℕ → UInt8) : Access → ℕ → UInt8
  | .write .mem w addr val => storeWord mem addr w.bytes val
  | .writeBlock addr bytes => store mem addr bytes
  | _ => mem

/-- The memory of the chip, which holds `init` at first. -/
def memory (init : ℕ → UInt8) (log : List Access) : ℕ → UInt8 := run memoryStep init log

/-- The chip answers what its memory holds. -/
structure Hardware.Stores (hw : Hardware) (init : ℕ → UInt8) : Prop where
  read : ∀ log w addr,
    hw.read log .mem w addr % 256 ^ w.bytes = loadWord (memory init log) addr w.bytes
  byte : ∀ log, hw.byte log = memory init log

/-- A chip that is nothing but a memory. -/
def Hardware.sram (init : ℕ → UInt8) : Hardware where
  read log _ w addr := loadWord (memory init log) addr w.bytes
  byte log := memory init log
  unset _ _ := 0

theorem sram_stores (init : ℕ → UInt8) : (Hardware.sram init).Stores init where
  read _ _ _ := Nat.mod_eq_of_lt loadWord_lt
  byte _ := rfl

/-- An access that is no write to the memory. -/
def Access.Aside : Access → Prop
  | .write .mem _ _ _ | .writeBlock _ _ => False
  | _ => True

section Aside

variable {hw : Hardware} {init : ℕ → UInt8} {log as : List Access} {s : State Ch36xDev}

@[simp] theorem memory_append : memory init (log ++ as) = run memoryStep (memory init log) as :=
  run_append _ _ _ _

theorem memory_of_aside (h : ∀ a ∈ as, a.Aside) : memory init (log ++ as) = memory init log := by
  rw [memory_append]
  generalize memory init log = mem
  induction as with
  | nil => rfl
  | cons a as ih =>
    obtain ⟨ha, has⟩ := List.forall_mem_cons.mp h
    have hstep : memoryStep mem a = mem := by
      cases a with
      | write space _ _ _ => cases space with
        | mem => exact ha.elim
        | config | io => rfl
      | writeBlock _ _ => exact ha.elim
      | _ => rfl
    rw [run_cons, hstep, ih has]

theorem Access.Touches.aside {a : Access} {port : ℕ} (h : a.Touches port) : a.Aside := by
  cases a with
  | write space _ _ _ => cases space with
    | io => trivial
    | config | mem => exact h.elim
  | writeBlock _ _ => exact h.elim
  | _ => trivial

theorem Around.aside_mem {base : ℕ} {ends : Bool} (h : Around base as ends) : ∀ a ∈ as, a.Aside :=
  fun a ha => (h.aside a ha).elim Access.Touches.aside Access.Touches.aside

/-! Interrupts are programmed through ports or the configuration space. -/

theorem memory_enableInterrupts (mode : BitVec 32) :
    memory init (enableInterrupts hw s mode).log = memory init s.log := by
  unfold enableInterrupts
  by_cases hc : s.dev.chiptype = .ch365
  · simp [hc, memoryStep]
  · cases ht : trigger mode <;> simp [hc, memoryStep]

theorem memory_disableInterrupts :
    memory init (disableInterrupts hw s).log = memory init s.log := by
  unfold disableInterrupts
  by_cases hc : s.dev.chiptype = .ch365 <;> simp [hc, memoryStep]

theorem carried_aside {d : Ch36xDev} {t : Transfer} {regGPOR : BitVec 8} {start stop : List Access}
    (hstart : Around d.ioaddr start true) (hstop : Around d.ioaddr stop false) :
    ∀ a ∈ carried d t regGPOR start stop, a.Aside := by
  have hmiddle : ∀ a ∈ (if t.olen ≠ 0 then stray d regGPOR ++ receives d.ioaddr t.olen else []),
      a.Aside := by
    intro a ha
    split at ha
    · rcases List.mem_append.mp ha with ha | ha
      · exact (stray_touches a ha).aside
      · exact (receives_touches a ha).aside
    · cases ha
  simp only [carried, List.forall_mem_append]
  exact ⟨⟨⟨hstart.aside_mem, fun a ha => (sends_touches a ha).aside⟩, hmiddle⟩, hstop.aside_mem⟩

theorem memory_stream (t : Transfer) :
    memory init (stream hw s t).1.log = memory init s.log := by
  by_cases h : Starts hw s t
  · obtain ⟨start, stop, regGPOR, hstart, hstop, as, rfl, hres⟩ := stream_of_starts h
    rw [hres]
    exact memory_of_aside (carried_aside hstart hstop)
  · by_cases hread : t.Readable
    · obtain ⟨as, haround, hres⟩ := stream_of_refused hread h
      rw [hres]
      exact memory_of_aside haround.aside_mem
    · obtain ⟨ret, -, hres⟩ := stream_of_not_readable hw s hread
      rw [hres]

end Aside

/-! ## Calls -/

variable {l : Abi}

/-- The state after a call. -/
def afterCall (hw : Hardware) (s : State Ch36xDev) (c : Call l) : State Ch36xDev :=
  (callStep hw s c).1

/-- The store after a call. A block that faults is stored with zeros. -/
def Call.stored (mem : ℕ → UInt8) (c : Call l) : ℕ → UInt8 :=
  match c.request with
  | .writeMem w addr val => storeWord mem addr.toNat w.bytes val.toNat
  | .writeMemBlock memaddr buffer len =>
    if len.toNat = 0 ∨ mMAX_BUFFER_LENGTH < len.toNat then mem
    else store mem memaddr.toNat (c.placed.copyFromUser buffer.toNat len.toNat).1
  | _ => mem

/-- The caller has got what the store holds, if the call is a read of it. -/
def Delivered (mem : ℕ → UInt8) (c : Call l) (user : User) : Prop :=
  match c.request with
  | .readMem w addr out =>
    loadWord user.byte out.toNat w.bytes = loadWord mem addr.toNat w.bytes
  | .readMemBlock memaddr buffer len =>
    load user.byte buffer.toNat len.toNat = load mem memaddr.toNat len.toNat
  | _ => True

/-- The call writes nothing between two addresses. -/
def Call.Apart (p n : ℕ) (c : Call l) : Prop :=
  match c.request with
  | .writeMem w addr _ => p + n ≤ addr.toNat ∨ addr.toNat + w.bytes ≤ p
  | .writeMemBlock memaddr _ len =>
    p + n ≤ memaddr.toNat ∨ memaddr.toNat + len.toNat ≤ p
  | _ => True

section Calls

variable {hw : Hardware} {init mem : ℕ → UInt8} {s : State Ch36xDev} {kmalloc : Bool} {arg : ℕ}

theorem memory_regWrite {space : Space} (h : space ≠ .mem) (w : Width) (addr : ℕ) :
    memory init (regWrite l s space w addr arg).1.log = memory init s.log := by
  unfold regWrite
  simp only
  split
  · rfl
  · apply memory_of_aside
    cases space with
    | mem => exact absurd rfl h
    | config | io => simp [Access.Aside]

theorem memory_cfgWrite (w : Width) (offset : ℕ) :
    memory init (cfgWrite l s w offset arg).1.log = memory init s.log := by
  unfold cfgWrite
  simp only
  split
  · rfl
  · rw [State.pciWriteConfig_log]
    split
    · exact memory_of_aside (by simp [Access.Aside])
    · rw [List.append_nil]

/-- A command that does not write to the memory leaves it, whatever its arguments. -/
theorem memory_ioctlCase {cmd : Command} (hreg : ∀ w, cmd ≠ .writeMem w)
    (hblock : cmd ≠ .writeMemBlock) :
    memory init (ioctlCase hw l kmalloc s arg cmd).1.log = memory init s.log := by
  cases cmd with
  | writeMem w => exact absurd rfl (hreg w)
  | writeMemBlock => exact absurd rfl hblock
  | enableInt => exact memory_enableInterrupts _
  | disableInt => exact memory_disableInterrupts
  | writeConfig w => exact memory_cfgWrite w _
  | writeIo w => exact memory_regWrite (by decide) w _
  | streamSpi =>
    -- The switch reads the transfer from the caller.
    exact memory_stream
      ⟨kmalloc, s.arg l arg 0, s.arg l arg 1, s.arg l arg 2, s.arg l arg 3, s.user⟩
  | readConfig w =>
    rw [ioctlCase, cfgRead_log]
    split
    · exact memory_of_aside (by simp [Access.Aside])
    · rw [List.append_nil]
  | readIo w => simp [ioctlCase, ioRead, memoryStep]
  | readMem w => simp [ioctlCase, mmioRead, memoryStep]
  | readMemBlock => simp [ioctlCase, memReadBlock, memoryStep]
  | getChiptype | getVersion | getIoBaseAddr | getMemBaseAddr | setStream => simp [ioctlCase]

theorem memory_of_none {c : Call l} (h : c.request.ioctl = none) :
    memory init (callStep hw s c).1.log = memory init s.log := by
  rw [callStep, h]

theorem memory_of_some {c : Call l} (cmd : Command) {arg : Argument}
    (h : c.request.ioctl = some ⟨cmd.number, arg⟩) (hreg : ∀ w, cmd ≠ .writeMem w)
    (hblock : cmd ≠ .writeMemBlock) :
    memory init (callStep hw s c).1.log = memory init s.log := by
  rw [callStep_of_some hw s cmd h]
  exact memory_ioctlCase hreg hblock

/-! What the calls on the memory do. -/

theorem callStep_readMem {c : Call l} {w : Width} {addr out : l.Ulong}
    (h : c.request = .readMem w addr out) :
    callStep hw s c =
      regRead hw l.long { s with user := c.placed } .mem w addr.toNat out.toNat := by
  obtain ⟨r, kmalloc, stack, user, hread⟩ := c
  obtain rfl : r = .readMem w addr out := h
  have hio := ioctl_readMem w addr out
  rw [Call.placed, hio]
  exact (callStep_of_some hw s (.readMem w) hio).trans (ioctlCase_read rfl hread w kmalloc).2

theorem callStep_writeMem {c : Call l} {w : Width} {addr : l.Ulong} {val : BitVec (8 * w.bytes)}
    (h : c.request = .writeMem w addr val) :
    callStep hw s c =
      (State.output { s with user := c.placed } .mem w val.toNat addr.toNat, 0) := by
  obtain ⟨r, kmalloc, stack, user, hread⟩ := c
  obtain rfl : r = .writeMem w addr val := h
  have hio := ioctl_writeMem w addr val
  rw [Call.placed, hio]
  exact (callStep_of_some hw s (.writeMem w) hio).trans (ioctlCase_write rfl hread kmalloc).2

/-- A block of a length that the library refuses does not get to the driver. -/
theorem callStep_readMemBlock {c : Call l} {memaddr buffer len : l.Ulong}
    (h : c.request = .readMemBlock memaddr buffer len) :
    callStep hw s c =
      if len.toNat = 0 ∨ mMAX_BUFFER_LENGTH < len.toNat then ({ s with user := c.placed }, -1)
      else memReadBlock hw { s with user := c.placed } memaddr.toNat buffer.toNat len.toNat := by
  obtain ⟨r, kmalloc, stack, user, hread⟩ := c
  obtain rfl : r = .readMemBlock memaddr buffer len := h
  have hserved := (call_eq_iff hw s
    ⟨.readMemBlock memaddr buffer len, kmalloc, stack, user, hread⟩).mpr ⟨id, id, id⟩
  exact hserved

theorem callStep_writeMemBlock {c : Call l} {memaddr buffer len : l.Ulong}
    (h : c.request = .writeMemBlock memaddr buffer len) :
    callStep hw s c =
      if len.toNat = 0 ∨ mMAX_BUFFER_LENGTH < len.toNat then ({ s with user := c.placed }, -1)
      else memWriteBlock { s with user := c.placed } memaddr.toNat buffer.toNat len.toNat := by
  obtain ⟨r, kmalloc, stack, user, hread⟩ := c
  obtain rfl : r = .writeMemBlock memaddr buffer len := h
  have hserved := (call_eq_iff hw s
    ⟨.writeMemBlock memaddr buffer len, kmalloc, stack, user, hread⟩).mpr ⟨id, id, id⟩
  exact hserved

/-- **The memory of the chip is the store**: a call leaves in it what it stores. -/
theorem memory_callStep (c : Call l) :
    memory init (callStep hw s c).1.log = c.stored (memory init s.log) := by
  obtain ⟨r, kmalloc, stack, user, hread⟩ := c
  cases r with
  | writeMem w addr val =>
    rw [callStep_writeMem rfl, State.output, State.push_log, memory_append]
    exact storeWord_mod
  | writeMemBlock memaddr buffer len =>
    by_cases hlen : len.toNat = 0 ∨ mMAX_BUFFER_LENGTH < len.toNat
    · rw [callStep_writeMemBlock rfl, if_pos hlen]
      exact (if_pos hlen).symm
    · rw [callStep_writeMemBlock rfl, if_neg hlen]
      exact memory_append.trans (if_neg hlen).symm
  | readMemBlock memaddr buffer len =>
    by_cases hlen : len.toNat = 0 ∨ mMAX_BUFFER_LENGTH < len.toNat
    · exact memory_of_none (if_pos hlen)
    · exact memory_of_some .readMemBlock (if_neg hlen) (by simp) (by simp)
  | streamSpi ibuffer ilen obuffer olen =>
    by_cases hilen : mMAX_BUFFER_LENGTH < ilen.toNat
    · exact memory_of_none (if_pos hilen)
    · by_cases holen : mMAX_BUFFER_LENGTH < olen.toNat
      · exact memory_of_none ((if_neg hilen).trans (if_pos holen))
      · exact memory_of_some .streamSpi ((if_neg hilen).trans (if_neg holen)) (by simp) (by simp)
  | readConfig w offset out =>
    exact memory_of_some (.readConfig w) (ioctl_readConfig w offset out) (by simp) (by simp)
  | writeConfig w offset val =>
    exact memory_of_some (.writeConfig w) (ioctl_writeConfig w offset val) (by simp) (by simp)
  | readIo w addr out =>
    exact memory_of_some (.readIo w) (ioctl_readIo w addr out) (by simp) (by simp)
  | writeIo w addr val =>
    exact memory_of_some (.writeIo w) (ioctl_writeIo w addr val) (by simp) (by simp)
  | readMem w addr out =>
    exact memory_of_some (.readMem w) (ioctl_readMem w addr out) (by simp) (by simp)
  | getChiptype p => exact memory_of_some .getChiptype rfl (by simp) (by simp)
  | getVersion p => exact memory_of_some .getVersion rfl (by simp) (by simp)
  | getIoaddr p => exact memory_of_some .getIoBaseAddr rfl (by simp) (by simp)
  | getMemaddr p => exact memory_of_some .getMemBaseAddr rfl (by simp) (by simp)
  | enableIsr mode => exact memory_of_some .enableInt rfl (by simp) (by simp)
  | disableIsr => exact memory_of_some .disableInt rfl (by simp) (by simp)
  | setStream mode => exact memory_of_some .setStream rfl (by simp) (by simp)

/-- The memory after a run of calls. -/
theorem memory_run (cs : List (Call l)) :
    memory init (run (afterCall hw) s cs).log = run Call.stored (memory init s.log) cs := by
  induction cs generalizing s with
  | nil => rfl
  | cons c cs ih => rw [run_cons, run_cons, ih, afterCall, memory_callStep]

/-- A register delivered as a `long` lies in its lower part. -/
theorem loadWord_regRead (hst : hw.Stores init) {w : Width} {addr p : ℕ}
    (hret : (regRead hw l.long s .mem w addr p).2 = 0) :
    loadWord (regRead hw l.long s .mem w addr p).1.user.byte p w.bytes =
      loadWord (memory init s.log) addr w.bytes := by
  have hok : s.user.fault p l.long = none := by
    by_contra hfault
    obtain ⟨n, hn⟩ := Option.ne_none_iff_exists'.mp hfault
    simp [regRead, State.input, State.putUser, hn, EFAULT] at hret
  have hbyte : (regRead hw l.long s .mem w addr p).1.user.byte =
      storeWord s.user.byte p l.long (loadWord (memory init s.log) addr w.bytes) := by
    simp [regRead, State.input, State.putUser, hok, hst.read]
  rw [hbyte, ← loadWord_mod (w.bytes_le l), loadWord_storeWord,
    Nat.mod_mod_of_dvd _ (Nat.pow_dvd_pow 256 (w.bytes_le l)), Nat.mod_eq_of_lt loadWord_lt]

theorem load_memReadBlock (hst : hw.Stores init) {addr p n : ℕ}
    (hret : (memReadBlock hw s addr p n).2 = 0) :
    load (memReadBlock hw s addr p n).1.user.byte p n = load (memory init s.log) addr n := by
  -- A block of which every byte was copied.
  have hall : uncopied (load (hw.byte s.log) addr n).length
      (s.user.fault p (load (hw.byte s.log) addr n).length) = 0 := Int.natCast_eq_zero.mp hret
  have hbyte : (memReadBlock hw s addr p n).1.user.byte =
      store s.user.byte p (load (hw.byte s.log) addr n) := by
    simp only [memReadBlock, State.copyToUser, User.copyToUser, State.push_user,
      copyToUser_of_uncopied hall]
  have hround : load (store s.user.byte p (load (hw.byte s.log) addr n)) p
      (load (hw.byte s.log) addr n).length = load (hw.byte s.log) addr n := load_store
  rwa [load_length, ← hbyte, hst.byte] at hround

/-- **A read delivers what the store holds**, if it returns zero. -/
theorem delivered_callStep (hst : hw.Stores init) (c : Call l) (hret : (callStep hw s c).2 = 0) :
    Delivered (memory init s.log) c (callStep hw s c).1.user := by
  cases h : c.request with
  | readMem w addr out =>
    rw [callStep_readMem h] at hret ⊢
    simp only [Delivered, h]
    exact loadWord_regRead hst hret
  | readMemBlock memaddr buffer len =>
    rw [callStep_readMemBlock h] at hret ⊢
    split at hret
    · cases hret
    · rename_i hlen
      rw [if_neg hlen]
      simp only [Delivered, h]
      exact load_memReadBlock hst hret
  | _ => simp only [Delivered, h]

/-- **After a run of calls, a read delivers what they have stored**, if it returns zero. -/
theorem reads_stored (hst : hw.Stores init) (s : State Ch36xDev) (cs : List (Call l)) (c : Call l)
    (hret : (callStep hw (run (afterCall hw) s cs) c).2 = 0) :
    Delivered (run Call.stored (memory init s.log) cs) c
      (callStep hw (run (afterCall hw) s cs) c).1.user := by
  rw [← memory_run]
  exact delivered_callStep hst c hret

/-- A call on a machine with a `long` of eight bytes, by a process whose bytes are the lowest of
their addresses. -/
def Request.call (r : Request ⟨8, Or.inr rfl⟩) : Call ⟨8, Or.inr rfl⟩ :=
  ⟨r, true, 0x7000, ⟨fun a => UInt8.ofNat a, fun _ _ => none⟩, fun _ _ => rfl⟩

/-- The upper word of a register that was written whole. -/
theorem reads_stored_word :
    loadWord (callStep (.sram fun _ => 0)
      (run (afterCall (.sram fun _ => 0)) ⟨.probed .ch367 0xE000 0, [], .zero⟩
        [Request.call (.writeMem .dword 0x100 0x12345678)])
      (Request.call (.readMem .word 0x102 0x8000))).1.user.byte 0x8000 2 = 0x1234 := by
  have hdelivered : loadWord _ _ _ = loadWord _ _ _ :=
    reads_stored (sram_stores fun _ => 0) ⟨.probed .ch367 0xE000 0, [], .zero⟩
      [Request.call (.writeMem .dword 0x100 0x12345678)]
      (Request.call (.readMem .word 0x102 0x8000)) (by decide)
  exact hdelivered.trans (by decide)

/-! ## Round trips -/

/-- A call that writes elsewhere leaves what is between the two addresses. -/
theorem load_stored {p n : ℕ} {c : Call l} (h : c.Apart p n) :
    load (c.stored mem) p n = load mem p n := by
  unfold Call.stored
  cases hr : c.request with
  | writeMem w addr val =>
    simp only [Call.Apart, hr] at h
    rcases h with h | h
    · exact load_store_of_le h
    · exact load_store_of_ge (by rwa [leBytes_length])
  | writeMemBlock memaddr buffer len =>
    simp only [Call.Apart, hr] at h
    simp only
    split
    · rfl
    · rcases h with h | h
      · exact load_store_of_le h
      · refine load_store_of_ge ?_
        show memaddr.toNat + (stored _ _).length ≤ p
        rwa [stored_length, load_length]
  | _ => rfl

theorem load_run_stored {p n : ℕ} {cs : List (Call l)} (h : ∀ c ∈ cs, c.Apart p n) :
    load (run Call.stored mem cs) p n = load mem p n := by
  induction cs generalizing mem with
  | nil => rfl
  | cons c cs ih =>
    obtain ⟨hc, hcs⟩ := List.forall_mem_cons.mp h
    rw [run_cons, ih hcs, load_stored hc]

/-- **A block that was written is read again**, after any run of calls that write elsewhere, if
both calls return zero. -/
theorem block_round_trip (hst : hw.Stores init) (s : State Ch36xDev) (write : Call l)
    (cs : List (Call l)) (read : Call l) {memaddr ibuffer obuffer len : l.Ulong}
    (hwrite : write.request = .writeMemBlock memaddr ibuffer len)
    (hread : read.request = .readMemBlock memaddr obuffer len)
    (hapart : ∀ c ∈ cs, c.Apart memaddr.toNat len.toNat)
    (hwrote : (callStep hw s write).2 = 0)
    (hret : (callStep hw (run (afterCall hw) s (write :: cs)) read).2 = 0) :
    load (callStep hw (run (afterCall hw) s (write :: cs)) read).1.user.byte
        obuffer.toNat len.toNat =
      load write.placed.byte ibuffer.toNat len.toNat := by
  have hdelivered := delivered_callStep hst read hret
  simp only [Delivered, hread] at hdelivered
  rw [hdelivered, memory_run, run_cons, load_run_stored hapart]
  rw [callStep_writeMemBlock hwrite] at hwrote
  split at hwrote
  · cases hwrote
  · rename_i hlen
    -- No byte of the block faulted, so it was stored as it is.
    have hall : uncopied (load write.placed.byte ibuffer.toNat len.toNat).length
        (write.placed.fault ibuffer.toNat len.toNat) = 0 := by
      rw [load_length]
      exact Int.natCast_eq_zero.mp hwrote
    have hstored : write.stored (memory init s.log) = store (memory init s.log) memaddr.toNat
        (load write.placed.byte ibuffer.toNat len.toNat) := by
      simp only [Call.stored, hwrite, if_neg hlen, User.copyFromUser, stored_of_uncopied hall]
    have hround : load (store (memory init s.log) memaddr.toNat
        (load write.placed.byte ibuffer.toNat len.toNat)) memaddr.toNat
          (load write.placed.byte ibuffer.toNat len.toNat).length =
            load write.placed.byte ibuffer.toNat len.toNat := load_store
    rwa [load_length, ← hstored] at hround

/-- A block of two bytes, around a write behind it. -/
theorem block_round_trip_two :
    load (callStep (.sram fun _ => 0)
      (run (afterCall (.sram fun _ => 0)) ⟨.probed .ch367 0xE000 0, [], .zero⟩
        [Request.call (.writeMemBlock 0x100 0x8001 2), Request.call (.writeMem .byte 0x102 0xFF)])
      (Request.call (.readMemBlock 0x100 0x9000 2))).1.user.byte 0x9000 2 = [1, 2] :=
  block_round_trip (sram_stores fun _ => 0) ⟨.probed .ch367 0xE000 0, [], .zero⟩
    (Request.call (.writeMemBlock 0x100 0x8001 2)) [Request.call (.writeMem .byte 0x102 0xFF)]
    (Request.call (.readMemBlock 0x100 0x9000 2)) rfl rfl
    (by
      intro c hc
      obtain rfl := List.mem_singleton.mp hc
      exact Or.inl (by decide))
    (by decide) (by decide)

end Calls

end LinuxStack.Ch36x
