import LinuxStack.Kernel.Uaccess
import LinuxStack.Transition.Run
import Mathlib.Data.Int.Notation

/-!
# The value behind the ioctl

`unlocked_ioctl_t` copies a word into the global `value` or out of it. A copy that faults is logged
and an unknown command falls through to `default`; all of them return 0, as a copy that succeeds
does.

## Main definitions

* `wrValue`, `rdValue`: the two commands
* `unlockedIoctl`: one call
* `watch`: runs of calls, with the word of the last `WR_VALUE` that returned 0
* `StoresValue`: a read that succeeds delivers that word, and every other call that does not do
  what it asks for returns an error and leaves the value
* `Served`: one of the two commands, with a copy that does not fault

## Main results

* `unlockedIoctl_ret`: every call returns 0
* `storesValue_iff`: all calls of a run store and report as they should iff all are served
-/

namespace LinuxStack.Ioctl

open Transition

/-- `_IOC`. -/
def ioc (dir type nr size : BitVec 32) : BitVec 32 :=
  (dir <<< 30) ||| (type <<< 8) ||| nr ||| (size <<< 16)

/-- `WR_VALUE`, where pointers have `pointer` bytes. -/
def wrValue (pointer : BitVec 32) : BitVec 32 :=
  ioc 1 (BitVec.ofNat 32 'a'.toNat) (BitVec.ofNat 32 'a'.toNat) pointer

/-- `RD_VALUE`, where pointers have `pointer` bytes. -/
def rdValue (pointer : BitVec 32) : BitVec 32 :=
  ioc 2 (BitVec.ofNat 32 'a'.toNat) (BitVec.ofNat 32 'b'.toNat) pointer

/-- The four bytes of `value`. -/
structure Globals where
  value : List UInt8
  size : value.length = 4

/-- The globals of a module that has just been loaded. -/
def Globals.load : Globals := ⟨[0, 0, 0, 0], rfl⟩

/-- A call by any client: the command, the four bytes of its memory at `arg`, and where a copy
faults. -/
structure Request where
  cmd : BitVec 32
  word : List UInt8
  size : word.length = 4
  fault : Option ℕ

/-- What a call hands back: its return value, and the bytes copied to the client. -/
structure Reply where
  ret : ℤ
  bytes : List UInt8

/-- `unlocked_ioctl_t`. -/
def unlockedIoctl (pointer : BitVec 32) (g : Globals) (c : Request) : Globals × Reply :=
  if c.cmd = wrValue pointer then
    -- A copy that faults is only logged, here and below.
    ({ value := (copyFromUser g.value c.word c.fault).buf
       size := by rw [copyFromUser_buf_length, g.size] }, ⟨0, []⟩)
  else if c.cmd = rdValue pointer then (g, ⟨0, (copyToUser g.value c.fault).1⟩)
  else (g, ⟨0, []⟩)

/-! ## The contract -/

variable (pointer : BitVec 32)

/-- The copy of the call does not transfer all of its four bytes. -/
def Request.Faults (c : Request) : Prop := uncopied 4 c.fault ≠ 0

instance (c : Request) : Decidable c.Faults := inferInstanceAs (Decidable (_ ≠ _))

/-- A run of calls, with the word of the last `WR_VALUE` that returned 0. -/
def watch (s : Globals × List UInt8) (c : Request) : Globals × List UInt8 :=
  let after := unlockedIoctl pointer s.1 c
  (after.1, if c.cmd = wrValue pointer ∧ after.2.ret = 0 then c.word else s.2)

/-- **The store of one call.** A read that returns 0 delivers the last word written with success;
a copy that faults and a command that is neither of the two return an error, and the value stays as
it is. -/
def StoresValue (s : Globals × List UInt8) (c : Request) : Prop :=
  let after := unlockedIoctl pointer s.1 c
  (c.cmd = rdValue pointer → after.2.ret = 0 → after.2.bytes = s.2) ∧
    (c.cmd = wrValue pointer → c.Faults → after.2.ret < 0 ∧ after.1 = s.1) ∧
    (c.cmd = rdValue pointer → c.Faults → after.2.ret < 0) ∧
    (c.cmd ≠ wrValue pointer → c.cmd ≠ rdValue pointer → after.2.ret < 0 ∧ after.1 = s.1)

/-- One of the two commands, with a copy that does not fault. -/
def Served (c : Request) : Prop :=
  (c.cmd = wrValue pointer ∨ c.cmd = rdValue pointer) ∧ ¬ c.Faults

variable {pointer}

/-! ## One call -/

/-- The two commands differ in the lowest bit. -/
theorem wrValue_ne_rdValue : wrValue pointer ≠ rdValue pointer := by
  intro h
  have hbit := congrArg (·.getLsbD 0) h
  simp [wrValue, rdValue, ioc] at hbit

/-- **Every call returns 0.** -/
theorem unlockedIoctl_ret (g : Globals) (c : Request) : (unlockedIoctl pointer g c).2.ret = 0 := by
  unfold unlockedIoctl
  split
  · rfl
  · split <;> rfl

/-- A write without a fault stores the word of the client. -/
theorem unlockedIoctl_wrValue {g : Globals} {c : Request} (hcmd : c.cmd = wrValue pointer)
    (hfault : ¬ c.Faults) : (unlockedIoctl pointer g c).1.value = c.word := by
  unfold unlockedIoctl
  rw [if_pos hcmd]
  apply copyFromUser_buf_of_uncopied (c.size.trans g.size.symm)
  rw [c.size]
  exact Decidable.not_not.mp hfault

/-- A read leaves the value, and delivers it when it does not fault. -/
theorem unlockedIoctl_rdValue {g : Globals} {c : Request} (hcmd : c.cmd = rdValue pointer) :
    (unlockedIoctl pointer g c).1 = g ∧
      (¬ c.Faults → (unlockedIoctl pointer g c).2.bytes = g.value) := by
  have hne : c.cmd ≠ wrValue pointer := fun h => wrValue_ne_rdValue (h.symm.trans hcmd)
  unfold unlockedIoctl
  rw [if_neg hne, if_pos hcmd]
  refine ⟨rfl, fun hfault => ?_⟩
  have hall : uncopied g.value.length c.fault = 0 := by
    rw [g.size]
    exact Decidable.not_not.mp hfault
  show (copyToUser g.value c.fault).1 = g.value
  rw [copyToUser_of_uncopied hall]

/-- A served call stores as it should, and the value stays the last word written. -/
theorem Served.storesValue {s : Globals × List UInt8} {c : Request} (hs : s.1.value = s.2)
    (hc : Served pointer c) :
    StoresValue pointer s c ∧ (watch pointer s c).1.value = (watch pointer s c).2 := by
  obtain ⟨hcmd, hfault⟩ := hc
  rcases hcmd with hcmd | hcmd
  · -- A write stores the word that is recorded.
    have hne : c.cmd ≠ rdValue pointer := fun h => wrValue_ne_rdValue (hcmd.symm.trans h)
    refine ⟨⟨fun h => absurd h hne, fun _ h => absurd h hfault, fun _ h => absurd h hfault,
      fun h => absurd hcmd h⟩, ?_⟩
    have hrecorded : (watch pointer s c).2 = c.word :=
      if_pos ⟨hcmd, unlockedIoctl_ret s.1 c⟩
    rw [hrecorded]
    exact unlockedIoctl_wrValue hcmd hfault
  · -- A read delivers the value, and neither the value nor the record changes.
    have hne : c.cmd ≠ wrValue pointer := fun h => wrValue_ne_rdValue (h.symm.trans hcmd)
    obtain ⟨hkept, hdelivered⟩ := unlockedIoctl_rdValue (g := s.1) hcmd
    refine ⟨⟨fun _ _ => (hdelivered hfault).trans hs, fun h => absurd h hne,
      fun _ h => absurd h hfault, fun _ h => absurd hcmd h⟩, ?_⟩
    have hrecorded : (watch pointer s c).2 = s.2 := if_neg fun h => hne h.1
    rw [hrecorded]
    exact (congrArg Globals.value hkept).trans hs

/-- A call that is not served ought to return an error. -/
theorem StoresValue.served {s : Globals × List UInt8} {c : Request} (h : StoresValue pointer s c) :
    Served pointer c := by
  obtain ⟨-, hwrite, hread, hother⟩ := h
  -- The contract asks for an error in all other cases, and no call returns one.
  have hnoError : ¬ (unlockedIoctl pointer s.1 c).2.ret < 0 := by
    rw [unlockedIoctl_ret]
    exact Int.lt_irrefl 0
  by_cases hw : c.cmd = wrValue pointer
  · exact ⟨.inl hw, fun hfault => hnoError (hwrite hw hfault).1⟩
  · by_cases hr : c.cmd = rdValue pointer
    · exact ⟨.inr hr, fun hfault => hnoError (hread hr hfault)⟩
    · exact absurd (hother hw hr).1 hnoError

/-! ## Runs -/

/-- **The calls store and report as they should iff all of them are served**: in any sequence of
calls by any clients, from a fresh load, each is one of the two commands and its copy does not
fault. -/
theorem storesValue_iff (pointer : BitVec 32) (cs : List Request) :
    Along (watch pointer) (StoresValue pointer) (Globals.load, Globals.load.value) cs ↔
      ∀ c ∈ cs, Served pointer c := by
  apply along_iff_forall_mem (I := fun s => s.1.value = s.2)
  · exact fun s c hs hc => hc.storesValue hs
  · exact fun s c _ h => h.served
  · rfl

/-- A write that faults after its first byte returns 0, and leaves that byte in the value. -/
theorem not_storesValue_faultyWrite :
    ¬ Along (watch 8) (StoresValue 8) (Globals.load, Globals.load.value)
        [⟨wrValue 8, [1, 2, 3, 4], rfl, some 1⟩] := by
  rintro ⟨⟨-, hwrite, -⟩, -⟩
  obtain ⟨hret, -⟩ := hwrite rfl (by decide)
  revert hret
  decide

end LinuxStack.Ioctl
