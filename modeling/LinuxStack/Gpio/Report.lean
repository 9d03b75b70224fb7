import LinuxStack.Gpio.Interrupt

/-!
# Writes and reads of the device

While nothing else drives GPIO 21, its level is the last digit written, and `etx_read` delivers it.
It returns 0 all the same, so a program that goes by the count never sees the byte. `etx_write`
copies as many bytes as it is given into a buffer of 10.

## Main definitions

* `Access`: the calls on the device, none of which faults
* `watchDigit`: runs of calls, with the last digit written
* `Reports`: a write stays in its buffer and drives its digit only, a read delivers the last digit
  written and returns 1
* `Safe`: a write of at most 10 bytes

## Main results

* `etxRead_delivers`: every read delivers the last digit written, or 0 after the load
* `reports_iff`: all calls of a run report as they should iff all are safe
-/

namespace LinuxStack.Gpio

open Registry Transition

variable {w : ℕ}

/-- The calls on the device, none of which faults. -/
inductive Access where
  | etxRead (len : ℕ) (pos : 1 ≤ len)
  | etxWrite (buf : List UInt8)

/-- A run of calls, with the last digit written. -/
def watchDigit (s : Globals w × Bool) : Access → Globals w × Bool
  | .etxRead _ _ => s
  | .etxWrite buf => ((etxWrite s.1 buf none).1, (written buf none).getD s.2)

/-- A digit as the byte that a read delivers. -/
def digitByte (digit : Bool) : UInt8 := if digit then 1 else 0

/-- **The report of one call.** A write stores nothing past its buffer, and drives the digit that its
first byte is or leaves the level; a read delivers the last digit written as its only byte, and
returns 1. -/
def Reports (s : Globals w × Bool) : Access → Prop
  | .etxRead _ _ => etxRead s.1 none = ([digitByte s.2], 1)
  | .etxWrite buf =>
    (etxWrite s.1 buf none).2.1 = [] ∧
      (etxWrite s.1 buf none).1.level 21 = (written buf none).getD (s.1.level 21)

/-- A write of at most 10 bytes. -/
def Safe : Access → Prop
  | .etxRead _ _ => False
  | .etxWrite buf => buf.length ≤ 10

/-! ## One call -/

/-- **A write stays inside its buffer iff it has at most 10 bytes**, whether it faults or not. -/
theorem etxWrite_beyond_eq_nil (g : Globals w) (buf : List UInt8) (fault : Option ℕ) :
    (etxWrite g buf fault).2.1 = [] ↔ buf.length ≤ 10 := by
  show (stored buf fault).drop (List.replicate 10 0).length = [] ↔ _
  rw [List.drop_eq_nil_iff, stored_length, List.length_replicate]

/-- A write drives the digit that its first byte is, or leaves the level. -/
theorem etxWrite_level (g : Globals w) (buf : List UInt8) :
    (etxWrite g buf none).1.level 21 = (written buf none).getD (g.level 21) := by
  rw [etxWrite_eq]
  simp

/-- A call reports as it should iff it is a write that stays inside its buffer. -/
theorem reports_iff_safe (s : Globals w × Bool) (c : Access) : Reports s c ↔ Safe c := by
  cases c with
  | etxRead len pos =>
    refine ⟨fun h => ?_, False.elim⟩
    -- `etx_read` returns 0, whatever it delivers.
    have hret : (0 : ℤ) = 1 := congrArg Prod.snd h
    exact absurd hret (by decide)
  | etxWrite buf =>
    show _ ∧ _ ↔ _
    -- The level is right after every write, so only the buffer is in question.
    rw [etxWrite_beyond_eq_nil]
    exact and_iff_left (etxWrite_level s.1 buf)

/-! ## Runs -/

variable {ω : Type*} [DecidableEq ω]

/-- The level is the last digit written. -/
def LevelIsDigit (s : Globals w × Bool) : Prop := s.1.level 21 = s.2

theorem watchDigit_levelIsDigit {s : Globals w × Bool} (hs : LevelIsDigit s) (c : Access) :
    LevelIsDigit (watchDigit s c) := by
  cases c with
  | etxRead len pos => exact hs
  | etxWrite buf =>
    show (etxWrite s.1 buf none).1.level 21 = _
    rw [etxWrite_level, hs]
    rfl

/-- **Every read delivers the last digit written.** After a load that succeeds, with a GPIO that can
be driven, a read after any calls delivers the digit of the last write that had one, or 0. -/
theorem etxRead_delivers (d : Driver) (o : Outcomes) (k : Kernel ω) (p : ℕ) (level : ℕ → Bool)
    (cs : List Access) (hlow : o.gpioDirectionOutput = none)
    (hret : (d.etxDriverInit o (Etx.load k.foreign p level : Etx w ω)).2 = 0) :
    let s := run watchDigit ((d.startGlobals o k p level : Globals w), false) cs
    (etxRead s.1 none).1 = [digitByte s.2] := by
  have hstart : LevelIsDigit ((d.startGlobals o k p level : Globals w), false) := by
    obtain ⟨irq, hglobals⟩ := startGlobals_eq d o k p level hret
    show (d.startGlobals o k p level).level 21 = false
    rw [hglobals, hlow]
    simp [gpioDirectionOutput, gpioSetValue]
  have hdigit : LevelIsDigit (run watchDigit ((d.startGlobals o k p level : Globals w), false) cs) :=
    run_invariant (fun s c hs => watchDigit_levelIsDigit hs c) hstart
  intro s
  show [gpioGetValue s.1 21] = _
  unfold gpioGetValue
  rw [hdigit]
  rfl

/-- **The device reports what was written iff it is never read, nor written more than 10 bytes.** In
any sequence of calls after a load, each write stays inside its buffer and drives its digit only,
and each read delivers the last digit written and returns 1, iff there is no read and every write
has at most 10 bytes. -/
theorem reports_iff (d : Driver) (o : Outcomes) (k : Kernel ω) (p : ℕ) (level : ℕ → Bool)
    (cs : List Access) :
    Along watchDigit Reports ((d.startGlobals o k p level : Globals w), false) cs ↔
      ∀ c ∈ cs, Safe c := by
  apply along_iff_forall_mem (I := fun _ => True)
  · exact fun s c _ hc => ⟨(reports_iff_safe s c).mpr hc, trivial⟩
  · exact fun s c _ h => (reports_iff_safe s c).mp h
  · trivial

/-- The first read after a load delivers the level 0, and returns 0. -/
theorem not_reports_read :
    ¬ Along watchDigit Reports
        ((Driver.gpioBase.startGlobals quietOutcomes (Kernel.empty : Kernel ℕ) 0 (fun _ => false) :
          Globals 32), false)
        [.etxRead 1 (Nat.le_refl 1)] := by
  rintro ⟨hread, -⟩
  have hret : (0 : ℤ) = 1 := congrArg Prod.snd hread
  exact absurd hret (by decide)

end LinuxStack.Gpio
