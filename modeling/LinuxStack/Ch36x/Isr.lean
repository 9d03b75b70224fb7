import LinuxStack.Ch36x.Interrupt
import LinuxStack.Transition.Latch

/-!
# The interrupt handler

The handler reads the status register and returns unless it finds the interrupt of its mode. Else
it signals the processes that asked for it, and writes back what it read with the interrupt bit
cleared. The chip sets that bit at any time. An interrupt that comes between the signal and the
write is cleared with the one before it, and no process is signalled for it.

## Main definitions

* `isrTest`, `isr`: what the handler tests, and the handler
* `isrHandler`, `isrStep`: the handler of a register, and its steps with those of the chip
* `Ch36xDev.EdgeTriggered`: a device whose handler tests the interrupt bit

## Main results

* `isr_eq_run`: the handler is its steps in a row
* `isr_never_lost_iff`: no interrupt is lost iff none comes between the signal and the write
-/

namespace LinuxStack.Ch36x

open Transition

inductive IrqReturn
  | none
  | handled
  deriving DecidableEq

/-- What the handler tests in the status register. A mode that is none of `enum INTMODE` has no
interrupt. -/
def isrTest (d : Ch36xDev) (intval : BitVec 8) : Bool :=
  if d.chiptype = .ch365 then intval &&& intaBit ≠ 0
  -- An edge, a high level and a low level.
  else if d.intmode = 3 ∨ d.intmode = 4 then intval &&& intaBit ≠ 0
  else if d.intmode = 2 then intval &&& intsBit ≠ 0
  else if d.intmode = 1 then intval &&& intsBit = 0
  else false

/-- The handler, which signals the processes iff it has handled the interrupt. -/
def isr (hw : Hardware) (s : State Ch36xDev) : IrqReturn × State Ch36xDev :=
  let (intval, s) := s.inb hw (s.dev.ioaddr + mCH367Status)
  if isrTest s.dev intval then
    (.handled, s.outb (intval &&& ~~~intaBit) (s.dev.ioaddr + mCH367Status))
  else (.none, s)

/-- The handler of the status register. -/
def isrHandler (d : Ch36xDev) : Handler 8 := ⟨isrTest d, fun intval => intval &&& ~~~intaBit⟩

/-- The steps of the handler, and the interrupts of the chip. The signal is sent at once. -/
def isrStep (d : Ch36xDev) : Line 8 → LatchAct → Line 8 := Line.step (isrHandler d) intaBit true

/-- The handler looks at the bit that the chip sets. -/
def Ch36xDev.EdgeTriggered (d : Ch36xDev) : Prop :=
  d.chiptype = .ch365 ∨ d.intmode = 3 ∨ d.intmode = 4

instance (d : Ch36xDev) : Decidable d.EdgeTriggered := inferInstanceAs (Decidable (_ ∨ _ ∨ _))

section Isr

variable {hw : Hardware} {s : State Ch36xDev} {init : BitVec 8} {d : Ch36xDev} {as : List LatchAct}

theorem and_intaBit_ne_zero (v : BitVec 8) : decide (v &&& intaBit ≠ 0) = v.getLsbD 2 := by
  have hbit : intaBit = BitVec.twoPow 8 2 := rfl
  rw [hbit, BitVec.and_twoPow]
  cases v.getLsbD 2 <;> decide

theorem getLsbD_and_not_intaBit (v : BitVec 8) : (v &&& ~~~intaBit).getLsbD 2 = false := by
  have hbit : (~~~intaBit).getLsbD 2 = false := rfl
  rw [BitVec.getLsbD_and, hbit, Bool.and_false]

/-- The handler of an edge is one of the interrupt bit. -/
theorem serves_of_edgeTriggered (hd : d.EdgeTriggered) : (isrHandler d).Serves intaBit 2 where
  test v := by
    have htest : isrTest d v = decide (v &&& intaBit ≠ 0) := by
      unfold isrTest
      by_cases hc : d.chiptype = .ch365
      · rw [if_pos hc]
      · rw [if_neg hc, if_pos (hd.resolve_left hc)]
    exact htest.trans (and_intaBit_ne_zero v)
  clear := getLsbD_and_not_intaBit
  event := rfl

/-- **The handler is its steps in a row.** It writes the status register that they leave, and they
signal iff it has handled the interrupt. -/
theorem isr_eq_run (h : hw.Holds .io (s.dev.ioaddr + mCH367Status) init) {ln : Line 8}
    (hidle : ln.phase = .idle)
    (hstatus : ln.status = held .io (s.dev.ioaddr + mCH367Status) init s.log) :
    (run (isrStep s.dev) ln Line.served).status =
        held .io (s.dev.ioaddr + mCH367Status) init (isr hw s).2.log ∧
      (run (isrStep s.dev) ln Line.served).owed =
        (ln.owed && decide ((isr hw s).1 = .none)) := by
  obtain ⟨hwritten, -, -, howed⟩ := Line.run_serve (isrHandler s.dev) intaBit true hidle
  rw [isrStep, hwritten, howed, hstatus]
  cases ht : isrTest s.dev (held .io (s.dev.ioaddr + mCH367Status) init s.log) <;>
    simp [-BitVec.toNat_and, isr, answer_of_holds h, ht, held_append, Handler.serve, isrHandler]

/-- Nothing is told through a flag. -/
theorem isrStep_flag (ln : Line 8) (a : LatchAct) (h : ln.flag = false ∧ ln.tested = false) :
    (isrStep d ln a).flag = false ∧ (isrStep d ln a).tested = false := by
  obtain ⟨hflag, htested⟩ := h
  cases a with
  | event => exact ⟨hflag, htested⟩
  | look => by_cases hp : ln.phase = .idle <;> simp [isrStep, Line.step, hp, hflag, htested]
  | tell => by_cases hp : ln.phase = .seen <;> simp [isrStep, Line.step, hp, hflag, htested]
  | clear => by_cases hp : ln.phase = .told <;> simp [isrStep, Line.step, hp, hflag, htested]
  | test => exact ⟨hflag, hflag⟩
  | take => simp [isrStep, Line.step, hflag, htested]

/-- **No interrupt of an edge is lost** iff none comes between the signal for the one before and
the write that clears it, in a run at whose end the handler is done. -/
theorem isr_never_lost_iff (hd : d.EdgeTriggered) (status : BitVec 8)
    (hend : (run (isrStep d) (.quiet status) as).phase = .idle) :
    Along (isrStep d) (fun ln a => ¬ ((isrStep d ln a).latch 2).Lost) (.quiet status) as ↔
      Along (isrStep d) (fun ln a => ¬ (a = .event ∧ ln.phase = .told)) (.quiet status) as := by
  have hflags : Along (isrStep d) (fun ln a => ¬ (ln.latch 2).InGap a) (.quiet status) as ↔
      Along (isrStep d) (fun ln a => ¬ (a = .event ∧ ln.phase = .told)) (.quiet status) as := by
    apply along_congr isrStep_flag ?_ ⟨rfl, rfl⟩
    rintro ln a ⟨hflag, htested⟩
    simp [Latch.InGap, Latch.Gap, Line.latch, hflag, htested]
  exact (Line.never_lost_iff (serves_of_edgeTriggered hd) status hend).trans hflags

/-- The second of two interrupts is lost if it comes after the signal. -/
theorem isr_loses_second :
    ¬ Along (isrStep (.probed .ch365 0xE000 0))
      (fun ln a => ¬ ((isrStep (.probed .ch365 0xE000 0) ln a).latch 2).Lost) (.quiet 0)
      [.event, .look, .tell, .event, .clear] := by
  intro hkept
  have hgap := (isr_never_lost_iff (by decide) 0 (by decide)).mp hkept
  exact hgap.2.2.2.1 ⟨rfl, by decide⟩

end Isr

end LinuxStack.Ch36x
