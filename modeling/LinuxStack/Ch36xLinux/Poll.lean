import LinuxStack.Ch36xLinux.Driver

/-!
# The handlers and `poll`

A handler sets the flag of the device before it clears the interrupt, and a process takes the flag
when it polls. The poll looks at the flag and then clears it, between two steps of the handler or
of the chip. An interrupt that comes after the flag was taken and before the handler clears is
not told to any poll.

## Main definitions

* `handler`, `handlerStep`: the handler of the active bit, and its steps with those of the chip
  and of a poll
* `State.line`: a device at rest, as a register under the handler

## Main results

* `ch365_eq_run`, `statusInterruptHandler_eq_run`: the handlers are its steps in a row
* `fopsPoll_eq_run`: a poll is its two steps
* `poll_never_lost_iff`: when no interrupt is lost
-/

namespace LinuxStack.Ch36xLinux

open Transition
open Ch36x (IrqReturn)

/-- The handler of the active bit. -/
def handler : Handler 8 where
  test readByte := readByte &&& 0x04 ≠ 0
  clear readByte := readByte &&& 0xfb

/-- The steps of the handler and of a poll, and the interrupts of the chip. -/
def handlerStep : Line 8 → LatchAct → Line 8 := Line.step handler 0x04 false

/-- A device at rest, with its status in some register. -/
def State.line (s : State) (status : BitVec 8) : Line 8 :=
  { Line.quiet status with flag := s.pollFlag }

section Poll

variable {s : State} {as : List LatchAct}

theorem serves_handler : handler.Serves 0x04 2 where
  test v := Ch36x.and_intaBit_ne_zero v
  clear v := by
    have hbit : (0xfb : BitVec 8).getLsbD 2 = false := rfl
    simp only [handler, BitVec.getLsbD_and, hbit, Bool.and_false]
  event := rfl

/-- What the steps of the handler leave in the register and in the flag. -/
theorem run_served (s : State) (status : BitVec 8) :
    (run handlerStep (s.line status) Line.served).status =
        (if status &&& 0x04 = 0 then status else status &&& 0xfb) ∧
      (run handlerStep (s.line status) Line.served).flag =
        (if status &&& 0x04 = 0 then s.pollFlag else true) := by
  obtain ⟨hstatus, -, hflag, -⟩ :=
    Line.run_serve (s := s.line status) handler 0x04 false rfl
  rw [handlerStep, hstatus, hflag]
  have htest : handler.test (s.line status).status = decide (status &&& 0x04 ≠ 0) := rfl
  rw [Handler.serve, htest]
  by_cases h : status &&& 0x04 = 0
  · rw [if_pos h, if_pos h, decide_eq_false (not_not.mpr h)]
    simp [State.line, Line.quiet]
  · rw [if_neg h, if_neg h, decide_eq_true h]
    simp [State.line, Line.quiet, handler]

/-- **The handler of the CH365 is the steps in a row**, on a register of the configuration
space. -/
theorem ch365_eq_run (s : State) :
    let status := s.config CH365_OFFSET_INT_ACTIVE_STAT
    (ch365InterruptHandler s).2.config CH365_OFFSET_INT_ACTIVE_STAT =
        (run handlerStep (s.line status) Line.served).status ∧
      (ch365InterruptHandler s).2.pollFlag =
        (run handlerStep (s.line status) Line.served).flag := by
  intro status
  obtain ⟨hstatus, hflag⟩ := run_served s status
  rw [hstatus, hflag, ch365InterruptHandler]
  by_cases h : status &&& 0x04 = 0
  · rw [if_pos h, if_pos h, if_pos h]
    exact ⟨rfl, rfl⟩
  · rw [if_neg h, if_neg h, if_neg h]
    exact ⟨by simp [State.pciWriteConfigByte, status], rfl⟩

/-- The handlers of the other chips, if they read and write one register. -/
theorem statusInterruptHandler_eq_run (s : State) (offset : ℕ) :
    let status := s.regs (s.ioVirtsAddr + offset)
    (statusInterruptHandler s offset offset).2.regs (s.ioVirtsAddr + offset) =
        (run handlerStep (s.line status) Line.served).status ∧
      (statusInterruptHandler s offset offset).2.pollFlag =
        (run handlerStep (s.line status) Line.served).flag := by
  intro status
  obtain ⟨hstatus, hflag⟩ := run_served s status
  rw [hstatus, hflag, statusInterruptHandler]
  by_cases h : status &&& 0x04 = 0
  · rw [if_pos h, if_pos h, if_pos h]
    exact ⟨rfl, rfl⟩
  · rw [if_neg h, if_neg h, if_neg h]
    exact ⟨by simp [State.write8, status], rfl⟩

/-- **A poll is its two steps**: the look at the flag, which is the answer, and the clear. -/
theorem fopsPoll_eq_run (s : State) (status : BitVec 8) :
    (fopsPoll s).1 = (run handlerStep (s.line status) [.test]).tested ∧
      (fopsPoll s).2.pollFlag = (run handlerStep (s.line status) [.test, .take]).flag := by
  -- A poll that does not find the flag does not clear it.
  cases hflag : s.pollFlag <;>
    simp [fopsPoll, handlerStep, Line.step, State.line, hflag]

/-- **No interrupt is lost** iff none comes after a poll took the flag of the one before and before
the handler clears that, in a run at whose end the handler is done. -/
theorem poll_never_lost_iff (status : BitVec 8)
    (hend : (run handlerStep (.quiet status) as).phase = .idle) :
    Along handlerStep (fun ln a => ¬ ((handlerStep ln a).latch 2).Lost) (.quiet status) as ↔
      Along handlerStep (fun ln a => ¬ (a = .event ∧ ln.phase = .told ∧ ln.flag = false ∧
        ln.tested = false)) (.quiet status) as :=
  Line.never_lost_iff serves_handler status hend

/-- A poll between the flag and the clear leaves a gap for the next interrupt. -/
theorem poll_loses_second :
    ¬ Along handlerStep (fun ln a => ¬ ((handlerStep ln a).latch 2).Lost) (.quiet 0)
      [.event, .look, .tell, .test, .take, .event, .clear] := by
  intro hkept
  have hgap := (poll_never_lost_iff 0 (by decide)).mp hkept
  exact hgap.2.2.2.2.2.1 ⟨rfl, by decide⟩

end Poll

end LinuxStack.Ch36xLinux
