import Mathlib.Data.BitVec

/-!
# Callbacks that re-arm themselves

`timer.c` and `delayed_work.c` defer a callback that arms its own timer again, one as a bare timer,
the other as delayed work. The callbacks run on other processors, step by step, while `mod_exit`
cancels what is armed and does not wait for them.

## Main definitions

* `State`: the timer, the callbacks on their way, and where `mod_exit` is
* `modTimer`, `delTimer`, `scheduleDelayedWork`, `cancelDelayedWork`: the kernel's calls
* `Module.modInt`, `Module.step`: the two modules

## Main results

* `rearm_eq`, `cancel_eq`: what re-arming and cancelling touch
-/

namespace LinuxStack.Deferred

/-- Where `mod_exit` is. -/
inductive Exit where
  | notCalled
  | called
  | cancelled
  | returned
  /-- It dereferenced a null pointer. -/
  | crashed
  deriving DecidableEq

/-- A module with one deferred callback. -/
structure State where
  /-- The timer is pending. -/
  armed : Bool
  /-- The callbacks that the timer has set off and that have not started. A work among them is
  queued. -/
  expired : ℕ
  /-- The callbacks that have started and have not re-armed. -/
  started : ℕ
  /-- The callbacks that have re-armed and have not returned. -/
  rearmed : ℕ
  count : BitVec 32
  /-- The memory of the item is there. -/
  allocated : Bool
  exit : Exit
  deriving DecidableEq

/-! ## Calls of the kernel -/

def modTimer (s : State) : State := { s with armed := true }

/-- A callback that the timer has set off is out of reach. -/
def delTimer (s : State) : State := { s with armed := false }

/-- Work that is pending or queued is left as it is. -/
def scheduleDelayedWork (s : State) : State :=
  if s.armed ∨ 0 < s.expired then s else { s with armed := true }

/-- Work that is pending or queued is taken back. -/
def cancelDelayedWork (s : State) : State := { s with armed := false, expired := 0 }

/-! ## The two modules -/

/-- `timer.c` and `delayed_work.c`. -/
inductive Module where
  | timer
  | delayedWork
  deriving DecidableEq

/-- What the callback arms itself with. -/
def Module.rearm : Module → State → State
  | .timer => modTimer
  | .delayedWork => scheduleDelayedWork

/-- What `mod_exit` cancels the item with. -/
def Module.cancel : Module → State → State
  | .timer => delTimer
  | .delayedWork => cancelDelayedWork

/-- Before `mod_int`. -/
def State.fresh (allocated : Bool) : State where
  armed := false
  expired := 0
  started := 0
  rearmed := 0
  count := 0
  allocated := allocated
  exit := .notCalled

/-- `mod_int`, with the outcome of `kmalloc`. Both modules load in any case. -/
def Module.modInt (kmalloc : Bool) : Module → State
  -- The timer is static.
  | .timer => modTimer (State.fresh true)
  | .delayedWork => if kmalloc then scheduleDelayedWork (State.fresh true) else State.fresh false

/-- The steps of the timer, of a callback, and of `mod_exit`. -/
inductive Action where
  | expire
  | callback
  | rearm
  | leave
  | modExit
  | cancel
  | exitDone
  deriving DecidableEq

/-- The action is a step of `mod_exit`. -/
def Action.ofExit : Action → Bool
  | .modExit | .cancel | .exitDone => true
  | _ => false

/-- One step. An action that is not enabled does nothing. -/
def Module.step (m : Module) (s : State) : Action → State
  | .expire => if s.armed then { s with armed := false, expired := s.expired + 1 } else s
  | .callback =>
    if 0 < s.expired then
      { s with expired := s.expired - 1, started := s.started + 1, count := s.count + 1 }
    else s
  | .rearm =>
    if 0 < s.started then
      m.rearm { s with started := s.started - 1, rearmed := s.rearmed + 1 }
    else s
  | .leave => if 0 < s.rearmed then { s with rearmed := s.rearmed - 1 } else s
  | .modExit => if s.exit = .notCalled then { s with exit := .called } else s
  | .cancel =>
    if s.exit = .called then
      -- `test_delay_work` is still null when `kmalloc` failed.
      if s.allocated then m.cancel { s with exit := .cancelled } else { s with exit := .crashed }
    else s
  | .exitDone => if s.exit = .cancelled then { s with exit := .returned } else s

/-! ## What the calls leave -/

variable (m : Module) (s : State)

/-- **Re-arming only touches the timer**, and afterwards it is pending or a callback is on its
way. -/
theorem rearm_eq :
    ∃ armed, m.rearm s = { s with armed := armed } ∧ (armed = true ∨ 0 < s.expired) := by
  cases m with
  | timer => exact ⟨true, rfl, Or.inl rfl⟩
  | delayedWork =>
    by_cases hpending : s.armed = true ∨ 0 < s.expired
    · -- The work is pending already, and `schedule_delayed_work` leaves it as it is.
      exact ⟨s.armed, if_pos hpending, hpending⟩
    · exact ⟨true, if_neg hpending, Or.inl rfl⟩

@[simp] theorem rearm_exit : (m.rearm s).exit = s.exit := by
  obtain ⟨armed, h, -⟩ := rearm_eq m s
  rw [h]

@[simp] theorem rearm_allocated : (m.rearm s).allocated = s.allocated := by
  obtain ⟨armed, h, -⟩ := rearm_eq m s
  rw [h]

/-- A cancel takes the timer back, and the module may lose the callbacks that it has set off. -/
theorem cancel_eq : ∃ expired, m.cancel s = { s with armed := false, expired := expired } := by
  cases m with
  | timer => exact ⟨s.expired, rfl⟩
  | delayedWork => exact ⟨0, rfl⟩

@[simp] theorem cancel_exit : (m.cancel s).exit = s.exit := by
  obtain ⟨expired, h⟩ := cancel_eq m s
  rw [h]

@[simp] theorem cancel_allocated : (m.cancel s).allocated = s.allocated := by
  obtain ⟨expired, h⟩ := cancel_eq m s
  rw [h]

@[simp] theorem cancel_rearmed : (m.cancel s).rearmed = s.rearmed := by
  obtain ⟨expired, h⟩ := cancel_eq m s
  rw [h]

end LinuxStack.Deferred
