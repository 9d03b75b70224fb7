import LinuxStack.Deferred.Module
import LinuxStack.Transition.Run

/-!
# Unloading under a callback

Until `mod_exit` cancels, the timer is pending or some callback is going to re-arm it. The cancel
ends this iff no callback is out of its reach: set off or started for `timer.c`, started for
`delayed_work.c`. What is left then are callbacks that have re-armed and only have to return, and
nothing makes `mod_exit` wait for them.

## Main definitions

* `Dormant`, `Gone`: no callback will re-arm any more; no callback is left at all
* `Module.Clear`: nothing is out of reach at the cancel, and nobody is inside at the return

## Main results

* `dormant_step_iff`, `dormant_cancel_iff`: only a cancel puts the module to rest, and when
* `unloads_iff_clear`: nothing is left once `mod_exit` has returned iff the run was clear
-/

namespace LinuxStack.Deferred

open Transition

variable {m : Module} {s : State}

/-- The timer is not pending, and no callback is going to re-arm it. -/
def Dormant (s : State) : Prop :=
  s.armed = false ∧ s.expired = 0 ∧ s.started = 0

/-- No callback is pending, queued or executing. -/
def Gone (s : State) : Prop := Dormant s ∧ s.rearmed = 0

/-- **No callback survives the unload.** -/
def Unloads (s : State) : Prop := s.exit = .returned → Gone s

/-- The callbacks that a cancel does not take back and that are going to re-arm. -/
def Module.outOfReach (m : Module) (s : State) : ℕ :=
  match m with
  | .timer => s.expired + s.started
  | .delayedWork => s.started

/-- At the cancel of `mod_exit` no callback is out of reach, and when `mod_exit` returns none is
on its way out. -/
def Module.Clear (m : Module) (s : State) : Action → Prop
  | .cancel => s.exit = .called → m.outOfReach s = 0
  | .exitDone => s.exit = .cancelled → s.rearmed = 0
  | _ => True

/-! ## One step -/

theorem step_allocated (a : Action) : (m.step s a).allocated = s.allocated := by
  cases a with
  | cancel =>
    simp only [Module.step]
    split
    · split <;> simp
    · rfl
  | _ =>
    simp only [Module.step]
    split <;> simp

/-- Re-arming keeps the module awake. -/
theorem not_dormant_rearm : ¬ Dormant (m.rearm s) := by
  obtain ⟨armed, h, hpending⟩ := rearm_eq m s
  rw [h]
  rintro ⟨harmed, hexpired, -⟩
  rcases hpending with hp | hp
  · exact absurd (harmed.symm.trans hp) Bool.false_ne_true
  · exact absurd hexpired (Nat.ne_of_gt hp)

/-- **Only a cancel puts the module to rest**, and nothing wakes it. -/
theorem dormant_step_iff {a : Action} (ha : a ≠ .cancel) :
    Dormant (m.step s a) ↔ Dormant s := by
  cases a with
  | cancel => exact absurd rfl ha
  | expire =>
    simp only [Module.step]
    split
    · -- The timer was pending, and now a callback is on its way.
      simp [Dormant, *]
    · rfl
  | callback =>
    simp only [Module.step]
    split
    · simp only [Dormant]
      omega
    · rfl
  | rearm =>
    simp only [Module.step]
    split
    · have hstarted : ¬ Dormant s := by
        rintro ⟨-, -, h⟩
        omega
      exact iff_of_false not_dormant_rearm hstarted
    · rfl
  | leave | modExit | exitDone =>
    simp only [Module.step]
    split <;> rfl

/-- **A cancel puts the module to rest iff no callback is out of its reach.** -/
theorem dormant_cancel_iff : Dormant (m.cancel s) ↔ m.outOfReach s = 0 := by
  cases m with
  | timer =>
    show (false = false ∧ s.expired = 0 ∧ s.started = 0) ↔ s.expired + s.started = 0
    simp
  | delayedWork =>
    show (false = false ∧ 0 = 0 ∧ s.started = 0) ↔ s.started = 0
    simp

/-- In a dormant module callbacks only return. -/
theorem rearmed_step_le (hs : Dormant s) (a : Action) : (m.step s a).rearmed ≤ s.rearmed := by
  obtain ⟨-, -, hstarted⟩ := hs
  cases a with
  | rearm => simp [Module.step, hstarted]
  | leave =>
    simp only [Module.step]
    split
    · exact Nat.sub_le _ _
    · exact Nat.le_refl _
  | cancel =>
    simp only [Module.step]
    split
    · split <;> simp
    · exact Nat.le_refl _
  | _ =>
    simp only [Module.step]
    split <;> exact Nat.le_refl _

/-- The steps of the timer and the callbacks do not move `mod_exit`. -/
theorem step_exit {a : Action} (ha : a.ofExit = false) : (m.step s a).exit = s.exit := by
  cases a with
  | modExit | cancel | exitDone => cases ha
  | _ =>
    simp only [Module.step]
    split <;> simp

/-- The steps of `mod_exit` itself. -/
theorem modExit_exit :
    (m.step s .modExit).exit = if s.exit = .notCalled then .called else s.exit := by
  simp only [Module.step]
  split <;> rfl

theorem exitDone_exit :
    (m.step s .exitDone).exit = if s.exit = .cancelled then .returned else s.exit := by
  simp only [Module.step]
  split <;> rfl

theorem cancel_of_allocated (hcalled : s.exit = .called) (hall : s.allocated = true) :
    m.step s .cancel = m.cancel { s with exit := .cancelled } := by
  simp [Module.step, hcalled, hall]

theorem cancel_of_not_allocated (hcalled : s.exit = .called) (hall : s.allocated = false) :
    m.step s .cancel = { s with exit := .crashed } := by
  simp [Module.step, hcalled, hall]

theorem cancel_of_ne (hcalled : s.exit ≠ .called) : m.step s .cancel = s := by
  simp [Module.step, hcalled]

/-! ## Runs -/

/-- Before the cancel a module with its item is awake, one without never wakes, and after a clear
cancel it is dormant. -/
structure Consistent (s : State) : Prop where
  awake : s.exit = .notCalled ∨ s.exit = .called → s.allocated = true → ¬ Dormant s
  unallocated : s.allocated = false → Dormant s
  dormant : s.exit = .cancelled ∨ s.exit = .returned → Dormant s
  gone : s.exit = .returned → s.rearmed = 0

/-- The module was awake after its cancel. -/
def Doomed (s : State) : Prop := s.exit = .cancelled ∧ ¬ Dormant s

/-- A step that leaves `mod_exit` where it is keeps the module consistent. -/
theorem consistent_of_exit {a : Action} (hs : Consistent s) (hcancel : a ≠ .cancel)
    (hexit : (m.step s a).exit = s.exit) : Consistent (m.step s a) := by
  constructor
  · rw [hexit, step_allocated, dormant_step_iff hcancel]
    exact hs.awake
  · rw [step_allocated, dormant_step_iff hcancel]
    exact hs.unallocated
  · rw [hexit, dormant_step_iff hcancel]
    exact hs.dormant
  · rw [hexit]
    intro hret
    have hle := rearmed_step_le (m := m) (hs.dormant (Or.inr hret)) a
    have hzero := hs.gone hret
    omega

theorem consistent_of_modExit (hs : Consistent s) : Consistent (m.step s .modExit) := by
  by_cases hexit : s.exit = .notCalled
  · have hstep : (m.step s .modExit).exit = .called := by simp [modExit_exit, hexit]
    have hdormant : Dormant (m.step s .modExit) ↔ Dormant s := dormant_step_iff nofun
    constructor
    · rw [step_allocated, hdormant]
      exact fun _ => hs.awake (Or.inl hexit)
    · rw [step_allocated, hdormant]
      exact hs.unallocated
    · simp [hstep]
    · simp [hstep]
  · exact consistent_of_exit hs nofun (by simp [modExit_exit, hexit])

/-- A clear cancel puts the module to rest. -/
theorem consistent_of_cancel (hs : Consistent s) (hclear : m.Clear s .cancel) :
    Consistent (m.step s .cancel) := by
  by_cases hcalled : s.exit = .called
  · cases hall : s.allocated with
    | true =>
      have hrest : Dormant (m.cancel { s with exit := .cancelled }) := by
        rw [dormant_cancel_iff]
        have hreach := hclear hcalled
        cases m <;> exact hreach
      rw [cancel_of_allocated hcalled hall]
      constructor
      · simp
      · exact fun _ => hrest
      · exact fun _ => hrest
      · simp
    | false =>
      rw [cancel_of_not_allocated hcalled hall]
      constructor
      · simp
      · exact hs.unallocated
      · simp
      · simp
  · rw [cancel_of_ne hcalled]
    exact hs

/-- When `mod_exit` returns in a clear step, nothing is left. -/
theorem consistent_of_exitDone (hs : Consistent s) (hclear : m.Clear s .exitDone) :
    Consistent (m.step s .exitDone) := by
  by_cases hexit : s.exit = .cancelled
  · have hstep : (m.step s .exitDone).exit = .returned := by simp [exitDone_exit, hexit]
    have hrest := hs.dormant (Or.inl hexit)
    have hdormant : Dormant (m.step s .exitDone) ↔ Dormant s := dormant_step_iff nofun
    constructor
    · simp [hstep]
    · rw [step_allocated, hdormant]
      exact hs.unallocated
    · rw [hdormant]
      exact fun _ => hrest
    · intro _
      have hle := rearmed_step_le (m := m) hrest .exitDone
      have hzero := hclear hexit
      omega
  · exact consistent_of_exit hs nofun (by simp [exitDone_exit, hexit])

theorem consistent_step {a : Action} (hs : Consistent s) (hclear : m.Clear s a) :
    Consistent (m.step s a) := by
  cases a with
  | modExit => exact consistent_of_modExit hs
  | cancel => exact consistent_of_cancel hs hclear
  | exitDone => exact consistent_of_exitDone hs hclear
  | _ => exact consistent_of_exit hs nofun (step_exit rfl)

theorem Consistent.unloads (hs : Consistent s) : Unloads s :=
  fun hret => ⟨hs.dormant (Or.inr hret), hs.gone hret⟩

/-- **A step that is not clear leaves the module doomed**, or breaks the contract at once. -/
theorem doomed_of_not_clear {a : Action} (hs : Consistent s) (hunloads : Unloads (m.step s a))
    (hclear : ¬ m.Clear s a) : Doomed (m.step s a) := by
  cases a with
  | cancel =>
    obtain ⟨hcalled, hreach⟩ := Classical.not_imp.mp hclear
    have hall : s.allocated = true := by
      by_contra hall
      -- A module without its item has no callback at all.
      obtain ⟨-, hexpired, hstarted⟩ := hs.unallocated (by simpa using hall)
      cases m <;> simp [Module.outOfReach, hexpired, hstarted] at hreach
    rw [cancel_of_allocated hcalled hall]
    refine ⟨by simp, ?_⟩
    rw [dormant_cancel_iff]
    cases m <;> exact hreach
  | exitDone =>
    obtain ⟨hexit, hinside⟩ := Classical.not_imp.mp hclear
    have hgone : Gone (m.step s .exitDone) := hunloads (by simp [exitDone_exit, hexit])
    have hsame : (m.step s .exitDone).rearmed = s.rearmed := by simp [Module.step, hexit]
    exact absurd (hsame ▸ hgone.2) hinside
  | _ => exact absurd trivial hclear

/-- A doomed module stays doomed until `mod_exit` returns and breaks the contract. -/
theorem doomed_stays {a : Action} (hs : Doomed s) (hunloads : Unloads (m.step s a)) :
    Doomed (m.step s a) := by
  obtain ⟨hexit, hawake⟩ := hs
  have hstep : a ≠ .exitDone → (m.step s a).exit = s.exit := by
    intro hdone
    cases a with
    | exitDone => exact absurd rfl hdone
    | modExit => simp [modExit_exit, hexit]
    | cancel => rw [cancel_of_ne (by simp [hexit])]
    | _ => exact step_exit rfl
  have hawake' : ¬ Dormant (m.step s a) := by
    by_cases hcancel : a = .cancel
    · subst hcancel
      rwa [cancel_of_ne (by simp [hexit])]
    · rwa [dormant_step_iff hcancel]
  by_cases hdone : a = .exitDone
  · subst hdone
    have hgone : Gone (m.step s .exitDone) := hunloads (by simp [exitDone_exit, hexit])
    exact absurd hgone.1 hawake'
  · exact ⟨(hstep hdone).trans hexit, hawake'⟩

/-- Clear steps guard the unload. -/
theorem unload_guarded (m : Module) :
    Guarded m.step (fun _ _ => True) (fun s a => Unloads (m.step s a)) m.Clear Consistent
      Doomed where
  keeps _ _ hs _ hclear := (consistent_step hs hclear).unloads
  preserves _ _ hs _ hclear := consistent_step hs hclear
  dooms _ _ hs _ hunloads hclear := doomed_of_not_clear hs hunloads hclear
  stays _ _ hs _ hunloads := doomed_stays hs hunloads

theorem consistent_modInt (m : Module) (kmalloc : Bool) : Consistent (m.modInt kmalloc) := by
  cases m <;> cases kmalloc <;>
    constructor <;> simp [Module.modInt, modTimer, scheduleDelayedWork, State.fresh, Dormant]

/-- `mod_exit` returns once. -/
theorem returned_stays {as : List Action} (hret : s.exit = .returned) :
    (run m.step s as).exit = .returned := by
  refine run_invariant (I := fun s : State => s.exit = .returned) (fun s a hret => ?_) hret
  cases a with
  | modExit => simp [modExit_exit, hret]
  | cancel => rw [cancel_of_ne (by simp [hret])]; exact hret
  | exitDone => simp [exitDone_exit, hret]
  | _ => rw [step_exit rfl]; exact hret

/-- **When no callback survives the unload.** In every state that a run from `mod_int` reaches, if
`mod_exit` has returned then no callback is pending, queued or executing, iff the run was clear
or `mod_exit` did not return. -/
theorem unloads_iff_clear (m : Module) (kmalloc : Bool) (as : List Action) :
    (∀ h, h <+: as → Unloads (run m.step (m.modInt kmalloc) h)) ↔
      ((run m.step (m.modInt kmalloc) as).exit = .returned →
        Along m.step m.Clear (m.modInt kmalloc) as) := by
  have hstart := consistent_modInt m kmalloc
  have hadmissible : Along m.step (fun _ _ => True) (m.modInt kmalloc) as :=
    along_of_forall fun _ _ => trivial
  constructor
  · intro hunloads hret
    obtain ⟨-, halong⟩ := forall_prefix_iff_along.mp hunloads
    apply (unload_guarded m).guard_of_along hstart hadmissible halong
    rintro ⟨hcancelled, -⟩
    simp [hret] at hcancelled
  · intro hclear h hh hret
    obtain ⟨t, rfl⟩ := hh
    have hend : (run m.step (m.modInt kmalloc) (h ++ t)).exit = .returned := by
      rw [run_append]
      exact returned_stays hret
    have halong := (unload_guarded m).along hstart hadmissible (hclear hend)
    exact forall_prefix_iff_along.mpr ⟨hstart.unloads, halong⟩ h (List.prefix_append h t) hret

/-- A run in which the callback has started and re-arms just after the cancel. -/
def lateRearm : List Action :=
  [.expire, .callback, .modExit, .cancel, .rearm, .leave, .exitDone]

/-- In either module the callback of such a run is pending after the unload. -/
theorem not_unloads_lateRearm :
    (¬ ∀ h, h <+: lateRearm → Unloads (run Module.timer.step (Module.timer.modInt true) h)) ∧
      ¬ ∀ h, h <+: lateRearm →
        Unloads (run Module.delayedWork.step (Module.delayedWork.modInt true) h) := by
  constructor
  · intro hunloads
    obtain ⟨⟨harmed, -⟩, -⟩ := hunloads _ List.prefix_rfl (by decide)
    revert harmed
    decide
  · intro hunloads
    obtain ⟨⟨harmed, -⟩, -⟩ := hunloads _ List.prefix_rfl (by decide)
    revert harmed
    decide

end LinuxStack.Deferred
