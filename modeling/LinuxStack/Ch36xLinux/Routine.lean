import LinuxStack.Transition.Run
import Mathlib.Data.PNat.Basic

/-!
# The interrupt routine

`CH36xSetIntRoutine` forks a process that calls the routine over and over: the wait for the device
is commented out. Called without a routine, it kills the process whose number it has kept. It keeps
the number of the last fork only, which is -1 for a fork that failed, and `kill` takes that for
every process there is. A process that was killed stays in the table, as nobody waits for it, so
its number does not come again.

## Main definitions

* `Processes`, `setIntRoutine`: the processes of a program, and the function
* `Kept`: a call without a routine leaves none running, and kills no other process
* `Safe`: no routine runs when one is set, and the fork that is killed did not fail

## Main results

* `routines_guarded`: safe calls guard the contract
* `routines_kept_iff`: a run at whose end no routine runs keeps the contract iff its calls are safe
-/

namespace LinuxStack.Ch36xLinux.Routine

open Transition

/-- The number that the library keeps, the forked processes and those among them that still call
a routine, and how often every other process was killed. -/
structure Processes where
  childPid : ℤ
  forked : List ℕ+
  calling : List ℕ+
  killedAll : ℕ

/-- A program that has made no call. -/
def start : Processes := ⟨0, [], [], 0⟩

/-- A call with a routine, and the process that `fork` creates if it does not fail, or a call
without one. -/
inductive Call
  | set (fork : Option ℕ+)
  | unset

/-- `kill`, with a signal that cannot be caught. -/
def kill (s : Processes) (pid : ℤ) : Processes :=
  if pid = -1 then { s with calling := [], killedAll := s.killedAll + 1 }
  else { s with calling := s.calling.filter fun p => ((p : ℕ) : ℤ) ≠ pid }

/-- `CH36xSetIntRoutine`, which returns true whatever happens. -/
def setIntRoutine (s : Processes) : Call → Processes × Bool
  | .unset => if s.childPid ≠ 0 then (kill s s.childPid, true) else (s, true)
  | .set (some p) =>
    ({ s with childPid := (p : ℕ), forked := p :: s.forked, calling := p :: s.calling }, true)
  | .set none => ({ s with childPid := -1 }, true)

def step (s : Processes) (c : Call) : Processes := (setIntRoutine s c).1

/-- `fork` gives a number that no process has. -/
def Issued (s : Processes) : Call → Prop
  | .set (some p) => p ∉ s.forked
  | .set none | .unset => True

/-- **The contract of a call without a routine**: none runs afterwards, and nobody else is
killed. -/
def Kept (s : Processes) : Call → Prop
  | .unset => (step s .unset).calling = [] ∧ (step s .unset).killedAll = s.killedAll
  | .set _ => True

/-- No routine runs when one is set, and a call without one does not follow a fork that failed. -/
def Safe (s : Processes) : Call → Prop
  | .unset => s.childPid ≠ -1
  | .set _ => s.calling = []

/-! ## The invariant -/

/-- At most the process of the number that is kept calls a routine. -/
structure Known (s : Processes) : Prop where
  forked : ∀ p ∈ s.calling, p ∈ s.forked
  kept : ∀ p ∈ s.calling, ((p : ℕ) : ℤ) = s.childPid

/-- A process calls a routine, and its number is not kept. -/
def Doomed (s : Processes) : Prop :=
  ∃ p ∈ s.calling, p ∈ s.forked ∧ ((p : ℕ) : ℤ) ≠ s.childPid

section Steps

variable {s : Processes} {c : Call}

theorem known_start : Known start := ⟨nofun, nofun⟩

theorem step_unset (h : s.childPid ≠ -1) :
    step s .unset =
      { s with calling := s.calling.filter fun p => ((p : ℕ) : ℤ) ≠ s.childPid } := by
  by_cases hzero : s.childPid = 0
  · -- No process has the number 0.
    have hall : s.calling.filter (fun p : ℕ+ => ((p : ℕ) : ℤ) ≠ s.childPid) = s.calling := by
      apply List.filter_eq_self.mpr
      intro p _
      have hpos := p.pos
      simp only [hzero, decide_eq_true_eq]
      omega
    rw [hall]
    exact congrArg Prod.fst (if_neg (not_not.mpr hzero))
  · simp [step, setIntRoutine, hzero, kill, h]

/-- After a fork that failed, every process is killed. -/
theorem step_unset_of_failed (h : s.childPid = -1) :
    (step s .unset).killedAll = s.killedAll + 1 := by
  simp [step, setIntRoutine, kill, h]

/-- The process that is kept is killed. -/
theorem kept_of_known (hs : Known s) (hsafe : Safe s c) : Kept s c := by
  cases c with
  | set fork => trivial
  | unset =>
    rw [Kept, step_unset hsafe]
    refine ⟨List.filter_eq_nil_iff.mpr fun p hp => ?_, rfl⟩
    simp [hs.kept p hp]

theorem known_step (hs : Known s) (hsafe : Safe s c) : Known (step s c) := by
  cases c with
  | set fork =>
    have hnone : s.calling = [] := hsafe
    cases fork with
    | none => constructor <;> simp [step, setIntRoutine, hnone]
    | some p => constructor <;> simp [step, setIntRoutine, hnone]
  | unset =>
    rw [step_unset hsafe]
    constructor
    · intro p hp
      exact hs.forked p (List.mem_of_mem_filter hp)
    · intro p hp
      exact hs.kept p (List.mem_of_mem_filter hp)

/-- The number of a fork is that of no process there is. -/
theorem ne_childPid_of_issued {fork : Option ℕ+} {p : ℕ+} (hissued : Issued s (.set fork))
    (hp : p ∈ s.forked) : ((p : ℕ) : ℤ) ≠ (step s (.set fork)).childPid := by
  cases fork with
  | none =>
    show ((p : ℕ) : ℤ) ≠ -1
    omega
  | some q =>
    have hne : p ≠ q := by
      rintro rfl
      exact hissued hp
    show ((p : ℕ) : ℤ) ≠ (q : ℕ)
    exact fun he => hne (PNat.coe_injective (Int.ofNat_inj.mp he))

/-- A call with a routine lets the others run. -/
theorem mem_step_set (fork : Option ℕ+) {p : ℕ+} (hp : p ∈ s.calling) (hforked : p ∈ s.forked) :
    p ∈ (step s (.set fork)).calling ∧ p ∈ (step s (.set fork)).forked := by
  cases fork with
  | none => exact ⟨hp, hforked⟩
  | some q => exact ⟨List.mem_cons_of_mem q hp, List.mem_cons_of_mem q hforked⟩

/-- A second routine dooms the process of the first. -/
theorem doomed_of_not_safe (hs : Known s) (hissued : Issued s c) (hkept : Kept s c)
    (hsafe : ¬ Safe s c) : Doomed (step s c) := by
  cases c with
  | set fork =>
    obtain ⟨p, hp⟩ := List.exists_mem_of_ne_nil _ hsafe
    have hforked := hs.forked p hp
    obtain ⟨hp', hforked'⟩ := mem_step_set fork hp hforked
    exact ⟨p, hp', hforked', ne_childPid_of_issued hissued hforked⟩
  | unset =>
    have hmore := step_unset_of_failed (not_not.mp hsafe)
    rw [hkept.2] at hmore
    omega

/-- A process whose number is not kept is killed only with all others. -/
theorem doomed_stays (hs : Doomed s) (hissued : Issued s c) (hkept : Kept s c) :
    Doomed (step s c) := by
  obtain ⟨p, hp, hforked, hne⟩ := hs
  cases c with
  | set fork =>
    obtain ⟨hp', hforked'⟩ := mem_step_set fork hp hforked
    exact ⟨p, hp', hforked', ne_childPid_of_issued hissued hforked⟩
  | unset =>
    by_cases hfailed : s.childPid = -1
    · have hmore := step_unset_of_failed hfailed
      rw [hkept.2] at hmore
      omega
    · have hleft : p ∈ (step s .unset).calling := by
        rw [step_unset hfailed]
        exact List.mem_filter.mpr ⟨hp, by simpa using hne⟩
      rw [hkept.1] at hleft
      cases hleft

/-- **Safe calls guard the contract.** -/
theorem routines_guarded : Guarded step Issued Kept Safe Known Doomed where
  keeps _ _ hs _ hsafe := kept_of_known hs hsafe
  preserves _ _ hs _ hsafe := known_step hs hsafe
  dooms _ _ hs hissued hkept hsafe := doomed_of_not_safe hs hissued hkept hsafe
  stays _ _ hs hissued hkept := doomed_stays hs hissued hkept

end Steps

/-- **A run at whose end no routine runs** keeps the contract iff no routine is set while one runs,
and no call without a routine follows a fork that failed. -/
theorem routines_kept_iff (cs : List Call) (hissued : Along step Issued start cs)
    (hend : (run step start cs).calling = []) :
    Along step Kept start cs ↔ Along step Safe start cs := by
  refine routines_guarded.along_iff known_start hissued ?_
  rintro ⟨p, hp, -⟩
  rw [hend] at hp
  cases hp

/-- A fork that fails, and a call without a routine. -/
theorem routines_failed_fork : ¬ Along step Kept start [.set none, .unset] := by
  intro hkept
  have hsafe := (routines_kept_iff [.set none, .unset] ⟨trivial, trivial, trivial⟩ rfl).mp hkept
  exact hsafe.2.1 rfl

end LinuxStack.Ch36xLinux.Routine
