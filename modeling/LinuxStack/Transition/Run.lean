import Mathlib.Data.List.Basic
import Mathlib.Data.List.ReduceOption

/-!
# Runs of a step function

A step function moves a state along a list of actions. `Along step P s as` says that every
action of the run satisfies `P` at the state it is taken in. A guard `Q` of a system with a
per-action contract `P` is judged by three facts about single steps, `Guarded`: a guarded step
keeps the contract and the invariant, an unguarded step that keeps the contract leaves a doomed
state, and a doomed state stays doomed while the contract is kept.

## Main definitions

* `run step s as`: the state after the actions `as`
* `Along step P s as`: every action of the run satisfies `P`
* `Guarded step A P Q Inv Doomed`: the guard `Q` protects the contract `P` of admissible runs
* `outputs step out s as`: the outputs of a run, one for each action
* `turns active b as`: the active actions, each with the flag that all of them toggle

## Main results

* `along_iff_forall_prefix`: `Along` read at every prefix of the run
* `forall_prefix_iff_along`: a property of all states that a run reaches
* `Along.invariant`, `run_invariant`: an invariant at the end of guarded runs, and of all runs
* `along_of_invariant`, `along_congr`: what an invariant gives along a run
* `along_iff_forall_mem`: a contract that certain actions keep, in every state
* `Guarded.along`, `Guarded.guard_of_along`: a guarded run keeps the contract, and a run that
  keeps the contract and does not end doomed was guarded
* `outputs_eq_map_turns`: a system that answers from such a flag answers by turns
-/

namespace Transition

variable {σ α : Type*} {step : σ → α → σ} {P Q A : σ → α → Prop} {s : σ} {as bs : List α}

/-- The state after the actions `as`. -/
def run (step : σ → α → σ) (s : σ) (as : List α) : σ := as.foldl step s

@[simp] theorem run_nil (step : σ → α → σ) (s : σ) : run step s [] = s := rfl

@[simp] theorem run_cons (step : σ → α → σ) (s : σ) (a : α) (as : List α) :
    run step s (a :: as) = run step (step s a) as := rfl

theorem run_append (step : σ → α → σ) (s : σ) (as bs : List α) :
    run step s (as ++ bs) = run step (run step s as) bs := List.foldl_append

/-- Every action of the run satisfies `P` at the state it is taken in. -/
def Along (step : σ → α → σ) (P : σ → α → Prop) : σ → List α → Prop
  | _, [] => True
  | s, a :: as => P s a ∧ Along step P (step s a) as

@[simp] theorem along_nil : Along step P s [] := trivial

@[simp] theorem along_cons {a : α} :
    Along step P s (a :: as) ↔ P s a ∧ Along step P (step s a) as := Iff.rfl

theorem along_append :
    Along step P s (as ++ bs) ↔ Along step P s as ∧ Along step P (run step s as) bs := by
  induction as generalizing s with
  | nil => simp
  | cons a as ih => simp [ih, and_assoc]

theorem along_iff_forall_prefix :
    Along step P s as ↔ ∀ h a t, as = h ++ a :: t → P (run step s h) a := by
  constructor
  · rintro hP h a t rfl
    exact (along_append.mp hP).2.1
  · intro hP
    induction as generalizing s with
    | nil => trivial
    | cons a as ih =>
      refine ⟨hP [] a as rfl, ih fun h b t he => ?_⟩
      exact hP (a :: h) b t (congrArg (a :: ·) he)

theorem along_of_forall (hP : ∀ s a, P s a) : Along step P s as :=
  along_iff_forall_prefix.mpr fun _ _ _ _ => hP _ _

/-- A property of the states reached holds at the start and along the run. -/
theorem forall_prefix_iff_along {R : σ → Prop} :
    (∀ h, h <+: as → R (run step s h)) ↔ R s ∧ Along step (fun s a => R (step s a)) s as := by
  induction as generalizing s with
  | nil => simp
  | cons a as ih =>
    rw [along_cons, ← ih]
    constructor
    · intro h
      exact ⟨h [] List.nil_prefix, fun t ht => h (a :: t) (List.cons_prefix_cons.mpr ⟨rfl, ht⟩)⟩
    · rintro ⟨hs, htail⟩ h hh
      rcases List.prefix_cons_iff.mp hh with rfl | ⟨t, rfl, ht⟩
      · exact hs
      · exact htail t ht

/-- A contract on a projection of the state can be read along the projected run. -/
theorem along_map {τ : Type*} {step' : τ → α → τ} (f : τ → σ)
    (hstep : ∀ t a, f (step' t a) = step (f t) a) {t : τ} :
    Along step P (f t) as ↔ Along step' (fun t a => P (f t) a) t as := by
  induction as generalizing t with
  | nil => exact Iff.rfl
  | cons a as ih =>
    rw [along_cons, along_cons, ← hstep, ih]

/-- An invariant that guarded steps preserve holds at the end of a guarded run. -/
theorem Along.invariant {I : σ → Prop} (hQ : Along step Q s as)
    (hstep : ∀ s a, I s → Q s a → I (step s a)) (hs : I s) : I (run step s as) := by
  induction as generalizing s with
  | nil => exact hs
  | cons a as ih => exact ih hQ.2 (hstep s a hs hQ.1)

/-- An invariant that every step preserves holds at the end of every run. -/
theorem run_invariant {I : σ → Prop} (hstep : ∀ s a, I s → I (step s a)) (hs : I s) :
    I (run step s as) := by
  have hany : Along step (fun _ _ => True) s as := along_of_forall fun _ _ => trivial
  exact hany.invariant (fun s a hs _ => hstep s a hs) hs

/-- A contract that follows from an invariant is kept by every run. -/
theorem along_of_invariant {I : σ → Prop} (hstep : ∀ s a, I s → I (step s a))
    (hP : ∀ s a, I s → P s a) (hs : I s) : Along step P s as := by
  apply along_iff_forall_prefix.mpr
  intro h a t _
  exact hP _ a (run_invariant hstep hs)

/-- Under an invariant, contracts that agree at each action agree along runs. -/
theorem along_congr {I : σ → Prop} (hstep : ∀ s a, I s → I (step s a))
    (hPQ : ∀ s a, I s → (P s a ↔ Q s a)) (hs : I s) : Along step P s as ↔ Along step Q s as := by
  induction as generalizing s with
  | nil => exact Iff.rfl
  | cons a as ih => rw [along_cons, along_cons, hPQ s a hs, ih (hstep s a hs)]

/-- **A contract that certain actions keep.** If those actions keep the contract and an invariant,
and no other action keeps the contract, a run keeps the contract iff it has no other action. -/
theorem along_iff_forall_mem {I : σ → Prop} {Ok : α → Prop}
    (hkeeps : ∀ s a, I s → Ok a → P s a ∧ I (step s a)) (hfails : ∀ s a, I s → P s a → Ok a)
    (hs : I s) : Along step P s as ↔ ∀ a ∈ as, Ok a := by
  induction as generalizing s with
  | nil => simp
  | cons a as ih =>
    rw [along_cons, List.forall_mem_cons]
    constructor
    · rintro ⟨hP, htail⟩
      have hok := hfails s a hs hP
      exact ⟨hok, (ih (hkeeps s a hs hok).2).mp htail⟩
    · rintro ⟨hok, htail⟩
      obtain ⟨hP, hI⟩ := hkeeps s a hs hok
      exact ⟨hP, (ih hI).mpr htail⟩

/-- **A guard for a contract.** In the admissible runs of a system, steps guarded by `Q` keep
the contract `P` and the invariant; a step outside the guard breaks the contract or leaves a
doomed state, and a doomed state stays doomed as long as the contract is kept. -/
structure Guarded (step : σ → α → σ) (A P Q : σ → α → Prop) (Inv Doomed : σ → Prop) : Prop where
  keeps : ∀ s a, Inv s → A s a → Q s a → P s a
  preserves : ∀ s a, Inv s → A s a → Q s a → Inv (step s a)
  dooms : ∀ s a, Inv s → A s a → P s a → ¬ Q s a → Doomed (step s a)
  stays : ∀ s a, Doomed s → A s a → P s a → Doomed (step s a)

namespace Guarded

variable {Inv Doomed : σ → Prop}

/-- A guarded run keeps the contract. -/
theorem along (g : Guarded step A P Q Inv Doomed) (hs : Inv s) (hA : Along step A s as)
    (hQ : Along step Q s as) : Along step P s as := by
  induction as generalizing s with
  | nil => trivial
  | cons a as ih =>
    exact ⟨g.keeps s a hs hA.1 hQ.1, ih (g.preserves s a hs hA.1 hQ.1) hA.2 hQ.2⟩

/-- A doomed state stays doomed along a run that keeps the contract. -/
theorem doomed_run (g : Guarded step A P Q Inv Doomed) (hs : Doomed s)
    (hA : Along step A s as) (hP : Along step P s as) : Doomed (run step s as) := by
  induction as generalizing s with
  | nil => exact hs
  | cons a as ih => exact ih (g.stays s a hs hA.1 hP.1) hA.2 hP.2

/-- A run that keeps the contract and does not end doomed was guarded throughout. -/
theorem guard_of_along (g : Guarded step A P Q Inv Doomed) (hs : Inv s)
    (hA : Along step A s as) (hP : Along step P s as) (hend : ¬ Doomed (run step s as)) :
    Along step Q s as := by
  induction as generalizing s with
  | nil => trivial
  | cons a as ih =>
    have hQ : Q s a := by
      -- An unguarded step would leave a doomed state, and the run would end in one.
      by_contra hQ
      have hd : Doomed (run step (step s a) as) :=
        g.doomed_run (g.dooms s a hs hA.1 hP.1 hQ) hA.2 hP.2
      exact hend hd
    exact ⟨hQ, ih (g.preserves s a hs hA.1 hQ) hA.2 hP.2 hend⟩

/-- On runs that do not end doomed, keeping the contract is being guarded. -/
theorem along_iff (g : Guarded step A P Q Inv Doomed) (hs : Inv s) (hA : Along step A s as)
    (hend : ¬ Doomed (run step s as)) : Along step P s as ↔ Along step Q s as :=
  ⟨fun hP => g.guard_of_along hs hA hP hend, g.along hs hA⟩

end Guarded

/-! ## Outputs -/

section Outputs

variable {β : Type*}

/-- The outputs of a run, one for each action. -/
def outputs (step : σ → α → σ) (out : σ → α → β) : σ → List α → List β
  | _, [] => []
  | s, a :: as => out s a :: outputs step out (step s a) as

@[simp] theorem outputs_nil {out : σ → α → β} : outputs step out s [] = [] := rfl

@[simp] theorem outputs_cons {out : σ → α → β} {a : α} :
    outputs step out s (a :: as) = out s a :: outputs step out (step s a) as := rfl

/-- The active actions in order, each with the state of a flag that all of them toggle. -/
def turns (active : α → Bool) : Bool → List α → List (α × Bool)
  | _, [] => []
  | b, a :: as => if active a then (a, b) :: turns active (!b) as else turns active b as

theorem active_of_mem_turns {active : α → Bool} {b : Bool} {t : α × Bool}
    (ht : t ∈ turns active b as) : active t.1 = true := by
  induction as generalizing b with
  | nil => simp [turns] at ht
  | cons a as ih =>
    unfold turns at ht
    split at ht
    · rcases List.mem_cons.mp ht with rfl | ht
      · assumption
      · exact ih ht
    · exact ih ht

/-- **A system that answers from a flag answers by turns.** If active actions toggle the flag and
answer from it, and the others leave it and do not answer, the answers follow the order of the
active actions alone. -/
theorem outputs_eq_map_turns {out : σ → α → Option β} {active : α → Bool} {flag : σ → Bool}
    {f : α × Bool → β} {I : σ → Prop} (hinv : ∀ s a, I s → I (step s a))
    (hactive : ∀ s a, I s → active a = true →
      flag (step s a) = !flag s ∧ out s a = some (f (a, flag s)))
    (hidle : ∀ s a, I s → active a = false → flag (step s a) = flag s ∧ out s a = none)
    (hs : I s) : (outputs step out s as).reduceOption = (turns active (flag s) as).map f := by
  induction as generalizing s with
  | nil => rfl
  | cons a as ih =>
    have htail := ih (hinv s a hs)
    cases hact : active a with
    | true =>
      -- The action takes its turn, and the rest starts from the toggled flag.
      obtain ⟨hflag, hout⟩ := hactive s a hs hact
      rw [outputs_cons, hout, List.reduceOption_cons_of_some, htail, hflag]
      simp [turns, hact]
    | false =>
      obtain ⟨hflag, hout⟩ := hidle s a hs hact
      rw [outputs_cons, hout, List.reduceOption_cons_of_none, htail, hflag]
      simp [turns, hact]

end Outputs

end Transition
