import LinuxStack.Transition.Run

/-!
# Flags along a run

A flag that some actions set, others reset and the rest leave. At the end of a run it is set iff
it was set after its last reset.

## Main definitions

* `Flag step f set reset`: the actions that set the flag `f`, and those that reset it
* `Last set reset as`: a setting action of the run comes after every resetting one

## Main results

* `Flag.run_iff`, `Flag.run_eq_false_iff`: when the flag is set at the end, and when it is not
-/

namespace Transition

variable {σ α : Type*} {step : σ → α → σ} {f : σ → Bool} {set reset : α → Prop} {s : σ}
  {as : List α}

/-- The actions that set a flag, and those that reset it. The others leave it. -/
structure Flag (step : σ → α → σ) (f : σ → Bool) (set reset : α → Prop) : Prop where
  sets : ∀ s a, set a → f (step s a) = true
  resets : ∀ s a, reset a → f (step s a) = false
  keeps : ∀ s a, ¬ set a → ¬ reset a → f (step s a) = f s

/-- Some setting action of the list comes after every resetting one. -/
def Last (set reset : α → Prop) (as : List α) : Prop :=
  ∃ h a t, as = h ++ a :: t ∧ set a ∧ ∀ b ∈ t, ¬ reset b

@[simp] theorem not_last_nil : ¬ Last set reset [] := by
  rintro ⟨h, a, t, hnil, -, -⟩
  simp at hnil

theorem last_cons_iff {a : α} :
    Last set reset (a :: as) ↔ Last set reset as ∨ set a ∧ ∀ b ∈ as, ¬ reset b := by
  constructor
  · rintro ⟨h, b, t, he, hb, ht⟩
    rcases List.cons_eq_append_iff.mp he with ⟨rfl, he⟩ | ⟨h, rfl, rfl⟩
    · obtain ⟨rfl, rfl⟩ := List.cons.inj he
      exact Or.inr ⟨hb, ht⟩
    · exact Or.inl ⟨h, b, t, rfl, hb, ht⟩
  · rintro (⟨h, b, t, rfl, hb, ht⟩ | ⟨ha, has⟩)
    · exact ⟨a :: h, b, t, rfl, hb, ht⟩
    · exact ⟨[], a, as, rfl, ha, has⟩

namespace Flag

/-- **A flag is set at the end** iff it was set after its last reset, or at first and never
reset. -/
theorem run_iff (hf : Flag step f set reset) :
    f (run step s as) = true ↔ Last set reset as ∨ f s = true ∧ ∀ a ∈ as, ¬ reset a := by
  induction as generalizing s with
  | nil => simp
  | cons a as ih =>
    rw [run_cons, ih, last_cons_iff, List.forall_mem_cons]
    by_cases ha : set a
    · have hnot : ¬ reset a := by
        intro hr
        exact absurd ((hf.sets s a ha).symm.trans (hf.resets s a hr)) (by simp)
      simp only [hf.sets s a ha, ha, hnot]
      tauto
    · by_cases hr : reset a
      · simp [hf.resets s a hr, ha, hr]
      · simp [hf.keeps s a ha hr, ha, hr]

/-- The negation of a flag changes places. -/
theorem not (hf : Flag step f set reset) : Flag step (fun s => !f s) reset set where
  sets s a ha := by simp [hf.resets s a ha]
  resets s a ha := by simp [hf.sets s a ha]
  keeps s a hr ha := by simp [hf.keeps s a ha hr]

/-- **A flag is not set at the end** iff it was reset after it was last set, or was not set at
first and never set. -/
theorem run_eq_false_iff (hf : Flag step f set reset) :
    f (run step s as) = false ↔ Last reset set as ∨ f s = false ∧ ∀ a ∈ as, ¬ set a := by
  have hnot : (!f (run step s as)) = true ↔
      Last reset set as ∨ (!f s) = true ∧ ∀ a ∈ as, ¬ set a := hf.not.run_iff
  simpa using hnot

end Flag

end Transition
