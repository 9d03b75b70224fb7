import LinuxStack.Transition.Run

/-!
# Accepted actions and their spacing

The actions of a run that the system accepts, in order. A relation holds between any two of them
when the state remembers, for every accepted action, enough to refuse those that are not related
to it. Where the relation keeps their times apart, a window holds a bounded number of them.

## Main definitions

* `taken step accepts s as`: the accepted actions of a run

## Main results

* `taken_pairwise`: what the state remembers of an accepted action relates it to all later ones
* `length_filter_le_of_spaced`: at most `T / d + 1` of the times that lie `d` apart fall into a
  window of `T`
-/

namespace Transition

variable {σ α : Type*} {step : σ → α → σ} {accepts : σ → α → Bool} {A : σ → α → Prop} {s : σ}
  {as : List α}

/-- The accepted actions of a run, in order. -/
def taken (step : σ → α → σ) (accepts : σ → α → Bool) : σ → List α → List α
  | _, [] => []
  | s, a :: as =>
    if accepts s a then a :: taken step accepts (step s a) as
    else taken step accepts (step s a) as

/-- What a state knows of an action holds between that action and all that are accepted later. -/
theorem related_of_mem_taken {R : α → α → Prop} {K : α → σ → Prop} {a b : α}
    (hkeep : ∀ s b, A s b → K a s → K a (step s b))
    (hgap : ∀ s b, A s b → K a s → accepts s b = true → R a b)
    (hA : Along step A s as) (ha : K a s) (hb : b ∈ taken step accepts s as) : R a b := by
  induction as generalizing s with
  | nil => simp [taken] at hb
  | cons c as ih =>
    -- What the state knows of `a` passes every action, accepted or not.
    have htail := ih hA.2 (hkeep s c hA.1 ha)
    unfold taken at hb
    split at hb
    · rcases List.mem_cons.mp hb with rfl | hb
      · exact hgap s b hA.1 ha (by assumption)
      · exact htail hb
    · exact htail hb

/-- **Accepted actions are related to all later ones**, when each state knows enough of the
accepted actions before it. -/
theorem taken_pairwise {R : α → α → Prop} {K : α → σ → Prop}
    (hnew : ∀ s a, A s a → accepts s a = true → K a (step s a))
    (hkeep : ∀ a s b, A s b → K a s → K a (step s b))
    (hgap : ∀ a s b, A s b → K a s → accepts s b = true → R a b)
    (hA : Along step A s as) : (taken step accepts s as).Pairwise R := by
  induction as generalizing s with
  | nil => exact List.Pairwise.nil
  | cons a as ih =>
    unfold taken
    split
    · have hknows := hnew s a hA.1 (by assumption)
      refine List.Pairwise.cons (fun b hb => ?_) (ih hA.2)
      exact related_of_mem_taken (hkeep a) (hgap a) hA.2 hknows hb
    · exact ih hA.2

/-- Accepted actions are taken along any projection of the run that accepts the same. -/
theorem taken_map {τ : Type*} {step' : τ → α → τ} (f : τ → σ)
    (hstep : ∀ t a, f (step' t a) = step (f t) a) {t : τ} :
    taken step' (fun t a => accepts (f t) a) t as = taken step accepts (f t) as := by
  induction as generalizing t with
  | nil => rfl
  | cons a as ih => rw [taken, taken, ih, hstep]

/-! ## Spaced times -/

variable {time : α → ℕ} {d : ℕ}

/-- Times that lie `d` apart between `lo` and `hi` take up `d` each. -/
theorem length_mul_le_of_spaced {l : List α}
    (hgap : l.Pairwise fun a b => time a + d ≤ time b) {lo hi : ℕ}
    (hmem : ∀ a ∈ l, lo ≤ time a ∧ time a ≤ hi) (hlo : lo ≤ hi + d) :
    lo + l.length * d ≤ hi + d := by
  induction l generalizing lo with
  | nil => simpa using hlo
  | cons a l ih =>
    obtain ⟨hfirst, hrest⟩ := List.pairwise_cons.mp hgap
    obtain ⟨hloa, hahi⟩ := hmem a List.mem_cons_self
    -- The others start no earlier than `d` after the first.
    have hl : time a + d + l.length * d ≤ hi + d := by
      apply ih hrest (fun b hb => ⟨hfirst b hb, (hmem b (List.mem_cons_of_mem a hb)).2⟩)
      omega
    rw [List.length_cons, Nat.add_mul, Nat.one_mul]
    omega

/-- **A window of `T` holds at most `T / d + 1` times that lie `d` apart.** -/
theorem length_filter_le_of_spaced (hd : 0 < d) {l : List α}
    (hgap : l.Pairwise fun a b => time a + d ≤ time b) (lo T : ℕ) :
    (l.filter fun a => lo ≤ time a ∧ time a ≤ lo + T).length ≤ T / d + 1 := by
  have hmul : lo + (l.filter fun a => lo ≤ time a ∧ time a ≤ lo + T).length * d ≤ lo + T + d := by
    apply length_mul_le_of_spaced (hgap.filter _) (fun a ha => ?_) (by omega)
    simpa using (List.mem_filter.mp ha).2
  rw [← Nat.add_div_right T hd, Nat.le_div_iff_mul_le hd]
  omega

end Transition
