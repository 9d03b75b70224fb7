import Mathlib.Algebra.Group.Int.Defs
import Mathlib.Algebra.Group.Nat.Defs
import Mathlib.Data.Int.Notation
import Mathlib.Data.List.Basic

/-!
# Counted loops on a wrapping counter

A loop `for (i = 0; i < bound; i++)` on a counter of `k` bits, for at most `fuel` iterations. The
bound is compared as an integer, so a bound that does not fit the counter is never reached. The
result keeps the state that was reached also when the loop has not ended.

## Main definitions

* `Progress σ`: a state that a program has reached while running, at its end, or when it crashed
* `forLoop bound body fuel i s`: the loop from the counter `i`

## Main results

* `forLoop_mono`: more fuel does not change the result of a loop that has ended
* `forLoop_eq_done`: a loop whose bound fits the counter runs its body once for each value
* `forLoop_ne_done`: a loop whose bound does not fit the counter never ends
* `forLoop_invariant`: what the body preserves holds however far the loop has come
-/

namespace Loop

/-- The state that a program has reached, while it runs, at its end, or when it crashed. -/
inductive Progress (σ : Type*) where
  | running (s : σ)
  | done (s : σ)
  | crashed (s : σ)

variable {k : ℕ} {σ : Type*} {bound : ℤ} {s t : σ}

namespace Progress

def state : Progress σ → σ
  | running s | done s | crashed s => s

/-- Go on with `f` from the end. -/
def bind (p : Progress σ) (f : σ → Progress σ) : Progress σ :=
  match p with
  | done s => f s
  | p => p

@[simp] theorem done_bind {f : σ → Progress σ} : (done s).bind f = f s := rfl

theorem bind_eq_done {p : Progress σ} {f : σ → Progress σ} :
    p.bind f = done t ↔ ∃ s, p = done s ∧ f s = done t := by
  cases p with
  | done s =>
    constructor
    · exact fun h => ⟨s, rfl, h⟩
    · rintro ⟨s', ⟨⟩, h⟩
      exact h
  | running s | crashed s =>
    constructor
    · nofun
    · rintro ⟨s', ⟨⟩, -⟩

/-- What holds of the state of `p` and is kept by `f` holds after both. -/
theorem bind_state {p : Progress σ} {f : σ → Progress σ} {I : σ → Prop} (hp : I p.state)
    (hf : ∀ s, I s → I (f s).state) : I (p.bind f).state := by
  cases p with
  | done s => exact hf s hp
  | running s => exact hp
  | crashed s => exact hp

end Progress

/-- At most `fuel` iterations of `for (; i < bound; i++)`. -/
def forLoop (bound : ℤ) (body : BitVec k → σ → Progress σ) : ℕ → BitVec k → σ → Progress σ
  | 0, _, s => .running s
  | fuel + 1, i, s =>
    if (i.toNat : ℤ) < bound then (body i s).bind (forLoop bound body fuel (i + 1)) else .done s

variable {body body' : BitVec k → σ → Progress σ} {fuel fuel' : ℕ} {i : BitVec k}

/-- **More fuel does not change the result** of a loop that has ended. -/
theorem forLoop_mono (hbody : ∀ i s t, body i s = .done t → body' i s = .done t)
    (hle : fuel ≤ fuel') (h : forLoop bound body fuel i s = .done t) :
    forLoop bound body' fuel' i s = .done t := by
  induction fuel generalizing fuel' i s with
  | zero => cases h
  | succ fuel ih =>
    obtain ⟨fuel', rfl⟩ : ∃ m, fuel' = m + 1 := ⟨fuel' - 1, by omega⟩
    unfold forLoop at h ⊢
    split at h
    · rw [if_pos (by assumption)]
      obtain ⟨s', hs', htail⟩ := Progress.bind_eq_done.mp h
      exact Progress.bind_eq_done.mpr ⟨s', hbody i s s' hs', ih (by omega) htail⟩
    · rw [if_neg (by assumption)]
      exact h

/-- **A bound that does not fit the counter is never reached.** -/
theorem forLoop_ne_done (hbound : 2 ^ k ≤ bound) : forLoop bound body fuel i s ≠ .done t := by
  induction fuel generalizing i s with
  | zero => nofun
  | succ fuel ih =>
    -- The guard holds for every value that the counter can have.
    have hlt : (i.toNat : ℤ) < bound := by
      have hi : (i.toNat : ℤ) < 2 ^ k := by exact_mod_cast i.isLt
      omega
    intro h
    unfold forLoop at h
    rw [if_pos hlt] at h
    obtain ⟨s', -, htail⟩ := Progress.bind_eq_done.mp h
    exact ih htail

/-- What the body preserves holds however far the loop has come. -/
theorem forLoop_invariant {I : σ → Prop}
    (hbody : ∀ i s, (i.toNat : ℤ) < bound → I s → I (body i s).state) (hs : I s) :
    I (forLoop bound body fuel i s).state := by
  induction fuel generalizing i s with
  | zero => exact hs
  | succ fuel ih =>
    unfold forLoop
    split
    · exact Progress.bind_state (hbody i s (by assumption) hs) fun s' hs' => ih hs'
    · exact hs

/-- The last `m` of the `n` iterations of a loop whose bound fits the counter. -/
theorem forLoop_from {n m : ℕ} (hn : bound.toNat = n) (hfits : n < 2 ^ k) {f : ℕ → σ → σ}
    (hbody : ∀ j < n, ∀ s, body (BitVec.ofNat k j) s = .done (f j s)) (hm : m ≤ n)
    (hfuel : m < fuel) :
    forLoop bound body fuel (BitVec.ofNat k (n - m)) s =
      .done ((List.range' (n - m) m).foldl (fun s j => f j s) s) := by
  induction m generalizing fuel s with
  | zero =>
    obtain ⟨fuel, rfl⟩ : ∃ l, fuel = l + 1 := ⟨fuel - 1, by omega⟩
    have hi : (BitVec.ofNat k (n - 0)).toNat = n := by
      rw [BitVec.toNat_ofNat, Nat.sub_zero, Nat.mod_eq_of_lt hfits]
    unfold forLoop
    rw [hi, if_neg (by omega)]
    rfl
  | succ m ih =>
    obtain ⟨fuel, rfl⟩ : ∃ l, fuel = l + 1 := ⟨fuel - 1, by omega⟩
    have hi : (BitVec.ofNat k (n - (m + 1))).toNat = n - (m + 1) := by
      rw [BitVec.toNat_ofNat, Nat.mod_eq_of_lt (by omega)]
    -- The next value is at most `n`, so the counter does not wrap.
    have hnext : BitVec.ofNat k (n - (m + 1)) + 1 = BitVec.ofNat k (n - m) := by
      have hsub : n - m = n - (m + 1) + 1 := by omega
      rw [hsub, BitVec.ofNat_add]
      rfl
    unfold forLoop
    rw [hi, if_pos (by omega), hbody _ (by omega), Progress.done_bind, hnext,
      ih (by omega) (by omega), List.range'_succ, List.foldl_cons]
    have hsub : n - (m + 1) + 1 = n - m := by omega
    rw [hsub]

/-- **A loop whose bound fits the counter runs its body once for each value.** -/
theorem forLoop_eq_done {n : ℕ} (hn : bound.toNat = n) (hfits : n < 2 ^ k) {f : ℕ → σ → σ}
    (hbody : ∀ j < n, ∀ s, body (BitVec.ofNat k j) s = .done (f j s)) (hfuel : n < fuel) :
    forLoop bound body fuel 0 s = .done ((List.range n).foldl (fun s j => f j s) s) := by
  have h := forLoop_from (s := s) hn hfits hbody (Nat.le_refl n) hfuel
  rw [Nat.sub_self] at h
  rw [List.range_eq_range']
  exact h

end Loop
