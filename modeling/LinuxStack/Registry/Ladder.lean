import LinuxStack.Registry.Ledger

/-!
# Acquisition ladders

A ladder acquires resources one rung after another. A rung whose call fails jumps to a list of
release calls and the climb is over. The climb leaves the registry as it found it, with no
stray release, exactly when the first failing rung releases a permutation of what the rungs
below it acquired.

## Main definitions

* `Rung`: a call, the key it acquires, and the releases its failure jumps to
* `climb`: the registry after the climb, and whether every rung held
* `firstFailure`: the first call that fails, read off the registry before the climb
* `Unwinds`, `Marks`: the first failing rung releases what was acquired below it; the calls at
  which a failure would do so

## Main results

* `climb_restores_iff`: a failing climb restores the registry iff the ladder unwinds
* `unwinds_iff_of_marks`: the ladder unwinds iff its first failure is a marked call
* `climb_of_firstFailure`: a climb fails at its first failure, above the keys below it
* `climb_of_success`: a climb without failure acquires the keys of its rungs
* `climb_table_of_ne`: a climb makes no entries for others
* `releaseAll_climb_eq_iff`: releases undo a climb without failure iff they are aimed at a
  permutation of its keys
-/

namespace Registry

variable {γ κ ω ρ : Type*} [DecidableEq κ]

/-- One call of a ladder: whether it fails for a reason of its own, the key it enters, and the
release calls its failure jumps to. -/
structure Rung (γ κ ρ : Type*) where
  call : γ
  passes : Bool
  gets : Option κ
  undo : List ρ

/-- The rung holds: its call does not fail, and its key is free. -/
def Rung.ok (l : Ledger κ ω ρ) (r : Rung γ κ ρ) : Bool :=
  r.passes && r.gets.all fun k => (l.table k).isNone

/-- The keys of a ladder, in order. -/
def keys (rs : List (Rung γ κ ρ)) : List κ := rs.flatMap fun r => r.gets.toList

omit [DecidableEq κ] in
@[simp] theorem keys_nil : keys ([] : List (Rung γ κ ρ)) = [] := rfl

omit [DecidableEq κ] in
@[simp] theorem keys_cons (r : Rung γ κ ρ) (rs : List (Rung γ κ ρ)) :
    keys (r :: rs) = r.gets.toList ++ keys rs := rfl

/-- Keys entered below do not matter to the next rung of a ladder without repeated keys. -/
theorem Rung.ok_acquireAll {l : Ledger κ ω ρ} {me : ω} {r : Rung γ κ ρ} {rs : List (Rung γ κ ρ)}
    {got : List κ} (hnd : (got ++ keys (r :: rs)).Nodup) :
    r.ok (l.acquireAll me got) = r.ok l := by
  -- The key of the rung is not among those below it.
  have hdisj : ∀ k ∈ r.gets, k ∉ got := by
    intro k hk hgot
    have hmem : k ∈ keys (r :: rs) := by simp [Option.mem_def.mp hk]
    exact (List.nodup_append.mp hnd).2.2 k hgot k hmem rfl
  unfold Rung.ok
  cases hk : r.gets with
  | none => rfl
  | some k => simp [Ledger.acquireAll_table, hdisj k hk]

omit [DecidableEq κ] in
theorem Rung.table_eq_none_of_ok {l : Ledger κ ω ρ} {r : Rung γ κ ρ} (h : r.ok l) :
    ∀ k ∈ r.gets.toList, l.table k = none := by
  intro k hk
  rw [Option.mem_toList] at hk
  simp only [Rung.ok, hk, Bool.and_eq_true, Option.all_some, Option.isNone_iff_eq_none] at h
  exact h.2

variable [DecidableEq ω] (target : ρ → Option κ) (me : ω)

/-- Climb a ladder: the registry afterwards, and whether every rung held. -/
def climb : List (Rung γ κ ρ) → Ledger κ ω ρ → Ledger κ ω ρ × Bool
  | [], l => (l, true)
  | r :: rs, l =>
    if r.ok l then climb rs (l.acquireAll me r.gets.toList)
    else (l.releaseAll target me r.undo, false)

/-- The call of the first rung that fails at `l`, if there is one. -/
def firstFailure (l : Ledger κ ω ρ) : List (Rung γ κ ρ) → Option γ
  | [] => none
  | r :: rs => if r.ok l then firstFailure l rs else some r.call

/-- The first rung that fails at `l`, if there is one, releases a permutation of `got` and the
keys of the rungs below it. -/
def Unwinds (l : Ledger κ ω ρ) : List κ → List (Rung γ κ ρ) → Prop
  | _, [] => True
  | got, r :: rs =>
    if r.ok l then Unwinds l (got ++ r.gets.toList) rs
    else (r.undo.map target).Perm (got.map some)

/-- The marked calls are those whose failure would release a permutation of `got` and the keys
of the rungs below it. -/
def Marks (mark : γ → Prop) : List κ → List (Rung γ κ ρ) → Prop
  | _, [] => True
  | got, r :: rs =>
    (mark r.call ↔ (r.undo.map target).Perm (got.map some)) ∧
      Marks mark (got ++ r.gets.toList) rs

variable {target me} {l : Ledger κ ω ρ} {rs : List (Rung γ κ ρ)} {r : Rung γ κ ρ}

@[simp] theorem climb_nil : climb target me ([] : List (Rung γ κ ρ)) l = (l, true) := rfl

theorem climb_cons_of_ok (h : r.ok l) :
    climb target me (r :: rs) l = climb target me rs (l.acquireAll me r.gets.toList) := by
  rw [climb, if_pos h]

theorem climb_cons_of_not_ok (h : ¬ r.ok l) :
    climb target me (r :: rs) l = (l.releaseAll target me r.undo, false) := by
  rw [climb, if_neg h]

/-- A climb that starts above acquired keys restores the registry below them iff the rest of
the ladder unwinds. The induction is on the ladder; `got` collects the keys entered so far. -/
theorem climb_acquireAll_restores_iff {got : List κ} (hme : ∀ r, l.table r ≠ some me)
    (hnd : (got ++ keys rs).Nodup) (hfree : ∀ r ∈ got, l.table r = none) :
    ((climb target me rs (l.acquireAll me got)).2 = false →
        (climb target me rs (l.acquireAll me got)).1 = l) ↔
      Unwinds target l got rs := by
  induction rs generalizing got with
  | nil => simp [Unwinds]
  | cons r rs ih =>
    have hok : r.ok (l.acquireAll me got) = r.ok l := Rung.ok_acquireAll hnd
    rw [keys_cons, ← List.append_assoc] at hnd
    by_cases h : r.ok l
    · -- The rung holds, and its key joins those entered.
      rw [climb_cons_of_ok (hok.trans h), ← Ledger.acquireAll_append, Unwinds, if_pos h]
      refine ih hnd fun k hk => ?_
      rcases List.mem_append.mp hk with hk | hk
      · exact hfree k hk
      · exact Rung.table_eq_none_of_ok h k hk
    · -- The rung fails: its releases are all that happens after the keys below it.
      rw [climb_cons_of_not_ok (by rwa [hok]), Unwinds, if_neg h]
      have hnd' := (List.nodup_append.mp (List.nodup_append.mp hnd).1).1
      rw [← Ledger.releaseAll_acquireAll_eq_iff hme hnd' hfree]
      simp

/-- **A failing climb restores the registry**, with no stray release, iff the first failing
rung releases a permutation of what was acquired below it. -/
theorem climb_restores_iff (hme : ∀ r, l.table r ≠ some me) (hnd : (keys rs).Nodup) :
    ((climb target me rs l).2 = false → (climb target me rs l).1 = l) ↔
      Unwinds target l [] rs := by
  rw [← climb_acquireAll_restores_iff hme (by simpa using hnd) (by simp)]
  rfl

omit [DecidableEq κ] in
/-- The marks of a ladder are those of its parts. -/
theorem marks_append {mark : γ → Prop} {got : List κ} {rs ss : List (Rung γ κ ρ)} :
    Marks target mark got (rs ++ ss) ↔
      Marks target mark got rs ∧ Marks target mark (got ++ keys rs) ss := by
  induction rs generalizing got with
  | nil => simp [Marks]
  | cons r rs ih => simp [Marks, ih, and_assoc]

omit [DecidableEq κ] [DecidableEq ω] in
/-- **The ladder unwinds iff its first failure is marked.** -/
theorem unwinds_iff_of_marks {mark : γ → Prop} {got : List κ} (h : Marks target mark got rs) :
    Unwinds target l got rs ↔ ∀ c, firstFailure l rs = some c → mark c := by
  induction rs generalizing got with
  | nil => simp [Unwinds, firstFailure]
  | cons r rs ih =>
    obtain ⟨hr, hrs⟩ := h
    by_cases hok : r.ok l
    · rw [Unwinds, firstFailure, if_pos hok, if_pos hok]
      exact ih hrs
    · rw [Unwinds, firstFailure, if_neg hok, if_neg hok, ← hr]
      simp

omit [DecidableEq κ] [DecidableEq ω] in
/-- A ladder without a failing rung has no first failure. -/
theorem firstFailure_eq_none_iff : firstFailure l rs = none ↔ ∀ r ∈ rs, r.ok l := by
  induction rs with
  | nil => simp [firstFailure]
  | cons r rs ih =>
    by_cases hok : r.ok l
    · simp [firstFailure, hok, ih]
    · simp [firstFailure, hok]

/-- A climb above acquired keys fails at the first failure: it releases what that rung says,
above the keys of the rungs below it. -/
theorem climb_acquireAll_of_firstFailure {got : List κ} {c : γ} (hnd : (got ++ keys rs).Nodup)
    (h : firstFailure l rs = some c) :
    ∃ below r above, rs = below ++ r :: above ∧ r.call = c ∧
      climb target me rs (l.acquireAll me got) =
        ((l.acquireAll me (got ++ keys below)).releaseAll target me r.undo, false) := by
  induction rs generalizing got with
  | nil => cases h
  | cons r rs ih =>
    have hok : r.ok (l.acquireAll me got) = r.ok l := Rung.ok_acquireAll hnd
    rw [keys_cons, ← List.append_assoc] at hnd
    by_cases hr : r.ok l
    · rw [firstFailure, if_pos hr] at h
      obtain ⟨below, r', above, rfl, hcall, hclimb⟩ := ih hnd h
      refine ⟨r :: below, r', above, rfl, hcall, ?_⟩
      rw [climb_cons_of_ok (hok.trans hr), ← Ledger.acquireAll_append, hclimb, keys_cons,
        List.append_assoc]
    · rw [firstFailure, if_neg hr] at h
      refine ⟨[], r, rs, rfl, Option.some.inj h, ?_⟩
      rw [climb_cons_of_not_ok (by rwa [hok]), keys_nil, List.append_nil]

/-- **A climb fails at the first failure.** -/
theorem climb_of_firstFailure {c : γ} (hnd : (keys rs).Nodup)
    (h : firstFailure l rs = some c) :
    ∃ below r above, rs = below ++ r :: above ∧ r.call = c ∧
      climb target me rs l =
        ((l.acquireAll me (keys below)).releaseAll target me r.undo, false) := by
  have hnd' : ([] ++ keys rs).Nodup := hnd
  exact climb_acquireAll_of_firstFailure hnd' h

/-- A climb above acquired keys reaches the top iff there is no failure. -/
theorem climb_acquireAll_snd {got : List κ} (hnd : (got ++ keys rs).Nodup) :
    (climb target me rs (l.acquireAll me got)).2 = (firstFailure l rs).isNone := by
  induction rs generalizing got with
  | nil => rfl
  | cons r rs ih =>
    have hok : r.ok (l.acquireAll me got) = r.ok l := Rung.ok_acquireAll hnd
    rw [keys_cons, ← List.append_assoc] at hnd
    by_cases hr : r.ok l
    · rw [climb_cons_of_ok (hok.trans hr), ← Ledger.acquireAll_append, firstFailure, if_pos hr]
      exact ih hnd
    · rw [climb_cons_of_not_ok (by rwa [hok]), firstFailure, if_neg hr]
      rfl

/-- A climb reaches the top iff there is no failure. -/
theorem climb_snd_eq_true_iff (hnd : (keys rs).Nodup) :
    (climb target me rs l).2 = true ↔ firstFailure l rs = none := by
  have hnd' : ([] ++ keys rs).Nodup := hnd
  have hsnd : (climb target me rs (l.acquireAll me [])).2 = (firstFailure l rs).isNone :=
    climb_acquireAll_snd hnd'
  rw [← Option.isNone_iff_eq_none, ← hsnd]
  rfl

/-- A climb without failure acquires the keys of its rungs. -/
theorem climb_of_success (h : (climb target me rs l).2 = true) :
    (climb target me rs l).1 = l.acquireAll me (keys rs) := by
  induction rs generalizing l with
  | nil => rfl
  | cons r rs ih =>
    by_cases hr : r.ok l
    · rw [climb_cons_of_ok hr] at h ⊢
      rw [ih h, keys_cons, Ledger.acquireAll_append]
    · rw [climb_cons_of_not_ok hr] at h
      cases h

/-- The keys of a climb without failure were free. -/
theorem table_eq_none_of_climb (hnd : (keys rs).Nodup) (h : (climb target me rs l).2 = true) :
    ∀ k ∈ keys rs, l.table k = none := by
  induction rs generalizing l with
  | nil => simp
  | cons r rs ih =>
    by_cases hr : r.ok l
    · rw [climb_cons_of_ok hr] at h
      rw [keys_cons] at hnd ⊢
      obtain ⟨-, hnd', hdisj⟩ := List.nodup_append.mp hnd
      intro k hk
      rcases List.mem_append.mp hk with hk | hk
      · exact Rung.table_eq_none_of_ok hr k hk
      · -- What is free above the first key was free below it.
        have hfree := ih hnd' h k hk
        rw [Ledger.acquireAll_table, if_neg fun hmem => hdisj k hmem k hk rfl] at hfree
        exact hfree
    · rw [climb_cons_of_not_ok hr] at h
      cases h

/-- **Releases undo a climb without failure**, with none stray, iff they are aimed at a
permutation of its keys. -/
theorem releaseAll_climb_eq_iff {xs : List ρ} (hme : ∀ r, l.table r ≠ some me)
    (hnd : (keys rs).Nodup) (h : (climb target me rs l).2 = true) :
    (climb target me rs l).1.releaseAll target me xs = l ↔
      (xs.map target).Perm ((keys rs).map some) := by
  rw [climb_of_success h]
  exact Ledger.releaseAll_acquireAll_eq_iff hme hnd (table_eq_none_of_climb hnd h)

/-- A climb makes no entries for others. -/
theorem climb_table_of_ne (hnd : (keys rs).Nodup) {o : ω} (ho : o ≠ me) {k : κ}
    (h : (climb target me rs l).1.table k = some o) : l.table k = some o := by
  have hacquired : ∀ ks : List κ, (l.acquireAll me ks).table k = some o → l.table k = some o := by
    intro ks ht
    rw [Ledger.acquireAll_table] at ht
    split_ifs at ht
    · exact absurd (Option.some.inj ht).symm ho
    · exact ht
  cases hf : firstFailure l rs with
  | none =>
    rw [climb_of_success ((climb_snd_eq_true_iff hnd).mpr hf)] at h
    exact hacquired _ h
  | some c =>
    obtain ⟨below, r, above, -, -, hclimb⟩ := climb_of_firstFailure hnd hf
    rw [hclimb, Ledger.releaseAll_table] at h
    split_ifs at h
    exact hacquired _ h

omit [DecidableEq κ] [DecidableEq ω] in
/-- All rungs hold iff no call fails and all keys are free. -/
theorem forall_ok_iff :
    (∀ r ∈ rs, r.ok l) ↔ (∀ r ∈ rs, r.passes = true) ∧ ∀ k ∈ keys rs, l.table k = none := by
  simp only [Rung.ok, Bool.and_eq_true, forall_and, and_congr_right_iff]
  intro _
  constructor
  · intro hok k hk
    obtain ⟨r, hr, hget⟩ := List.mem_flatMap.mp hk
    simpa [Option.mem_toList.mp hget] using hok r hr
  · intro hfree r hr
    cases hget : r.gets with
    | none => rfl
    | some k =>
      have hk : k ∈ keys rs := List.mem_flatMap.mpr ⟨r, hr, by simp [hget]⟩
      simp [hfree k hk]

omit [DecidableEq κ] [DecidableEq ω] in
/-- The first failure of a ladder in two parts. -/
theorem firstFailure_append (rs ss : List (Rung γ κ ρ)) :
    firstFailure l (rs ++ ss) = (firstFailure l rs).or (firstFailure l ss) := by
  induction rs with
  | nil => rfl
  | cons r rs ih =>
    by_cases hr : r.ok l
    · rw [List.cons_append, firstFailure, firstFailure, if_pos hr, if_pos hr, ih]
    · rw [List.cons_append, firstFailure, firstFailure, if_neg hr, if_neg hr]
      rfl

omit [DecidableEq κ] [DecidableEq ω] in
/-- The first failure is that of a rung. -/
theorem exists_of_firstFailure {c : γ} (h : firstFailure l rs = some c) :
    ∃ r ∈ rs, r.call = c ∧ ¬ r.ok l := by
  induction rs with
  | nil => cases h
  | cons r rs ih =>
    by_cases hr : r.ok l
    · rw [firstFailure, if_pos hr] at h
      obtain ⟨r', hmem, hcall⟩ := ih h
      exact ⟨r', List.mem_cons_of_mem _ hmem, hcall⟩
    · rw [firstFailure, if_neg hr] at h
      exact ⟨r, List.mem_cons_self, Option.some.inj h, hr⟩

end Registry
