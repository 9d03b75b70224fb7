import LinuxStack.Kernel.Calls

/-!
# Goto ladders

The loads of the drivers are straight-line code: each call is checked, and its failure jumps to
a label that makes some release calls and returns an error. Such code climbs the ladder of its
calls.
`Climbs` says so of a result, and has one rule for each form of check; a proof about a load
follows its text line by line.

## Main definitions

* `orReturn`, `orGoto`, `isErrGoto`: a checked call, by return code or by `IS_ERR`
* `Climbs ker me failed done res k rs`: the result `res` is that of climbing `rs` from `k`

## Main results

* `Climbs.step`, `Climbs.stepIsErr`, `Climbs.check`, `Climbs.nil`: the rules
* `Climbs.restores_iff`: a failed load leaves the kernel as it was iff its ladder unwinds
* `Climbs.tables_iff`, `Climbs.table_of_ne`: the same for the tables alone, and that a load
  makes no entries for others
* `Climbs.of_firstFailure`, `Climbs.of_ne`: where a load fails, and that otherwise it is done
-/

namespace LinuxStack

open Registry

variable {R T : Type*}

/-- `if ((ret = call()) < 0) { label }`, where the label reads the error, and what follows. -/
def orReturn (x : Except Errno T) (label : Errno → R) (next : T → R) : R :=
  match x with
  | .error e => label e
  | .ok t => next t

/-- `if (call() < 0) goto label;`, and what follows. -/
def orGoto (x : Except Errno T) (label : R) (next : T → R) : R := orReturn x (fun _ => label) next

/-- `if (IS_ERR(x = call())) goto label;`, and what follows. -/
def isErrGoto (isErr : T → Bool) (x : T) (label next : T → R) : R :=
  if isErr x then label x else next x

/-- What holds at the label and of what follows holds of the check. -/
theorem orReturn_of {x : Except Errno T} {label : Errno → R} {next : T → R} {P : R → Prop}
    (hlabel : ∀ e, x = .error e → P (label e)) (hnext : ∀ t, x = .ok t → P (next t)) :
    P (orReturn x label next) := by
  cases x with
  | error e => exact hlabel e rfl
  | ok t => exact hnext t rfl

/-- What holds at the label and of what follows holds of the check. -/
theorem isErrGoto_of {isErr : T → Bool} {x : T} {label next : T → R} {P : R → Prop}
    (hlabel : P (label x)) (hnext : P (next x)) : P (isErrGoto isErr x label next) := by
  unfold isErrGoto
  split
  · exact hlabel
  · exact hnext

variable {γ ω S : Type*} [DecidableEq ω]

/-- The result `res` of a load is that of climbing the ladder `rs` from the kernel `k`: `done`
at the top, or the kernel after the failing rung, and a failure code. -/
def Climbs (ker : S → Kernel ω) (me : ω) (failed : ℤ → Prop) (done : Kernel ω → S × ℤ → Prop)
    (res : S × ℤ) (k : Kernel ω) (rs : List (Rung γ Res Release)) : Prop :=
  if (k.climb me rs).2 then done (k.climb me rs).1 res
  else ker res.1 = (k.climb me rs).1 ∧ failed res.2

namespace Climbs

variable {ker : S → Kernel ω} {me : ω} {failed : ℤ → Prop} {done : Kernel ω → S × ℤ → Prop}
  {k : Kernel ω} {rs : List (Rung γ Res Release)} {r : Rung γ Res Release} {res fail : S × ℤ}

theorem nil (h : done k res) :
    Climbs ker me failed done res k ([] : List (Rung γ Res Release)) := h

theorem cons_fail (h : r.ok k.ledger = false)
    (hfail : ker res.1 = k.releaseAll me r.undo ∧ failed res.2) :
    Climbs ker me failed done res k (r :: rs) := by
  rw [Climbs, Kernel.climb_cons_fail h]
  exact hfail

theorem cons_ok (h : r.ok k.ledger = true)
    (hnext : Climbs ker me failed done res (k.acquireAll me r.gets.toList) rs) :
    Climbs ker me failed done res k (r :: rs) := by
  rw [Climbs, Kernel.climb_cons_ok h]
  exact hnext

/-- A call checked by its return code. -/
theorem stepReturn {x : Except Errno T} {t : T} {label : Errno → S × ℤ} {next : T → S × ℤ}
    (hx : (∃ e, x = .error e) ∧ r.ok k.ledger = false ∨ x = .ok t ∧ r.ok k.ledger = true)
    (hfail : ∀ e, ker (label e).1 = k.releaseAll me r.undo ∧ failed (label e).2)
    (hnext : Climbs ker me failed done (next t) (k.acquireAll me r.gets.toList) rs) :
    Climbs ker me failed done (orReturn x label next) k (r :: rs) := by
  rcases hx with ⟨⟨e, rfl⟩, hr⟩ | ⟨rfl, hr⟩
  · exact cons_fail hr (hfail e)
  · exact cons_ok hr hnext

/-- A call checked by its return code, whose value is not read. -/
theorem step {x : Except Errno T} {t : T} {next : T → S × ℤ}
    (hx : (∃ e, x = .error e) ∧ r.ok k.ledger = false ∨ x = .ok t ∧ r.ok k.ledger = true)
    (hfail : ker fail.1 = k.releaseAll me r.undo ∧ failed fail.2)
    (hnext : Climbs ker me failed done (next t) (k.acquireAll me r.gets.toList) rs) :
    Climbs ker me failed done (orGoto x fail next) k (r :: rs) :=
  stepReturn hx (fun _ => hfail) hnext

/-- A call checked by `IS_ERR`. -/
theorem stepIsErr {isErr : T → Bool} {x bad good : T} {label next : T → S × ℤ}
    (hx : x = bad ∧ r.ok k.ledger = false ∨ x = good ∧ r.ok k.ledger = true)
    (hbad : isErr bad = true) (hgood : isErr good = false)
    (hfail : ker (label bad).1 = k.releaseAll me r.undo ∧ failed (label bad).2)
    (hnext : Climbs ker me failed done (next good) (k.acquireAll me r.gets.toList) rs) :
    Climbs ker me failed done (isErrGoto isErr x label next) k (r :: rs) := by
  rcases hx with ⟨rfl, hr⟩ | ⟨rfl, hr⟩
  · rw [isErrGoto, if_pos hbad]
    exact cons_fail hr hfail
  · rw [isErrGoto, if_neg (by simp [hgood])]
    exact cons_ok hr hnext

/-- A check that acquires nothing. -/
theorem check {b : Bool} {call : γ} {undo : List Release} {next : S × ℤ}
    (hfail : ker fail.1 = k.releaseAll me undo ∧ failed fail.2)
    (hnext : Climbs ker me failed done next k rs) :
    Climbs ker me failed done (if b = false then fail else next) k
      (⟨call, b, none, undo⟩ :: rs) := by
  cases b with
  | false => exact cons_fail rfl hfail
  | true => exact cons_ok rfl hnext

/-- A load is done at the top of its ladder, or has failed below it. -/
theorem cases (h : Climbs ker me failed done res k rs) :
    (k.climb me rs).2 = true ∧ done (k.climb me rs).1 res ∨
      (k.climb me rs).2 = false ∧ ker res.1 = (k.climb me rs).1 ∧ failed res.2 := by
  unfold Climbs at h
  cases hc : (k.climb me rs).2 with
  | true => exact Or.inl ⟨rfl, by rwa [hc, if_pos rfl] at h⟩
  | false => exact Or.inr ⟨rfl, by rwa [hc, if_neg Bool.false_ne_true] at h⟩

/-- **A failed load leaves the kernel as it was**, with no stray release, iff its ladder
unwinds. -/
theorem restores_iff (h : Climbs ker me failed done res k rs)
    (hdone : ∀ k', done k' res → ¬ failed res.2) (hme : ∀ r, k.ledger.table r ≠ some me)
    (hnd : (keys rs).Nodup) :
    (failed res.2 → ker res.1 = k) ↔ Unwinds Release.target k.ledger [] rs := by
  rw [← Kernel.climb_restores_iff hme hnd]
  rcases h.cases with ⟨htop, hres⟩ | ⟨htop, hker, hfailed⟩
  · simp [htop, hdone _ hres]
  · simp [htop, hker, hfailed]

/-- The tables alone: a load that fails leaves them as they were, and no load makes a stray
release, iff the ladder unwinds. -/
theorem tables_iff (h : Climbs ker me failed done res k rs)
    (hdone : ∀ k', done k' res → ¬ failed res.2 ∧ ker res.1 = k')
    (hme : ∀ r, k.ledger.table r ≠ some me) (hnd : (keys rs).Nodup) :
    (failed res.2 → (ker res.1).ledger.table = k.ledger.table) ∧
        (ker res.1).ledger.stray = k.ledger.stray ↔
      Unwinds Release.target k.ledger [] rs := by
  rw [← Registry.climb_restores_iff hme hnd, ← Kernel.climb_ledger.1, ← Kernel.climb_ledger.2]
  rcases h.cases with ⟨htop, hres⟩ | ⟨htop, hker, hfailed⟩
  · obtain ⟨hnot, hker⟩ := hdone _ hres
    rw [hker, Kernel.climb_of_success htop, Kernel.acquireAll_ledger, Ledger.acquireAll_stray]
    simp [htop, hnot]
  · simp [htop, hker, hfailed, Ledger.ext_iff]

/-- A load makes no entries for others. -/
theorem table_of_ne (h : Climbs ker me failed done res k rs)
    (hdone : ∀ k', done k' res → ker res.1 = k') {o : ω} (ho : o ≠ me) {r : Res}
    (hr : (ker res.1).ledger.table r = some o) : k.ledger.table r = some o := by
  suffices hclimb : (k.climb me rs).1.ledger.table r = some o from
    Kernel.climb_table_of_ne ho hclimb
  rcases h.cases with ⟨-, hres⟩ | ⟨-, hker, -⟩
  · rw [← hdone _ hres]
    exact hr
  · rw [← hker]
    exact hr

/-- A load fails at the first failure of its ladder. -/
theorem of_firstFailure (h : Climbs ker me failed done res k rs) {c : γ} (hnd : (keys rs).Nodup)
    (hc : firstFailure k.ledger rs = some c) :
    failed res.2 ∧ ∃ below r above, rs = below ++ r :: above ∧ r.call = c ∧
      (ker res.1).ledger =
        (k.ledger.acquireAll me (keys below)).releaseAll Release.target me r.undo := by
  obtain ⟨below, r, above, hrs, hcall, hclimb⟩ :
      ∃ below r above, rs = below ++ r :: above ∧ r.call = c ∧
        Registry.climb Release.target me rs k.ledger =
          ((k.ledger.acquireAll me (keys below)).releaseAll Release.target me r.undo, false) :=
    climb_of_firstFailure hnd hc
  rcases h.cases with ⟨htop, -⟩ | ⟨-, hker, hfailed⟩
  · rw [Kernel.climb_ledger.2, hclimb] at htop
    cases htop
  · refine ⟨hfailed, below, r, above, hrs, hcall, ?_⟩
    rw [hker, Kernel.climb_ledger.1, hclimb]

/-- A load that does not fail is done, above the acquired keys. -/
theorem of_ne (h : Climbs ker me failed done res k rs) (hres : ¬ failed res.2) :
    (k.climb me rs).2 = true ∧ done (k.climb me rs).1 res := by
  rcases h.cases with htop | ⟨-, -, hfailed⟩
  · exact htop
  · exact absurd hfailed hres

end Climbs

end LinuxStack
