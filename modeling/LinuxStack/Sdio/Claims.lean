import LinuxStack.Sdio.Callbacks
import LinuxStack.Transition.Run

/-!
# Claims on hosts

`test_sdio_probe` claims the host of its function and releases it on none of its exits.
`test_sdio_remove` claims it once more, and releases that claim only.

## Main definitions

* `Balanced`: an action leaves the claims of every host as they were
* `Action.claims`: the action is a probe of a function of the host

## Main results

* `testSdioProbe_claims`, `testSdioRemove_claims`: what a callback does to the claims
* `run_claims`: a run adds one claim for every probe
* `balanced_iff`: all callbacks of a run are balanced iff none of them is a probe
-/

namespace LinuxStack.Sdio

open Transition

variable {F H ω : Type*} [DecidableEq F] [DecidableEq ω] [DecidableEq H]

/-- **A callback leaves the claims as they were**, on every host. -/
def Balanced (host : F → H) (s : Core F H ω) (a : Action F ω) : Prop :=
  (s.step host a).driver.claims = s.driver.claims

/-- The action is a probe of a function of the host `h`. -/
def Action.claims (host : F → H) (h : H) : Action F ω → Bool
  | .probe f _ => host f = h
  | _ => false

/-- A probe ends with these claims. -/
def KeepsClaims (claims : H → ℤ) (res : TestSdio F H ω × ℤ) : Prop := res.1.claims = claims

/-! ## One callback -/

section Callback

variable (host : F → H) (o : ProbeFaults) (f : F) (s : TestSdio F H ω)

omit [DecidableEq F] [DecidableEq ω] [DecidableEq H] in
theorem registerChrdevRegion_claims (fault : Option Errno) :
    (registerChrdevRegion f s fault).claims = s.claims := by
  unfold registerChrdevRegion
  split <;> rfl

variable {f s} in
omit [DecidableEq F] [DecidableEq ω] [DecidableEq H] in
theorem allocChrdevRegion_claims {pick : Except Errno ℕ+} {t : TestSdio F H ω}
    (h : allocChrdevRegion f s pick = .ok t) : t.claims = s.claims := by
  unfold allocChrdevRegion at h
  split at h
  · cases h
  · obtain rfl := Except.ok.inj h
    rfl

variable {f s} in
omit [DecidableEq F] [DecidableEq ω] [DecidableEq H] in
theorem cdevAdd_claims {fault : Option Errno} {t : TestSdio F H ω}
    (h : cdevAdd f s fault = .ok t) : t.claims = s.claims := by
  unfold cdevAdd at h
  split at h
  · cases h
  · obtain rfl := Except.ok.inj h
    rfl

variable {s} in
omit [DecidableEq H] in
/-- No exit of a probe after its claim changes the claims. -/
theorem createDevice_keepsClaims {claims : H → ℤ} (h : s.claims = claims) :
    KeepsClaims claims (createDevice o f s) := by
  subst h
  unfold createDevice
  apply isErrGoto_of
  · rfl
  · apply isErrGoto_of
    · rfl
    · apply orReturn_of
      · exact fun e _ => rfl
      · intro t ht
        have hclaims := cdevAdd_claims ht
        exact hclaims

/-- **A probe claims its host, on every path.** -/
theorem testSdioProbe_claims :
    KeepsClaims (sdioClaimHost f s host).claims (testSdioProbe host o f s) := by
  unfold testSdioProbe
  simp only
  split_ifs
  · exact createDevice_keepsClaims o f (registerChrdevRegion_claims f _ _)
  · apply orReturn_of
    · exact fun e _ => rfl
    · intro t ht
      have hclaims := allocChrdevRegion_claims ht
      exact createDevice_keepsClaims o f hclaims

/-- **A remove releases the claim it makes.** -/
theorem testSdioRemove_claims : (testSdioRemove host f s).claims = s.claims := by
  show Function.update (Function.update s.claims (host f) (s.claims (host f) + 1)) (host f)
    (Function.update s.claims (host f) (s.claims (host f) + 1) (host f) - 1) = s.claims
  rw [Function.update_self, Function.update_idem, Int.add_sub_cancel, Function.update_eq_self]

end Callback

/-- What an action adds to the claims of a host. -/
theorem step_claims (host : F → H) (s : Core F H ω) (a : Action F ω) (h : H) :
    (s.step host a).driver.claims h =
      s.driver.claims h + if a.claims host h = true then 1 else 0 := by
  cases a with
  | probe f o =>
    show (testSdioProbe host o f s.driver).1.claims h = _
    rw [testSdioProbe_claims]
    by_cases hf : host f = h
    · simp [sdioClaimHost, Action.claims, ← hf]
    · have hne : h ≠ host f := fun he => hf he.symm
      simp [sdioClaimHost, Action.claims, hf, hne]
  | remove f =>
    show (testSdioRemove host f s.driver).claims h = _
    rw [testSdioRemove_claims]
    simp [Action.claims]
  | other x d =>
    have hother : (otherRegion s.driver x d).claims = s.driver.claims := by
      unfold otherRegion
      split <;> rfl
    show (otherRegion s.driver x d).claims h = _
    rw [hother]
    simp [Action.claims]

/-! ## Runs -/

/-- **A run leaves one claim behind for every probe.** -/
theorem run_claims (host : F → H) (s : Core F H ω) (as : List (Action F ω)) (h : H) :
    (run (Core.step host) s as).driver.claims h =
      s.driver.claims h + as.countP (Action.claims host h) := by
  induction as generalizing s with
  | nil => simp
  | cons a as ih =>
    rw [run_cons, ih, step_claims, List.countP_cons]
    split <;> omega

/-- **The claims are balanced iff nothing is probed.** In any sequence of callbacks, on any functions
and hosts and with any outcome of the kernel's calls, every callback returns with the claims of every
host as they were iff no callback is a probe. -/
theorem balanced_iff (host : F → H) (s : Core F H ω) (as : List (Action F ω)) :
    Along (Core.step host) (Balanced host) s as ↔ ∀ a ∈ as, ∀ f o, a ≠ .probe f o := by
  apply along_iff_forall_mem (I := fun _ => True)
  · intro s a _ hprobe
    refine ⟨?_, trivial⟩
    ext h
    rw [step_claims]
    cases a with
    | probe f o => exact absurd rfl (hprobe f o)
    | remove f => simp [Action.claims]
    | other x d => simp [Action.claims]
  · rintro s a - hbalanced f o rfl
    -- A probe leaves one claim more on its host.
    have hclaims := (step_claims host s (.probe f o) (host f)).symm.trans
      (congrFun hbalanced (host f))
    simp only [Action.claims, decide_true, if_true] at hclaims
    omega
  · trivial

/-- After a probe whose calls all succeed, its host has one claim more. -/
theorem not_balanced_probe :
    ¬ Along (Core.step fun f : ℕ => f) (Balanced fun f => f)
        (Core.load (Kernel.empty : Kernel ℕ) (fun _ => 0) 0)
        [.probe 1 ⟨.quiet, none⟩] := by
  rintro ⟨hbalanced, -⟩
  have hclaims := congrFun hbalanced 1
  revert hclaims
  decide

end LinuxStack.Sdio
