import LinuxStack.Sdio.Driver

/-!
# The callbacks of the SDIO driver

The SDIO core issues probes and removes for any number of functions, and other drivers register
regions in between. A callback has a contract. A probe that enters its region keeps it unless
`cdev_add` is the first call to fail; a probe that does not must not fail at all.

## Main definitions

* `Core F H ω`, `Action`, `Core.step`: the driver under the SDIO core
* `Issued`: the core probes unbound functions and removes bound ones
* `Kept`: a failing probe leaves the tables, a remove deletes what the probe created, and no
  release call is stray
* `Safe`: nobody is bound at a probe, its region is entered, and `cdev_add` is not what fails

## Main results

* `probe_kept_iff_of_entered`, `probe_kept_iff_of_not_entered`: when a probe keeps the contract
* `probe_of_entered`, `probe_of_not_entered`: what a successful probe has entered
* `testSdioRemove_ledger`, `removeReleases_target`: what a remove deletes
-/

namespace LinuxStack.Sdio

open Registry

variable {F H ω : Type*} [DecidableEq F] [DecidableEq ω] [DecidableEq H]

/-! ## The driver under the core -/

/-- The driver, and the bound functions, each with the entries that its probe created. -/
structure Core (F H ω : Type*) where
  driver : TestSdio F H ω
  bound : F → Option (Res → Bool)

/-- A driver that has just been registered with the core. -/
def Core.load (k : Kernel ω) (claims : H → ℤ) (cdev : ℕ) : Core F H ω :=
  ⟨TestSdio.load k claims cdev, fun _ => none⟩

/-- What can happen: a callback, or the registration of a region by somebody else. -/
inductive Action (F ω : Type*)
  | probe (f : F) (o : ProbeFaults)
  | remove (f : F)
  | other (x : ω) (d : DevT)

/-- The entries that the function `f` owns in `k'` and not in `k`. -/
def created (f : F) (k k' : Kernel (Owner F ω)) (r : Res) : Bool :=
  k.ledger.table r ≠ some (.mine f) && k'.ledger.table r = some (.mine f)

/-- The driver after somebody else asks for a region. -/
def otherRegion (s : TestSdio F H ω) (x : ω) (d : DevT) : TestSdio F H ω :=
  match s.kernel.registerChrdevRegion (.other x) d none with
  | .error _ => s
  | .ok k => { s with kernel := k }

/-- The state after an action. A function is bound when its probe returns no error. -/
def Core.step (host : F → H) (s : Core F H ω) : Action F ω → Core F H ω
  | .probe f o =>
    let res := testSdioProbe host o f s.driver
    { driver := res.1
      bound :=
        if res.2 < 0 then s.bound
        else Function.update s.bound f (some (created f s.driver.kernel res.1.kernel)) }
  | .remove f =>
    { driver := testSdioRemove host f s.driver, bound := Function.update s.bound f none }
  | .other x d => { s with driver := otherRegion s.driver x d }

/-- The core probes a function that is not bound, and removes one that is. -/
def Issued (s : Core F H ω) : Action F ω → Prop
  | .probe f _ => s.bound f = none
  | .remove f => s.bound f ≠ none
  | .other _ _ => True

/-- **The contract of a callback.** A probe that returns an error leaves the tables as they were,
`remove` deletes exactly the entries that the probe of its function created, and no release call
misses a live entry of its function. -/
def Kept (host : F → H) (s : Core F H ω) : Action F ω → Prop
  | .probe f o =>
    let res := testSdioProbe host o f s.driver
    (res.2 < 0 → res.1.kernel.ledger.table = s.driver.kernel.ledger.table) ∧
      res.1.kernel.ledger.stray = s.driver.kernel.ledger.stray
  | .remove f =>
    let s' := testSdioRemove host f s.driver
    (∀ own ∈ s.bound f, ∀ r,
        if own r then (s.driver.kernel.ledger.table r).isSome ∧ s'.kernel.ledger.table r = none
        else s'.kernel.ledger.table r = s.driver.kernel.ledger.table r) ∧
      s'.kernel.ledger.stray = s.driver.kernel.ledger.stray
  | .other _ _ => True

/-- The region of a probe is entered: `sdio_dev` has no major number yet, or
`register_chrdev_region` does not fail. -/
def Entered (o : ProbeFaults) (s : TestSdio F H ω) : Prop :=
  s.sdioDev.major ≠ 0 → (regionRung o s).ok s.kernel.ledger = true

/-- The probe finds nobody bound, enters its region, and its first failure is not at
`cdev_add`. -/
def Safe (s : Core F H ω) : Action F ω → Prop
  | .probe _ o =>
    (∀ g, s.bound g = none) ∧
      Entered o s.driver ∧
      firstFailure s.driver.kernel.ledger (rungs o s.driver) ≠ some .cdevAdd
  | _ => True

/-! ## One probe -/

section Probe

variable (host : F → H) (o : ProbeFaults) (f : F) (s : TestSdio F H ω)

omit [DecidableEq F] [DecidableEq ω] [DecidableEq H] in
@[simp] theorem probeDev_minor : (probeDev o s).minor = 0 := by
  unfold probeDev pickedDev
  split_ifs
  · rfl
  · cases o.allocChrdevRegion <;> rfl

omit [DecidableEq F] [DecidableEq ω] [DecidableEq H] in
theorem regionRung_eq :
    regionRung o s = ⟨(regionRung o s).call, (regionRung o s).passes,
      some (.region (probeDev o s)), []⟩ ∧ (regionRung o s).call ≠ .cdevAdd := by
  unfold regionRung
  split_ifs <;> exact ⟨rfl, by simp⟩

omit [DecidableEq F] [DecidableEq ω] [DecidableEq H] in
theorem keys_rungs :
    keys (rungs o s) = [.region (probeDev o s), .cls "rpi-sdio",
      .device "rpi-sdio" (probeDev o s), .cdev s.sdioDev.cdev] := by
  rw [rungs, (regionRung_eq o s).1]
  rfl

omit [DecidableEq F] [DecidableEq ω] [DecidableEq H] in
/-- Of the exits of a probe that has entered its region, only that of `cdev_add` is wrong: it
destroys a device that is not the one created. -/
theorem rungs_marks : Marks Release.target (· ≠ .cdevAdd) [] (rungs o s) := by
  obtain ⟨heq, hcall⟩ := regionRung_eq o s
  rw [rungs, heq]
  refine ⟨?_, ?_, ?_, ?_, trivial⟩
  -- Without a region there is nothing to undo.
  · exact iff_of_true hcall (List.Perm.refl _)
  · exact iff_of_true (by simp) (List.Perm.refl _)
  · apply iff_of_true (by simp)
    exact List.reverse_perm ([Res.region (probeDev o s), .cls "rpi-sdio"].map some)
  · refine iff_of_false (by simp) fun h => ?_
    have hmem := h.subset List.mem_cons_self
    -- The number `SDIO_DRIVER_CNT` has minor 1, and every `devid` has minor 0.
    have hdev : DevT.ofNat sdioDriverCnt = probeDev o s := by simpa [Release.target] using hmem
    have hminor := congrArg DevT.minor hdev
    rw [probeDev_minor] at hminor
    revert hminor
    decide

omit [DecidableEq F] [DecidableEq ω] [DecidableEq H] in
/-- Every exit of a probe that has not entered its region makes one release too many. -/
theorem deviceRungs_marks (p : ℕ) (d : DevT) :
    Marks Release.target (fun _ => False) [] (deviceRungs o p d) := by
  refine ⟨?_, ?_, ?_, trivial⟩
  · exact iff_of_false id fun h => by simpa using h.length_eq
  · exact iff_of_false id fun h => by simpa using h.length_eq
  · exact iff_of_false id fun h => by simpa using h.length_eq

variable {s}

/-- A probe that enters its region keeps the contract iff `cdev_add` is not its first failure. -/
theorem probe_kept_iff_of_entered (hme : ∀ r, s.kernel.ledger.table r ≠ some (.mine f))
    (h : Entered o s) {bound : F → Option (Res → Bool)} :
    Kept host ⟨s, bound⟩ (.probe f o : Action F ω) ↔
      firstFailure s.kernel.ledger (rungs o s) ≠ some .cdevAdd := by
  have hclimbs := testSdioProbe_climbs host o f s (Decidable.or_iff_not_imp_left.mpr h)
  have hiff := hclimbs.tables_iff (fun k' hres => by simp [hres, probed]) hme
    (by simp [keys_rungs])
  rw [unwinds_iff_of_marks (rungs_marks o s)] at hiff
  refine hiff.trans ⟨?_, ?_⟩
  · intro hall hc
    exact hall _ hc rfl
  · rintro hne c hc rfl
    exact hne hc

/-- A probe that does not enter its region keeps the contract iff nothing else fails. -/
theorem probe_kept_iff_of_not_entered (hme : ∀ r, s.kernel.ledger.table r ≠ some (.mine f))
    (h : ¬ Entered o s) {bound : F → Option (Res → Bool)} :
    Kept host ⟨s, bound⟩ (.probe f o : Action F ω) ↔
      firstFailure s.kernel.ledger (deviceRungs o s.sdioDev.cdev (probeDev o s)) = none := by
  obtain ⟨hmajor, hok⟩ := Classical.not_imp.mp h
  have hclimbs := testSdioProbe_climbs_of_taken host o f s hmajor (by simpa using hok)
  have hiff := hclimbs.tables_iff (fun k' hres => by simp [hres, probed]) hme
    (by simp [deviceRungs])
  rw [unwinds_iff_of_marks (deviceRungs_marks o _ _)] at hiff
  exact hiff.trans Option.eq_none_iff_forall_ne_some.symm

/-- A probe makes no entries for other functions. -/
theorem probe_table_of_ne {x : Owner F ω} (hx : x ≠ .mine f) {r : Res}
    (hr : (testSdioProbe host o f s).1.kernel.ledger.table r = some x) :
    s.kernel.ledger.table r = some x := by
  by_cases h : Entered o s
  · have hclimbs := testSdioProbe_climbs host o f s (Decidable.or_iff_not_imp_left.mpr h)
    exact hclimbs.table_of_ne (fun k' hres => by simp [hres, probed]) hx hr
  · obtain ⟨hmajor, hok⟩ := Classical.not_imp.mp h
    have hclimbs := testSdioProbe_climbs_of_taken host o f s hmajor (by simpa using hok)
    exact hclimbs.table_of_ne (fun k' hres => by simp [hres, probed]) hx hr

end Probe

/-! ## Successful probes -/

section Success

variable {host : F → H} {o : ProbeFaults} {f : F} {s : TestSdio F H ω}

/-- A probe that enters its region and returns no error has entered all the keys of its ladder,
under a device number that is not zero. -/
theorem probe_of_entered (h : Entered o s) (hret : ¬ (testSdioProbe host o f s).2 < 0) :
    testSdioProbe host o f s =
        (probed host o f s (s.kernel.acquireAll (.mine f) (keys (rungs o s))), 0) ∧
      (probeDev o s).major ≠ 0 := by
  have hclimbs := testSdioProbe_climbs host o f s (Decidable.or_iff_not_imp_left.mpr h)
  obtain ⟨htop, hdone⟩ := hclimbs.of_ne hret
  refine ⟨by rw [hdone, Kernel.climb_of_success htop], ?_⟩
  -- The first probe of the module picks a number, and later ones reuse it.
  by_cases hmajor : s.sdioDev.major = 0
  · have hok : (regionRung o s).ok s.kernel.ledger = true := by
      by_contra hok
      rw [rungs, Kernel.climb_cons_fail (by simpa using hok)] at htop
      cases htop
    rw [regionRung, if_neg (not_not.mpr hmajor)] at hok
    rw [probeDev, if_neg (not_not.mpr hmajor)]
    -- The number was picked, so its major is positive.
    cases ho : o.allocChrdevRegion with
    | error e => simp [Rung.ok, ho, Except.isOk, Except.toBool] at hok
    | ok ma => exact ma.ne_zero
  · rw [probeDev, if_pos hmajor]
    exact hmajor

/-- A probe that does not enter its region and keeps the contract returns no error, and has
entered the other keys of its ladder. -/
theorem probe_of_not_entered (hme : ∀ r, s.kernel.ledger.table r ≠ some (.mine f))
    (h : ¬ Entered o s) {bound : F → Option (Res → Bool)}
    (hkept : Kept host ⟨s, bound⟩ (.probe f o : Action F ω)) :
    testSdioProbe host o f s =
      (probed host o f s
        (s.kernel.acquireAll (.mine f) (keys (deviceRungs o s.sdioDev.cdev (probeDev o s)))),
        0) := by
  -- Any failure would break the contract, so there was none.
  rw [probe_kept_iff_of_not_entered host o f hme h] at hkept
  obtain ⟨hmajor, hok⟩ := Classical.not_imp.mp h
  have hclimbs := testSdioProbe_climbs_of_taken host o f s hmajor (by simpa using hok)
  have htop : (s.kernel.climb (.mine f)
      (deviceRungs o s.sdioDev.cdev (probeDev o s))).2 = true := by
    rw [Kernel.climb_ledger.2, climb_snd_eq_true_iff (by simp [deviceRungs])]
    exact hkept
  rcases hclimbs.cases with ⟨-, hdone⟩ | ⟨hfail, -⟩
  · rw [hdone, Kernel.climb_of_success htop]
  · exact absurd (htop.symm.trans hfail) (by simp)

end Success

/-! ## One remove -/

/-- The entries of a binding. -/
def ownKeys (s : TestSdio F H ω) : List Res :=
  [.region s.sdioDev.devid, .cls "rpi-sdio", .device "rpi-sdio" s.sdioDev.devid,
    .cdev s.sdioDev.cdev]

section Remove

variable (host : F → H) (f : F) (s : TestSdio F H ω)

/-- The release calls of a remove. -/
def removeReleases : List Release :=
  [.cdevDel s.sdioDev.cdev, .deviceDestroy s.sdioDev.cls s.sdioDev.devid,
    .classDestroy s.sdioDev.cls, .unregisterChrdevRegion s.sdioDev.devid]

theorem testSdioRemove_ledger :
    (testSdioRemove host f s).kernel.ledger =
      s.kernel.ledger.releaseAll Release.target (.mine f) (removeReleases s) := rfl

variable {s}

omit [DecidableEq F] [DecidableEq ω] [DecidableEq H] in
theorem removeReleases_target (hcls : s.sdioDev.cls = .valid "rpi-sdio") :
    (removeReleases s).map Release.target = ((ownKeys s).map some).reverse := by
  unfold removeReleases
  rw [hcls]
  rfl

end Remove

end LinuxStack.Sdio
