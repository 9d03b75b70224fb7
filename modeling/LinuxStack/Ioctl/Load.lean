import LinuxStack.Kernel.Chrdev

/-!
# Loading and unloading `linux_tips/ioctl`

`mod_int` makes four creating calls and unwinds through two labels that fall through. Only the
failure of its first call lands where nothing has to be undone: the failures of `cdev_add` and
`class_create` destroy a class that does not exist, and those of `class_create` and
`device_create` leave the cdev of the discarded module registered.

## Main definitions

* `modInt`, `modExit`: the load and the unload
* `rungs`: the four calls with the releases their failures jump to
* `LoadUnwinds`: a failed load leaves the kernel as it was and destroys only its own class

## Main results

* `modInt_climbs`: the load climbs its ladder
* `modInt_loadUnwinds_iff`: a load unwinds iff the first call that fails, if any, is
  `alloc_chrdev_region`
* `modExit_modInt`: the unload undoes a load that succeeded
-/

namespace LinuxStack.Ioctl

open Registry

variable {ω σ : Type*} [DecidableEq ω]

/-- Label `r_device`. -/
def rDevice (s : Chrdev ω σ) : Chrdev ω σ × ℤ := (s.unregisterChrdevRegion, -1)

/-- Label `r_class`, which falls through to `r_device`. -/
def rClass (s : Chrdev ω σ) : Chrdev ω σ × ℤ := rDevice s.classDestroy

/-- `mod_int`. -/
def modInt (f : ChrdevFaults) (s : Chrdev ω σ) : Chrdev ω σ × ℤ :=
  orGoto (s.allocChrdevRegion f.allocChrdevRegion) (s, -1) fun s =>
  orGoto (s.cdevAdd f.cdevAdd) (rClass s) fun s =>
  isErrGoto (·.devClass.isErr) (s.classCreate "etx_cLass" f.classCreate) rClass fun s =>
  isErrGoto (·.1.isErr) (s.deviceCreate f.deviceCreate) (fun p => rDevice p.2) fun p =>
  (p.2, 0)

/-- `mod_exit`. -/
def modExit (s : Chrdev ω σ) : Chrdev ω σ :=
  s.deviceDestroy.classDestroy.cdevDel.unregisterChrdevRegion

/-- The creating calls of `mod_int`. -/
inductive Call
  | allocChrdevRegion
  | cdevAdd
  | classCreate
  | deviceCreate
  deriving DecidableEq

/-- The ladder of `mod_int`, from the state `s` before the load. -/
def rungs (f : ChrdevFaults) (s : Chrdev ω σ) : List (Rung Call Res Release) :=
  let d := pickedDev f.allocChrdevRegion
  [⟨.allocChrdevRegion, f.allocChrdevRegion.isOk, some (.region d), []⟩,
    ⟨.cdevAdd, f.cdevAdd.isNone, some (.cdev s.etxCdev),
      [.classDestroy s.devClass, .unregisterChrdevRegion d]⟩,
    ⟨.classCreate, f.classCreate.isNone, some (.cls "etx_cLass"),
      [.classDestroy (.err (f.classCreate.getD EEXIST)), .unregisterChrdevRegion d]⟩,
    ⟨.deviceCreate, f.deviceCreate.isNone, some (.device "etx_cLass" d),
      [.unregisterChrdevRegion d]⟩]

/-- The load climbs its ladder; at the top the globals name the entries it created. -/
theorem modInt_climbs (f : ChrdevFaults) (s : Chrdev ω σ) :
    Climbs Chrdev.kernel (.mine ()) (· = -1)
      (fun k res =>
        res =
          (⟨k, s.etxCdev, pickedDev f.allocChrdevRegion, .valid "etx_cLass", s.rest⟩, 0))
      (modInt f s) s.kernel (rungs f s) := by
  unfold modInt rungs
  refine Climbs.step (s.allocChrdevRegion_cases _ _ _) ⟨rfl, rfl⟩ ?_
  refine Climbs.step (Chrdev.withKernel_create_cases _ _ _ _ _) ⟨rfl, rfl⟩ ?_
  refine Climbs.stepIsErr (Chrdev.classCreate_cases _ _ _ _ _) rfl rfl ⟨rfl, rfl⟩ ?_
  refine Climbs.stepIsErr (Chrdev.deviceCreate_cases _ _ _ rfl _) rfl rfl ⟨rfl, rfl⟩ ?_
  exact Climbs.nil rfl

omit [DecidableEq ω] in
theorem keys_rungs_nodup (f : ChrdevFaults) (s : Chrdev ω σ) : (keys (rungs f s)).Nodup := by
  simp [rungs]

/-! ## The load -/

/-- **A failed load is undone.** If the load returns -1, the kernel is as it was, and
`class_destroy` was only applied to a class that the load had created. -/
def LoadUnwinds (s : Chrdev ω σ) (res : Chrdev ω σ × ℤ) : Prop :=
  res.2 = -1 →
    s.kernel.Same res.1.kernel ∧
      ∀ c, Release.classDestroy c ∉ res.1.kernel.ledger.stray

omit [DecidableEq ω] in
/-- Only the failure of the first call releases what the load had acquired. -/
theorem rungs_marks (f : ChrdevFaults) (s : Chrdev ω σ) :
    Marks Release.target (· = .allocChrdevRegion) [] (rungs f s) := by
  refine ⟨by simp, ?_, ?_, ?_, trivial⟩
  · -- Two releases for the region alone.
    exact iff_of_false (by simp) fun h => by simpa using h.length_eq
  · -- A class that does not exist, where the cdev should be.
    have hnone : ∀ xs : List Res, none ∉ xs.map some := by simp
    refine iff_of_false (by simp) fun h => hnone _ (h.subset ?_)
    simp [Release.target]
  · -- The region alone, below a cdev and a class.
    exact iff_of_false (by simp) fun h => by simpa using h.length_eq

omit [DecidableEq ω] in
/-- The failing rung of a load, with the rungs below it: the four exits of `mod_int`. -/
theorem rungs_eq_append {f : ChrdevFaults} {s : Chrdev ω σ} {r : Rung Call Res Release}
    {below above : List (Rung Call Res Release)} (h : rungs f s = below ++ r :: above) :
    r.call = .allocChrdevRegion ∧ below = [] ∧ r.undo = [] ∨
      .classDestroy s.devClass ∈ r.undo ∨
      (∃ e, .classDestroy (.err e) ∈ r.undo) ∨
      .cdev s.etxCdev ∈ keys below ∧ r.undo = [.unregisterChrdevRegion (pickedDev f.1)] := by
  unfold rungs at h
  rcases below with _ | ⟨r₁, _ | ⟨r₂, _ | ⟨r₃, _ | ⟨r₄, below⟩⟩⟩⟩
  · obtain ⟨rfl, -⟩ := List.cons.inj h
    exact Or.inl ⟨rfl, rfl, rfl⟩
  · simp only [List.cons_append, List.nil_append, List.cons.injEq] at h
    obtain ⟨rfl, rfl, -⟩ := h
    exact Or.inr (Or.inl (by simp))
  · simp only [List.cons_append, List.nil_append, List.cons.injEq] at h
    obtain ⟨rfl, rfl, rfl, -⟩ := h
    exact Or.inr (Or.inr (Or.inl ⟨f.classCreate.getD EEXIST, by simp⟩))
  · simp only [List.cons_append, List.nil_append, List.cons.injEq] at h
    obtain ⟨rfl, rfl, rfl, rfl, -⟩ := h
    exact Or.inr (Or.inr (Or.inr ⟨by simp, rfl⟩))
  · simp at h

/-- **A load unwinds iff the first call that fails, if any, is `alloc_chrdev_region`.** -/
theorem modInt_loadUnwinds_iff (f : ChrdevFaults) (k : Kernel ω) (p : ℕ) (v : σ) :
    LoadUnwinds (.load k.foreign p v) (modInt f (.load k.foreign p v)) ↔
      ∀ c, firstFailure (Chrdev.load k.foreign p v).kernel.ledger
          (rungs f (.load k.foreign p v)) = some c →
        c = .allocChrdevRegion := by
  have hclimbs := modInt_climbs f (.load k.foreign p v)
  constructor
  · intro hunwinds c hc
    obtain ⟨hret, below, r, above, hrs, rfl, hledger⟩ :=
      hclimbs.of_firstFailure (keys_rungs_nodup f _) hc
    obtain ⟨⟨htable, -⟩, hclass⟩ := hunwinds hret
    rw [hledger] at htable hclass
    rcases rungs_eq_append hrs with ⟨hcall, -⟩ | hnull | ⟨e, herr⟩ | ⟨hcdev, hundo⟩
    · exact hcall
    · exact absurd (Ledger.mem_releaseAll_stray hnull rfl) (hclass _)
    · exact absurd (Ledger.mem_releaseAll_stray herr rfl) (hclass _)
    · -- The cdev entered below the failing rung is still there.
      have hcdev : Res.cdev p ∈ keys below := hcdev
      have hleft := congrFun htable (.cdev p)
      rw [hundo, Ledger.releaseAll_table, if_neg (by simp [Release.target]),
        Ledger.acquireAll_table, if_pos hcdev] at hleft
      exact absurd hleft.symm (k.foreign_table_ne_mine () _)
  · intro hfirst hret
    have hunwinds := (unwinds_iff_of_marks (rungs_marks f (.load k.foreign p v))).mpr hfirst
    have hrestores : (modInt f (.load k.foreign p v)).1.kernel = k.foreign :=
      (hclimbs.restores_iff (fun k' h => by simp [h]) (k.foreign_table_ne_mine ())
        (keys_rungs_nodup f _)).mpr hunwinds hret
    rw [hrestores]
    exact ⟨⟨rfl, rfl, rfl⟩, fun c => List.not_mem_nil⟩

/-- When `class_create` fails, the cdev stays registered. -/
theorem modInt_leaves_cdev :
    ¬ LoadUnwinds (.load (Kernel.empty : Kernel ℕ).foreign 0 ())
      (modInt ⟨.ok 240, none, some 12, none⟩ (.load Kernel.empty.foreign 0 ())) := by
  intro h
  obtain ⟨⟨htable, -⟩, -⟩ := h rfl
  have hcdev := congrFun htable (.cdev 0)
  revert hcdev
  decide

/-! ## The unload -/

/-- **The unload undoes a load that succeeded**, with no stray release. -/
theorem modExit_modInt (f : ChrdevFaults) (k : Kernel ω) (p : ℕ) (v : σ)
    (h : (modInt f (.load k.foreign p v)).2 ≠ -1) :
    (modExit (modInt f (.load k.foreign p v)).1).kernel = k.foreign := by
  obtain ⟨htop, hdone⟩ := (modInt_climbs f (.load k.foreign p v)).of_ne h
  rw [hdone]
  -- `mod_exit` releases the keys of the ladder from the top down.
  have hperm : ([Release.deviceDestroy (.valid "etx_cLass") (pickedDev f.1),
      .classDestroy (.valid "etx_cLass"), .cdevDel p,
      .unregisterChrdevRegion (pickedDev f.1)].map Release.target).Perm
      ((keys (rungs f (.load k.foreign p v))).map some) :=
    List.reverse_perm ((keys (rungs f (.load k.foreign p v))).map some)
  exact (Kernel.releaseAll_climb_eq_iff (k.foreign_table_ne_mine ()) (keys_rungs_nodup f _)
    htop).mpr hperm

end LinuxStack.Ioctl
