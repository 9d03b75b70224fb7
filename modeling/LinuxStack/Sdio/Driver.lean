import LinuxStack.Kernel.Goto

/-!
# The SDIO char driver

`sdio-char` is called back by the SDIO core: `test_sdio_probe` for a function that it may bind,
`test_sdio_remove` for a bound one. All bindings share the one global `sdio_dev`. The first probe
allocates a major number; later probes register the same number again and do not check the call.

## Main definitions

* `SdioDev`, `TestSdio F H ω`: the global, and the state of the driver on functions `F` of hosts `H`
* `ProbeFaults`: the failures of the calls of a probe
* `testSdioProbe`, `testSdioRemove`: the callbacks
* `probeDev`, `regionRung`, `deviceRungs`: the ladder of a probe

## Main results

* `testSdioProbe_climbs`: a probe whose region is entered climbs its whole ladder
* `testSdioProbe_climbs_of_taken`: one whose region is not entered climbs the rest
-/

namespace LinuxStack.Sdio

open Registry

/-- The global `sdio_dev`. `cdev` is the address of its `struct cdev`. -/
structure SdioDev where
  devid : DevT
  cdev : ℕ
  cls : Ptr String
  device : Ptr DevT
  major : ℕ

/-- The state of the driver: the kernel, in which an entry of the driver belongs to the function
it was created for, the claims on the hosts, and the global. -/
structure TestSdio (F H ω : Type*) where
  kernel : Kernel (Owner F ω)
  claims : H → ℤ
  sdioDev : SdioDev

/-- How the calls of a probe fail for a reason of their own. -/
structure ProbeFaults extends ChrdevFaults where
  registerChrdevRegion : Option Errno

variable {F H ω : Type*}

/-- A freshly loaded driver. -/
def TestSdio.load (k : Kernel ω) (claims : H → ℤ) (cdev : ℕ) : TestSdio F H ω :=
  ⟨k.foreign, claims, ⟨DevT.ofNat 0, cdev, .null, .null, 0⟩⟩

/-! ## Kernel calls for a function -/

section Calls

variable (f : F) (s : TestSdio F H ω)

def sdioClaimHost [DecidableEq H] (host : F → H) : TestSdio F H ω :=
  { s with claims := Function.update s.claims (host f) (s.claims (host f) + 1) }

def sdioReleaseHost [DecidableEq H] (host : F → H) : TestSdio F H ω :=
  { s with claims := Function.update s.claims (host f) (s.claims (host f) - 1) }

/-- `register_chrdev_region` of `devid`, unchecked. -/
def registerChrdevRegion (fault : Option Errno) : TestSdio F H ω :=
  match s.kernel.registerChrdevRegion (.mine f) s.sdioDev.devid fault with
  | .error _ => s
  | .ok k => { s with kernel := k }

def allocChrdevRegion (pick : Except Errno ℕ+) : Except Errno (TestSdio F H ω) :=
  match s.kernel.allocChrdevRegion (.mine f) pick with
  | .error e => .error e
  | .ok (d, k) => .ok { s with kernel := k, sdioDev := { s.sdioDev with devid := d } }

def classCreate (name : String) (fault : Option Errno) : TestSdio F H ω :=
  let (p, k) := s.kernel.classCreate (.mine f) name fault
  { s with kernel := k, sdioDev := { s.sdioDev with cls := p } }

def deviceCreate (fault : Option Errno) : TestSdio F H ω :=
  let (p, k) := s.kernel.deviceCreate (.mine f) s.sdioDev.cls s.sdioDev.devid fault
  { s with kernel := k, sdioDev := { s.sdioDev with device := p } }

def cdevAdd (fault : Option Errno) : Except Errno (TestSdio F H ω) :=
  match s.kernel.cdevAdd (.mine f) s.sdioDev.cdev fault with
  | .error e => .error e
  | .ok k => .ok { s with kernel := k }

variable [DecidableEq F] [DecidableEq ω]

/-- The driver makes a release call for `f`. -/
def release (x : Release) : TestSdio F H ω := { s with kernel := s.kernel.release (.mine f) x }

def unregisterChrdevRegion : TestSdio F H ω := release f s (.unregisterChrdevRegion s.sdioDev.devid)

def classDestroy : TestSdio F H ω := release f s (.classDestroy s.sdioDev.cls)

def deviceDestroy (d : DevT) : TestSdio F H ω := release f s (.deviceDestroy s.sdioDev.cls d)

def cdevDel : TestSdio F H ω := release f s (.cdevDel s.sdioDev.cdev)

end Calls

/-! ## The callbacks -/

/-- `SDIO_DRIVER_CNT`. -/
def sdioDriverCnt : ℕ := 1

/-- `sdio_dev.devid = MKDEV(sdio_dev.major, 0)`. -/
def atMajor (s : TestSdio F H ω) : TestSdio F H ω :=
  { s with sdioDev := { s.sdioDev with devid := ⟨s.sdioDev.major, 0⟩ } }

section Callbacks

variable [DecidableEq F] [DecidableEq ω] [DecidableEq H] (host : F → H) (o : ProbeFaults) (f : F)
  (s : TestSdio F H ω)

/-- The lines of `test_sdio_probe` from `class_create` on. The device of a failed `cdev_add` is
destroyed by the count `SDIO_DRIVER_CNT` in place of its `dev_t`. -/
def createDevice : TestSdio F H ω × ℤ :=
  isErrGoto (·.sdioDev.cls.isErr) (classCreate f s "rpi-sdio" o.classCreate)
    (fun s => (unregisterChrdevRegion f s, s.sdioDev.cls.ptrErr)) fun s =>
  isErrGoto (·.sdioDev.device.isErr) (deviceCreate f s o.deviceCreate)
    (fun s => (unregisterChrdevRegion f (classDestroy f s), s.sdioDev.device.ptrErr)) fun s =>
  orReturn (cdevAdd f s o.cdevAdd)
    (fun e =>
      let s := deviceDestroy f s (DevT.ofNat sdioDriverCnt)
      (unregisterChrdevRegion f (classDestroy f s), -(e : ℕ))) fun s =>
  (s, 0)

/-- `test_sdio_probe`. -/
def testSdioProbe : TestSdio F H ω × ℤ :=
  let s := sdioClaimHost f s host
  if s.sdioDev.major ≠ 0 then
    createDevice o f (registerChrdevRegion f (atMajor s) o.registerChrdevRegion)
  else
    orReturn (allocChrdevRegion f s o.allocChrdevRegion) (fun e => (s, -(e : ℕ))) fun s =>
    createDevice o f { s with sdioDev := { s.sdioDev with major := s.sdioDev.devid.major } }

/-- `test_sdio_remove`. The IRQ and the enabling of the function are not in the state. -/
def testSdioRemove : TestSdio F H ω :=
  let s := cdevDel f s
  let s := deviceDestroy f s s.sdioDev.devid
  let s := classDestroy f s
  let s := unregisterChrdevRegion f s
  sdioReleaseHost f (sdioClaimHost f s host) host

end Callbacks

/-! ## The ladder of a probe -/

/-- The creating calls of a probe. -/
inductive Call
  | registerChrdevRegion
  | allocChrdevRegion
  | classCreate
  | deviceCreate
  | cdevAdd
  deriving DecidableEq

section Ladder

variable (o : ProbeFaults) (s : TestSdio F H ω)

/-- The device number of a probe. -/
def probeDev : DevT :=
  if s.sdioDev.major ≠ 0 then ⟨s.sdioDev.major, 0⟩ else pickedDev o.allocChrdevRegion

/-- The call of a probe that enters the region. A failure of `alloc_chrdev_region` ends the probe,
one of `register_chrdev_region` goes unnoticed. -/
def regionRung : Rung Call Res Release :=
  if s.sdioDev.major ≠ 0 then
    ⟨.registerChrdevRegion, o.registerChrdevRegion.isNone, some (.region (probeDev o s)), []⟩
  else ⟨.allocChrdevRegion, o.allocChrdevRegion.isOk, some (.region (probeDev o s)), []⟩

/-- The calls of `createDevice`, for a `struct cdev` at `p` and the device number `d`. -/
def deviceRungs (p : ℕ) (d : DevT) : List (Rung Call Res Release) :=
  [⟨.classCreate, o.classCreate.isNone, some (.cls "rpi-sdio"), [.unregisterChrdevRegion d]⟩,
    ⟨.deviceCreate, o.deviceCreate.isNone, some (.device "rpi-sdio" d),
      [.classDestroy (.valid "rpi-sdio"), .unregisterChrdevRegion d]⟩,
    ⟨.cdevAdd, o.cdevAdd.isNone, some (.cdev p),
      [.deviceDestroy (.valid "rpi-sdio") (DevT.ofNat sdioDriverCnt),
        .classDestroy (.valid "rpi-sdio"), .unregisterChrdevRegion d]⟩]

/-- The ladder of a probe that enters its region. -/
def rungs : List (Rung Call Res Release) :=
  regionRung o s :: deviceRungs o s.sdioDev.cdev (probeDev o s)

end Ladder

section Cases

variable (f : F) (s : TestSdio F H ω) (call : Call) (undo : List Release)

theorem allocChrdevRegion_cases (pick : Except Errno ℕ+) :
    ((∃ e, allocChrdevRegion f s pick = .error e) ∧
        Rung.ok s.kernel.ledger ⟨call, pick.isOk, some (.region (pickedDev pick)), undo⟩ =
          false) ∨
      allocChrdevRegion f s pick =
          .ok { s with kernel := s.kernel.acquire (.mine f) (.region (pickedDev pick))
                       sdioDev := { s.sdioDev with devid := pickedDev pick } } ∧
        Rung.ok s.kernel.ledger ⟨call, pick.isOk, some (.region (pickedDev pick)), undo⟩ =
          true := by
  rcases s.kernel.allocChrdevRegion_cases (.mine f) call undo pick with ⟨⟨e, he⟩, hr⟩ | ⟨he, hr⟩
  · exact Or.inl ⟨⟨e, by simp [allocChrdevRegion, he]⟩, hr⟩
  · exact Or.inr ⟨by simp [allocChrdevRegion, he], hr⟩

theorem classCreate_cases (name : String) (fault : Option Errno) :
    (classCreate f s name fault =
          { s with sdioDev := { s.sdioDev with cls := .err (fault.getD EEXIST) } } ∧
        Rung.ok s.kernel.ledger ⟨call, fault.isNone, some (.cls name), undo⟩ = false) ∨
      classCreate f s name fault =
          { s with kernel := s.kernel.acquire (.mine f) (.cls name)
                   sdioDev := { s.sdioDev with cls := .valid name } } ∧
        Rung.ok s.kernel.ledger ⟨call, fault.isNone, some (.cls name), undo⟩ = true := by
  rcases s.kernel.classCreate_cases (.mine f) call undo name fault with ⟨he, hr⟩ | ⟨he, hr⟩
  · exact Or.inl ⟨by simp [classCreate, he], hr⟩
  · exact Or.inr ⟨by simp [classCreate, he], hr⟩

theorem deviceCreate_cases {c : String} (hc : s.sdioDev.cls = .valid c) (fault : Option Errno) :
    (deviceCreate f s fault =
          { s with sdioDev := { s.sdioDev with device := .err (fault.getD EEXIST) } } ∧
        Rung.ok s.kernel.ledger
          ⟨call, fault.isNone, some (.device c s.sdioDev.devid), undo⟩ = false) ∨
      deviceCreate f s fault =
          { s with kernel := s.kernel.acquire (.mine f) (.device c s.sdioDev.devid)
                   sdioDev := { s.sdioDev with device := .valid s.sdioDev.devid } } ∧
        Rung.ok s.kernel.ledger
          ⟨call, fault.isNone, some (.device c s.sdioDev.devid), undo⟩ = true := by
  unfold deviceCreate
  rw [hc]
  rcases s.kernel.deviceCreate_cases (.mine f) call undo c s.sdioDev.devid fault with
    ⟨he, hr⟩ | ⟨he, hr⟩
  · exact Or.inl ⟨by rw [he], hr⟩
  · exact Or.inr ⟨by rw [he], hr⟩

theorem cdevAdd_cases (fault : Option Errno) :
    ((∃ e, cdevAdd f s fault = .error e) ∧
        Rung.ok s.kernel.ledger ⟨call, fault.isNone, some (.cdev s.sdioDev.cdev), undo⟩ =
          false) ∨
      cdevAdd f s fault =
          .ok { s with kernel := s.kernel.acquire (.mine f) (.cdev s.sdioDev.cdev) } ∧
        Rung.ok s.kernel.ledger ⟨call, fault.isNone, some (.cdev s.sdioDev.cdev), undo⟩ =
          true := by
  unfold cdevAdd Kernel.cdevAdd
  rcases s.kernel.create_cases (.mine f) (.cdev s.sdioDev.cdev) fault EBUSY call undo with
    ⟨he, hr⟩ | ⟨he, hr⟩
  · exact Or.inl ⟨⟨fault.getD EBUSY, by rw [he]⟩, hr⟩
  · exact Or.inr ⟨by rw [he], hr⟩

theorem registerChrdevRegion_cases (fault : Option Errno) :
    (registerChrdevRegion f s fault = s ∧
        Rung.ok s.kernel.ledger ⟨call, fault.isNone, some (.region s.sdioDev.devid), undo⟩ =
          false) ∨
      registerChrdevRegion f s fault =
          { s with kernel := s.kernel.acquire (.mine f) (.region s.sdioDev.devid) } ∧
        Rung.ok s.kernel.ledger ⟨call, fault.isNone, some (.region s.sdioDev.devid), undo⟩ =
          true := by
  unfold registerChrdevRegion Kernel.registerChrdevRegion
  rcases s.kernel.create_cases (.mine f) (.region s.sdioDev.devid) fault EBUSY call undo with
    ⟨he, hr⟩ | ⟨he, hr⟩
  · exact Or.inl ⟨by rw [he], hr⟩
  · exact Or.inr ⟨by rw [he], hr⟩

end Cases

section Climbing

variable [DecidableEq F] [DecidableEq ω] [DecidableEq H] (host : F → H) (o : ProbeFaults) (f : F)
  (s : TestSdio F H ω)

omit [DecidableEq H] in
theorem createDevice_climbs :
    Climbs TestSdio.kernel (.mine f) (· < 0)
      (fun k res =>
        res = ({ s with kernel := k
                        sdioDev := { s.sdioDev with cls := .valid "rpi-sdio"
                                                    device := .valid s.sdioDev.devid } }, 0))
      (createDevice o f s) s.kernel (deviceRungs o s.sdioDev.cdev s.sdioDev.devid) := by
  have hneg : ∀ e : Errno, -((e : ℕ) : ℤ) < 0 := fun e => by simp
  unfold createDevice deviceRungs
  refine Climbs.stepIsErr (classCreate_cases _ _ _ _ _ _) rfl rfl ⟨rfl, hneg _⟩ ?_
  refine Climbs.stepIsErr (deviceCreate_cases _ _ _ _ rfl _) rfl rfl ⟨rfl, hneg _⟩ ?_
  refine Climbs.stepReturn (cdevAdd_cases _ _ _ _ _) (fun e => ⟨rfl, hneg e⟩) ?_
  exact Climbs.nil rfl

/-- The driver after a probe that returns 0, in the kernel `k`. -/
def probed (k : Kernel (Owner F ω)) : TestSdio F H ω where
  kernel := k
  claims := (sdioClaimHost f s host).claims
  sdioDev :=
    { devid := probeDev o s
      cdev := s.sdioDev.cdev
      cls := .valid "rpi-sdio"
      device := .valid (probeDev o s)
      major := (probeDev o s).major }

theorem testSdioProbe_of_major (hmajor : s.sdioDev.major ≠ 0) :
    testSdioProbe host o f s =
      createDevice o f
        (registerChrdevRegion f (atMajor (sdioClaimHost f s host)) o.registerChrdevRegion) :=
  if_pos hmajor

theorem testSdioProbe_of_major_eq_zero (hmajor : s.sdioDev.major = 0) :
    testSdioProbe host o f s =
      let s := sdioClaimHost f s host
      orReturn (allocChrdevRegion f s o.allocChrdevRegion) (fun e => (s, -((e : ℕ) : ℤ))) fun s =>
      createDevice o f { s with sdioDev := { s.sdioDev with major := s.sdioDev.devid.major } } :=
  if_neg (not_not.mpr hmajor)

/-- A probe whose region is entered climbs its ladder. -/
theorem testSdioProbe_climbs
    (h : s.sdioDev.major = 0 ∨ (regionRung o s).ok s.kernel.ledger = true) :
    Climbs TestSdio.kernel (.mine f) (· < 0) (fun k res => res = (probed host o f s k, 0))
      (testSdioProbe host o f s) s.kernel (rungs o s) := by
  by_cases hmajor : s.sdioDev.major = 0
  · have hdev : probeDev o s = pickedDev o.allocChrdevRegion := if_neg (not_not.mpr hmajor)
    have hneg : ∀ e : Errno, -((e : ℕ) : ℤ) < 0 := fun e => by simp
    rw [testSdioProbe_of_major_eq_zero host o f s hmajor]
    unfold rungs regionRung probed
    rw [if_neg (not_not.mpr hmajor), hdev]
    refine Climbs.stepReturn (allocChrdevRegion_cases _ _ _ _ _) (fun e => ⟨rfl, hneg e⟩) ?_
    exact createDevice_climbs o f
      { sdioClaimHost f s host with
        kernel := s.kernel.acquire (.mine f) _
        sdioDev := { s.sdioDev with
          devid := pickedDev o.allocChrdevRegion
          major := (pickedDev o.allocChrdevRegion).major } }
  · have hdev : probeDev o s = ⟨s.sdioDev.major, 0⟩ := if_pos hmajor
    have hok := h.resolve_left hmajor
    rw [testSdioProbe_of_major host o f s hmajor]
    unfold rungs probed
    refine Climbs.cons_ok hok ?_
    unfold regionRung at hok ⊢
    rw [if_pos hmajor, hdev] at hok ⊢
    have hreg := (registerChrdevRegion_cases f
      (atMajor (sdioClaimHost f s host)) .registerChrdevRegion [] o.registerChrdevRegion)
    rcases hreg with ⟨-, hr⟩ | ⟨he, -⟩
    · exact absurd (hr.symm.trans hok) (by simp)
    · rw [he]
      exact createDevice_climbs o f
        { atMajor (sdioClaimHost f s host) with kernel := s.kernel.acquire (.mine f) _ }

/-- A probe whose `register_chrdev_region` fails climbs the rest of its ladder. -/
theorem testSdioProbe_climbs_of_taken (hmajor : s.sdioDev.major ≠ 0)
    (h : (regionRung o s).ok s.kernel.ledger = false) :
    Climbs TestSdio.kernel (.mine f) (· < 0) (fun k res => res = (probed host o f s k, 0))
      (testSdioProbe host o f s) s.kernel
      (deviceRungs o s.sdioDev.cdev (probeDev o s)) := by
  have hdev : probeDev o s = ⟨s.sdioDev.major, 0⟩ := if_pos hmajor
  rw [testSdioProbe_of_major host o f s hmajor]
  unfold probed
  unfold regionRung at h
  rw [if_pos hmajor, hdev] at h
  rw [hdev]
  have hreg := (registerChrdevRegion_cases f
    (atMajor (sdioClaimHost f s host)) .registerChrdevRegion [] o.registerChrdevRegion)
  rcases hreg with ⟨he, -⟩ | ⟨-, hr⟩
  · rw [he]
    exact createDevice_climbs o f (atMajor (sdioClaimHost f s host))
  · exact absurd (hr.symm.trans h) (by simp)

end Climbing

end LinuxStack.Sdio
