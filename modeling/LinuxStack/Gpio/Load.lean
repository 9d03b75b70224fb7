import LinuxStack.Gpio.Driver

/-!
# Loading the GPIO drivers

Each load climbs a ladder of six, nine or ten calls and unwinds through labels that fall
through. Most jumps land one label too high: the label releases what the failing call was to
acquire. Only two exits are exact, and `gpio_wakeup` has one that leaves its IRQ handler behind.

## Main definitions

* `Call`, `Driver.rungs`: the calls of the loads, with the releases their failures jump to
* `Driver.loaded`: the driver at the top of its ladder
* `InitUnwinds`: a failed load leaves the kernel as it was, and releases only its own entries

## Main results

* `etxDriverInit_climbs`: each load climbs its ladder
* `etxDriverInit_unwinds_iff`: a load unwinds iff the first call that fails, if any, is
  `gpio_is_valid` of GPIO 21 or `request_irq`
-/

namespace LinuxStack.Gpio

open Registry

variable {w : ℕ} {ω : Type*}

/-- The calls that a load checks. -/
inductive Call
  | allocChrdevRegion
  | cdevAdd
  | classCreate
  | deviceCreate
  | gpioIsValid (n : ℕ)
  | gpioRequest (n : ℕ)
  | requestIrq
  | enableIrqWake
  deriving DecidableEq

/-! ## The ladders -/

section Ladders

variable (o : Outcomes) (s : Etx w ω)

/-- The releases from `r_device` on, of a driver that has created its class and its device. -/
def deviceUndo : List Release :=
  let d := pickedDev o.allocChrdevRegion
  [.deviceDestroy (.valid "etx_class") d, .classDestroy (.valid "etx_class"),
    .cdevDel s.etxCdev, .unregisterChrdevRegion d]

/-- The releases from `r_gpio_in` on. -/
def inputUndo : List Release := .gpioFree 25 :: .gpioFree 21 :: deviceUndo o s

/-- The calls of `registerDevice`. -/
def registerRungs : List (Rung Call Res Release) :=
  let d := pickedDev o.allocChrdevRegion
  [⟨.allocChrdevRegion, o.allocChrdevRegion.isOk, some (.region d),
      [.unregisterChrdevRegion s.dev]⟩,
    ⟨.cdevAdd, o.cdevAdd.isNone, some (.cdev s.etxCdev),
      [.cdevDel s.etxCdev, .unregisterChrdevRegion d]⟩,
    ⟨.classCreate, o.classCreate.isNone, some (.cls "etx_class"),
      [.classDestroy (.err (o.classCreate.getD EEXIST)), .cdevDel s.etxCdev,
        .unregisterChrdevRegion d]⟩,
    ⟨.deviceCreate, o.deviceCreate.isNone, some (.device "etx_class" d), deviceUndo o s⟩,
    ⟨.gpioIsValid 21, o.gpioIsValid 21, none, deviceUndo o s⟩,
    ⟨.gpioRequest 21, (o.gpioRequest 21).isNone, some (.gpio 21),
      .gpioFree 21 :: deviceUndo o s⟩]

/-- The calls of `requestInput`. -/
def inputRungs : List (Rung Call Res Release) :=
  [⟨.gpioIsValid 25, o.gpioIsValid 25, none, inputUndo o s⟩,
    ⟨.gpioRequest 25, (o.gpioRequest 25).isNone, some (.gpio 25), inputUndo o s⟩,
    ⟨.requestIrq, o.requestIrq.isNone, some (.irq (o.gpioToIrq 25).toNat), inputUndo o s⟩]

/-- The last call of the load of `gpio_wakeup`. -/
def wakeRungs : List (Rung Call Res Release) :=
  [⟨.enableIrqWake, o.enableIrqWake.isNone, none, inputUndo o s⟩]

/-- The ladder of a driver, from the state `s` before the load. -/
def Driver.rungs (d : Driver) : List (Rung Call Res Release) :=
  match d with
  | .gpioBase => registerRungs o s
  | .gpioIntr => registerRungs o s ++ inputRungs o s
  | .gpioWakeup => registerRungs o s ++ (inputRungs o s ++ wakeRungs o s)

/-- The driver above its registrations in the kernel `k`. -/
def registered (k : Kernel (Owner Unit ω)) : Etx w ω :=
  ⟨k, s.etxCdev, pickedDev o.allocChrdevRegion, .valid "etx_class",
    gpioDirectionOutput s.rest 21 0 o.gpioDirectionOutput⟩

/-- The driver above its registrations and those of its input. -/
def listening (k : Kernel (Owner Unit ω)) : Etx w ω :=
  { registered o s k with
    rest := { (registered o s k).rest with gpioIrqNumber := o.gpioToIrq 25 } }

/-- The driver at the top of its ladder, whose keys are entered in the kernel `k`. -/
def Driver.loaded (d : Driver) (k : Kernel (Owner Unit ω)) : Etx w ω :=
  match d with
  | .gpioBase => registered o s (k.gpioExport 21 o.gpioExport)
  | .gpioIntr => listening o s k
  | .gpioWakeup => listening o s (k.addWake (o.gpioToIrq 25).toNat)

/-- The first call of a load that fails, if there is one. -/
def Driver.firstFailure (d : Driver) : Option Call :=
  Registry.firstFailure s.kernel.ledger (d.rungs o s)

theorem keys_rungs_nodup (d : Driver) : (keys (d.rungs o s)).Nodup := by
  cases d <;> simp [Driver.rungs, registerRungs, inputRungs, wakeRungs]

end Ladders

/-! ## The loads climb their ladders -/

/-- `enable_irq_wake` is a rung that acquires no entry. -/
theorem enableIrqWake_cases (s : Etx w ω) (fault : Option Errno) (call : Call)
    (undo : List Release) :
    ((∃ e, enableIrqWake s fault = .error e) ∧
        Rung.ok s.kernel.ledger ⟨call, fault.isNone, none, undo⟩ = false) ∨
      enableIrqWake s fault =
          .ok { s with kernel := s.kernel.addWake s.rest.gpioIrqNumber.toNat } ∧
        Rung.ok s.kernel.ledger ⟨call, fault.isNone, none, undo⟩ = true := by
  cases fault with
  | some e => exact Or.inl ⟨⟨e, rfl⟩, rfl⟩
  | none => exact Or.inr ⟨rfl, rfl⟩

section Climbing

variable [DecidableEq ω] {o : Outcomes} {s : Etx w ω} {next : Etx w ω → Etx w ω × ℤ}
  {done : Kernel (Owner Unit ω) → Etx w ω × ℤ → Prop} {rs : List (Rung Call Res Release)}

theorem registerDevice_climbs
    (hnext : ∀ k, Climbs Chrdev.kernel (.mine ()) (· = -1) done (next (registered o s k)) k rs) :
    Climbs Chrdev.kernel (.mine ()) (· = -1) done (registerDevice o s next) s.kernel
      (registerRungs o s ++ rs) := by
  unfold registerDevice registerRungs
  refine Climbs.step (s.allocChrdevRegion_cases _ _ _) ⟨rfl, rfl⟩ ?_
  refine Climbs.step (Chrdev.withKernel_create_cases _ _ _ _ _) ⟨rfl, rfl⟩ ?_
  refine Climbs.stepIsErr (Chrdev.classCreate_cases _ _ _ _ _) rfl rfl ⟨rfl, rfl⟩ ?_
  refine Climbs.stepIsErr (Chrdev.deviceCreate_cases _ _ _ rfl _) rfl rfl ⟨rfl, rfl⟩ ?_
  refine Climbs.check ⟨rfl, rfl⟩ ?_
  refine Climbs.step (Chrdev.withKernel_create_cases _ _ _ _ _) ⟨rfl, rfl⟩ ?_
  exact hnext _

theorem requestInput_climbs {k : Kernel (Owner Unit ω)}
    (hnext : ∀ k, Climbs Chrdev.kernel (.mine ()) (· = -1) done (next (listening o s k)) k rs) :
    Climbs Chrdev.kernel (.mine ()) (· = -1) done (requestInput o (registered o s k) next) k
      (inputRungs o s ++ rs) := by
  unfold requestInput inputRungs
  refine Climbs.check ⟨rfl, rfl⟩ ?_
  refine Climbs.step (Chrdev.withKernel_create_cases _ _ _ _ _) ⟨rfl, rfl⟩ ?_
  refine Climbs.step (Chrdev.withKernel_create_cases _ _ _ _ _) ⟨rfl, rfl⟩ ?_
  exact hnext _

/-- Each load climbs its ladder. -/
theorem etxDriverInit_climbs (d : Driver) (o : Outcomes) (s : Etx w ω) :
    Climbs Chrdev.kernel (.mine ()) (· = -1) (fun k res => res = (d.loaded o s k, 0))
      (d.etxDriverInit o s) s.kernel (d.rungs o s) := by
  cases d with
  | gpioBase =>
    rw [Driver.rungs, ← List.append_nil (registerRungs o s)]
    simp only [Driver.etxDriverInit, Base.etxDriverInit]
    apply registerDevice_climbs
    intro k
    exact Climbs.nil rfl
  | gpioIntr =>
    rw [Driver.rungs, ← List.append_nil (inputRungs o s)]
    simp only [Driver.etxDriverInit, Intr.etxDriverInit]
    apply registerDevice_climbs
    intro k
    apply requestInput_climbs
    intro k
    exact Climbs.nil rfl
  | gpioWakeup =>
    simp only [Driver.etxDriverInit, Wakeup.etxDriverInit, Driver.rungs]
    apply registerDevice_climbs
    intro k
    apply requestInput_climbs
    intro k
    exact Climbs.step (enableIrqWake_cases _ _ _ _) ⟨rfl, rfl⟩ (Climbs.nil rfl)

end Climbing

/-! ## Failed loads -/

/-- **A failed load is undone.** If the load returns -1, the kernel is as it was, and no release
call on the way was aimed at anything but an entry of this load. -/
def InitUnwinds (s : Etx w ω) (res : Etx w ω × ℤ) : Prop :=
  res.2 = -1 →
    s.kernel.Same res.1.kernel ∧ res.1.kernel.ledger.stray = s.kernel.ledger.stray

theorem registerRungs_marks (o : Outcomes) (s : Etx w ω) :
    Marks Release.target (fun c => c = .gpioIsValid 21 ∨ c = .requestIrq) []
      (registerRungs o s) := by
  let d := pickedDev o.allocChrdevRegion
  unfold registerRungs
  -- All exits but that of `gpio_is_valid` make one release too many.
  refine ⟨?_, ?_, ?_, ?_, ?_, ?_, trivial⟩
  · exact iff_of_false (by simp) fun h => by simpa using h.length_eq
  · exact iff_of_false (by simp) fun h => by simpa using h.length_eq
  · exact iff_of_false (by simp) fun h => by simpa using h.length_eq
  · exact iff_of_false (by simp) fun h => by simpa [deviceUndo] using h.length_eq
  · apply iff_of_true (by simp)
    exact List.reverse_perm ([Res.region d, .cdev s.etxCdev, .cls "etx_class",
      .device "etx_class" d].map some)
  · exact iff_of_false (by simp) fun h => by simpa [deviceUndo] using h.length_eq

theorem inputRungs_marks (o : Outcomes) (s : Etx w ω) :
    Marks Release.target (fun c => c = .gpioIsValid 21 ∨ c = .requestIrq)
      (keys (registerRungs o s)) (inputRungs o s) := by
  let d := pickedDev o.allocChrdevRegion
  unfold inputRungs
  -- The input GPIO is not requested yet at the first two exits.
  refine ⟨?_, ?_, ?_, trivial⟩
  · exact iff_of_false (by simp) fun h => by
      simpa [inputUndo, deviceUndo, registerRungs] using h.length_eq
  · exact iff_of_false (by simp) fun h => by
      simpa [inputUndo, deviceUndo, registerRungs] using h.length_eq
  · apply iff_of_true (by simp)
    exact List.reverse_perm ([Res.region d, .cdev s.etxCdev, .cls "etx_class",
      .device "etx_class" d, .gpio 21, .gpio 25].map some)

theorem wakeRungs_marks (o : Outcomes) (s : Etx w ω) :
    Marks Release.target (fun c => c = .gpioIsValid 21 ∨ c = .requestIrq)
      (keys (registerRungs o s) ++ keys (inputRungs o s)) (wakeRungs o s) := by
  -- The handler is registered at the last exit, and no label frees it.
  refine ⟨iff_of_false (by simp) fun h => ?_, trivial⟩
  simpa [inputUndo, deviceUndo, registerRungs, inputRungs] using h.length_eq

/-- The two exits of the ladders that release what was acquired below them. -/
theorem rungs_marks (d : Driver) (o : Outcomes) (s : Etx w ω) :
    Marks Release.target (fun c => c = .gpioIsValid 21 ∨ c = .requestIrq) [] (d.rungs o s) := by
  cases d with
  | gpioBase => exact registerRungs_marks o s
  | gpioIntr => exact marks_append.mpr ⟨registerRungs_marks o s, inputRungs_marks o s⟩
  | gpioWakeup =>
    refine marks_append.mpr ⟨registerRungs_marks o s, ?_⟩
    exact marks_append.mpr ⟨inputRungs_marks o s, wakeRungs_marks o s⟩

/-- **A load unwinds iff its first failure, if any, is at one of the two exact exits**: the
check that GPIO 21 is valid, or the request of the IRQ. -/
theorem etxDriverInit_unwinds_iff [DecidableEq ω] (d : Driver) (o : Outcomes) (k : Kernel ω)
    (p : ℕ) (level : ℕ → Bool) :
    InitUnwinds (Etx.load k.foreign p level : Etx w ω)
        (d.etxDriverInit o (Etx.load k.foreign p level)) ↔
      ∀ c, d.firstFailure o (Etx.load k.foreign p level : Etx w ω) = some c →
        c = .gpioIsValid 21 ∨ c = .requestIrq := by
  have hclimbs := etxDriverInit_climbs d o (Etx.load k.foreign p level : Etx w ω)
  have hrestores := hclimbs.restores_iff (fun k' h => by simp [h])
    (k.foreign_table_ne_mine ()) (keys_rungs_nodup o _ d)
  unfold Driver.firstFailure
  rw [← unwinds_iff_of_marks (rungs_marks d o _), ← hrestores]
  unfold InitUnwinds
  simp only [Kernel.same_and_stray_iff]

/-- A load that finds GPIO 21 requested by another driver frees it. -/
theorem etxDriverInit_frees_foreign_gpio :
    let k : Kernel (Owner Unit ℕ) := (Kernel.empty.acquire 7 (.gpio 21)).foreign
    ¬ InitUnwinds (Etx.load k 0 fun _ => false : Etx 32 ℕ)
      (Driver.gpioIntr.etxDriverInit quietOutcomes (Etx.load k 0 fun _ => false)) := by
  intro k h
  obtain ⟨⟨htable, -⟩, -⟩ := h rfl
  have hgpio := congrFun htable (.gpio 21)
  revert hgpio
  decide

end LinuxStack.Gpio
