import LinuxStack.Kernel.Resource

/-!
# The kernel calls of the drivers

The calls with which the drivers create and delete their entries, each named after the kernel
function. `fault` is the failure of a call for a reason of its own, and `pick` is the major
number the kernel picks. Arguments that no table reads (the label of a region, the name of a
device node, the label of a GPIO) are left out.

## Main definitions

* `ChrdevFaults`: the failures of the four calls that create a char device
* `Kernel.allocChrdevRegion`, `Kernel.registerChrdevRegion`, `Kernel.cdevAdd`,
  `Kernel.classCreate`, `Kernel.deviceCreate`, `Kernel.gpioRequest`, `Kernel.requestIrq`:
  the creating calls
* `Kernel.gpioExport`, `Kernel.gpioUnexport`, `Kernel.enableIrqWake`: exports and wake counts

## Main results

* `Kernel.allocChrdevRegion_cases`, `Kernel.classCreate_cases`, `Kernel.deviceCreate_cases`:
  these calls too are rungs of a ladder
* `Kernel.addWake_releaseAll`: no release call drops a wake-up reference
* `Kernel.gpioUnexport_gpioExport`: an export and its withdrawal cancel
-/

namespace LinuxStack

open Registry

/-- The error of an invalid argument. -/
def EINVAL : Errno := 22

/-- How the four creating calls of a load fail for a reason of their own. -/
structure ChrdevFaults where
  allocChrdevRegion : Except Errno ℕ+
  cdevAdd : Option Errno
  classCreate : Option Errno
  deviceCreate : Option Errno

/-- No fault, on a kernel whose next free major is 240. -/
def ChrdevFaults.quiet : ChrdevFaults := ⟨.ok 240, none, none, none⟩

/-- The device number that `alloc_chrdev_region` would hand out. -/
def pickedDev : Except Errno ℕ+ → DevT
  | .ok ma => ⟨ma, 0⟩
  | .error _ => ⟨0, 0⟩

namespace Kernel

variable {ω : Type*} (me : ω) (k : Kernel ω)

/-- `alloc_chrdev_region` for one minor from base minor 0. -/
def allocChrdevRegion (pick : Except Errno ℕ+) : Except Errno (DevT × Kernel ω) :=
  match pick with
  | .error e => .error e
  | .ok ma =>
    match k.create me (.region ⟨ma, 0⟩) none EBUSY with
    | .error e => .error e
    | .ok k => .ok (⟨ma, 0⟩, k)

/-- `register_chrdev_region` for one minor. -/
def registerChrdevRegion (d : DevT) (fault : Option Errno) : Except Errno (Kernel ω) :=
  k.create me (.region d) fault EBUSY

/-- `cdev_add` of the `struct cdev` at `p`. -/
def cdevAdd (p : ℕ) (fault : Option Errno) : Except Errno (Kernel ω) :=
  k.create me (.cdev p) fault EBUSY

/-- `class_create`: a class, or an `ERR_PTR`. -/
def classCreate (name : String) (fault : Option Errno) : Ptr String × Kernel ω :=
  match k.create me (.cls name) fault EEXIST with
  | .error e => (.err e, k)
  | .ok k => (.valid name, k)

/-- `device_create` in the class behind `cls`: a device, or an `ERR_PTR`. -/
def deviceCreate (cls : Ptr String) (d : DevT) (fault : Option Errno) : Ptr DevT × Kernel ω :=
  match cls with
  | .valid c =>
    match k.create me (.device c d) fault EEXIST with
    | .error e => (.err e, k)
    | .ok k => (.valid d, k)
  | _ => (.err EINVAL, k)

/-- `gpio_request`. -/
def gpioRequest (n : ℕ) (fault : Option Errno) : Except Errno (Kernel ω) :=
  k.create me (.gpio n) fault EBUSY

/-- `request_irq`, not shared. -/
def requestIrq (n : ℕ) (fault : Option Errno) : Except Errno (Kernel ω) :=
  k.create me (.irq n) fault EBUSY

/-- `gpio_export`, of a requested GPIO. -/
def gpioExport (n : ℕ) (fault : Option Errno) (k : Kernel ω) : Kernel ω where
  ledger := k.ledger
  exported m := k.exported m || (m == n && fault.isNone && (k.ledger.table (.gpio n)).isSome)
  wake := k.wake
  exported_requested m hm := by
    simp only [Bool.or_eq_true, Bool.and_eq_true, beq_iff_eq, Option.isSome_iff_ne_none] at hm
    rcases hm with hm | ⟨⟨rfl, -⟩, hm⟩
    · exact k.exported_requested m hm
    · exact hm

/-- `gpio_unexport`. -/
def gpioUnexport (n : ℕ) (k : Kernel ω) : Kernel ω where
  ledger := k.ledger
  exported m := k.exported m && m != n
  wake := k.wake
  exported_requested m hm := by
    simp only [Bool.and_eq_true] at hm
    exact k.exported_requested m hm.1

/-- One more reference to the wake-up of the IRQ `n`. -/
def addWake (n : ℕ) (k : Kernel ω) : Kernel ω :=
  { k with wake := Function.update k.wake n (k.wake n + 1) }

/-- `enable_irq_wake`. -/
def enableIrqWake (n : ℕ) (fault : Option Errno) : Except Errno (Kernel ω) :=
  match fault with
  | some e => .error e
  | none => .ok (k.addWake n)

variable {γ : Type*} (call : γ) (undo : List Release)

theorem allocChrdevRegion_cases (pick : Except Errno ℕ+) :
    ((∃ e, k.allocChrdevRegion me pick = .error e) ∧
        Rung.ok k.ledger ⟨call, pick.isOk, some (.region (pickedDev pick)), undo⟩ = false) ∨
      k.allocChrdevRegion me pick =
          .ok (pickedDev pick, k.acquire me (.region (pickedDev pick))) ∧
        Rung.ok k.ledger ⟨call, pick.isOk, some (.region (pickedDev pick)), undo⟩ = true := by
  cases pick with
  | error e => exact Or.inl ⟨⟨e, rfl⟩, rfl⟩
  | ok ma =>
    rcases k.create_cases me (.region ⟨ma, 0⟩) none EBUSY call undo with ⟨he, hr⟩ | ⟨he, hr⟩
    · exact Or.inl ⟨⟨EBUSY, by simp [allocChrdevRegion, he]⟩, hr⟩
    · exact Or.inr ⟨by simp [allocChrdevRegion, he, pickedDev], hr⟩

theorem classCreate_cases (name : String) (fault : Option Errno) :
    (k.classCreate me name fault = (.err (fault.getD EEXIST), k) ∧
        Rung.ok k.ledger ⟨call, fault.isNone, some (.cls name), undo⟩ = false) ∨
      k.classCreate me name fault = (.valid name, k.acquire me (.cls name)) ∧
        Rung.ok k.ledger ⟨call, fault.isNone, some (.cls name), undo⟩ = true := by
  rcases k.create_cases me (.cls name) fault EEXIST call undo with ⟨he, hr⟩ | ⟨he, hr⟩
  · exact Or.inl ⟨by simp [classCreate, he], hr⟩
  · exact Or.inr ⟨by simp [classCreate, he], hr⟩

theorem deviceCreate_cases (c : String) (d : DevT) (fault : Option Errno) :
    (k.deviceCreate me (.valid c) d fault = (.err (fault.getD EEXIST), k) ∧
        Rung.ok k.ledger ⟨call, fault.isNone, some (.device c d), undo⟩ = false) ∨
      k.deviceCreate me (.valid c) d fault = (.valid d, k.acquire me (.device c d)) ∧
        Rung.ok k.ledger ⟨call, fault.isNone, some (.device c d), undo⟩ = true := by
  rcases k.create_cases me (.device c d) fault EEXIST call undo with ⟨he, hr⟩ | ⟨he, hr⟩
  · exact Or.inl ⟨by simp [deviceCreate, he], hr⟩
  · exact Or.inr ⟨by simp [deviceCreate, he], hr⟩

/-- No release call drops a wake-up reference. -/
theorem addWake_releaseAll [DecidableEq ω] (n : ℕ) (xs : List Release) :
    (k.addWake n).releaseAll me xs = (k.releaseAll me xs).addWake n := by
  induction xs generalizing k with
  | nil => rfl
  | cons x xs ih => exact ih (k.release me x)

/-- An export and its withdrawal cancel on a GPIO that was not exported. -/
theorem gpioUnexport_gpioExport {n : ℕ} (fault : Option Errno) (h : k.exported n = false) :
    (k.gpioExport n fault).gpioUnexport n = k := by
  refine Kernel.ext rfl (funext fun m => ?_) rfl
  by_cases hm : m = n
  · simp [gpioUnexport, hm, h]
  · have hne : (m == n) = false := beq_false_of_ne hm
    simp [gpioUnexport, gpioExport, bne, hne]

end Kernel

end LinuxStack
