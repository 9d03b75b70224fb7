import LinuxStack.Kernel.Goto

/-!
# The char device of a driver

`linux_tips/ioctl` and the three GPIO drivers register one char device through the same three
globals `dev`, `dev_class` and `etx_cdev`. This module is the state they share, and the kernel
calls read and written through it. What else a module keeps is a parameter of the state.

## Main definitions

* `Chrdev ω σ`: the kernel, the three globals and the rest of the module's state;
  `Chrdev.load`: a freshly loaded module
* `Chrdev.allocChrdevRegion`, `Chrdev.cdevAdd`, `Chrdev.classCreate`, `Chrdev.deviceCreate`,
  `Chrdev.unregisterChrdevRegion`, `Chrdev.cdevDel`, `Chrdev.classDestroy`,
  `Chrdev.deviceDestroy`: the calls on the globals

## Main results

* `Chrdev.allocChrdevRegion_cases`, `Chrdev.withKernel_create_cases`,
  `Chrdev.classCreate_cases`, `Chrdev.deviceCreate_cases`: what each creating call can do
-/

namespace LinuxStack

open Registry

/-- The kernel, the globals of the driver's char device, and what else the module keeps.
`etxCdev` is the address of the static `struct cdev`. -/
structure Chrdev (ω σ : Type*) where
  kernel : Kernel (Owner Unit ω)
  etxCdev : ℕ
  dev : DevT
  devClass : Ptr String
  rest : σ

namespace Chrdev

variable {ω σ : Type*}

/-- A freshly loaded module, whose statics are zero. -/
def load (k : Kernel (Owner Unit ω)) (etxCdev : ℕ) (rest : σ) : Chrdev ω σ :=
  ⟨k, etxCdev, DevT.ofNat 0, .null, rest⟩

section Create

variable (s : Chrdev ω σ)

def allocChrdevRegion (pick : Except Errno ℕ+) : Except Errno (Chrdev ω σ) :=
  match s.kernel.allocChrdevRegion (.mine ()) pick with
  | .error e => .error e
  | .ok (d, k) => .ok { s with kernel := k, dev := d }

/-- The outcome of a kernel call, in the state of the driver. -/
def withKernel (x : Except Errno (Kernel (Owner Unit ω))) : Except Errno (Chrdev ω σ) :=
  match x with
  | .error e => .error e
  | .ok k => .ok { s with kernel := k }

def cdevAdd (fault : Option Errno) : Except Errno (Chrdev ω σ) :=
  s.withKernel (s.kernel.cdevAdd (.mine ()) s.etxCdev fault)

/-- `dev_class = class_create(..)`: the pointer is stored before it is checked. -/
def classCreate (name : String) (fault : Option Errno) : Chrdev ω σ :=
  let (p, k) := s.kernel.classCreate (.mine ()) name fault
  { s with kernel := k, devClass := p }

def deviceCreate (fault : Option Errno) : Ptr DevT × Chrdev ω σ :=
  let (p, k) := s.kernel.deviceCreate (.mine ()) s.devClass s.dev fault
  (p, { s with kernel := k })

variable {γ : Type*} (call : γ) (undo : List Release)

theorem allocChrdevRegion_cases (pick : Except Errno ℕ+) :
    ((∃ e, s.allocChrdevRegion pick = .error e) ∧
        Rung.ok s.kernel.ledger ⟨call, pick.isOk, some (.region (pickedDev pick)), undo⟩ =
          false) ∨
      s.allocChrdevRegion pick =
          .ok { s with kernel := s.kernel.acquire (.mine ()) (.region (pickedDev pick))
                       dev := pickedDev pick } ∧
        Rung.ok s.kernel.ledger ⟨call, pick.isOk, some (.region (pickedDev pick)), undo⟩ =
          true := by
  rcases s.kernel.allocChrdevRegion_cases (.mine ()) call undo pick with ⟨⟨e, he⟩, hr⟩ | ⟨he, hr⟩
  · exact Or.inl ⟨⟨e, by simp [allocChrdevRegion, he]⟩, hr⟩
  · exact Or.inr ⟨by simp [allocChrdevRegion, he], hr⟩

theorem withKernel_create_cases (r : Res) (fault : Option Errno) :
    ((∃ e, s.withKernel (s.kernel.create (.mine ()) r fault EBUSY) = .error e) ∧
        Rung.ok s.kernel.ledger ⟨call, fault.isNone, some r, undo⟩ = false) ∨
      s.withKernel (s.kernel.create (.mine ()) r fault EBUSY) =
          .ok { s with kernel := s.kernel.acquire (.mine ()) r } ∧
        Rung.ok s.kernel.ledger ⟨call, fault.isNone, some r, undo⟩ = true := by
  rcases s.kernel.create_cases (.mine ()) r fault EBUSY call undo with ⟨he, hr⟩ | ⟨he, hr⟩
  · exact Or.inl ⟨⟨fault.getD EBUSY, by rw [he, withKernel]⟩, hr⟩
  · exact Or.inr ⟨by rw [he, withKernel], hr⟩

theorem classCreate_cases (name : String) (fault : Option Errno) :
    (s.classCreate name fault = { s with devClass := .err (fault.getD EEXIST) } ∧
        Rung.ok s.kernel.ledger ⟨call, fault.isNone, some (.cls name), undo⟩ = false) ∨
      s.classCreate name fault =
          { s with kernel := s.kernel.acquire (.mine ()) (.cls name), devClass := .valid name } ∧
        Rung.ok s.kernel.ledger ⟨call, fault.isNone, some (.cls name), undo⟩ = true := by
  rcases s.kernel.classCreate_cases (.mine ()) call undo name fault with ⟨he, hr⟩ | ⟨he, hr⟩
  · exact Or.inl ⟨by simp [classCreate, he], hr⟩
  · exact Or.inr ⟨by simp [classCreate, he], hr⟩

theorem deviceCreate_cases {c : String} (hc : s.devClass = .valid c) (fault : Option Errno) :
    (s.deviceCreate fault = (.err (fault.getD EEXIST), s) ∧
        Rung.ok s.kernel.ledger ⟨call, fault.isNone, some (.device c s.dev), undo⟩ = false) ∨
      s.deviceCreate fault =
          (.valid s.dev, { s with kernel := s.kernel.acquire (.mine ()) (.device c s.dev) }) ∧
        Rung.ok s.kernel.ledger ⟨call, fault.isNone, some (.device c s.dev), undo⟩ = true := by
  obtain ⟨k, p, d, cls, rest⟩ := s
  obtain rfl : cls = .valid c := hc
  rcases k.deviceCreate_cases (.mine ()) call undo c d fault with ⟨he, hr⟩ | ⟨he, hr⟩
  · exact Or.inl ⟨by simp [deviceCreate, he], hr⟩
  · exact Or.inr ⟨by simp [deviceCreate, he], hr⟩

end Create

section Release

variable [DecidableEq ω] (s : Chrdev ω σ)

/-- The driver makes a release call. -/
def release (x : Release) : Chrdev ω σ := { s with kernel := s.kernel.release (.mine ()) x }

def unregisterChrdevRegion : Chrdev ω σ := s.release (.unregisterChrdevRegion s.dev)

def cdevDel : Chrdev ω σ := s.release (.cdevDel s.etxCdev)

def classDestroy : Chrdev ω σ := s.release (.classDestroy s.devClass)

def deviceDestroy : Chrdev ω σ := s.release (.deviceDestroy s.devClass s.dev)

end Release

end Chrdev

end LinuxStack
