import LinuxStack.Kernel.Pci
import LinuxStack.Transition.Run

/-!
# Binding and unbinding

The kernel probes the driver with the devices it finds, in any order, and removes it from devices
that go. A probe climbs a ladder of calls, of which each may fail, and takes the next minor number.
The count of minor numbers is a byte that no removal decreases.

## Main definitions

* `probeLadder`, `pciProbe`, `pciRemove`: `ch36x_pci_probe` and `ch36x_pci_remove`
* `init`, `loaded`, `exit`: the load of the module, what it leaves, and its unload
* `Act`, `step`: a device comes or goes

## Main results

* `pciProbe_of_failure`: a probe that fails leaves nothing
* `init_of_failure`: neither does a load that fails
-/

namespace LinuxStack.Ch36x.Probe

open Registry Transition

def CH36X_MAX_NUM : ℕ := 16

/-- A bound device in `g_private_head`: the PCI device, and how many were bound before it. -/
structure Entry where
  pdev : ℕ
  index : ℕ
  deriving DecidableEq

/-- The minor number, from `g_dev_count` at the probe. -/
def Entry.minor (e : Entry) : ℕ := e.index % 256

/-- The state of the module: what it holds, its devices, and how many it has bound. -/
structure Module (ω : Type*) where
  ledger : PciLedger ω
  list : List Entry
  bound : ℕ

/-- `g_dev_count`, an `unsigned char`. -/
def Module.gDevCount {ω : Type*} (m : Module ω) : ℕ := m.bound % 256

/-! ## Probe and removal -/

/-- The calls of a probe that can fail. -/
inductive ProbeCall
  | kzalloc
  | pciEnableDevice
  | pciRequestRegions
  | mapIo
  | pciIomap
  | requestIrq
  | cdevAdd
  | deviceCreate
  deriving DecidableEq

/-- The calls of a probe, each with the release calls at and below its label. -/
def probeLadder (pdev i : ℕ) (fails : ProbeCall → Bool) :
    List (Rung ProbeCall PciRes PciRelease) :=
  let free : List PciRelease := [.kfree i]
  let disable := .pciDisableDevice pdev i :: free
  let freeRegions := .pciReleaseRegions pdev :: disable
  let unmap := .iounmap (some i) :: freeRegions
  let removeIsr := .freeIrq i :: unmap
  [⟨.kzalloc, !fails .kzalloc, some (.memory i), []⟩,
    ⟨.pciEnableDevice, !fails .pciEnableDevice, some (.enabled pdev i), free⟩,
    ⟨.pciRequestRegions, !fails .pciRequestRegions, some (.regions pdev), disable⟩,
    ⟨.mapIo, !fails .mapIo, none, freeRegions⟩,
    ⟨.pciIomap, !fails .pciIomap, some (.iomap i), freeRegions⟩,
    ⟨.requestIrq, !fails .requestIrq, some (.handler i), unmap⟩,
    ⟨.cdevAdd, !fails .cdevAdd, some (.cdev i), removeIsr⟩]

/-- What a probe acquires. -/
def Entry.keys (e : Entry) : List PciRes :=
  [.memory e.index, .enabled e.pdev e.index, .regions e.pdev, .iomap e.index, .handler e.index,
    .cdev e.index]

section Module

variable {ω : Type*} [DecidableEq ω] (m : Module ω)

/-- `device_create`, whose failure is only printed. -/
def deviceCreate (i minor : ℕ) (fails : Bool) (l : PciLedger ω) : PciLedger ω :=
  if !fails && (l.table (.node minor)).isNone then l.acquire (.mine (some i)) (.node minor) else l

/-- `ch36x_pci_probe`. -/
def pciProbe (pdev : ℕ) (fails : ProbeCall → Bool) : Module ω :=
  let i := m.bound
  let (l, ok) := climb PciRelease.target (.mine (some i)) (probeLadder pdev i fails) m.ledger
  if ok then
    { ledger := deviceCreate i m.gDevCount (fails .deviceCreate) l
      list := m.list ++ [⟨pdev, i⟩]
      bound := m.bound + 1 }
  else { m with ledger := l }

/-- The release calls of `ch36x_pci_remove`. -/
def removal (e : Entry) : List PciRelease :=
  [.deviceDestroy e.minor, .cdevDel e.index, .freeIrq e.index, .iounmap (some e.index),
    .pciReleaseRegions e.pdev, .kfree e.index]

/-- `ch36x_pci_remove`, of the device with an entry. -/
def pciRemove (e : Entry) : Module ω where
  ledger := m.ledger.releaseAll PciRelease.target (.mine (some e.index)) (removal e)
  list := m.list.erase e
  bound := m.bound

/-- The entry of a PCI device, its driver data. -/
def drvdata (pdev : ℕ) : Option Entry := m.list.find? fun e => e.pdev = pdev

/-- A device comes, and some of the calls of its probe fail if it comes to them, or a device
goes. -/
inductive Act where
  | probe (pdev : ℕ) (fails : ProbeCall → Bool)
  | remove (pdev : ℕ)

/-- The kernel probes devices that have no driver, and removes those that have this one. -/
def step (m : Module ω) : Act → Module ω
  | .probe pdev fails =>
    match drvdata m pdev with
    | some _ => m
    | none => pciProbe m pdev fails
  | .remove pdev =>
    match drvdata m pdev with
    | some e => pciRemove m e
    | none => m

/-! ## Load and unload -/

inductive InitCall
  | classCreate
  | allocChrdevRegion
  | pciRegisterDriver
  deriving DecidableEq

/-- The calls of `ch36x_init`. -/
def initLadder (fails : InitCall → Bool) : List (Rung InitCall PciRes PciRelease) :=
  let classDestroy : List PciRelease := [.classDestroy false]
  let chrRemove := .unregisterChrdevRegion 0 CH36X_MAX_NUM :: classDestroy
  [⟨.classCreate, !fails .classCreate, some .cls, []⟩,
    ⟨.allocChrdevRegion, !fails .allocChrdevRegion, some (.chrdev 0 CH36X_MAX_NUM), classDestroy⟩,
    ⟨.pciRegisterDriver, !fails .pciRegisterDriver, none, chrRemove⟩]

/-- `ch36x_init`, and whether the module loads. -/
def init (busy : ℕ → Option ω) (fails : InitCall → Bool) : PciLedger ω × Bool :=
  climb PciRelease.target (.mine none) (initLadder fails) (host busy)

/-- The module after its load, before the first probe. -/
def loaded (busy : ℕ → Option ω) : Module ω where
  ledger := (host busy).acquireAll (.mine none) [.cls, .chrdev 0 CH36X_MAX_NUM]
  list := []
  bound := 0

/-- `ch36x_exit`, which removes the devices that are bound. -/
def exit : PciLedger ω :=
  (run step m (m.list.map fun e => .remove e.pdev)).ledger.releaseAll PciRelease.target (.mine none)
    [.unregisterChrdevRegion 0 CH36X_MAX_NUM, .classDestroy false]

end Module

/-! ## Failures -/

section Failures

variable {ω : Type*} [DecidableEq ω] {m : Module ω} {pdev i : ℕ} {fails : ProbeCall → Bool}

theorem keys_probeLadder : keys (probeLadder pdev i fails) = Entry.keys ⟨pdev, i⟩ := rfl

theorem nodup_probeLadder : (keys (probeLadder pdev i fails)).Nodup := by
  rw [keys_probeLadder]
  simp [Entry.keys]

/-- Every label of the probe gives back what was acquired above it, in reverse. -/
theorem marks_probeLadder :
    Marks PciRelease.target (fun _ => True) [] (probeLadder pdev i fails) := by
  have hreverse : ∀ {got : List PciRes} {undo : List PciRelease},
      undo.map PciRelease.target = (got.map some).reverse →
        (True ↔ (undo.map PciRelease.target).Perm (got.map some)) :=
    fun he => iff_of_true trivial (he ▸ List.reverse_perm _)
  exact ⟨hreverse rfl, hreverse rfl, hreverse rfl, hreverse rfl, hreverse rfl, hreverse rfl,
    hreverse rfl, trivial⟩

/-- Every call of the ladder but the last of the probe is looked at. -/
theorem passes_probeLadder_iff :
    (∀ r ∈ probeLadder pdev i fails, r.passes = true) ↔
      ∀ c, c ≠ .deviceCreate → fails c = false := by
  simp only [probeLadder, List.forall_mem_cons, List.not_mem_nil, Bool.not_eq_true']
  constructor
  · rintro ⟨h₁, h₂, h₃, h₄, h₅, h₆, h₇, -⟩ c hc
    cases c <;> first | assumption | exact absurd rfl hc
  · intro hpass
    refine ⟨?_, ?_, ?_, ?_, ?_, ?_, ?_, by simp⟩ <;> exact hpass _ (by simp)

/-- **A probe that fails leaves nothing**, whichever of its calls fail. -/
theorem pciProbe_of_failure (hme : ∀ k, m.ledger.table k ≠ some (.mine (some m.bound)))
    (h : (climb PciRelease.target (.mine (some m.bound)) (probeLadder pdev m.bound fails)
      m.ledger).2 = false) : pciProbe m pdev fails = m := by
  have hunwinds : Unwinds PciRelease.target m.ledger [] (probeLadder pdev m.bound fails) :=
    (unwinds_iff_of_marks marks_probeLadder).mpr fun _ _ => trivial
  have hsame := (climb_restores_iff hme nodup_probeLadder).mpr hunwinds h
  simp only [pciProbe, h, hsame, Bool.false_eq_true, if_false]

theorem pciProbe_eq_self_iff (hme : ∀ k, m.ledger.table k ≠ some (.mine (some m.bound))) :
    pciProbe m pdev fails = m ↔
      firstFailure m.ledger (probeLadder pdev m.bound fails) ≠ none := by
  constructor
  · intro hsame hnone
    have hsnd : (climb PciRelease.target (.mine (some m.bound)) (probeLadder pdev m.bound fails)
        m.ledger).2 = true := (climb_snd_eq_true_iff nodup_probeLadder).mpr hnone
    -- A probe that succeeds is counted.
    have hbound : (pciProbe m pdev fails).bound = m.bound + 1 := by
      simp only [pciProbe, hsnd, if_true]
    rw [hsame] at hbound
    omega
  · intro hfails
    refine pciProbe_of_failure hme ?_
    rw [← Bool.not_eq_true, climb_snd_eq_true_iff nodup_probeLadder]
    exact hfails

/-- The labels of the load do the same. -/
theorem marks_initLadder (fails : InitCall → Bool) :
    Marks PciRelease.target (fun _ => True) [] (initLadder fails) :=
  ⟨iff_of_true trivial (List.Perm.refl _), iff_of_true trivial (List.Perm.refl _),
    iff_of_true trivial (List.Perm.swap _ _ _), trivial⟩

theorem nodup_initLadder (fails : InitCall → Bool) : (keys (initLadder fails)).Nodup := by
  simp [initLadder, keys]

omit [DecidableEq ω] in
/-- A load fails iff one of its calls does. -/
theorem firstFailure_init_iff (busy : ℕ → Option ω) (fails : InitCall → Bool) :
    firstFailure (host busy) (initLadder fails) = none ↔ ∀ c, fails c = false := by
  rw [firstFailure_eq_none_iff]
  constructor
  · intro hok c
    cases hc : fails c with
    | false => rfl
    | true => cases c <;> simp [initLadder, Rung.ok, hc] at hok
  · intro hpass
    simp [initLadder, Rung.ok, hpass, host]

/-- **A load that fails leaves nothing**, whichever of its calls fails. -/
theorem init_of_failure (busy : ℕ → Option ω) {fails : InitCall → Bool} (h : ∃ c, fails c) :
    init busy fails = (host busy, false) := by
  have hme : ∀ k, (host busy).table k ≠ some (.mine none) := by
    intro k
    cases k <;> simp [host]
  have hsnd : (climb PciRelease.target (.mine none) (initLadder fails) (host busy)).2 = false := by
    rw [← Bool.not_eq_true, climb_snd_eq_true_iff (nodup_initLadder fails),
      firstFailure_init_iff]
    obtain ⟨c, hc⟩ := h
    exact fun hpass => absurd (hpass c) (by simp [hc])
  -- The labels undo what the calls above them did.
  have hunwinds : Unwinds PciRelease.target (host busy) [] (initLadder fails) :=
    (unwinds_iff_of_marks (marks_initLadder fails)).mpr fun _ _ => trivial
  exact Prod.ext ((climb_restores_iff hme (nodup_initLadder fails)).mpr hunwinds hsnd) hsnd

/-- A load without failure leaves `loaded`. -/
theorem init_of_success (busy : ℕ → Option ω) {fails : InitCall → Bool}
    (h : ∀ c, fails c = false) : init busy fails = ((loaded busy).ledger, true) := by
  have hsnd : (init busy fails).2 = true :=
    (climb_snd_eq_true_iff (nodup_initLadder fails)).mpr ((firstFailure_init_iff busy fails).mpr h)
  exact Prod.ext (climb_of_success hsnd) hsnd

end Failures

end LinuxStack.Ch36x.Probe
