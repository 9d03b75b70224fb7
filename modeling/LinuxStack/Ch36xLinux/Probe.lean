import LinuxStack.Kernel.Pci
import LinuxStack.Transition.Run

/-!
# The first driver, binding and unload

The first driver registers its char device region and its class with the first device that it
binds, and gives its devices up at the unload of the module. A removal does nothing. Most labels of
the probe give back something that was not acquired, or keep something that was.

## Main definitions

* `probeLadder`, `pciProbe`: `ch36x_pci_probe`, with `ch36x_register_chrdev`
* `exit`: `ch36x_exit`
* `IsClean`: the calls whose failure leaves nothing

## Main results

* `probe_clean_iff`: a probe that fails leaves nothing iff it fails at such a call
-/

namespace LinuxStack.Ch36xLinux.Probe

open Registry Transition

def CH36x_DEV_NUM : ℕ := 0x10

/-- A bound device in `g_private_head`: the PCI device, the probe, and the minor number. -/
structure Entry where
  pdev : ℕ
  index : ℕ
  minor : ℕ
  deriving DecidableEq

/-- The state of the module: what it holds, whether it has a major number and a class, its devices,
how many they are modulo 256, and the probes so far. -/
structure Module (ω : Type*) where
  ledger : PciLedger ω
  hasMajor : Bool
  hasClass : Bool
  list : List Entry
  gDevCount : ℕ
  probes : ℕ

inductive ProbeCall
  | pciEnableDevice
  | kmalloc
  | ioFlags
  | memFlags
  | pciRequestRegions
  | ioportMap
  | ioremap
  | allocChrdevRegion
  | classCreate
  | cdevAdd
  | deviceCreate
  deriving DecidableEq

/-! ## Probe -/

section Ladder

variable (pdev i minor : ℕ) (fails : ProbeCall → Bool)

/-- The calls of the probe up to `ch36x_register_chrdev`. The addresses of the mappings are set
after the last of them. -/
def deviceLadder : List (Rung ProbeCall PciRes PciRelease) :=
  let errOut : List PciRelease := [.kfree i, .pciDisableDevice pdev i]
  let errPciRequestRegions := .pciReleaseRegions pdev :: errOut
  let errIoportMap := .ioportUnmap none :: errPciRequestRegions
  let errIoremap := .iounmap none :: errIoportMap
  [⟨.pciEnableDevice, !fails .pciEnableDevice, some (.enabled pdev i), []⟩,
    ⟨.kmalloc, !fails .kmalloc, some (.memory i), []⟩,
    ⟨.ioFlags, !fails .ioFlags, none, errOut⟩,
    ⟨.memFlags, !fails .memFlags, none, errOut⟩,
    ⟨.pciRequestRegions, !fails .pciRequestRegions, some (.regions pdev), errPciRequestRegions⟩,
    ⟨.ioportMap, !fails .ioportMap, some (.ioport i), errIoportMap⟩,
    ⟨.ioremap, !fails .ioremap, some (.iomap i), errIoremap⟩]

/-- The labels of the probe after `ch36x_register_chrdev`. -/
def errRegisterChrdev : List PciRelease :=
  [.iounmap (some i), .ioportUnmap (some i), .pciReleaseRegions pdev, .kfree i,
    .pciDisableDevice pdev i]

/-- The labels of `ch36x_register_chrdev`, and those of the probe. -/
def errRegion : List PciRelease :=
  .unregisterChrdevRegion minor CH36x_DEV_NUM :: errRegisterChrdev pdev i

def errClassCreate (isErr : Bool) : List PciRelease :=
  .classDestroy isErr :: errRegion pdev i minor

def errCdevAdd (isErr : Bool) : List PciRelease := .cdevDel i :: errClassCreate pdev i minor isErr

/-- The calls of `ch36x_register_chrdev`. With no major number yet, the class is created before
the result of `alloc_chrdev_region` is looked at. -/
def chrdevLadder (hasMajor hasClass : Bool) : List (Rung ProbeCall PciRes PciRelease) :=
  let cdevAdd (isErr : Bool) :=
    ⟨.cdevAdd, !fails .cdevAdd, some (.cdev i), errCdevAdd pdev i minor isErr⟩
  let classCreate :=
    ⟨.classCreate, !fails .classCreate, some .cls, errClassCreate pdev i minor true⟩
  if hasMajor then [cdevAdd !hasClass]
  else if fails .allocChrdevRegion then
    [classCreate, ⟨.allocChrdevRegion, false, none, errRegion pdev i minor⟩]
  else
    [⟨.allocChrdevRegion, true, some (.chrdev 0 CH36x_DEV_NUM), []⟩, classCreate, cdevAdd false]

/-- The calls of a probe. -/
def probeLadder (hasMajor hasClass : Bool) : List (Rung ProbeCall PciRes PciRelease) :=
  deviceLadder pdev i fails ++ chrdevLadder pdev i minor fails hasMajor hasClass

end Ladder

section Module

variable {ω : Type*} (m : Module ω)

/-- The calls of a probe in a state of the module. -/
def Module.ladder (pdev : ℕ) (fails : ProbeCall → Bool) :
    List (Rung ProbeCall PciRes PciRelease) :=
  probeLadder pdev m.probes m.gDevCount fails m.hasMajor m.hasClass

/-- `device_create`, whose result is not looked at. It fails if there is no class. -/
def deviceCreate (i minor : ℕ) (fails : Bool) (l : PciLedger ω) : PciLedger ω :=
  if !fails && (l.table (.node minor)).isNone then l.acquire (.mine (some i)) (.node minor) else l

variable [DecidableEq ω]

/-- `ch36x_pci_probe`. The major number and the class stay what they are if a later call fails. -/
def pciProbe (pdev : ℕ) (fails : ProbeCall → Bool) : Module ω :=
  let i := m.probes
  let (l, ok) := climb PciRelease.target (.mine (some i)) (m.ladder pdev fails) m.ledger
  let reached := (firstFailure m.ledger (deviceLadder pdev i fails)).isNone
  let hasMajor := m.hasMajor || (reached && !fails .allocChrdevRegion)
  let hasClass :=
    if reached && !m.hasMajor then !fails .classCreate && (m.ledger.table .cls).isNone
    else m.hasClass
  if ok then
    { ledger := deviceCreate i m.gDevCount (fails .deviceCreate || !hasClass) l
      hasMajor := hasMajor
      hasClass := hasClass
      list := m.list ++ [⟨pdev, i, m.gDevCount⟩]
      gDevCount := (m.gDevCount + 1) % 256
      probes := i + 1 }
  else { m with ledger := l, hasMajor := hasMajor, hasClass := hasClass, probes := i + 1 }

variable (freed : Entry → ℕ)

/-- The release calls of `ch36x_exit` for a device. The minor number is unregistered alone. The
last call takes `ch36x_pdev` out of the struct that was just freed: `freed` tells which device the
memory names then. -/
def deviceExit (e : Entry) : List PciRelease :=
  [.deviceDestroy e.minor, .cdevDel e.index, .unregisterChrdevRegion e.minor 1,
    .iounmap (some e.index), .ioportUnmap (some e.index), .pciReleaseRegions e.pdev,
    .kfree e.index, .pciDisableDevice (freed e) e.index]

/-- The release calls of `ch36x_exit`. -/
def exitCalls : List PciRelease :=
  m.list.flatMap (deviceExit freed) ++ [.classDestroy !m.hasClass]

/-- `ch36x_exit`. -/
def exit : PciLedger ω := m.ledger.releaseAll PciRelease.target (.mine none) (exitCalls m freed)

/-- A device comes: the PCI device, and the calls of its probe that fail if it comes to them. -/
abbrev Act := ℕ × (ProbeCall → Bool)

def step (m : Module ω) (a : Act) : Module ω := pciProbe m a.1 a.2

omit [DecidableEq ω] in
/-- The module after its load, which acquires nothing. -/
def loaded (busy : ℕ → Option ω) : Module ω := ⟨host busy, false, false, [], 0, 0⟩

end Module

/-! ## Failures -/

/-- The calls whose failure leaves nothing. -/
def IsClean (c : ProbeCall) : Prop := c = .pciEnableDevice ∨ c = .ioFlags ∨ c = .memFlags

/-- A label that makes too many or too few release calls. -/
theorem not_clean_of_length {c : ProbeCall} {undo : List PciRelease} {got : List PciRes}
    (hc : ¬ IsClean c) (hlength : undo.length ≠ got.length) :
    IsClean c ↔ (undo.map PciRelease.target).Perm (got.map some) :=
  iff_of_false hc fun h => hlength (by simpa using h.length_eq)

section Failures

variable {pdev i minor : ℕ} {fails : ProbeCall → Bool} {hasMajor hasClass : Bool}

theorem marks_deviceLadder :
    Marks PciRelease.target IsClean [] (deviceLadder pdev i fails) := by
  have hflags : ∀ c, IsClean c →
      (IsClean c ↔ ([PciRelease.kfree i, .pciDisableDevice pdev i].map PciRelease.target).Perm
        ([PciRes.enabled pdev i, .memory i].map some)) :=
    fun c hc => iff_of_true hc (List.Perm.swap _ _ _)
  refine ⟨iff_of_true (by simp [IsClean]) (List.Perm.refl _), ?_, hflags _ (by simp [IsClean]),
    hflags _ (by simp [IsClean]), ?_, ?_, ?_, trivial⟩
  -- The reference is kept, and the regions and the mappings are given back too early.
  · exact not_clean_of_length (by simp [IsClean]) (by simp)
  · exact not_clean_of_length (by simp [IsClean]) (by simp)
  · exact not_clean_of_length (by simp [IsClean]) (by simp)
  · exact not_clean_of_length (by simp [IsClean]) (by simp)

theorem marks_chrdevLadder :
    Marks PciRelease.target IsClean (keys (deviceLadder pdev i fails))
      (chrdevLadder pdev i minor fails hasMajor hasClass) := by
  unfold chrdevLadder
  split_ifs with hmajor halloc
  · exact ⟨not_clean_of_length (by simp [IsClean]) (by
      simp [deviceLadder, errCdevAdd, errClassCreate, errRegion, errRegisterChrdev]), trivial⟩
  · refine ⟨not_clean_of_length (by simp [IsClean]) (by
      simp [deviceLadder, errClassCreate, errRegion, errRegisterChrdev]), ?_, trivial⟩
    -- The region was not allocated, and the class stays.
    refine iff_of_false (by simp [IsClean]) fun h => ?_
    have hregion : some (PciRes.chrdev minor CH36x_DEV_NUM) ∈
        (errRegion pdev i minor).map PciRelease.target := List.mem_cons_self
    simpa [deviceLadder] using h.subset hregion
  · refine ⟨not_clean_of_length (by simp [IsClean]) (by simp [deviceLadder]),
      not_clean_of_length (by simp [IsClean]) (by
        simp [deviceLadder, errClassCreate, errRegion, errRegisterChrdev]),
      not_clean_of_length (by simp [IsClean]) (by
        simp [deviceLadder, errCdevAdd, errClassCreate, errRegion, errRegisterChrdev]), trivial⟩

theorem marks_probeLadder :
    Marks PciRelease.target IsClean [] (probeLadder pdev i minor fails hasMajor hasClass) :=
  marks_append.mpr ⟨marks_deviceLadder, marks_chrdevLadder⟩

theorem nodup_probeLadder : (keys (probeLadder pdev i minor fails hasMajor hasClass)).Nodup := by
  unfold probeLadder chrdevLadder
  split_ifs <;> simp [deviceLadder, keys]

end Failures

/-! ## Runs of probes -/

section Runs

variable {ω : Type*} [DecidableEq ω] {busy : ℕ → Option ω} {m : Module ω} {pdev : ℕ}
  {fails : ProbeCall → Bool}

omit [DecidableEq ω] in
theorem deviceCreate_cases (i minor : ℕ) (l : PciLedger ω) (b : Bool) (k : PciRes) :
    (deviceCreate i minor b l).table k = l.table k ∨
      k = .node minor ∧ (deviceCreate i minor b l).table k = some (.mine (some i)) := by
  unfold deviceCreate
  split
  · by_cases hk : k = .node minor
    · subst hk
      exact Or.inr ⟨rfl, Ledger.acquire_table_self _⟩
    · exact Or.inl (Ledger.acquire_table_of_ne hk)
  · exact Or.inl rfl

/-- Every entry of a probe is one of a probe that was. -/
def Owned (m : Module ω) : Prop :=
  ∀ k i, m.ledger.table k = some (.mine (some i)) → i < m.probes

omit [DecidableEq ω] in
theorem Owned.not_mine (h : Owned m) (k : PciRes) :
    m.ledger.table k ≠ some (.mine (some m.probes)) :=
  fun hk => absurd (h k m.probes hk) (Nat.lt_irrefl _)

theorem owned_step (h : Owned m) (a : Act) : Owned (step m a) := by
  intro k i hk
  have hprobes : (step m a).probes = m.probes + 1 := by
    simp only [step, pciProbe]
    split <;> rfl
  rw [hprobes]
  by_cases hi : i = m.probes
  · omega
  · -- The climb and the node make entries for this probe only.
    have hclimb : (climb PciRelease.target (.mine (some m.probes)) (m.ladder a.1 a.2)
        m.ledger).1.table k = some (.mine (some i)) := by
      simp only [step, pciProbe] at hk
      split at hk
      · rcases deviceCreate_cases m.probes m.gDevCount _ _ k with heq | ⟨-, heq⟩
        · rwa [heq] at hk
        · rw [heq] at hk
          simp only [Option.some.injEq, Owner.mine.injEq] at hk
          exact absurd hk.symm hi
      · exact hk
    have hold := climb_table_of_ne nodup_probeLadder (by simpa using hi) hclimb
    exact Nat.lt_succ_of_lt (h k i hold)

omit [DecidableEq ω] in
theorem nodup_ladder : (keys (m.ladder pdev fails)).Nodup := nodup_probeLadder

omit [DecidableEq ω] in
theorem marks_ladder : Marks PciRelease.target IsClean [] (m.ladder pdev fails) :=
  marks_probeLadder

theorem owned_run (busy : ℕ → Option ω) (as : List Act) : Owned (run step (loaded busy) as) := by
  apply run_invariant (I := Owned) (fun m a hm => owned_step hm a)
  intro k i hk
  cases k <;> simp [loaded, host] at hk

/-- **A probe that fails leaves nothing** iff it fails at a call whose label releases what was
acquired: the first one, or a check of the resources. -/
theorem probe_clean_iff (busy : ℕ → Option ω) (as : List Act) (pdev : ℕ)
    (fails : ProbeCall → Bool) :
    let m := run step (loaded busy) as
    ((pciProbe m pdev fails).list = m.list → (pciProbe m pdev fails).ledger = m.ledger) ↔
      ∀ c, firstFailure m.ledger (m.ladder pdev fails) = some c → IsClean c := by
  intro m
  have hme : ∀ k, m.ledger.table k ≠ some (.mine (some m.probes)) := (owned_run busy as).not_mine
  rw [← unwinds_iff_of_marks marks_ladder, ← climb_restores_iff hme nodup_ladder]
  cases hok : (climb PciRelease.target (.mine (some m.probes)) (m.ladder pdev fails)
    m.ledger).2 with
  | true =>
    have hlist : (pciProbe m pdev fails).list = m.list ++ [⟨pdev, m.probes, m.gDevCount⟩] := by
      simp only [pciProbe, hok, if_true]
    rw [hlist]
    simp
  | false =>
    have hledger : (pciProbe m pdev fails).ledger =
        (climb PciRelease.target (.mine (some m.probes)) (m.ladder pdev fails) m.ledger).1 := by
      simp only [pciProbe, hok, Bool.false_eq_true, if_false]
    have hlist : (pciProbe m pdev fails).list = m.list := by
      simp only [pciProbe, hok, Bool.false_eq_true, if_false]
    simp only [hledger, hlist, forall_true_left]

end Runs

end LinuxStack.Ch36xLinux.Probe
