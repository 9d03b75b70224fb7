import LinuxStack.Kernel.Calls
import LinuxStack.Transition.Run

/-!
# The bindings of the LED drivers

`led_probe` registers a char device, a class and a node, and looks at none of the results; the
traditional driver does so at its load. `led_remove` gives back what the two globals name. The core
takes every probe for a success. A second device finds the class taken, and overwrites both globals.

## Main definitions

* `Driver F ω`: the kernel and the two globals; `ledProbe`, `ledRemove`: the callbacks
* `Core.step`: probes and removes, in any order
* `Kept`: a remove gives back what the probe of its device has entered, and nothing else
* `Safe`: nobody is bound at the probe, and the class and the node are entered
* `Bound`, `Doomed`: the invariant, and a device that cannot be removed

## Main results

* `ledProbe_eq`: what a probe enters
* `bindings_guarded`: safe probes guard the contract
* `bindings_kept_iff`: a run at whose end nobody is bound keeps the contract iff its probes are safe
-/

namespace LinuxStack.Led.Binding

open Registry Transition

/-- The kernel, in which an entry of the driver belongs to the device it was entered for, and the
globals. -/
structure Driver (F ω : Type*) where
  kernel : Kernel (Owner F ω)
  major : ℤ
  ledClass : Ptr String

/-- The major number that `register_chrdev` picks, and the failures of the calls. -/
structure ProbeFaults where
  registerChrdev : Except Errno ℕ+
  classCreate : Option Errno
  deviceCreate : Option Errno

/-- `MKDEV(major, 0)`, which keeps twelve bits of the number. -/
def mkdev (major : ℤ) : DevT := ⟨(major % 4096).toNat, 0⟩

variable {F ω : Type*}

/-! ## The callbacks -/

/-- `register_chrdev` of a number that the kernel picks: the number, or an error. -/
def registerChrdev (me : ω) (k : Kernel ω) (pick : Except Errno ℕ+) : ℤ × Kernel ω :=
  match k.allocChrdevRegion me pick with
  | .error e => (-(e : ℕ), k)
  | .ok (d, k) => (d.major, k)

section Callbacks

variable (o : ProbeFaults) (f : F) (s : Driver F ω)

/-- The registrations of `led_probe`, which returns 0 whatever becomes of them. -/
def ledProbe : Driver F ω :=
  let (major, k) := registerChrdev (.mine f) s.kernel o.registerChrdev
  let (ledClass, k) := k.classCreate (.mine f) "myled" o.classCreate
  let (_, k) := k.deviceCreate (.mine f) ledClass (mkdev major) o.deviceCreate
  ⟨k, major, ledClass⟩

/-- The calls of `led_remove`. The kernel finds no char device for a negative number. -/
def removeReleases : List Release :=
  (if 0 ≤ s.major then [.unregisterChrdevRegion ⟨s.major.toNat, 0⟩] else []) ++
    [.deviceDestroy s.ledClass (mkdev s.major), .classDestroy s.ledClass]

/-- The keys that these calls are aimed at, if there is a class. -/
def ownKeys : List Res :=
  (if 0 ≤ s.major then [.region ⟨s.major.toNat, 0⟩] else []) ++
    [.device "myled" (mkdev s.major), .cls "myled"]

def ledRemove [DecidableEq F] [DecidableEq ω] : Driver F ω :=
  { s with kernel := s.kernel.releaseAll (.mine f) (removeReleases s) }

/-! ## What a probe enters -/

/-- There is a number, and nobody has it. -/
def regionOk : Bool :=
  match o.registerChrdev with
  | .ok ma => (s.kernel.ledger.table (.region ⟨ma, 0⟩)).isNone
  | .error _ => false

/-- What `register_chrdev` returns. -/
def majorOf : ℤ :=
  match o.registerChrdev with
  | .ok ma => if regionOk o s then ma else -(EBUSY : ℕ)
  | .error e => -(e : ℕ)

/-- `class_create` succeeds. -/
def classOk : Bool :=
  o.classCreate.isNone && (s.kernel.ledger.table (.cls "myled")).isNone

/-- The node that `device_create` makes. -/
def node : Res := .device "myled" (mkdev (majorOf o s))

/-- `device_create` succeeds. -/
def deviceOk : Bool :=
  classOk o s && o.deviceCreate.isNone && (s.kernel.ledger.table (node o s)).isNone

/-- The keys that a probe enters. -/
def made : List Res :=
  (if regionOk o s then [.region ⟨(majorOf o s).toNat, 0⟩] else []) ++
    (if classOk o s then [.cls "myled"] else []) ++ if deviceOk o s then [node o s] else []

end Callbacks

section Creates

variable (me : ω) (k : Kernel ω) (fault : Option Errno)

/-- A class is created unless the call fails or the name is taken. -/
theorem classCreate_eq :
    k.classCreate me "myled" fault =
      let ok := fault.isNone && (k.ledger.table (.cls "myled")).isNone
      (if ok then .valid "myled" else .err (fault.getD EEXIST),
        k.acquireAll me (if ok then [.cls "myled"] else [])) := by
  unfold Kernel.classCreate Kernel.create
  cases fault with
  | some e => rfl
  | none => cases htable : k.ledger.table (.cls "myled") <;> rfl

/-- A node is made where there is a class, unless the call fails or the number is taken. -/
theorem deviceCreate_eq (hasClass : Bool) (e : Errno) (d : DevT) :
    (k.deviceCreate me (if hasClass then .valid "myled" else .err e) d fault).2 =
      k.acquireAll me
        (if hasClass && fault.isNone && (k.ledger.table (.device "myled" d)).isNone then
          [.device "myled" d] else []) := by
  cases hasClass with
  | false => rfl
  | true =>
    unfold Kernel.deviceCreate Kernel.create
    cases fault with
    | some e => simp
    | none => cases htable : k.ledger.table (.device "myled" d) <;> simp [htable]

end Creates

variable {o : ProbeFaults} {f g : F} {s : Driver F ω}

theorem registerChrdev_eq :
    registerChrdev (.mine f) s.kernel o.registerChrdev =
      (majorOf o s, s.kernel.acquireAll (.mine f)
        (if regionOk o s then [.region ⟨(majorOf o s).toNat, 0⟩] else [])) := by
  unfold registerChrdev majorOf regionOk Kernel.allocChrdevRegion Kernel.create
  cases o.registerChrdev with
  | error e => simp
  | ok ma =>
    cases htable : s.kernel.ledger.table (.region ⟨ma, 0⟩) <;> simp [htable]

/-- **A probe enters its keys**, and `led_class` is a class iff that was created. -/
theorem ledProbe_eq :
    ledProbe o f s =
      ⟨s.kernel.acquireAll (.mine f) (made o s), majorOf o s,
        if classOk o s then .valid "myled" else .err (o.classCreate.getD EEXIST)⟩ := by
  have happend (rs ss : List Res) :
      (s.kernel.acquireAll (.mine f) rs).acquireAll (.mine f) ss =
        s.kernel.acquireAll (.mine f) (rs ++ ss) := List.foldl_append.symm
  have htable (rs : List Res) (r : Res) (hr : r ∉ rs) :
      (s.kernel.acquireAll (.mine f) rs).ledger.table r = s.kernel.ledger.table r := by
    rw [Kernel.acquireAll_ledger, Ledger.acquireAll_table, if_neg hr]
  simp only [ledProbe, registerChrdev_eq, classCreate_eq, deviceCreate_eq]
  -- The keys that are entered do not take those that are entered later.
  rw [htable _ (.cls "myled") (by split <;> simp)]
  have hok : (o.classCreate.isNone && (s.kernel.ledger.table (.cls "myled")).isNone) =
      classOk o s := rfl
  simp only [hok, happend]
  rw [htable _ (.device "myled" (mkdev (majorOf o s))) (by split <;> split <;> simp)]
  rfl

/-- The table after a probe. -/
theorem ledProbe_table (r : Res) :
    (ledProbe o f s).kernel.ledger.table r =
      if r ∈ made o s then some (.mine f) else s.kernel.ledger.table r := by
  rw [ledProbe_eq]
  show (s.kernel.acquireAll (.mine f) (made o s)).ledger.table r = _
  rw [Kernel.acquireAll_ledger, Ledger.acquireAll_table]

theorem device_mem_made {d : DevT} (h : .device "myled" d ∈ made o s) :
    deviceOk o s = true := by
  simp only [made, node] at h
  cases hr : regionOk o s <;> cases hc : classOk o s <;> cases hd : deviceOk o s <;>
    simp [hr, hc, hd] at h ⊢

/-- The number is not negative iff it was entered. -/
theorem regionOk_iff : regionOk o s = true ↔ 0 ≤ majorOf o s := by
  unfold majorOf regionOk
  cases o.registerChrdev with
  | error e => simp
  | ok ma =>
    cases hfree : (s.kernel.ledger.table (.region ⟨ma, 0⟩)).isNone with
    | true => simp only [hfree, if_true, Int.natCast_nonneg]
    | false =>
      have hbusy : ¬ (0 : ℤ) ≤ -((EBUSY : ℕ) : ℤ) := by decide
      simp only [hfree, Bool.false_eq_true, if_false, hbusy]

theorem removeReleases_target (hcls : s.ledClass = .valid "myled") :
    (removeReleases s).map Release.target = (ownKeys s).map some := by
  unfold removeReleases ownKeys
  rw [hcls]
  split <;> rfl

/-! ## Runs -/

/-- The driver with the devices that the core has bound. -/
structure Core (F ω : Type*) where
  driver : Driver F ω
  bound : F → Bool

/-- A freshly loaded driver. -/
def Core.load (k : Kernel ω) : Core F ω := ⟨⟨k.foreign, 0, .null⟩, fun _ => false⟩

inductive Action (F : Type*)
  | probe (f : F) (o : ProbeFaults)
  | remove (f : F)

variable [DecidableEq F] [DecidableEq ω]

/-- The core probes what is not bound, and removes what is. -/
def Core.step (s : Core F ω) : Action F → Core F ω
  | .probe f o =>
    if s.bound f then s else ⟨ledProbe o f s.driver, Function.update s.bound f true⟩
  | .remove f =>
    if s.bound f then ⟨ledRemove f s.driver, Function.update s.bound f false⟩ else s

/-- **The contract of a remove**: the entries of the device go, all others stay, and no call is
aimed at anything else. -/
def Kept (s : Core F ω) : Action F → Prop
  | .remove f =>
    s.bound f = true →
      (∀ r, (ledRemove f s.driver).kernel.ledger.table r =
        if s.driver.kernel.ledger.table r = some (.mine f) then none
        else s.driver.kernel.ledger.table r) ∧
      (ledRemove f s.driver).kernel.ledger.stray = s.driver.kernel.ledger.stray
  | .probe _ _ => True

/-- Nobody is bound at a probe, and its class and its node are entered. -/
def Safe (s : Core F ω) : Action F → Prop
  | .probe f o => s.bound f = false → (∀ g, s.bound g = false) ∧ deviceOk o s.driver = true
  | .remove _ => True

/-! ## The invariant -/

/-- Nobody is bound, and the driver has no entry. -/
def Idle (s : Core F ω) : Prop :=
  (∀ f, s.bound f = false) ∧ ∀ f r, s.driver.kernel.ledger.table r ≠ some (.mine f)

/-- The device `f` alone is bound, and the globals name its entries. -/
structure Bound (s : Core F ω) (f : F) : Prop where
  bound : ∀ g, s.bound g = true ↔ g = f
  cls : s.driver.ledClass = .valid "myled"
  table : ∀ g r, s.driver.kernel.ledger.table r = some (.mine g) ↔
    g = f ∧ r ∈ ownKeys s.driver

/-- The states of a run of safe probes. -/
def Consistent (s : Core F ω) : Prop := Idle s ∨ ∃ f, Bound s f

/-- A device is bound without a node. -/
def Doomed (s : Core F ω) : Prop :=
  (∀ c, s.driver.ledClass = .valid c → c = "myled") ∧
    ∃ f, s.bound f = true ∧
      ∀ d, s.driver.kernel.ledger.table (.device "myled" d) ≠ some (.mine f)

section Steps

variable {s : Core F ω}

theorem ledRemove_table (r : Res) :
    (ledRemove f s.driver).kernel.ledger.table r =
      if some r ∈ (removeReleases s.driver).map Release.target then none
      else s.driver.kernel.ledger.table r := by
  show (s.driver.kernel.releaseAll (.mine f) (removeReleases s.driver)).ledger.table r = _
  rw [Kernel.releaseAll_ledger, Ledger.releaseAll_table]

theorem ledRemove_stray_iff :
    (ledRemove f s.driver).kernel.ledger.stray = s.driver.kernel.ledger.stray ↔
      ((removeReleases s.driver).map Release.target).Nodup ∧
        ∀ x ∈ removeReleases s.driver, ∃ r, x.target = some r ∧
          s.driver.kernel.ledger.table r = some (.mine f) := by
  show (s.driver.kernel.releaseAll (.mine f) (removeReleases s.driver)).ledger.stray = _ ↔ _
  rw [Kernel.releaseAll_ledger, Ledger.releaseAll_stray_eq_iff]

/-- A remove of the bound device gives back its entries. -/
theorem kept_and_idle_of_remove (hs : Bound s f) :
    Kept s (.remove f) ∧ Idle (Core.step s (.remove f)) := by
  have hbound : s.bound f = true := (hs.bound f).mpr rfl
  have htargets := removeReleases_target hs.cls
  have haimed (r : Res) :
      some r ∈ (removeReleases s.driver).map Release.target ↔ r ∈ ownKeys s.driver := by
    rw [htargets, List.mem_map_of_injective (Option.some_injective _)]
  have hmine (r : Res) : s.driver.kernel.ledger.table r = some (.mine f) ↔
      r ∈ ownKeys s.driver := by
    rw [hs.table f r, and_iff_right rfl]
  refine ⟨fun _ => ⟨fun r => ?_, ?_⟩, fun g => ?_, fun g r => ?_⟩
  · rw [ledRemove_table]
    simp only [haimed, hmine]
  · rw [ledRemove_stray_iff]
    refine ⟨?_, fun x hx => ?_⟩
    · rw [htargets, ownKeys]
      split <;> simp
    · have hx' := List.mem_map_of_mem (f := Release.target) hx
      rw [htargets] at hx'
      obtain ⟨r, hr, hx'⟩ := List.mem_map.mp hx'
      exact ⟨r, hx'.symm, (hmine r).mpr hr⟩
  · rw [Core.step, if_pos hbound]
    show Function.update s.bound f false g = false
    by_cases hg : g = f
    · rw [hg, Function.update_self]
    · rw [Function.update_of_ne hg]
      simpa [hg] using hs.bound g
  · rw [Core.step, if_pos hbound]
    show (ledRemove f s.driver).kernel.ledger.table r ≠ _
    rw [ledRemove_table]
    simp only [haimed]
    split
    · simp
    · rename_i hr
      exact fun h => hr ((hs.table g r).mp h).2

/-- A safe probe binds its device. -/
theorem bound_of_probe (hs : Idle s) (hdevice : deviceOk o s.driver = true) :
    Bound (Core.step s (.probe f o)) f := by
  obtain ⟨hbound, htable⟩ := hs
  have hclass : classOk o s.driver = true := by
    simp only [deviceOk, Bool.and_eq_true] at hdevice
    exact hdevice.1.1
  have hstep : Core.step s (.probe f o) =
      ⟨ledProbe o f s.driver, Function.update s.bound f true⟩ := by
    simp [Core.step, hbound f]
  have hkeys : ∀ r, r ∈ ownKeys (ledProbe o f s.driver) ↔ r ∈ made o s.driver := by
    intro r
    rw [ledProbe_eq]
    simp only [ownKeys, made, ← regionOk_iff, hclass, hdevice, node, if_true, List.mem_append]
    simp [or_assoc, or_comm, or_left_comm]
  rw [hstep]
  constructor
  · intro g
    by_cases hg : g = f
    · simp [hg]
    · simp [hg, hbound g]
  · show (ledProbe o f s.driver).ledClass = _
    rw [ledProbe_eq, hclass, if_pos rfl]
  · intro g r
    rw [hkeys, ledProbe_table]
    by_cases hr : r ∈ made o s.driver
    · simp [hr, eq_comm]
    · simp [hr, htable g r]

/-- A probe that is not safe leaves its device without a node. -/
theorem doomed_of_not_safe (hs : Consistent s) (hsafe : ¬ Safe s (.probe f o)) :
    Doomed (Core.step s (.probe f o)) := by
  rw [Safe, Classical.not_imp] at hsafe
  obtain ⟨hf, hnot⟩ := hsafe
  have hstep : Core.step s (.probe f o) =
      ⟨ledProbe o f s.driver, Function.update s.bound f true⟩ := by
    simp [Core.step, hf]
  have hmine : ∀ r, s.driver.kernel.ledger.table r ≠ some (.mine f) := by
    rcases hs with hidle | ⟨g, hs⟩
    · exact hidle.2 f
    · intro r h
      rw [((hs.table f r).mp h).1, (hs.bound g).mpr rfl] at hf
      cases hf
  -- Where somebody is bound, the class is taken.
  have hdevice : deviceOk o s.driver = false := by
    rcases hs with hidle | ⟨g, hs⟩
    · simpa [hidle.1] using hnot
    · have hcls := (hs.table g (.cls "myled")).mpr ⟨rfl, by simp [ownKeys]⟩
      simp [deviceOk, classOk, hcls]
  rw [hstep]
  refine ⟨fun c hc => ?_, f, Function.update_self .., ?_⟩
  · rw [ledProbe_eq] at hc
    cases hclass : classOk o s.driver <;> simp [hclass] at hc
    exact hc.symm
  · intro d
    show (ledProbe o f s.driver).kernel.ledger.table _ ≠ _
    rw [ledProbe_table, if_neg]
    · exact hmine _
    · intro h
      rw [device_mem_made h] at hdevice
      cases hdevice

/-- **A device without a node cannot be removed**, and stays without one. -/
theorem doomed_stays {a : Action F} (hs : Doomed s) (hkept : Kept s a) :
    Doomed (Core.step s a) := by
  obtain ⟨hcls, f, hf, hlost⟩ := hs
  cases a with
  | probe g o =>
    by_cases hg : s.bound g = true
    · rw [Core.step, if_pos hg]
      exact ⟨hcls, f, hf, hlost⟩
    · have hne : f ≠ g := by
        rintro rfl
        exact hg hf
      have hold {r : Res} (h : s.driver.kernel.ledger.table r ≠ some (.mine f)) :
          (ledProbe o g s.driver).kernel.ledger.table r ≠ some (.mine f) := by
        rw [ledProbe_table]
        split
        · simpa using hne.symm
        · exact h
      rw [Core.step, if_neg hg]
      refine ⟨fun c hc => ?_, f, ?_, fun d => hold (hlost d)⟩
      · rw [ledProbe_eq] at hc
        cases hclass : classOk o s.driver <;> simp [hclass] at hc
        exact hc.symm
      · exact (Function.update_of_ne hne _ _).trans hf
  | remove g =>
    by_cases hg : s.bound g = true
    · have hne : f ≠ g := by
        rintro rfl
        obtain ⟨-, hall⟩ := ledRemove_stray_iff.mp (hkept hf).2
        obtain ⟨r, hr, hown⟩ :=
          hall (.deviceDestroy s.driver.ledClass (mkdev s.driver.major)) (by simp [removeReleases])
        -- The call is aimed at a node only if there is a class.
        cases hclass : s.driver.ledClass with
        | valid c =>
          obtain rfl := hcls c hclass
          rw [hclass] at hr
          obtain rfl := Option.some.inj hr
          exact hlost _ hown
        | null | err e =>
          rw [hclass] at hr
          cases hr
      have hold {r : Res} (h : s.driver.kernel.ledger.table r ≠ some (.mine f)) :
          (ledRemove g s.driver).kernel.ledger.table r ≠ some (.mine f) := by
        rw [ledRemove_table]
        split
        · simp
        · exact h
      rw [Core.step, if_pos hg]
      exact ⟨hcls, f, (Function.update_of_ne hne _ _).trans hf, fun d => hold (hlost d)⟩
    · rw [Core.step, if_neg hg]
      exact ⟨hcls, f, hf, hlost⟩

/-- **Safe probes guard the contract of the removes.** -/
theorem bindings_guarded :
    Guarded (Core.step (F := F) (ω := ω)) (fun _ _ => True) Kept Safe Consistent Doomed := by
  constructor
  · intro s a hs _ hsafe
    cases a with
    | probe f o => trivial
    | remove f =>
      intro hf
      rcases hs with hidle | ⟨g, hs⟩
      · rw [hidle.1 f] at hf
        cases hf
      · obtain rfl := (hs.bound f).mp hf
        exact (kept_and_idle_of_remove hs).1 hf
  · intro s a hs _ hsafe
    cases a with
    | probe f o =>
      by_cases hf : s.bound f = true
      · rw [Core.step, if_pos hf]
        exact hs
      · obtain ⟨hnobody, hdevice⟩ := hsafe (by simpa using hf)
        rcases hs with hidle | ⟨g, hs⟩
        · exact Or.inr ⟨f, bound_of_probe hidle hdevice⟩
        · have hg := (hs.bound g).mpr rfl
          rw [hnobody g] at hg
          cases hg
    | remove f =>
      by_cases hf : s.bound f = true
      · rcases hs with hidle | ⟨g, hs⟩
        · rw [hidle.1 f] at hf
          cases hf
        · obtain rfl := (hs.bound f).mp hf
          exact Or.inl (kept_and_idle_of_remove hs).2
      · rw [Core.step, if_neg hf]
        exact hs
  · intro s a hs _ hkept hsafe
    cases a with
    | probe f o => exact doomed_of_not_safe hs hsafe
    | remove f => exact absurd trivial hsafe
  · exact fun s a hs _ hkept => doomed_stays hs hkept

end Steps

/-- **A run at whose end nobody is bound** keeps the contract of every remove iff at every probe
nobody was bound, and the class and the node were entered. -/
theorem bindings_kept_iff (k : Kernel ω) (as : List (Action F))
    (hend : ∀ f, (run Core.step (Core.load k) as).bound f = false) :
    Along Core.step Kept (Core.load k) as ↔ Along Core.step Safe (Core.load k) as := by
  have hstart : Consistent (Core.load k : Core F ω) :=
    Or.inl ⟨fun _ => rfl, fun f r => k.foreign_table_ne_mine f r⟩
  have hissued : Along Core.step (fun _ _ => True) (Core.load k : Core F ω) as :=
    along_of_forall fun _ _ => trivial
  refine bindings_guarded.along_iff hstart hissued ?_
  rintro ⟨-, f, hf, -⟩
  rw [hend f] at hf
  cases hf

/-- No failure, and the major number 240. -/
def ProbeFaults.quiet : ProbeFaults := ⟨.ok ⟨240, by decide⟩, none, none⟩

/-- Two devices, one after the other. -/
def twoDevices : List (Action Bool) :=
  [.probe false .quiet, .remove false, .probe true .quiet, .remove true]

theorem bindings_kept_twoDevices :
    Along Core.step Kept (Core.load (.empty : Kernel ℕ)) twoDevices ↔
      Along Core.step Safe (Core.load (.empty : Kernel ℕ)) twoDevices :=
  bindings_kept_iff .empty twoDevices (by decide)

end LinuxStack.Led.Binding
