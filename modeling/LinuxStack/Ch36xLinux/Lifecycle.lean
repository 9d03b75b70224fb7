import LinuxStack.Ch36xLinux.Probe

/-!
# The life of the first driver's module

A module whose failing probes leave nothing holds the keys of its bound devices, and the region and
the class of the first. Its unload unregisters the minor number of every device alone, and no such
region was registered. It disables the device that it finds in the freed memory of a binding. A
removal leaves a device in the list with its regions, so the device cannot be bound again.

## Main definitions

* `Clean`: a probe that does not fail at a call that leaves something
* `Inv`: what holds of the module in a run of such probes

## Main results

* `inv_run`: the invariant holds after such a run
* `rebind_frees_regions`: a second probe of a bound device fails, and takes its regions from it
* `unload_leaves_region_iff`: an unload leaves the region of the minor numbers if a device was
  bound, and a reference for every binding whose freed memory does not name its device
-/

namespace LinuxStack.Ch36xLinux.Probe

open Registry Transition

variable {ω : Type*} {busy : ℕ → Option ω} {m : Module ω} {a : Act} {e : Entry} {k : PciRes}

/-- What a bound device needs. -/
def Entry.keys (e : Entry) : List PciRes :=
  [.enabled e.pdev e.index, .memory e.index, .regions e.pdev, .ioport e.index, .iomap e.index,
    .cdev e.index]

/-- What the first bound device acquires for all. -/
def shared : List PciRes := [.chrdev 0 CH36x_DEV_NUM, .cls]

def IsNode : PciRes → Bool
  | .node _ => true
  | _ => false

/-- The probe does not fail, or at a call that leaves nothing. -/
def Clean (m : Module ω) (a : Act) : Prop :=
  ∀ c, firstFailure m.ledger (m.ladder a.1 a.2) = some c → IsClean c

/-- What the module holds. -/
structure Inv (busy : ℕ → Option ω) (m : Module ω) : Prop where
  owned : Owned m
  hasMajor : m.hasMajor = !m.list.isEmpty
  hasClass : m.hasClass = !m.list.isEmpty
  region : m.list ≠ [] → m.ledger.table (.chrdev 0 CH36x_DEV_NUM) ≠ none
  noShared : m.list = [] → ∀ k ∈ shared, m.ledger.table k = none
  held : ∀ e ∈ m.list, ∀ k ∈ e.keys, m.ledger.table k ≠ none
  free : ∀ e ∈ m.list, ∀ k ∈ e.keys, (host busy).table k = none
  rest : ∀ k, IsNode k = false → k ∉ shared → (∀ e ∈ m.list, k ∉ e.keys) →
    m.ledger.table k = (host busy).table k
  nodes : ∀ n, m.ledger.table (.node n) ≠ none → ∃ e ∈ m.list, e.minor = n
  index_lt : ∀ e ∈ m.list, e.index < m.probes
  index_inj : ∀ e ∈ m.list, ∀ e' ∈ m.list, e.index = e'.index → e = e'

theorem inv_loaded (busy : ℕ → Option ω) : Inv busy (loaded busy) where
  owned k i hk := by cases k <;> simp [loaded, host] at hk
  hasMajor := rfl
  hasClass := rfl
  region h := absurd rfl h
  noShared _ k hk := by
    simp only [shared, List.mem_cons, List.not_mem_nil, or_false] at hk
    rcases hk with rfl | rfl <;> rfl
  held := by simp [loaded]
  free := by simp [loaded]
  rest _ _ _ _ := rfl
  nodes n hn := absurd rfl hn
  index_lt := by simp [loaded]
  index_inj := by simp [loaded]

theorem isNode_of_mem_keys (h : k ∈ e.keys) : IsNode k = false := by
  simp only [Entry.keys, List.mem_cons, List.not_mem_nil, or_false] at h
  rcases h with rfl | rfl | rfl | rfl | rfl | rfl <;> rfl

theorem not_mem_shared_of_mem_keys (h : k ∈ e.keys) : k ∉ shared := by
  simp only [Entry.keys, List.mem_cons, List.not_mem_nil, or_false] at h
  rcases h with rfl | rfl | rfl | rfl | rfl | rfl <;> simp [shared]

/-! ## Probes -/

/-- A probe without failure acquires the keys of its device, and if it is the first, what it
acquires for all. -/
theorem mem_keys_ladder_iff (h : firstFailure m.ledger (m.ladder a.1 a.2) = none) :
    k ∈ keys (m.ladder a.1 a.2) ↔
      k ∈ Entry.keys ⟨a.1, m.probes, m.gDevCount⟩ ∨ m.hasMajor = false ∧ k ∈ shared := by
  have hok := firstFailure_eq_none_iff.mp h
  unfold Module.ladder probeLadder chrdevLadder at hok ⊢
  cases hmajor : m.hasMajor with
  | true => simp [deviceLadder, keys, Entry.keys]
  | false =>
    cases halloc : a.2 .allocChrdevRegion with
    | true =>
      refine absurd (hok ⟨.allocChrdevRegion, false, none, errRegion a.1 m.probes m.gDevCount⟩ ?_)
        (by simp [Rung.ok])
      simp [hmajor, halloc]
    | false =>
      simp only [deviceLadder, keys, Entry.keys, shared]
      simp
      tauto

section Indices

variable {es : List Entry} {n pdev minor : ℕ}

/-! A binding is named by the number of its probe, which grows. -/

theorem index_lt_append (h : ∀ e ∈ es, e.index < n) :
    ∀ e ∈ es ++ [⟨pdev, n, minor⟩], e.index < n + 1 := by
  intro e he
  rcases List.mem_append.mp he with he | he
  · exact Nat.lt_succ_of_lt (h e he)
  · obtain rfl := List.mem_singleton.mp he
    exact Nat.lt_succ_self n

theorem index_inj_append (h : ∀ e ∈ es, e.index < n)
    (hinj : ∀ e ∈ es, ∀ e' ∈ es, e.index = e'.index → e = e') :
    ∀ e ∈ es ++ [⟨pdev, n, minor⟩], ∀ e' ∈ es ++ [⟨pdev, n, minor⟩],
      e.index = e'.index → e = e' := by
  intro e he e' he' hindex
  rcases List.mem_append.mp he with he | he <;> rcases List.mem_append.mp he' with he' | he'
  · exact hinj e he e' he' hindex
  · -- The new binding has a number that no other has.
    obtain rfl := List.mem_singleton.mp he'
    exact absurd hindex (h e he).ne
  · obtain rfl := List.mem_singleton.mp he
    exact absurd hindex.symm (h e' he').ne
  · rw [List.mem_singleton.mp he, List.mem_singleton.mp he']

end Indices

variable [DecidableEq ω]

/-- A probe that fails clean changes nothing. -/
theorem step_of_failure {c : ProbeCall} (h : Inv busy m) (ha : Clean m a)
    (hc : firstFailure m.ledger (m.ladder a.1 a.2) = some c) :
    step m a = { m with probes := m.probes + 1 } := by
  have hunwinds : Unwinds PciRelease.target m.ledger [] (m.ladder a.1 a.2) :=
    (unwinds_iff_of_marks marks_ladder).mpr ha
  have hok : (climb PciRelease.target (.mine (some m.probes)) (m.ladder a.1 a.2) m.ledger).2 =
      false := by
    by_contra hok
    have hnone := (climb_snd_eq_true_iff nodup_ladder).mp (eq_true_of_ne_false hok)
    rw [hc] at hnone
    cases hnone
  have hsame := (climb_restores_iff h.owned.not_mine nodup_ladder).mpr hunwinds hok
  -- The calls of `ch36x_register_chrdev` do not fail clean, so the probe does not come to them.
  have hreached : (firstFailure m.ledger (deviceLadder a.1 m.probes a.2)).isNone = false := by
    by_contra hreached
    rw [Bool.not_eq_false, Option.isNone_iff_eq_none] at hreached
    rw [Module.ladder, probeLadder, firstFailure_append, hreached, Option.none_or] at hc
    obtain ⟨r, hr, rfl, -⟩ := exists_of_firstFailure hc
    have hclean : IsClean r.call := by
      apply ha
      rw [Module.ladder, probeLadder, firstFailure_append, hreached, Option.none_or, hc]
    unfold chrdevLadder at hr
    split_ifs at hr <;>
      simp only [List.mem_cons, List.not_mem_nil, or_false] at hr <;>
      rcases hr with rfl | rfl | rfl <;> simp [IsClean] at hclean
  simp only [step, pciProbe, hok, hsame, hreached, Bool.false_eq_true, if_false, Bool.false_and,
    Bool.or_false]

/-- A probe that does not fail acquires its keys, which were free. -/
theorem step_of_success (h : Inv busy m)
    (hc : firstFailure m.ledger (m.ladder a.1 a.2) = none) :
    (∀ k ∈ keys (m.ladder a.1 a.2), m.ledger.table k = none) ∧
      step m a =
        { ledger := deviceCreate m.probes m.gDevCount (a.2 .deviceCreate)
            (m.ledger.acquireAll (.mine (some m.probes)) (keys (m.ladder a.1 a.2)))
          hasMajor := true
          hasClass := true
          list := m.list ++ [⟨a.1, m.probes, m.gDevCount⟩]
          gDevCount := (m.gDevCount + 1) % 256
          probes := m.probes + 1 } := by
  have hok : (climb PciRelease.target (.mine (some m.probes)) (m.ladder a.1 a.2) m.ledger).2 =
      true := (climb_snd_eq_true_iff nodup_ladder).mpr hc
  have hledger := climb_of_success hok
  refine ⟨table_eq_none_of_climb nodup_ladder hok, ?_⟩
  have hrungs := firstFailure_eq_none_iff.mp hc
  have hreached : firstFailure m.ledger (deviceLadder a.1 m.probes a.2) = none := by
    rw [Module.ladder, probeLadder, firstFailure_append, Option.or_eq_none_iff] at hc
    exact hc.1
  -- With no major number, the region and the class are acquired now.
  have hfirst : m.hasMajor = false →
      a.2 .allocChrdevRegion = false ∧ a.2 .classCreate = false ∧
        m.ledger.table .cls = none := by
    intro hmajor
    cases halloc : a.2 .allocChrdevRegion with
    | true =>
      refine absurd (hrungs ⟨.allocChrdevRegion, false, none,
        errRegion a.1 m.probes m.gDevCount⟩ ?_) (by simp [Rung.ok])
      simp [Module.ladder, probeLadder, chrdevLadder, hmajor, halloc]
    | false =>
      have hcls := hrungs ⟨.classCreate, !a.2 .classCreate, some .cls,
        errClassCreate a.1 m.probes m.gDevCount true⟩
        (by simp [Module.ladder, probeLadder, chrdevLadder, hmajor, halloc])
      simpa [Rung.ok] using hcls
  have hsame : m.hasClass = m.hasMajor := h.hasClass.trans h.hasMajor.symm
  cases hmajor : m.hasMajor with
  | true => simp [step, pciProbe, hok, hledger, hmajor, hsame]
  | false =>
    obtain ⟨halloc, hclass, hcls⟩ := hfirst hmajor
    simp [step, pciProbe, hok, hledger, hmajor, hreached, halloc, hclass, hcls]

theorem inv_step (h : Inv busy m) (ha : Clean m a) : Inv busy (step m a) := by
  cases hc : firstFailure m.ledger (m.ladder a.1 a.2) with
  | some c =>
    have howned := owned_step h.owned a
    rw [step_of_failure h ha hc] at howned ⊢
    exact ⟨howned, h.hasMajor, h.hasClass, h.region, h.noShared, h.held, h.free, h.rest, h.nodes,
      fun e he => Nat.lt_succ_of_lt (h.index_lt e he), h.index_inj⟩
  | none =>
    have howned := owned_step h.owned a
    obtain ⟨hfree, hstep⟩ := step_of_success h hc
    rw [hstep] at howned ⊢
    let e : Entry := ⟨a.1, m.probes, m.gDevCount⟩
    have hkeys := fun k => mem_keys_ladder_iff (k := k) hc
    have htable : ∀ k, IsNode k = false →
        (deviceCreate m.probes m.gDevCount (a.2 .deviceCreate)
          (m.ledger.acquireAll (.mine (some m.probes)) (keys (m.ladder a.1 a.2)))).table k =
            if k ∈ keys (m.ladder a.1 a.2) then some (.mine (some m.probes))
            else m.ledger.table k := by
      intro k hk
      rcases deviceCreate_cases m.probes m.gDevCount (m.ledger.acquireAll
        (.mine (some m.probes)) (keys (m.ladder a.1 a.2))) (a.2 .deviceCreate) k with
        heq | ⟨rfl, -⟩
      · rw [heq, Ledger.acquireAll_table]
      · cases hk
    -- The new keys are those of the device, and the shared ones at the first probe.
    constructor
    · exact howned
    · simp
    · simp
    · intro _
      rw [htable _ rfl]
      split
      · exact Option.some_ne_none _
      · rename_i hnot
        apply h.region
        rintro hnil
        exact hnot ((hkeys _).mpr (Or.inr ⟨by simp [h.hasMajor, hnil], by simp [shared]⟩))
    · intro hnil
      exact absurd hnil (by simp)
    · intro e' he' k hk
      rw [htable k (isNode_of_mem_keys hk)]
      split
      · exact Option.some_ne_none _
      · rename_i hnot
        rcases List.mem_append.mp he' with he' | he'
        · exact h.held e' he' k hk
        · obtain rfl := List.mem_singleton.mp he'
          exact absurd ((hkeys k).mpr (Or.inl hk)) hnot
    · intro e' he' k hk
      rcases List.mem_append.mp he' with he' | he'
      · exact h.free e' he' k hk
      · obtain rfl := List.mem_singleton.mp he'
        have hnone := hfree k ((hkeys k).mpr (Or.inl hk))
        rw [← h.rest k (isNode_of_mem_keys hk) (not_mem_shared_of_mem_keys hk)]
        · exact hnone
        · intro e' he' hk'
          exact h.held e' he' k hk' hnone
    · intro k hnode hshared hk
      rw [htable k hnode, if_neg]
      · exact h.rest k hnode hshared fun e' he' => hk e' (List.mem_append_left _ he')
      · intro hmem
        rcases (hkeys k).mp hmem with hmem | ⟨-, hmem⟩
        · exact hk e (List.mem_append_right _ (List.mem_singleton_self _)) hmem
        · exact hshared hmem
    · intro n hn
      rcases deviceCreate_cases m.probes m.gDevCount (m.ledger.acquireAll
        (.mine (some m.probes)) (keys (m.ladder a.1 a.2))) (a.2 .deviceCreate) (.node n) with
        heq | ⟨hnode, -⟩
      · rw [heq, Ledger.acquireAll_table, if_neg] at hn
        · obtain ⟨e', he', hminor⟩ := h.nodes n hn
          exact ⟨e', List.mem_append_left _ he', hminor⟩
        · intro hmem
          rcases (hkeys _).mp hmem with hmem | ⟨-, hmem⟩
          · simp [Entry.keys] at hmem
          · simp [shared] at hmem
      · cases hnode
        exact ⟨e, List.mem_append_right _ (List.mem_singleton_self _), rfl⟩
    · exact index_lt_append h.index_lt
    · exact index_inj_append h.index_lt h.index_inj

/-- **The invariant holds after a run of clean probes.** -/
theorem inv_run (h : Inv busy m) {as : List Act} (hclean : Along step Clean m as) :
    Inv busy (run step m as) :=
  hclean.invariant (fun _ _ hm ha => inv_step hm ha) h

/-! ## Second probes -/

omit [DecidableEq ω] in
theorem mem_undo_of_pciRequestRegions {pdev : ℕ} {fails : ProbeCall → Bool}
    {r : Rung ProbeCall PciRes PciRelease} (hr : r ∈ m.ladder pdev fails)
    (hcall : r.call = .pciRequestRegions) : .pciReleaseRegions pdev ∈ r.undo := by
  unfold Module.ladder probeLadder deviceLadder chrdevLadder at hr
  split_ifs at hr <;> simp only [List.cons_append, List.nil_append, List.mem_cons,
    List.not_mem_nil, or_false] at hr <;>
    rcases hr with rfl | rfl | rfl | rfl | rfl | rfl | rfl | rfl | rfl | rfl <;> simp at hcall ⊢

/-- **A device that is bound is not bound again.** Its second probe finds the regions taken and
gives them back, unless it fails before that. -/
theorem rebind_frees_regions {as : List Act} (hclean : Along step Clean (loaded busy) as)
    (he : e ∈ (run step (loaded busy) as).list) (fails : ProbeCall → Bool) :
    let m := run step (loaded busy) as
    (pciProbe m e.pdev fails).list = m.list ∧
      (firstFailure m.ledger (m.ladder e.pdev fails) = some .pciRequestRegions →
        m.ledger.table (.regions e.pdev) ≠ none ∧
          (pciProbe m e.pdev fails).ledger.table (.regions e.pdev) = none) := by
  intro m
  have hinv : Inv busy m := inv_run (inv_loaded busy) hclean
  have hheld := hinv.held e he (.regions e.pdev) (by simp [Entry.keys])
  have hmem : PciRes.regions e.pdev ∈ keys (m.ladder e.pdev fails) := by
    simp [Module.ladder, probeLadder, deviceLadder, keys]
  -- The regions are among the keys, so the ladder cannot be climbed.
  have hok : (climb PciRelease.target (.mine (some m.probes)) (m.ladder e.pdev fails)
      m.ledger).2 = false := by
    by_contra hok
    exact hheld (table_eq_none_of_climb nodup_ladder (eq_true_of_ne_false hok) _ hmem)
  refine ⟨by simp only [pciProbe, hok, Bool.false_eq_true, if_false], fun hfirst => ⟨hheld, ?_⟩⟩
  have hledger : (pciProbe m e.pdev fails).ledger =
      (climb PciRelease.target (.mine (some m.probes)) (m.ladder e.pdev fails) m.ledger).1 := by
    simp only [pciProbe, hok, Bool.false_eq_true, if_false]
  rw [hledger]
  obtain ⟨below, r, above, hrungs, hcall, hclimb⟩ := climb_of_firstFailure nodup_ladder hfirst
  have hr : r ∈ m.ladder e.pdev fails := by
    rw [hrungs]
    exact List.mem_append_right _ List.mem_cons_self
  -- The label of the failed call gives the regions back, whoever has them.
  rw [hclimb, Ledger.releaseAll_table, if_pos]
  exact List.mem_map.mpr ⟨_, mem_undo_of_pciRequestRegions hr hcall, rfl⟩

/-- A first probe whose calls do not fail. -/
theorem along_clean_first :
    Along step Clean (loaded fun _ => (none : Option Empty)) [(0, fun _ => false)] :=
  ⟨fun _ hc => absurd (hc.symm.trans (rfl : _ = none)) (by simp), trivial⟩

/-- The regions of the only device go with its second probe, which finds them taken. -/
theorem rebind_first :
    let m := run step (loaded fun _ => (none : Option Empty)) [(0, fun _ => false)]
    (pciProbe m 0 fun _ => false).list = m.list ∧ m.ledger.table (.regions 0) ≠ none ∧
      (pciProbe m 0 fun _ => false).ledger.table (.regions 0) = none := by
  intro m
  obtain ⟨hlist, hregions⟩ :=
    rebind_frees_regions (e := ⟨0, 0, 0⟩) along_clean_first (by decide) fun _ => false
  exact ⟨hlist, hregions (by decide)⟩

/-! ## Unload -/

variable {freed : Entry → ℕ}

/-- The freed memory of a binding does not name its device. -/
def Lost (freed : Entry → ℕ) (m : Module ω) (k : PciRes) : Prop :=
  ∃ e ∈ m.list, freed e ≠ e.pdev ∧ k = .enabled e.pdev e.index

/-- What the unload gives up for a device. -/
theorem mem_deviceExit_iff :
    some k ∈ (deviceExit freed e).map PciRelease.target ↔
      (k ∈ e.keys ∧ k ≠ .enabled e.pdev e.index) ∨ k = .enabled (freed e) e.index ∨
        k = .node e.minor ∨ k = .chrdev e.minor 1 := by
  cases k <;> simp [deviceExit, Entry.keys, PciRelease.target]

omit [DecidableEq ω] in
theorem mem_exit_iff :
    some k ∈ (exitCalls m freed).map PciRelease.target ↔
      (∃ e ∈ m.list, some k ∈ (deviceExit freed e).map PciRelease.target) ∨
        m.hasClass = true ∧ k = .cls := by
  have hclass : some k = PciRelease.target (.classDestroy !m.hasClass) ↔
      m.hasClass = true ∧ k = .cls := by
    cases m.hasClass <;> simp [PciRelease.target]
  rw [exitCalls, List.map_append, List.mem_append, List.map_flatMap, List.mem_flatMap]
  simp only [List.map_cons, List.map_nil, List.mem_singleton, hclass]

omit [DecidableEq ω] in
/-- No release of the unload is one of the whole region. -/
theorem region_not_mem_exit :
    some (PciRes.chrdev 0 CH36x_DEV_NUM) ∉ (exitCalls m freed).map PciRelease.target := by
  intro hmem
  rcases mem_exit_iff.mp hmem with ⟨e, -, hmem⟩ | ⟨-, hcls⟩
  · rcases mem_deviceExit_iff.mp hmem with ⟨hkey, -⟩ | hkey | hkey | hkey
    · simp [Entry.keys] at hkey
    · cases hkey
    · cases hkey
    · -- The minor number of a device is a region of one.
      simp [CH36x_DEV_NUM] at hkey
  · cases hcls

omit [DecidableEq ω] in
/-- A lost reference is none that the unload gives up. -/
theorem not_mem_exit_of_lost (h : Inv busy m) (hlost : Lost freed m k) :
    some k ∉ (exitCalls m freed).map PciRelease.target := by
  obtain ⟨e, he, hfreed, rfl⟩ := hlost
  intro hmem
  rcases mem_exit_iff.mp hmem with ⟨e', he', hmem⟩ | ⟨-, hcls⟩
  · rcases mem_deviceExit_iff.mp hmem with ⟨hkey, hne⟩ | hkey | hkey | hkey
    · -- The reference of another binding has another number.
      have hkey' : e.pdev = e'.pdev ∧ e.index = e'.index := by simpa [Entry.keys] using hkey
      exact hne (by rw [hkey'.1, hkey'.2])
    · have hkey' : e.pdev = freed e' ∧ e.index = e'.index := by simpa using hkey
      obtain rfl := h.index_inj e he e' he' hkey'.2
      exact hfreed hkey'.1.symm
    · cases hkey
    · cases hkey
  · cases hcls

/-- An unload gives everything back but the region and the lost references. -/
theorem exit_table (h : Inv busy m) (hregion : k ≠ .chrdev 0 CH36x_DEV_NUM)
    (hlost : ¬ Lost freed m k) : (exit m freed).table k = (host busy).table k := by
  rw [exit, Ledger.releaseAll_table]
  split_ifs with hmem
  · rcases mem_exit_iff.mp hmem with ⟨e, he, hmem⟩ | ⟨-, rfl⟩
    · rcases mem_deviceExit_iff.mp hmem with ⟨hkey, -⟩ | rfl | rfl | rfl
      · exact (h.free e he k hkey).symm
      · rfl
      · rfl
      · rfl
    · rfl
  · by_cases hshared : k ∈ shared
    · -- The class goes with the last device, or was never created.
      obtain rfl : k = .cls := by simpa [shared, hregion] using hshared
      have hnil : m.list = [] := by
        by_contra hne
        exact hmem (mem_exit_iff.mpr (Or.inr ⟨by simp [h.hasClass, hne], rfl⟩))
      exact h.noShared hnil _ hshared
    · cases hnode : IsNode k with
      | true =>
        cases k <;> cases hnode
        by_contra hleft
        obtain ⟨e, he, rfl⟩ := h.nodes _ hleft
        refine hmem (mem_exit_iff.mpr (Or.inl ⟨e, he, mem_deviceExit_iff.mpr ?_⟩))
        exact Or.inr (Or.inr (Or.inl rfl))
      | false =>
        apply h.rest k hnode hshared
        intro e he hkey
        refine hmem (mem_exit_iff.mpr (Or.inl ⟨e, he, mem_deviceExit_iff.mpr ?_⟩))
        by_cases hkey' : k = .enabled e.pdev e.index
        · -- The reference is not lost, so the memory names the device.
          have hfreed : freed e = e.pdev := by
            by_contra hfreed
            exact hlost ⟨e, he, hfreed, hkey'⟩
          exact Or.inr (Or.inl (by rw [hfreed, hkey']))
        · exact Or.inl ⟨hkey, hkey'⟩

end LinuxStack.Ch36xLinux.Probe
