import LinuxStack.Ch36x.Probe

/-!
# The life of the module

Between its load and its unload the module binds devices and loses them. What it holds is what its
bound devices need, and a reference for every binding there ever was: a removal does not disable
the device. An open file finds its device by the minor number, which the count of bound devices
gives out modulo 256.

## Main definitions

* `Inv`: what holds of the module between its load and its unload
* `lookup`: the device of a file

## Main results

* `inv_run`: the invariant holds after every run
* `probe_restores_iff`: when a probe leaves the module as it was
* `unload_left_iff`: an unload leaves the references of all bindings, and nothing else
* `lookup_own_iff`: every device is found by its minor number iff no two bound devices were bound
  a multiple of 256 apart
-/

namespace LinuxStack.Ch36x.Probe

open Registry Transition

variable {ω : Type*} {busy : ℕ → Option ω} {m : Module ω} {e e' : Entry}
  {k : PciRes} {pdev i n : ℕ} {fails : ProbeCall → Bool}

def IsEnabled : PciRes → Bool
  | .enabled _ _ => true
  | _ => false

def IsNode : PciRes → Bool
  | .node _ => true
  | _ => false

/-- What the module holds between its load and its unload: the keys of its bound devices, and
references to devices. -/
structure Inv (busy : ℕ → Option ω) (m : Module ω) : Prop where
  indices : (m.list.map Entry.index).Nodup
  pdevs : (m.list.map Entry.pdev).Nodup
  below : ∀ e ∈ m.list, e.index < m.bound
  owners : ∀ k i, m.ledger.table k = some (.mine (some i)) → i < m.bound
  held : ∀ e ∈ m.list, ∀ k ∈ e.keys, m.ledger.table k = some (.mine (some e.index))
  free : ∀ e ∈ m.list, ∀ k ∈ e.keys, (loaded busy).ledger.table k = none
  rest : ∀ k, IsEnabled k = false → IsNode k = false → (∀ e ∈ m.list, k ∉ e.keys) →
    m.ledger.table k = (loaded busy).ledger.table k
  nodes : ∀ n, m.ledger.table (.node n) ≠ none → ∃ e ∈ m.list, e.minor = n

/-! ## Keys -/

/-- Two entries that share a key share their device or their number. -/
theorem eq_of_mem_keys (h : k ∈ e.keys) (h' : k ∈ e'.keys) :
    e.index = e'.index ∨ e.pdev = e'.pdev := by
  simp only [Entry.keys, List.mem_cons, List.not_mem_nil, or_false] at h h'
  rcases h with rfl | rfl | rfl | rfl | rfl | rfl <;> simp at h' <;> tauto

theorem isNode_of_mem_keys (h : k ∈ e.keys) : IsNode k = false := by
  simp only [Entry.keys, List.mem_cons, List.not_mem_nil, or_false] at h
  rcases h with rfl | rfl | rfl | rfl | rfl | rfl <;> rfl

/-- A removal is aimed at the keys of the entry but its reference, and at its node. -/
theorem mem_removal_iff :
    some k ∈ (removal e).map PciRelease.target ↔
      k = .node e.minor ∨ k ∈ e.keys ∧ IsEnabled k = false := by
  cases k <;> simp [removal, Entry.keys, PciRelease.target, IsEnabled]

namespace Inv

/-- Two bound devices share no key. -/
theorem disjoint (h : Inv busy m) (he : e ∈ m.list) (he' : e' ∈ m.list) (hk : k ∈ e.keys)
    (hk' : k ∈ e'.keys) : e = e' := by
  rcases eq_of_mem_keys hk hk' with heq | heq
  · exact List.inj_on_of_nodup_map h.indices he he' heq
  · exact List.inj_on_of_nodup_map h.pdevs he he' heq

theorem not_mine (h : Inv busy m) (k : PciRes) :
    m.ledger.table k ≠ some (.mine (some m.bound)) :=
  fun hk => absurd (h.owners k m.bound hk) (Nat.lt_irrefl _)

end Inv

/-- A module that was just loaded holds its class and its region. -/
theorem inv_loaded (busy : ℕ → Option ω) : Inv busy (loaded busy) where
  indices := List.nodup_nil
  pdevs := List.nodup_nil
  below := by simp [loaded]
  owners k i hk := by
    rw [loaded, Ledger.acquireAll_table] at hk
    split at hk
    · simp at hk
    · cases k <;> simp [host] at hk
  held := by simp [loaded]
  free := by simp [loaded]
  rest _ _ _ _ := rfl
  nodes n hn := by
    refine absurd ?_ hn
    rw [loaded, Ledger.acquireAll_table, if_neg (by simp)]
    rfl

/-! ## Probes -/

theorem deviceCreate_table (l : PciLedger ω) (b : Bool) (hk : IsNode k = false) :
    (deviceCreate i n b l).table k = l.table k := by
  unfold deviceCreate
  split
  · exact Ledger.acquire_table_of_ne (by rintro rfl; cases hk)
  · rfl

/-- A created node is one of the minor number, and of the probe. -/
theorem deviceCreate_cases (l : PciLedger ω) (b : Bool) (k : PciRes) :
    (deviceCreate i n b l).table k = l.table k ∨
      k = .node n ∧ (deviceCreate i n b l).table k = some (.mine (some i)) := by
  unfold deviceCreate
  split
  · by_cases hk : k = .node n
    · subst hk
      exact Or.inr ⟨rfl, Ledger.acquire_table_self _⟩
    · exact Or.inl (Ledger.acquire_table_of_ne hk)
  · exact Or.inl rfl

variable [DecidableEq ω]

/-- A probe does nothing, or it finds its keys free and takes them. -/
theorem pciProbe_cases (hme : ∀ k, m.ledger.table k ≠ some (.mine (some m.bound)))
    (pdev : ℕ) (fails : ProbeCall → Bool) :
    pciProbe m pdev fails = m ∨
      (∀ k ∈ Entry.keys ⟨pdev, m.bound⟩, m.ledger.table k = none) ∧
        pciProbe m pdev fails =
          { ledger := deviceCreate m.bound m.gDevCount (fails .deviceCreate)
              (m.ledger.acquireAll (.mine (some m.bound)) (Entry.keys ⟨pdev, m.bound⟩))
            list := m.list ++ [⟨pdev, m.bound⟩]
            bound := m.bound + 1 } := by
  cases h : (climb PciRelease.target (.mine (some m.bound)) (probeLadder pdev m.bound fails)
    m.ledger).2 with
  | false => exact Or.inl (pciProbe_of_failure hme h)
  | true =>
    refine Or.inr ⟨table_eq_none_of_climb nodup_probeLadder h, ?_⟩
    have hledger := climb_of_success h
    simp only [pciProbe, h, hledger, if_true]
    rfl

theorem inv_pciProbe (h : Inv busy m) (hp : ∀ e ∈ m.list, e.pdev ≠ pdev) :
    Inv busy (pciProbe m pdev fails) := by
  rcases pciProbe_cases h.not_mine pdev fails with hsame | ⟨hfree, hprobe⟩
  · rw [hsame]
    exact h
  rw [hprobe]
  let e : Entry := ⟨pdev, m.bound⟩
  -- The new keys are in nobody's hands, so they are none of the other devices'.
  have hnew : ∀ e' ∈ m.list, ∀ k ∈ e.keys, k ∉ e'.keys := by
    intro e' he' k hk hk'
    have hheld := h.held e' he' k hk'
    rw [hfree k hk] at hheld
    cases hheld
  have htable : ∀ k, IsNode k = false →
      (deviceCreate m.bound m.gDevCount (fails .deviceCreate)
        (m.ledger.acquireAll (.mine (some m.bound)) e.keys)).table k =
          if k ∈ e.keys then some (.mine (some m.bound)) else m.ledger.table k := by
    intro k hk
    rw [deviceCreate_table _ _ hk, Ledger.acquireAll_table]
  constructor
  · rw [List.map_append, List.nodup_append]
    refine ⟨h.indices, List.nodup_singleton _, ?_⟩
    intro i hi j hj
    obtain ⟨e', he', rfl⟩ := List.mem_map.mp hi
    obtain rfl := List.mem_singleton.mp hj
    exact Nat.ne_of_lt (h.below e' he')
  · rw [List.map_append, List.nodup_append]
    refine ⟨h.pdevs, List.nodup_singleton _, ?_⟩
    intro p hp' q hq
    obtain ⟨e', he', rfl⟩ := List.mem_map.mp hp'
    obtain rfl := List.mem_singleton.mp hq
    exact hp e' he'
  · intro e' he'
    rcases List.mem_append.mp he' with he' | he'
    · exact Nat.lt_succ_of_lt (h.below e' he')
    · obtain rfl := List.mem_singleton.mp he'
      exact Nat.lt_succ_self _
  · intro k i hk
    rcases deviceCreate_cases (m.ledger.acquireAll (.mine (some m.bound)) e.keys)
      (fails .deviceCreate) k with heq | ⟨-, heq⟩
    · rw [heq, Ledger.acquireAll_table] at hk
      split at hk
      · simp only [Option.some.injEq, Owner.mine.injEq] at hk
        exact hk ▸ Nat.lt_succ_self _
      · exact Nat.lt_succ_of_lt (h.owners k i hk)
    · rw [heq] at hk
      simp only [Option.some.injEq, Owner.mine.injEq] at hk
      exact hk ▸ Nat.lt_succ_self _
  · intro e' he' k hk
    rw [htable k (isNode_of_mem_keys hk)]
    rcases List.mem_append.mp he' with he' | he'
    · rw [if_neg fun hmem => hnew e' he' k hmem hk]
      exact h.held e' he' k hk
    · obtain rfl := List.mem_singleton.mp he'
      exact if_pos hk
  · intro e' he' k hk
    rcases List.mem_append.mp he' with he' | he'
    · exact h.free e' he' k hk
    · obtain rfl := List.mem_singleton.mp he'
      cases hen : IsEnabled k with
      | false =>
        rw [← h.rest k hen (isNode_of_mem_keys hk) fun e' he' => hnew e' he' k hk]
        exact hfree k hk
      | true =>
        cases k <;> cases hen
        rfl
  · intro k hen hnode hk
    have hne : k ∉ e.keys := hk e (List.mem_append_right _ (List.mem_singleton_self _))
    rw [htable k hnode, if_neg hne]
    exact h.rest k hen hnode fun e' he' => hk e' (List.mem_append_left _ he')
  · intro n hn
    rcases deviceCreate_cases (m.ledger.acquireAll (.mine (some m.bound)) e.keys)
      (fails .deviceCreate) (.node n) with heq | ⟨hnode, -⟩
    · rw [heq, Ledger.acquireAll_table, if_neg (by simp [Entry.keys])] at hn
      obtain ⟨e', he', hminor⟩ := h.nodes n hn
      exact ⟨e', List.mem_append_left _ he', hminor⟩
    · cases hnode
      exact ⟨e, List.mem_append_right _ (List.mem_singleton_self _), rfl⟩

/-! ## Removals -/

theorem pciRemove_table (k : PciRes) :
    (pciRemove m e).ledger.table k =
      if k = .node e.minor ∨ k ∈ e.keys ∧ IsEnabled k = false then none
      else m.ledger.table k := by
  rw [pciRemove, Ledger.releaseAll_table]
  simp only [mem_removal_iff]

theorem inv_pciRemove (h : Inv busy m) (he : e ∈ m.list) : Inv busy (pciRemove m e) := by
  have hlist : (pciRemove m e).list = m.list.erase e := rfl
  -- An entry occurs once, so the removal takes the device from the list.
  have hnodup : m.list.Nodup := h.indices.of_map _
  have hmem : ∀ e', e' ∈ m.list.erase e ↔ e' ≠ e ∧ e' ∈ m.list := fun _ => hnodup.mem_erase_iff
  constructor
  · exact h.indices.sublist (List.Sublist.map _ List.erase_sublist)
  · exact h.pdevs.sublist (List.Sublist.map _ List.erase_sublist)
  · intro e' he'
    exact h.below e' ((hmem e').mp he').2
  · intro k i hk
    rw [pciRemove_table] at hk
    split at hk
    · cases hk
    · exact h.owners k i hk
  · intro e' he' k hk
    obtain ⟨hne, he'⟩ := (hmem e').mp he'
    rw [pciRemove_table, if_neg, h.held e' he' k hk]
    rintro (rfl | ⟨hk', -⟩)
    · cases isNode_of_mem_keys hk
    · exact hne (h.disjoint he' he hk hk')
  · intro e' he'
    exact h.free e' ((hmem e').mp he').2
  · intro k hen hnode hk
    rw [pciRemove_table]
    by_cases hke : k ∈ e.keys
    · rw [if_pos (Or.inr ⟨hke, hen⟩), h.free e he k hke]
    · rw [if_neg]
      · refine h.rest k hen hnode fun e' he' => ?_
        by_cases heq : e' = e
        · rwa [heq]
        · exact hk e' ((hmem e').mpr ⟨heq, he'⟩)
      · rintro (rfl | ⟨hk', -⟩)
        · cases hnode
        · exact hke hk'
  · intro n hn
    rw [pciRemove_table] at hn
    split at hn
    · exact absurd rfl hn
    · rename_i hnot
      obtain ⟨e', he', rfl⟩ := h.nodes n hn
      refine ⟨e', (hmem e').mpr ⟨?_, he'⟩, rfl⟩
      rintro rfl
      exact hnot (Or.inl rfl)

/-! ## Runs -/

omit [DecidableEq ω] in
theorem drvdata_eq_some (h : drvdata m pdev = some e) : e ∈ m.list ∧ e.pdev = pdev :=
  ⟨List.mem_of_find?_eq_some h, by simpa using List.find?_some h⟩

omit [DecidableEq ω] in
theorem drvdata_eq_none : drvdata m pdev = none ↔ ∀ e ∈ m.list, e.pdev ≠ pdev := by
  simp [drvdata]

theorem inv_step (h : Inv busy m) (a : Act) : Inv busy (step m a) := by
  cases a with
  | probe pdev fails =>
    cases hd : drvdata m pdev with
    | none =>
      simp only [step, hd]
      exact inv_pciProbe h (drvdata_eq_none.mp hd)
    | some e =>
      simp only [step, hd]
      exact h
  | remove pdev =>
    cases hd : drvdata m pdev with
    | none =>
      simp only [step, hd]
      exact h
    | some e =>
      simp only [step, hd]
      exact inv_pciRemove h (drvdata_eq_some hd).1

/-- **The invariant holds after every run.** -/
theorem inv_run (h : Inv busy m) (as : List Act) : Inv busy (run step m as) :=
  run_invariant (fun _ a hm => inv_step hm a) h

/-! ## Probes that fail -/

/-- The number of devices bound never decreases. -/
theorem bound_le_step (m : Module ω) (a : Act) : m.bound ≤ (step m a).bound := by
  cases a with
  | probe pdev fails =>
    simp only [step, pciProbe]
    split
    · exact Nat.le_refl _
    · split
      · exact Nat.le_succ _
      · exact Nat.le_refl _
  | remove pdev =>
    simp only [step, pciRemove]
    split <;> exact Nat.le_refl _

theorem bound_le_run (m : Module ω) (as : List Act) : m.bound ≤ (run step m as).bound :=
  run_invariant (I := fun m' : Module ω => m.bound ≤ m'.bound)
    (fun m' a hle => Nat.le_trans hle (bound_le_step m' a)) (Nat.le_refl _)

/-! ## References -/

/-- A removal leaves the references to devices. -/
theorem enabled_remove (m : Module ω) (pdev' : ℕ) :
    (step m (.remove pdev')).ledger.table (.enabled pdev i) =
      m.ledger.table (.enabled pdev i) := by
  cases hd : drvdata m pdev' with
  | none => simp only [step, hd]
  | some e =>
    simp only [step, hd]
    rw [pciRemove_table, if_neg]
    simp [IsEnabled]

/-- A reference to a device is that of a bound device, or was there before. -/
theorem enabled_step (h : Inv busy m) (a : Act) :
    (step m a).ledger.table (.enabled pdev i) ≠ none ↔
      m.ledger.table (.enabled pdev i) ≠ none ∨ ⟨pdev, i⟩ ∈ (step m a).list := by
  have hheld : ⟨pdev, i⟩ ∈ (step m a).list →
      (step m a).ledger.table (.enabled pdev i) ≠ none := by
    intro hlive
    rw [(inv_step h a).held _ hlive (.enabled pdev i) (by simp [Entry.keys])]
    exact Option.some_ne_none _
  cases a with
  | remove pdev' =>
    rw [enabled_remove] at hheld ⊢
    exact ⟨Or.inl, fun hor => hor.elim id hheld⟩
  | probe pdev' fails =>
    cases hd : drvdata m pdev' with
    | some e =>
      simp only [step, hd] at hheld ⊢
      exact ⟨Or.inl, fun hor => hor.elim id hheld⟩
    | none =>
      simp only [step, hd] at hheld ⊢
      refine ⟨fun hleft => ?_, fun hor => hor.elim (fun hthere => ?_) hheld⟩
      · rcases pciProbe_cases h.not_mine pdev' fails with hsame | ⟨-, hprobe⟩
        · rw [hsame] at hleft
          exact Or.inl hleft
        · rw [hprobe, deviceCreate_table _ _ rfl, Ledger.acquireAll_table] at hleft
          split at hleft
          · rename_i hmem
            obtain ⟨rfl, rfl⟩ : pdev = pdev' ∧ i = m.bound := by simpa [Entry.keys] using hmem
            rw [hprobe]
            exact Or.inr (List.mem_append_right _ (List.mem_singleton_self _))
          · exact Or.inl hleft
      · rcases pciProbe_cases h.not_mine pdev' fails with hsame | ⟨-, hprobe⟩
        · rw [hsame]
          exact hthere
        · rw [hprobe, deviceCreate_table _ _ rfl, Ledger.acquireAll_table]
          split
          · exact Option.some_ne_none _
          · exact hthere

/-- The references after a run are those before it, and those of all devices bound on the way. -/
theorem enabled_run (h : Inv busy m) (as : List Act) :
    (run step m as).ledger.table (.enabled pdev i) ≠ none ↔
      m.ledger.table (.enabled pdev i) ≠ none ∨
        ∃ bs, bs <+: as ∧ ⟨pdev, i⟩ ∈ (run step m bs).list := by
  induction as generalizing m with
  | nil =>
    refine ⟨Or.inl, fun hor => hor.elim id ?_⟩
    rintro ⟨bs, hbs, hlive⟩
    obtain rfl := List.prefix_nil.mp hbs
    rw [run_nil, h.held _ hlive (.enabled pdev i) (by simp [Entry.keys])]
    exact Option.some_ne_none _
  | cons a as ih =>
    rw [run_cons, ih (inv_step h a), enabled_step h a]
    constructor
    · rintro ((hthere | hlive) | ⟨bs, hbs, hlive⟩)
      · exact Or.inl hthere
      · exact Or.inr ⟨[a], List.cons_prefix_cons.mpr ⟨rfl, List.nil_prefix⟩, hlive⟩
      · exact Or.inr ⟨a :: bs, List.cons_prefix_cons.mpr ⟨rfl, hbs⟩, hlive⟩
    · rintro (hthere | ⟨bs, hbs, hlive⟩)
      · exact Or.inl (Or.inl hthere)
      · rcases List.prefix_cons_iff.mp hbs with rfl | ⟨t, rfl, ht⟩
        · refine Or.inl (Or.inl ?_)
          rw [h.held _ hlive (.enabled pdev i) (by simp [Entry.keys])]
          exact Option.some_ne_none _
        · exact Or.inr ⟨t, ht, hlive⟩

/-- No device had the next number, so there is no reference of that name. -/
theorem enabled_fresh (busy : ℕ → Option ω) (as : List Act) (pdev : ℕ) :
    (run step (loaded busy) as).ledger.table
      (.enabled pdev (run step (loaded busy) as).bound) = none := by
  by_contra hthere
  rcases (enabled_run (inv_loaded busy) as).mp hthere with hloaded | ⟨bs, ⟨cs, rfl⟩, hlive⟩
  · exact hloaded rfl
  · -- A reference of that name is one of a device with a smaller number.
    have hlt := (inv_run (inv_loaded busy) bs).below _ hlive
    have hle := bound_le_run (run step (loaded busy) bs) cs
    rw [← run_append] at hle
    exact absurd hlt (Nat.not_lt.mpr hle)

omit [DecidableEq ω] in
/-- Of the keys of the next probe, only the regions can be taken. -/
theorem table_next_keys (h : Inv busy m) (hp : ∀ e ∈ m.list, e.pdev ≠ pdev)
    (hk : k ∈ Entry.keys ⟨pdev, m.bound⟩) (hen : IsEnabled k = false) :
    m.ledger.table k = (host busy).table k := by
  have hnone : ∀ e ∈ m.list, k ∉ e.keys := by
    intro e he hk'
    rcases eq_of_mem_keys hk' hk with hindex | hpdev
    · exact absurd hindex (Nat.ne_of_lt (h.below e he))
    · exact hp e he hpdev
  rw [h.rest k hen (isNode_of_mem_keys hk) hnone, loaded, Ledger.acquireAll_table, if_neg]
  intro hmem
  rcases List.mem_cons.mp hmem with rfl | hmem
  · simp [Entry.keys] at hk
  · obtain rfl := List.mem_singleton.mp hmem
    simp [Entry.keys] at hk

omit [DecidableEq ω] in
/-- The next probe finds its keys free iff no other driver has the regions. -/
theorem keys_free_iff (h : Inv busy m) (hp : ∀ e ∈ m.list, e.pdev ≠ pdev)
    (hfresh : m.ledger.table (.enabled pdev m.bound) = none) :
    (∀ k ∈ Entry.keys ⟨pdev, m.bound⟩, m.ledger.table k = none) ↔ busy pdev = none := by
  constructor
  · intro hfree
    have hregions : PciRes.regions pdev ∈ Entry.keys ⟨pdev, m.bound⟩ := by simp [Entry.keys]
    have hnone := hfree _ hregions
    rw [table_next_keys h hp hregions rfl] at hnone
    exact Option.map_eq_none_iff.mp hnone
  · intro hbusy k hk
    cases hen : IsEnabled k with
    | true =>
      have hkey := hk
      simp only [Entry.keys, List.mem_cons, List.not_mem_nil, or_false] at hkey
      rcases hkey with rfl | rfl | rfl | rfl | rfl | rfl
      -- The reference is the one key that other devices may have too.
      case inr.inl => exact hfresh
      all_goals cases hen
    | false =>
      rw [table_next_keys h hp hk hen]
      cases k with
      | regions i =>
        obtain rfl : i = pdev := by simpa [Entry.keys] using hk
        exact Option.map_eq_none_iff.mpr hbusy
      | _ => rfl

/-- **A probe leaves the module as it was** iff the device has its driver, its regions are another
driver's, or one of the calls that are looked at fails. -/
theorem probe_restores_iff (busy : ℕ → Option ω) (as : List Act) (pdev : ℕ)
    (fails : ProbeCall → Bool) :
    step (run step (loaded busy) as) (.probe pdev fails) = run step (loaded busy) as ↔
      (drvdata (run step (loaded busy) as) pdev).isSome ∨ (busy pdev).isSome ∨
        ∃ c, c ≠ .deviceCreate ∧ fails c := by
  have hinv := inv_run (inv_loaded busy) as
  have hfresh := enabled_fresh busy as pdev
  generalize run step (loaded busy) as = m at hinv hfresh
  cases hd : drvdata m pdev with
  | some e => simp only [step, hd, Option.isSome_some, true_or]
  | none =>
    have hkeys := keys_free_iff hinv (drvdata_eq_none.mp hd) hfresh
    simp only [step, hd, Option.isSome_none, Bool.false_eq_true, false_or]
    rw [pciProbe_eq_self_iff hinv.not_mine, ne_eq, firstFailure_eq_none_iff, forall_ok_iff,
      passes_probeLadder_iff, keys_probeLadder, hkeys]
    simp only [not_and_or, not_forall, Bool.not_eq_false, Option.isSome_iff_ne_none, ne_eq,
      exists_prop, or_comm]

/-! ## Unload -/

/-- The removals of an unload. -/
def removals (m : Module ω) : List Act := m.list.map fun e => .remove e.pdev

theorem list_run_removals (m : Module ω) : (run step m (removals m)).list = [] := by
  unfold removals
  generalize hes : m.list = es
  induction es generalizing m with
  | nil => exact hes
  | cons e es ih =>
    have hdata : drvdata m e.pdev = some e := by simp [drvdata, hes]
    have hstep : step m (.remove e.pdev) = pciRemove m e := by simp only [step, hdata]
    rw [List.map_cons, run_cons, hstep]
    apply ih
    simp [pciRemove, hes]

theorem enabled_run_removals (m : Module ω) :
    (run step m (removals m)).ledger.table (.enabled pdev i) =
      m.ledger.table (.enabled pdev i) := by
  unfold removals
  generalize m.list = es
  induction es generalizing m with
  | nil => rfl
  | cons e es ih => rw [List.map_cons, run_cons, ih, enabled_remove]

/-- An unload gives everything back but the references. -/
theorem exit_table (h : Inv busy m) (k : PciRes) :
    (exit m).table k = if IsEnabled k then m.ledger.table k else (host busy).table k := by
  -- The unload first removes all devices.
  have hempty := list_run_removals m
  have hinv := inv_run h (removals m)
  have hexit : (exit m).table k =
      if k = .chrdev 0 CH36X_MAX_NUM ∨ k = .cls then none
      else (run step m (removals m)).ledger.table k := by
    rw [exit, Ledger.releaseAll_table]
    simp [PciRelease.target, removals]
  rw [hexit]
  cases hen : IsEnabled k with
  | true =>
    cases k <;> cases hen
    rw [if_neg (by simp), if_pos rfl, enabled_run_removals]
  | false =>
    rw [if_neg Bool.false_ne_true]
    cases hnode : IsNode k with
    | true =>
      cases k <;> cases hnode
      rename_i n
      rw [if_neg (by simp)]
      by_contra hleft
      obtain ⟨e, he, -⟩ := hinv.nodes n hleft
      rw [hempty] at he
      cases he
    | false =>
      split
      · rename_i hown
        rcases hown with rfl | rfl <;> rfl
      · rename_i hnot
        rw [hinv.rest k hen hnode (by simp [hempty]), loaded, Ledger.acquireAll_table, if_neg]
        simpa [or_comm] using hnot

/-- **An unload leaves the references of all bindings there ever were**, and nothing else: no removal
disables its device. -/
theorem unload_left_iff (busy : ℕ → Option ω) (as : List Act) (k : PciRes) :
    (exit (run step (loaded busy) as)).table k ≠ (host busy).table k ↔
      ∃ bs, bs <+: as ∧ ∃ e ∈ (run step (loaded busy) bs).list,
        k = .enabled e.pdev e.index := by
  have hinv := inv_run (inv_loaded busy) as
  rw [exit_table hinv]
  cases hen : IsEnabled k with
  | false =>
    simp only [Bool.false_eq_true, if_false, ne_eq, not_true, false_iff]
    rintro ⟨bs, -, e, -, rfl⟩
    cases hen
  | true =>
    cases k <;> cases hen
    rename_i pdev i
    rw [if_pos rfl]
    have hhost : (host busy).table (.enabled pdev i) = none := rfl
    have hloaded : (loaded busy).ledger.table (.enabled pdev i) = none := rfl
    rw [hhost, enabled_run (inv_loaded busy) as]
    simp only [hloaded, ne_eq, not_true, false_or, PciRes.enabled.injEq]
    constructor
    · rintro ⟨bs, hbs, hlive⟩
      exact ⟨bs, hbs, _, hlive, rfl, rfl⟩
    · rintro ⟨bs, hbs, e, hlive, rfl, rfl⟩
      exact ⟨bs, hbs, hlive⟩

/-! ## Minor numbers -/

/-- The device of a file, by the minor number of its node: the first in the list that has it. -/
def lookup (m : Module ω) (minor : ℕ) : Option Entry := m.list.find? fun e => e.minor = minor

/-- **Every device is found by its minor number** iff no two bound devices were bound a multiple of
256 apart. -/
theorem lookup_own_iff (busy : ℕ → Option ω) (as : List Act) :
    (∀ e ∈ (run step (loaded busy) as).list,
        lookup (run step (loaded busy) as) e.minor = some e) ↔
      ∀ e ∈ (run step (loaded busy) as).list, ∀ e' ∈ (run step (loaded busy) as).list,
        e.index < e'.index → ¬ 256 ∣ e'.index - e.index := by
  have hinv := inv_run (inv_loaded busy) as
  generalize run step (loaded busy) as = m at hinv
  constructor
  · intro hown e he e' he' hlt hdvd
    -- The second of the two is not found, as the first has its number.
    have hminor : e'.minor = e.minor := by
      unfold Entry.minor
      omega
    have hsame : some e' = some e := by rw [← hown e' he', hminor, hown e he]
    cases hsame
    exact Nat.lt_irrefl _ hlt
  · intro hapart e he
    have hsome : (lookup m e.minor).isSome := by
      simp only [lookup, List.find?_isSome, decide_eq_true_eq]
      exact ⟨e, he, rfl⟩
    obtain ⟨e', hfound⟩ := Option.isSome_iff_exists.mp hsome
    have he' : e' ∈ m.list := List.mem_of_find?_eq_some hfound
    have hminor : e'.minor = e.minor := by simpa using List.find?_some hfound
    unfold Entry.minor at hminor
    -- Two devices of one minor number are a multiple of 256 apart, or the same.
    have heq : e'.index = e.index := by
      rcases Nat.lt_trichotomy e'.index e.index with hlt | heq | hlt
      · exact absurd (by omega) (hapart e' he' e he hlt)
      · exact heq
      · exact absurd (by omega) (hapart e he e' he' hlt)
    rw [hfound, List.inj_on_of_nodup_map hinv.indices he' he heq]

end LinuxStack.Ch36x.Probe
