import LinuxStack.Sdio.Callbacks
import LinuxStack.Transition.Run

/-!
# The lifecycle of SDIO bindings

The SDIO core issues probes and removes for any number of functions, and other drivers register
regions in between. All bindings write the same `sdio_dev`, and a probe creates a class of a fixed
name, so that a probe is only harmless when nobody is bound. A later probe that does not get its
region goes on without it; if it succeeds, its function can never be removed without harm.

## Main definitions

* `Idle`, `Bound`, `Consistent`: the invariant
* `Doomed`: a function is bound without a region

## Main results

* `not_kept_of_bound`: no probe is harmless while a function is bound
* `lifecycle_guarded`: safe probes guard the contract
* `kept_iff_safe`: a run of safe probes keeps the contract, and a run that keeps it and leaves
  nobody bound has only safe probes
-/

namespace LinuxStack.Sdio

open Registry Transition

variable {F H ω : Type*} [DecidableEq F] [DecidableEq ω] [DecidableEq H]

/-! ## The invariant -/

/-- Nobody is bound, and the driver owns nothing. -/
def Idle (s : Core F H ω) : Prop :=
  (∀ f, s.bound f = none) ∧ ∀ f r, s.driver.kernel.ledger.table r ≠ some (.mine f)

/-- The function `f` alone is bound, the driver owns the entries of its binding, and `sdio_dev`
names them. -/
structure Bound (s : Core F H ω) (f : F) (own : Res → Bool) : Prop where
  bound : s.bound f = some own
  alone : ∀ g, g ≠ f → s.bound g = none
  cls : s.driver.sdioDev.cls = .valid "rpi-sdio"
  devid : s.driver.sdioDev.devid = ⟨s.driver.sdioDev.major, 0⟩
  major : s.driver.sdioDev.major ≠ 0
  table : ∀ g r,
    s.driver.kernel.ledger.table r = some (.mine g) ↔ g = f ∧ r ∈ ownKeys s.driver
  own : ∀ r, own r = true ↔ r ∈ ownKeys s.driver

/-- The states of a run of safe probes. -/
def Consistent (s : Core F H ω) : Prop := Idle s ∨ ∃ f own, Bound s f own

/-- A function is bound, and owns no region. -/
def Doomed (s : Core F H ω) : Prop :=
  ∃ f, s.bound f ≠ none ∧ ∀ d, s.driver.kernel.ledger.table (.region d) ≠ some (.mine f)

/-! ## Steps -/

section Steps

variable {host : F → H} {s : Core F H ω} {f : F} {o : ProbeFaults}

omit [DecidableEq F] [DecidableEq ω] [DecidableEq H] in
/-- Registrations of others do not touch the entries of the driver. -/
theorem otherRegion_table_iff (s : TestSdio F H ω) (x : ω) (d : DevT) (r : Res) (f : F) :
    (otherRegion s x d).kernel.ledger.table r = some (.mine f) ↔
      s.kernel.ledger.table r = some (.mine f) := by
  unfold otherRegion Kernel.registerChrdevRegion
  rcases s.kernel.create_cases (.other x) (.region d) none EBUSY () [] with ⟨he, -⟩ | ⟨he, hok⟩
  · rw [he]
  · -- The region was free, so it was no entry of the driver.
    rw [he]
    show (s.kernel.ledger.acquire (.other x) (.region d)).table r = _ ↔ _
    by_cases hr : r = .region d
    · subst hr
      have hfree := Rung.table_eq_none_of_ok hok (.region d) (by simp)
      simp [hfree]
    · rw [Ledger.acquire_table_of_ne hr]

omit [DecidableEq F] [DecidableEq ω] [DecidableEq H] in
theorem otherRegion_sdioDev (s : TestSdio F H ω) (x : ω) (d : DevT) :
    (otherRegion s x d).sdioDev = s.sdioDev := by
  unfold otherRegion
  split <;> rfl

/-- A safe probe that fails leaves the core idle. -/
theorem idle_of_probe_failed (hs : Idle s) (hkept : Kept host s (.probe f o))
    (hret : (testSdioProbe host o f s.driver).2 < 0) :
    Idle (Core.step host s (.probe f o)) := by
  obtain ⟨hbound, htable⟩ := hs
  have hsame := hkept.1 hret
  refine ⟨?_, ?_⟩
  · simpa [Core.step, hret] using hbound
  · intro g r
    show (testSdioProbe host o f s.driver).1.kernel.ledger.table r ≠ _
    rw [hsame]
    exact htable g r

/-- A safe probe that succeeds binds its function. -/
theorem bound_of_probe (hs : Idle s) (hentered : Entered o s.driver)
    (hret : ¬ (testSdioProbe host o f s.driver).2 < 0) :
    ∃ own, Bound (Core.step host s (.probe f o)) f own := by
  obtain ⟨hbound, htable⟩ := hs
  obtain ⟨hprobe, hmajor⟩ := probe_of_entered hentered hret
  let k := s.driver.kernel.acquireAll (.mine f) (keys (rungs o s.driver))
  have hk : ∀ g r, k.ledger.table r = some (.mine g) ↔
      g = f ∧ r ∈ keys (rungs o s.driver) := by
    intro g r
    rw [Kernel.acquireAll_ledger, Ledger.acquireAll_table]
    by_cases hr : r ∈ keys (rungs o s.driver)
    · simp [hr, eq_comm]
    · simp [hr, htable g r]
  have hstep : Core.step host s (.probe f o) =
      ⟨probed host o f s.driver k,
        Function.update s.bound f (some (created f s.driver.kernel k))⟩ := by
    simp [Core.step, hprobe, k, probed]
  have hkeys : ownKeys (probed host o f s.driver k) = keys (rungs o s.driver) := by
    rw [keys_rungs]
    rfl
  rw [hstep]
  refine ⟨created f s.driver.kernel k, ?_⟩
  constructor
  · exact Function.update_self f _ _
  · intro g hg
    show Function.update s.bound f _ g = none
    rw [Function.update_of_ne hg]
    exact hbound g
  · rfl
  · exact DevT.ext rfl (probeDev_minor o s.driver)
  · exact hmajor
  · intro g r
    rw [hkeys]
    exact hk g r
  · intro r
    rw [hkeys]
    simp [created, htable f r, hk f r]

/-- A remove of the bound function keeps the contract and leaves the core idle. -/
theorem kept_and_idle_of_remove {own : Res → Bool} (hs : Bound s f own) :
    Kept host s (.remove f) ∧ Idle (Core.step host s (.remove f)) := by
  have htargets := removeReleases_target hs.cls
  -- The four releases are aimed at the four entries of the binding.
  have hmem : ∀ r, some r ∈ (removeReleases s.driver).map Release.target ↔
      r ∈ ownKeys s.driver := by
    intro r
    simp [htargets]
  have htable : ∀ r, (testSdioRemove host f s.driver).kernel.ledger.table r =
      if r ∈ ownKeys s.driver then none else s.driver.kernel.ledger.table r := by
    intro r
    rw [testSdioRemove_ledger, Ledger.releaseAll_table]
    simp only [hmem]
  have hstray : (testSdioRemove host f s.driver).kernel.ledger.stray =
      s.driver.kernel.ledger.stray := by
    rw [testSdioRemove_ledger, Ledger.releaseAll_stray_eq_iff, htargets]
    refine ⟨by simp [ownKeys], fun x hx => ?_⟩
    have hx' := List.mem_map_of_mem (f := Release.target) hx
    rw [htargets, List.mem_reverse] at hx'
    obtain ⟨r, hr, he⟩ := List.mem_map.mp hx'
    exact ⟨r, he.symm, (hs.table f r).mpr ⟨rfl, hr⟩⟩
  refine ⟨⟨?_, hstray⟩, ?_, ?_⟩
  · intro own' hown' r
    obtain rfl : own = own' := Option.some.inj (hs.bound.symm.trans hown')
    by_cases hr : r ∈ ownKeys s.driver
    · have hlive := (hs.table f r).mpr ⟨rfl, hr⟩
      rw [if_pos ((hs.own r).mpr hr)]
      exact ⟨by simp [hlive], by rw [htable, if_pos hr]⟩
    · rw [if_neg fun h => hr ((hs.own r).mp h)]
      rw [htable, if_neg hr]
  · intro g
    show Function.update s.bound f none g = none
    by_cases hg : g = f
    · rw [hg, Function.update_self]
    · rw [Function.update_of_ne hg]
      exact hs.alone g hg
  · intro g r
    show (testSdioRemove host f s.driver).kernel.ledger.table r ≠ _
    rw [htable]
    split_ifs with hr
    · simp
    · exact fun h => hr ((hs.table g r).mp h).2

/-- **No probe is harmless while a function is bound**: it fails to get the region and the class,
and unregisters the region of the bound function. -/
theorem not_kept_of_bound {g : F} {own : Res → Bool} (hs : Bound s g own) (hf : f ≠ g) :
    ¬ Kept host s (.probe f o) := by
  have hme : ∀ r, s.driver.kernel.ledger.table r ≠ some (.mine f) := by
    intro r h
    exact hf ((hs.table f r).mp h).1
  -- The number of the bound function is used again, and its region is taken.
  have hentered : ¬ Entered o s.driver := by
    intro h
    have hok := h hs.major
    have hlive := (hs.table g (.region s.driver.sdioDev.devid)).mpr ⟨rfl, by simp [ownKeys]⟩
    rw [hs.devid] at hlive
    simp [regionRung, probeDev, hs.major, Rung.ok, hlive] at hok
  -- So is the class, which makes the probe fail.
  have hclass : firstFailure s.driver.kernel.ledger
      (deviceRungs o s.driver.sdioDev.cdev (probeDev o s.driver)) ≠ none := by
    intro h
    have hok := firstFailure_eq_none_iff.mp h _ List.mem_cons_self
    have hlive := (hs.table g (.cls "rpi-sdio")).mpr ⟨rfl, by simp [ownKeys]⟩
    simp [Rung.ok, hlive] at hok
  intro hkept
  exact hclass ((probe_kept_iff_of_not_entered host o f hme hentered).mp hkept)

/-- An unsafe probe that keeps the contract binds its function without a region. -/
theorem doomed_of_not_safe (hs : Idle s) (hkept : Kept host s (.probe f o))
    (hsafe : ¬ Safe s (.probe f o : Action F ω)) : Doomed (Core.step host s (.probe f o)) := by
  obtain ⟨hbound, htable⟩ := hs
  have hentered : ¬ Entered o s.driver := by
    intro h
    exact hsafe ⟨hbound, h, (probe_kept_iff_of_entered host o f (htable f) h).mp hkept⟩
  have hprobe := probe_of_not_entered (htable f) hentered hkept
  refine ⟨f, ?_, ?_⟩
  · simp [Core.step, hprobe]
  · intro d
    show (testSdioProbe host o f s.driver).1.kernel.ledger.table _ ≠ _
    rw [hprobe]
    show (s.driver.kernel.acquireAll _ _).ledger.table _ ≠ _
    rw [Kernel.acquireAll_ledger, Ledger.acquireAll_table, if_neg (by simp [deviceRungs])]
    exact htable f _

/-- A function that is bound without a region stays so as long as the contract is kept: its
remove unregisters a region that it does not own. -/
theorem doomed_stays {a : Action F ω} (hs : Doomed s) (hissued : Issued s a)
    (hkept : Kept host s a) : Doomed (Core.step host s a) := by
  obtain ⟨f, hf, hregion⟩ := hs
  cases a with
  | probe g o =>
    -- The function is bound, so another one is probed.
    have hne : f ≠ g := by
      rintro rfl
      exact hf hissued
    refine ⟨f, ?_, ?_⟩
    · simp only [Core.step]
      split_ifs
      · exact hf
      · rwa [Function.update_of_ne hne]
    · intro d h
      exact hregion d (probe_table_of_ne host o g (by simpa using hne) h)
  | remove g =>
    -- Its own remove would release a region that is not its own.
    have hne : f ≠ g := by
      rintro rfl
      have hstray := hkept.2
      rw [testSdioRemove_ledger, Ledger.releaseAll_stray_eq_iff] at hstray
      obtain ⟨r, hr, hown⟩ := hstray.2 (.unregisterChrdevRegion s.driver.sdioDev.devid)
        (by simp [removeReleases])
      obtain rfl := Option.some.inj hr
      exact hregion _ hown
    refine ⟨f, ?_, ?_⟩
    · show Function.update s.bound g none f ≠ none
      rwa [Function.update_of_ne hne]
    · intro d
      show (testSdioRemove host g s.driver).kernel.ledger.table _ ≠ _
      rw [testSdioRemove_ledger, Ledger.releaseAll_table]
      split_ifs
      · simp
      · exact hregion d
  | other x d =>
    refine ⟨f, hf, fun d' h => hregion d' ?_⟩
    exact (otherRegion_table_iff s.driver x d _ f).mp h

/-- Registrations of others keep the state consistent. -/
theorem consistent_of_other (hs : Consistent s) (x : ω) (d : DevT) :
    Consistent (Core.step host s (.other x d)) := by
  have htable := fun r g => otherRegion_table_iff s.driver x d r g
  have hdev := otherRegion_sdioDev s.driver x d
  rcases hs with ⟨hbound, hidle⟩ | ⟨f, own, hs⟩
  · exact Or.inl ⟨hbound, fun g r h => hidle g r ((htable r g).mp h)⟩
  · refine Or.inr ⟨f, own, ?_⟩
    have hkeys : ownKeys (otherRegion s.driver x d) = ownKeys s.driver := by
      unfold ownKeys
      rw [hdev]
    constructor
    · exact hs.bound
    · exact hs.alone
    · exact (congrArg SdioDev.cls hdev).trans hs.cls
    · show (otherRegion s.driver x d).sdioDev.devid = ⟨(otherRegion s.driver x d).sdioDev.major, 0⟩
      rw [hdev]
      exact hs.devid
    · show (otherRegion s.driver x d).sdioDev.major ≠ 0
      rw [hdev]
      exact hs.major
    · intro g r
      show (otherRegion s.driver x d).kernel.ledger.table r = _ ↔
        _ ∧ r ∈ ownKeys (otherRegion s.driver x d)
      rw [htable, hkeys]
      exact hs.table g r
    · intro r
      show own r = true ↔ r ∈ ownKeys (otherRegion s.driver x d)
      rw [hkeys]
      exact hs.own r

omit [DecidableEq ω] [DecidableEq H] in
/-- The function that the core removes is the one that is bound. -/
theorem bound_of_issued (hs : Consistent s) (hissued : Issued s (.remove f : Action F ω)) :
    ∃ own, Bound s f own := by
  rcases hs with ⟨hbound, -⟩ | ⟨g, own, hs⟩
  · exact absurd (hbound f) hissued
  · by_cases hfg : f = g
    · subst hfg
      exact ⟨own, hs⟩
    · exact absurd (hs.alone f hfg) hissued

/-- **Safe probes guard the contract of the callbacks.** -/
theorem lifecycle_guarded (host : F → H) :
    Guarded (Core.step host) Issued (Kept host) (Safe (ω := ω)) Consistent Doomed := by
  constructor
  -- A safe callback keeps the contract.
  · intro s a hs hissued hsafe
    cases a with
    | probe f o =>
      obtain ⟨hnobody, hentered, hfirst⟩ := hsafe
      rcases hs with hidle | ⟨g, own, hs⟩
      · exact (probe_kept_iff_of_entered host o f (hidle.2 f) hentered).mpr hfirst
      · exact absurd (hs.bound.symm.trans (hnobody g)) (by simp)
    | remove f =>
      obtain ⟨own, hs⟩ := bound_of_issued hs hissued
      exact (kept_and_idle_of_remove hs).1
    | other x d => trivial
  -- It leaves the core idle or with one function bound.
  · intro s a hs hissued hsafe
    cases a with
    | probe f o =>
      obtain ⟨hnobody, hentered, hfirst⟩ := hsafe
      rcases hs with hidle | ⟨g, own, hs⟩
      · by_cases hret : (testSdioProbe host o f s.driver).2 < 0
        · have hkept : Kept host s (.probe f o) :=
            (probe_kept_iff_of_entered host o f (hidle.2 f) hentered).mpr hfirst
          exact Or.inl (idle_of_probe_failed hidle hkept hret)
        · exact Or.inr ⟨f, bound_of_probe hidle hentered hret⟩
      · exact absurd (hs.bound.symm.trans (hnobody g)) (by simp)
    | remove f =>
      obtain ⟨own, hs⟩ := bound_of_issued hs hissued
      exact Or.inl (kept_and_idle_of_remove hs).2
    | other x d => exact consistent_of_other hs x d
  -- An unsafe probe breaks the contract, or binds its function without a region.
  · intro s a hs hissued hkept hsafe
    cases a with
    | probe f o =>
      rcases hs with hidle | ⟨g, own, hs⟩
      · exact doomed_of_not_safe hidle hkept hsafe
      · have hne : f ≠ g := by
          rintro rfl
          exact absurd (hs.bound.symm.trans hissued) (by simp)
        exact absurd hkept (not_kept_of_bound hs hne)
    | remove f => exact absurd trivial hsafe
    | other x d => exact absurd trivial hsafe
  · intro s a hs hissued hkept
    exact doomed_stays hs hissued hkept

end Steps

/-! ## Runs -/

/-- **Safe probes are what keeps the contract.** From the load on, every run of issued callbacks
whose probes are safe keeps the contract of each callback; and a run at whose end nobody is bound
keeps it only if all its probes are safe. -/
theorem kept_iff_safe (host : F → H) (k : Kernel ω) (claims : H → ℤ) (p : ℕ)
    (as : List (Action F ω))
    (hissued : Along (Core.step host) Issued (Core.load k claims p) as) :
    (Along (Core.step host) Safe (Core.load k claims p) as →
        Along (Core.step host) (Kept host) (Core.load k claims p) as) ∧
      ((∀ f, (run (Core.step host) (Core.load k claims p) as).bound f = none) →
        Along (Core.step host) (Kept host) (Core.load k claims p) as →
          Along (Core.step host) Safe (Core.load k claims p) as) := by
  have hstart : Consistent (Core.load k claims p : Core F H ω) :=
    Or.inl ⟨fun _ => rfl, fun f r => k.foreign_table_ne_mine f r⟩
  refine ⟨(lifecycle_guarded host).along hstart hissued, fun hend hkept => ?_⟩
  apply (lifecycle_guarded host).guard_of_along hstart hissued hkept
  rintro ⟨f, hf, -⟩
  exact hf (hend f)

/-- Two functions that are bound after each other, the second with the major number of the first. -/
def inTurn : List (Action Bool ℕ) :=
  [.probe false ⟨.quiet, none⟩, .remove false, .probe true ⟨.quiet, none⟩, .remove true]

theorem kept_iff_safe_inTurn :
    (Along (Core.step fun _ => ()) Safe (Core.load .empty (fun _ => 0) 0) inTurn →
        Along (Core.step fun _ => ()) (Kept fun _ => ()) (Core.load .empty (fun _ => 0) 0)
          inTurn) ∧
      ((∀ f, (run (Core.step fun _ => ()) (Core.load .empty (fun _ => 0) 0)
          inTurn).bound f = none) →
        Along (Core.step fun _ => ()) (Kept fun _ => ()) (Core.load .empty (fun _ => 0) 0)
          inTurn →
        Along (Core.step fun _ => ()) Safe (Core.load .empty (fun _ => 0) 0) inTurn) :=
  kept_iff_safe (fun _ => ()) .empty (fun _ => 0) 0 inTurn
    ⟨rfl, Option.some_ne_none _, rfl, Option.some_ne_none _, trivial⟩

/-- Two functions, probed one after the other without a fault. -/
def twoBindings : List (Action Bool ℕ) :=
  [.probe false ⟨.quiet, none⟩, .probe true ⟨.quiet, none⟩]

/-- The second of two probes unregisters the region of the first. -/
theorem not_kept_twoBindings :
    Along (Core.step fun _ => ()) Issued (Core.load .empty (fun _ => 0) 0) twoBindings ∧
      ¬ Along (Core.step fun _ => ()) (Kept fun _ => ()) (Core.load .empty (fun _ => 0) 0)
        twoBindings := by
  refine ⟨⟨rfl, rfl, trivial⟩, ?_⟩
  rintro ⟨-, ⟨-, hstray⟩, -⟩
  revert hstray
  decide

end LinuxStack.Sdio
