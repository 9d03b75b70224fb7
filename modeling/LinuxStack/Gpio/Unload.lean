import LinuxStack.Gpio.Load
import LinuxStack.Transition.Run

/-!
# Unloading the GPIO drivers

An unload releases the keys of its driver's ladder from the top down, whatever happened since
the load. `gpio_base` and `gpio_intr` thereby leave the kernel as they found it, cycle after
cycle. `gpio_wakeup` never gives back its wake-up reference: every cycle adds one.

## Main definitions

* `Machine`, `Cycle`: the kernel and the hardware between two loads; a load with the activity
  up to its unload
* `Driver.cycle`: the machine after a cycle

## Main results

* `cycle_kernel`: a cycle leaves the kernel as it was, up to the wake-up reference
* `exitUndoes_iff`: every cycle of a run leaves the kernel as it was iff the driver is not
  `gpio_wakeup` or there is no cycle
* `run_cycle_wakeup`: the exact drift of `gpio_wakeup` over a run of cycles
-/

namespace LinuxStack.Gpio

open Registry Transition

variable {w : ℕ} {ω : Type*} [DecidableEq ω]

/-- The kernel and the levels of the hardware, while the driver is not loaded. -/
structure Machine (ω : Type*) where
  kernel : Kernel (Owner Unit ω)
  level : ℕ → Bool

/-- A load, with the address of `etx_cdev` and the answers of the kernel, and what happens up to
the unload. -/
structure Cycle (w : ℕ) where
  etxCdev : ℕ
  outcomes : Outcomes
  events : List (Event w)

/-- The driver loaded in a cycle, and the result of its load. -/
def Driver.cycleInit (d : Driver) (m : Machine ω) (c : Cycle w) : Etx w ω × ℤ :=
  d.etxDriverInit c.outcomes (Etx.load m.kernel c.etxCdev m.level)

/-- The machine after a cycle of load, activity and unload. -/
def Driver.cycle (d : Driver) (m : Machine ω) (c : Cycle w) : Machine ω :=
  let s := run d.activity (d.cycleInit m c).1 c.events
  ⟨(d.etxDriverExit s).kernel, (d.etxDriverExit s).rest.level⟩

/-! ## Activity -/

omit [DecidableEq ω] in
/-- Events do not change the number of the IRQ. -/
theorem handle_gpioIrqNumber (d : Driver) (g : Globals w) (e : Event w) :
    (d.handle g e).gpioIrqNumber = g.gpioIrqNumber := by
  cases e with
  | edge j₁ j₂ => cases d <;> simp only [Driver.handle, gpioIrqHandler] <;> split_ifs <;> rfl
  | etxWrite buf fault => simp only [Driver.handle, etxWrite]; split_ifs <;> rfl
  | _ => rfl

omit [DecidableEq ω] in
/-- A loaded driver keeps its registrations through any activity. -/
theorem run_activity (d : Driver) (s : Etx w ω) (es : List (Event w)) :
    ∃ g : Globals w, run d.activity s es = { s with rest := g } ∧
      g.gpioIrqNumber = s.rest.gpioIrqNumber := by
  induction es generalizing s with
  | nil => exact ⟨s.rest, rfl, rfl⟩
  | cons e es ih =>
    obtain ⟨g, hrun, hirq⟩ := ih (d.activity s e)
    exact ⟨g, hrun, hirq.trans (handle_gpioIrqNumber d s.rest e)⟩

/-! ## One cycle -/

/-- The release calls of an unload. -/
def Driver.exitReleases (d : Driver) (o : Outcomes) (s : Etx w ω) : List Release :=
  match d with
  | .gpioBase => .gpioFree 21 :: deviceUndo o s
  | _ => .freeIrq (o.gpioToIrq 25).toNat :: inputUndo o s

omit [DecidableEq ω] in
/-- An unload releases the keys of the ladder from the top down. -/
theorem exitReleases_perm (d : Driver) (o : Outcomes) (s : Etx w ω) :
    ((d.exitReleases o s).map Release.target).Perm ((keys (d.rungs o s)).map some) := by
  cases d
  · exact List.reverse_perm ((keys (registerRungs o s)).map some)
  · exact List.reverse_perm ((keys (registerRungs o s ++ inputRungs o s)).map some)
  · exact List.reverse_perm ((keys (registerRungs o s ++ inputRungs o s)).map some)

/-- The kernel after the unload of a driver at the top of its ladder. -/
theorem etxDriverExit_loaded (d : Driver) (o : Outcomes) (s : Etx w ω)
    (k : Kernel (Owner Unit ω)) {g : Globals w}
    (hg : g.gpioIrqNumber = (d.loaded o s k).rest.gpioIrqNumber) :
    (d.etxDriverExit { d.loaded o s k with rest := g }).kernel =
      match d with
      | .gpioBase => ((k.gpioExport 21 o.gpioExport).gpioUnexport 21).releaseAll (.mine ())
          (d.exitReleases o s)
      | .gpioIntr => k.releaseAll (.mine ()) (d.exitReleases o s)
      | .gpioWakeup => (k.addWake (o.gpioToIrq 25).toNat).releaseAll (.mine ())
          (d.exitReleases o s) := by
  obtain ⟨level, irq, toggle, jiffie⟩ := g
  cases d with
  | gpioBase => rfl
  | gpioIntr =>
    obtain rfl : irq = o.gpioToIrq 25 := hg
    rfl
  | gpioWakeup =>
    obtain rfl : irq = o.gpioToIrq 25 := hg
    rfl

/-- A load that succeeds finds GPIO 21 without an export, since nobody had requested it. -/
theorem exported_eq_false_of_climb (d : Driver) (o : Outcomes) (s : Etx w ω)
    (h : (s.kernel.climb (.mine ()) (d.rungs o s)).2 = true) :
    (s.kernel.climb (.mine ()) (d.rungs o s)).1.exported 21 = false := by
  have hfree : s.kernel.ledger.table (.gpio 21) = none := by
    rw [Kernel.climb_ledger.2] at h
    apply table_eq_none_of_climb (keys_rungs_nodup o s d) h _
    cases d <;> simp [Driver.rungs, registerRungs]
  rw [Kernel.climb_of_success h, Kernel.acquireAll_sheet.1, ← Bool.not_eq_true]
  intro hexported
  exact s.kernel.exported_requested 21 hexported hfree

/-- **A cycle leaves the kernel as it was**, but for one wake-up reference of `gpio_wakeup`. -/
theorem cycle_kernel (d : Driver) {m : Machine ω} {c : Cycle w}
    (hme : ∀ r, m.kernel.ledger.table r ≠ some (.mine ())) (hret : (d.cycleInit m c).2 = 0) :
    (d.cycle m c).kernel =
      match d with
      | .gpioWakeup => m.kernel.addWake (c.outcomes.gpioToIrq 25).toNat
      | _ => m.kernel := by
  let s : Etx w ω := Etx.load m.kernel c.etxCdev m.level
  have hne : (d.etxDriverInit c.outcomes s).2 ≠ -1 := by
    intro h
    have hzero : (d.etxDriverInit c.outcomes s).2 = 0 := hret
    rw [hzero] at h
    cases h
  obtain ⟨htop, hdone⟩ := (etxDriverInit_climbs d c.outcomes s).of_ne hne
  obtain ⟨g, hrun, hirq⟩ := run_activity d (d.cycleInit m c).1 c.events
  have hinit : d.cycleInit m c = _ := hdone
  rw [hinit] at hrun hirq
  have hundo : (s.kernel.climb (.mine ()) (d.rungs c.outcomes s)).1.releaseAll (.mine ())
      (d.exitReleases c.outcomes s) = m.kernel :=
    (Kernel.releaseAll_climb_eq_iff hme (keys_rungs_nodup _ _ d) htop).mpr
      (exitReleases_perm d c.outcomes s)
  show (d.etxDriverExit (run d.activity (d.cycleInit m c).1 c.events)).kernel = _
  rw [hinit, hrun]
  apply (etxDriverExit_loaded d c.outcomes s _ hirq).trans
  cases d with
  | gpioBase =>
    have hexported := exported_eq_false_of_climb .gpioBase c.outcomes s htop
    simp only [Kernel.gpioUnexport_gpioExport _ _ hexported]
    exact hundo
  | gpioIntr => exact hundo
  | gpioWakeup =>
    show ((s.kernel.climb (.mine ()) _).1.addWake _).releaseAll _ _ = _
    rw [Kernel.addWake_releaseAll, hundo]

/-! ## Runs of cycles -/

/-- Every load of the run returns 0. -/
def Loads (d : Driver) (m : Machine ω) (cs : List (Cycle w)) : Prop :=
  Along d.cycle (fun m c => (d.cycleInit m c).2 = 0) m cs

/-- **Every unload of the run undoes its load**: the kernel after it is the kernel before. -/
def ExitUndoes (d : Driver) (m : Machine ω) (cs : List (Cycle w)) : Prop :=
  Along d.cycle (fun m c => m.kernel.Same (d.cycle m c).kernel) m cs

/-- Every driver but `gpio_wakeup` is guarded against a change of the kernel by its cycles. -/
theorem cycle_guarded (d : Driver) :
    Guarded (d.cycle (w := w) (ω := ω)) (fun m c => (d.cycleInit m c).2 = 0)
      (fun m c => m.kernel.Same (d.cycle m c).kernel) (fun _ _ => d ≠ .gpioWakeup)
      (fun m => ∀ r, m.kernel.ledger.table r ≠ some (.mine ())) (fun _ => False) := by
  constructor
  · intro m c hme hret hd
    rw [cycle_kernel d hme hret]
    cases d with
    | gpioWakeup => exact absurd rfl hd
    | _ => exact ⟨rfl, rfl, rfl⟩
  · intro m c hme hret hd
    rw [cycle_kernel d hme hret]
    cases d <;> exact hme
  · intro m c hme hret hsame hd
    obtain rfl : d = .gpioWakeup := not_not.mp hd
    rw [cycle_kernel .gpioWakeup hme hret] at hsame
    have hwake := congrFun hsame.2.2 (c.outcomes.gpioToIrq 25).toNat
    simp [Kernel.addWake] at hwake
  · exact fun _ _ h => h.elim

/-- **The drift of `gpio_wakeup`**: one wake-up reference for each cycle, and nothing else. -/
theorem run_cycle_wakeup {m : Machine ω} {cs : List (Cycle w)}
    (hme : ∀ r, m.kernel.ledger.table r ≠ some (.mine ())) (h : Loads .gpioWakeup m cs) :
    (run Driver.gpioWakeup.cycle m cs).kernel =
      cs.foldl (fun k c => k.addWake (c.outcomes.gpioToIrq 25).toNat) m.kernel := by
  induction cs generalizing m with
  | nil => rfl
  | cons c cs ih =>
    obtain ⟨hret, hloads⟩ := h
    have hkernel := cycle_kernel .gpioWakeup hme hret
    have hme' : ∀ r, (Driver.gpioWakeup.cycle m c).kernel.ledger.table r ≠ some (.mine ()) := by
      rw [hkernel]
      exact hme
    rw [run_cons, ih hme' hloads, hkernel, List.foldl_cons]

/-- **Every unload undoes its load iff the driver is not `gpio_wakeup`**, or there is none. -/
theorem exitUndoes_iff (d : Driver) (k : Kernel ω) (level : ℕ → Bool) (cs : List (Cycle w))
    (h : Loads d ⟨k.foreign, level⟩ cs) :
    ExitUndoes d ⟨k.foreign, level⟩ cs ↔ d ≠ .gpioWakeup ∨ cs = [] := by
  unfold ExitUndoes
  rw [(cycle_guarded d).along_iff (k.foreign_table_ne_mine ()) h id]
  cases cs with
  | nil => simp
  | cons c cs =>
    constructor
    · exact fun hguard => Or.inl hguard.1
    · intro hd
      obtain hd | hd := hd
      · exact along_of_forall fun _ _ => hd
      · cases hd

/-- A load without a fault, an open file that is read and written, accepted edges, and the unload. -/
def busyCycle : Cycle 32 :=
  ⟨4096, quietOutcomes,
    [.etxOpen, .etxWrite ['1'.toUInt8] none, .edge 100 100, .etxRead none, .edge 150 151,
      .etxWrite ['0'.toUInt8] none, .etxRelease]⟩

/-- A load without a fault, and its unload. -/
def quietCycle : Cycle 32 := ⟨0, quietOutcomes, []⟩

theorem exitUndoes_busyCycle_iff :
    Loads .gpioIntr ⟨(Kernel.empty : Kernel ℕ).foreign, fun _ => false⟩
        [busyCycle, quietCycle, busyCycle] ∧
      (ExitUndoes .gpioIntr ⟨(Kernel.empty : Kernel ℕ).foreign, fun _ => false⟩
          [busyCycle, quietCycle, busyCycle] ↔
        Driver.gpioIntr ≠ .gpioWakeup ∨ [busyCycle, quietCycle, busyCycle] = []) :=
  ⟨⟨rfl, rfl, rfl, trivial⟩, exitUndoes_iff _ _ _ _ ⟨rfl, rfl, rfl, trivial⟩⟩

/-- One cycle of `gpio_wakeup` leaves a wake-up reference of IRQ 41 behind. -/
theorem not_exitUndoes_quietCycle :
    Loads .gpioWakeup ⟨(Kernel.empty : Kernel ℕ).foreign, fun _ => false⟩ [quietCycle] ∧
      ¬ ExitUndoes .gpioWakeup ⟨(Kernel.empty : Kernel ℕ).foreign, fun _ => false⟩
        [quietCycle] := by
  refine ⟨⟨rfl, trivial⟩, fun h => ?_⟩
  have hwake := congrFun h.1.2.2 41
  revert hwake
  decide

end LinuxStack.Gpio
