import LinuxStack.Gpio.Load
import LinuxStack.Transition.Run

/-!
# Edges and writes

The level of GPIO 21 is kept twice: in the GPIO, and in the shadow `led_toggle` that the handler
of GPIO 25 toggles and then drives out. A write drives the GPIO without the shadow. An accepted
edge therefore toggles the GPIO unless the last write since the previous accepted edge drove the
level that the shadow does not hold.

## Main definitions

* `Driver.accepts`: an edge passes the debounce test
* `EdgeToggles`: an accepted edge flips the level of GPIO 21, any other edge leaves it
* `written`, `Driver.watch`: the digit that a write drives, and the last one since the last
  accepted edge

## Main results

* `watch_levelShown`: the level is the last written digit, or that of the shadow
* `edgeToggles_iff`: all edges of a run toggle iff each accepted edge finds no written digit
  other than the shadow's
-/

namespace LinuxStack.Gpio

open Registry Transition

variable {w : ℕ}

/-! ## The contract -/

/-- The event is an edge that passes the debounce test. -/
def Driver.accepts (d : Driver) (g : Globals w) : Event w → Bool
  | .edge jiffies₁ _ => d ≠ .gpioBase && 20 ≤ (jiffies₁ - g.oldJiffie).toNat
  | _ => false

/-- **An accepted edge flips the level of GPIO 21**, and any other edge leaves it as it is. -/
def EdgeToggles (d : Driver) (g : Globals w) (e : Event w) : Prop :=
  match e with
  | .edge _ _ =>
    (d.accepts g e = true → (d.handle g e).level 21 = !g.level 21) ∧
      (d.accepts g e = false → (d.handle g e).level 21 = g.level 21)
  | _ => True

/-! ## The watched run -/

/-- The digit that a write of the bytes `buf` drives out, if its first byte is one. -/
def written (buf : List UInt8) (fault : Option ℕ) : Option Bool :=
  if (stored buf fault).head? = some '1'.toUInt8 then some true
  else if (stored buf fault).head? = some '0'.toUInt8 then some false
  else none

/-- A run of the driver, watched for the last digit written since the last accepted edge. -/
def Driver.watch (d : Driver) (s : Globals w × Option Bool) (e : Event w) :
    Globals w × Option Bool :=
  (d.handle s.1 e,
    match e with
    | .etxWrite buf fault => (written buf fault).or s.2
    | _ => if d.accepts s.1 e then none else s.2)

/-- At an accepted edge, the last written digit is the one that the shadow holds. -/
def WrittenAgrees (d : Driver) (s : Globals w × Option Bool) (e : Event w) : Prop :=
  d.accepts s.1 e → ∀ digit ∈ s.2, digit = (s.1.ledToggle != 0)

/-- The shadow is a digit, and the level is the last written digit, or else the shadow's. -/
def LevelShown (s : Globals w × Option Bool) : Prop :=
  (s.1.ledToggle = 0 ∨ s.1.ledToggle = 1) ∧
    s.1.level 21 = s.2.getD (s.1.ledToggle != 0)

/-! ## One event -/

/-- A write drives the digit it writes, if it writes one, and changes nothing else. -/
theorem etxWrite_eq (g : Globals w) (buf : List UInt8) (fault : Option ℕ) :
    (etxWrite g buf fault).1 =
      { g with level := Function.update g.level 21 ((written buf fault).getD (g.level 21)) } := by
  have hhead : (copyFromUser (List.replicate 10 0) buf fault).buf.head? =
      (stored buf fault).head?.or (some 0) := copyFromUser_buf_head (by simp)
  simp only [etxWrite, written, hhead]
  cases hb : (stored buf fault).head? with
  | none =>
    -- The buffer starts with the zero it was initialised to, which is no digit.
    have hone : some (0 : UInt8) ≠ some '1'.toUInt8 := by decide
    have hzero : some (0 : UInt8) ≠ some '0'.toUInt8 := by decide
    simp [hone, hzero]
  | some b =>
    by_cases hone : b = '1'.toUInt8
    · simp [hone, gpioSetValue]
    · by_cases hzero : b = '0'.toUInt8
      · have hne : '0'.toUInt8 ≠ '1'.toUInt8 := by decide
        simp [hzero, hne, gpioSetValue]
      · simp [hone, hzero]

/-- An edge that a driver accepts toggles its shadow and drives it out, any other edge changes
nothing. -/
theorem handle_edge (d : Driver) (g : Globals w) (j₁ j₂ : BitVec w) :
    d.handle g (.edge j₁ j₂) =
      if d.accepts g (.edge j₁ j₂) then
        { g with level := Function.update g.level 21 ((1 ^^^ g.ledToggle) != 0)
                 ledToggle := 1 ^^^ g.ledToggle
                 oldJiffie := j₂ }
      else g := by
  by_cases hdiff : (j₁ - g.oldJiffie).toNat < 20
  · have hge : ¬ 20 ≤ (j₁ - g.oldJiffie).toNat := by omega
    cases d <;> simp [-BitVec.toNat_sub, Driver.handle, Driver.accepts, gpioIrqHandler, hdiff, hge]
  · have hge : 20 ≤ (j₁ - g.oldJiffie).toNat := by omega
    cases d <;> simp [-BitVec.toNat_sub, Driver.handle, Driver.accepts, gpioIrqHandler, hdiff, hge,
      gpioSetValue]

/-- **The level is shown through any event.** -/
theorem watch_levelShown (d : Driver) {s : Globals w × Option Bool} (hs : LevelShown s)
    (e : Event w) : LevelShown (d.watch s e) := by
  obtain ⟨htoggle, hlevel⟩ := hs
  cases e with
  | edge j₁ j₂ =>
    unfold Driver.watch
    rw [handle_edge]
    cases hacc : d.accepts s.1 (.edge j₁ j₂) with
    | false => simpa [LevelShown] using ⟨htoggle, hlevel⟩
    | true =>
      refine ⟨?_, by simp⟩
      rcases htoggle with h | h <;> simp [h]
  | etxWrite buf fault =>
    refine ⟨?_, ?_⟩
    · simpa [Driver.watch, Driver.handle, etxWrite_eq] using htoggle
    · simp only [Driver.watch, Driver.handle, etxWrite_eq, Function.update_self]
      cases written buf fault <;> simp [hlevel]
  | _ => exact ⟨htoggle, hlevel⟩

/-- **An edge toggles the GPIO iff the last written digit, if any, is the shadow's.** -/
theorem edgeToggles_iff_writtenAgrees (d : Driver) {s : Globals w × Option Bool}
    (hs : LevelShown s) (e : Event w) : EdgeToggles d s.1 e ↔ WrittenAgrees d s e := by
  obtain ⟨htoggle, hlevel⟩ := hs
  cases e with
  | edge j₁ j₂ =>
    unfold EdgeToggles WrittenAgrees
    simp only [handle_edge]
    cases hacc : d.accepts s.1 (.edge j₁ j₂) with
    | false => simp
    | true =>
      -- The edge drives the negation of the shadow's digit.
      have hnot : ((1 ^^^ s.1.ledToggle) != 0) = !(s.1.ledToggle != 0) := by
        rcases htoggle with h | h <;> simp [h]
      simp only [if_true, Function.update_self, hnot, hlevel, forall_const]
      cases s.2 with
      | none => simp
      | some digit => cases digit <;> cases (s.1.ledToggle != 0) <;> simp
  | _ => simp [EdgeToggles, WrittenAgrees, Driver.accepts]

/-! ## Runs -/

variable {ω : Type*} [DecidableEq ω]

/-- The globals after a load. -/
def Driver.startGlobals (d : Driver) (o : Outcomes) (k : Kernel ω) (etxCdev : ℕ)
    (level : ℕ → Bool) : Globals w :=
  (d.etxDriverInit o (Etx.load k.foreign etxCdev level : Etx w ω)).1.rest

/-- The globals after a load that succeeds: only the number of the interrupt and the first level of
GPIO 21 are set. -/
theorem startGlobals_eq (d : Driver) (o : Outcomes) (k : Kernel ω) (p : ℕ) (level : ℕ → Bool)
    (hret : (d.etxDriverInit o (Etx.load k.foreign p level : Etx w ω)).2 = 0) :
    ∃ irq, (d.startGlobals o k p level : Globals w) =
      { gpioDirectionOutput ⟨level, 0, 0, 0⟩ 21 0 o.gpioDirectionOutput with
        gpioIrqNumber := irq } := by
  have hne : (d.etxDriverInit o (Etx.load k.foreign p level : Etx w ω)).2 ≠ -1 := by simp [hret]
  obtain ⟨-, hdone⟩ := (etxDriverInit_climbs d o _).of_ne hne
  unfold Driver.startGlobals
  rw [hdone]
  cases d with
  | gpioBase => exact ⟨_, rfl⟩
  | gpioIntr => exact ⟨o.gpioToIrq 25, rfl⟩
  | gpioWakeup => exact ⟨o.gpioToIrq 25, rfl⟩

/-- A load that succeeds, with a GPIO that can be driven, leaves the level low and the shadow
zero. -/
theorem levelShown_startGlobals (d : Driver) (o : Outcomes) (k : Kernel ω) (p : ℕ)
    (level : ℕ → Bool) (hlow : o.gpioDirectionOutput = none)
    (hret : (d.etxDriverInit o (Etx.load k.foreign p level : Etx w ω)).2 = 0) :
    LevelShown ((d.startGlobals o k p level : Globals w), none) := by
  obtain ⟨irq, hstart⟩ := startGlobals_eq d o k p level hret
  rw [hstart, hlow]
  exact ⟨.inl rfl, by simp [gpioDirectionOutput, gpioSetValue]⟩

/-- **The edges of a run toggle GPIO 21 iff the writes agree with the shadow.** After a load that
succeeds, every accepted edge flips the level and every other edge leaves it, iff each accepted
edge finds that the last digit written since the previous one, if any, is the shadow's. -/
theorem edgeToggles_iff (d : Driver) (o : Outcomes) (k : Kernel ω) (p : ℕ) (level : ℕ → Bool)
    (es : List (Event w)) (hlow : o.gpioDirectionOutput = none)
    (hret : (d.etxDriverInit o (Etx.load k.foreign p level : Etx w ω)).2 = 0) :
    Along d.handle (EdgeToggles d) (d.startGlobals o k p level) es ↔
      Along d.watch (WrittenAgrees d) (d.startGlobals o k p level, none) es := by
  have hstart := levelShown_startGlobals d o k p level hlow hret
  have hagree : Along d.watch (fun s e => EdgeToggles d s.1 e)
        (d.startGlobals o k p level, none) es ↔
      Along d.watch (WrittenAgrees d) (d.startGlobals o k p level, none) es := by
    apply along_congr (I := LevelShown) (fun s e hs => watch_levelShown d hs e) _ hstart
    exact fun s e hs => edgeToggles_iff_writtenAgrees d hs e
  rw [← hagree]
  have hproj : ∀ (s : Globals w × Option Bool) (e : Event w),
      (d.watch s e).1 = d.handle s.1 e := fun _ _ => rfl
  exact along_map (P := EdgeToggles d) Prod.fst hproj (t := (d.startGlobals o k p level, none))

/-- Accepted edges and a bounce, and writes of the digit that the shadow holds or of none. -/
def writesAndEdges : List (Event 32) :=
  [.etxWrite ['0'.toUInt8] none, .edge 100 100, .edge 110 111, .etxOpen,
    .etxWrite ['1'.toUInt8, 10] none, .edge 150 150, .etxWrite [10] none, .edge 200 201]

theorem edgeToggles_iff_writesAndEdges :
    Along Driver.gpioIntr.handle (EdgeToggles .gpioIntr)
        (Driver.gpioIntr.startGlobals quietOutcomes (Kernel.empty : Kernel ℕ) 0 (fun _ => false))
        writesAndEdges ↔
      Along Driver.gpioIntr.watch (WrittenAgrees .gpioIntr)
        (Driver.gpioIntr.startGlobals quietOutcomes (Kernel.empty : Kernel ℕ) 0 (fun _ => false),
          none)
        writesAndEdges :=
  edgeToggles_iff .gpioIntr quietOutcomes Kernel.empty 0 (fun _ => false) _ rfl rfl

/-- After a `1` is written, the first edge leaves GPIO 21 high. -/
theorem not_edgeToggles_of_write :
    ¬ Along Driver.gpioIntr.handle (EdgeToggles .gpioIntr)
        (Driver.gpioIntr.startGlobals quietOutcomes (Kernel.empty : Kernel ℕ) 0 (fun _ => false))
        [.etxWrite ['1'.toUInt8] none, .edge (100 : BitVec 32) 100] := by
  rintro ⟨-, ⟨hflips, -⟩, -⟩
  have hlevel := hflips (by decide)
  revert hlevel
  decide

end LinuxStack.Gpio
