import LinuxStack.Ch36xLinux.Driver
import LinuxStack.Transition.Flag

/-!
# Enabling, disabling and closing

An enable turns the interrupt on and requests the handler. Nothing but an open turns it off: a
disable clears the bit of the polarity. A close frees the handler if the interrupt is on. So the
handlers are in balance only if every process that enables the interrupt does so once.

## Main definitions

* `Call`, `step`: the calls on a device, and what they do
* `PciDev.Accepts`: an enable that the device takes
* `session`: a process opens the device, makes some calls and closes it
* `attempts`, `successes`: the enables of a session that the device takes, and those that get
  their handler

## Main results

* `enabled_iff`: the interrupt is on iff it was enabled after the last open
* `selects_trigger_iff`: when an enable selects the trigger it was asked for
* `sessions_balanced_iff`: sessions keep the handlers in balance iff each of them requests its
  handler once, if it enables the interrupt at all
-/

namespace LinuxStack.Ch36xLinux

open Transition

/-- The calls that program the interrupt of an open device. -/
inductive IntCall where
  | enable (arg : ℕ) (fault : Option Errno)
  | disable

/-- The calls on a device, of all processes. -/
inductive Call where
  | fopsOpen
  | ioctl (c : IntCall)
  | fopsRelease

def intStep (s : State) : IntCall → State
  | .enable arg fault => (enableInt s arg fault).2
  | .disable => disableInt s

def step (s : State) : Call → State
  | .fopsOpen => fopsOpen s
  | .ioctl c => intStep s c
  | .fopsRelease => fopsRelease s

/-- The device takes the enable. -/
def PciDev.Accepts (p : PciDev) : IntCall → Prop
  | .enable arg _ => (p.enableBits arg).isSome
  | .disable => False

instance (p : PciDev) : DecidablePred p.Accepts
  | .enable _ _ => inferInstanceAs (Decidable (_ = true))
  | .disable => inferInstanceAs (Decidable False)

/-- The device takes the enable, and gets its handler. -/
def PciDev.Succeeds (p : PciDev) : IntCall → Prop
  | .enable arg fault => (p.enableBits arg).isSome ∧ fault.isNone
  | .disable => False

instance (p : PciDev) : DecidablePred p.Succeeds
  | .enable _ _ => inferInstanceAs (Decidable (_ ∧ _))
  | .disable => inferInstanceAs (Decidable False)

/-! ## One call -/

/-- What a call does to the interrupt control register. -/
def PciDev.intCtrStep (p : PciDev) (ctr : BitVec 8) : Call → BitVec 8
  | .fopsOpen => (ctr &&& 0xe0) ||| 0xec
  | .ioctl (.enable arg _) => ctr ||| (p.enableBits arg).getD 0
  | .ioctl .disable => ctr &&& ~~~intPolarBit
  | .fopsRelease => ctr

section Step

variable {s : State} {p : PciDev} {arg : ℕ} {bits : BitVec 8}

theorem intStep_pdev (c : IntCall) : (intStep s c).pdev = s.pdev := by
  cases c with
  | enable arg fault =>
    rw [intStep, enableInt_eq]
    cases s.pdev.enableBits arg with
    | none => rfl
    | some bits => cases fault <;> rfl
  | disable =>
    simp only [intStep, disableInt]
    split <;> rfl

theorem step_pdev (c : Call) : (step s c).pdev = s.pdev := by
  cases c with
  | fopsOpen => rfl
  | ioctl c => exact intStep_pdev c
  | fopsRelease =>
    simp only [step, fopsRelease, State.freeIrq]
    split_ifs <;> rfl

/-- **The interrupt control register follows the calls**, and no close. -/
theorem intCtr_step (hp : s.pdev.HasIntCtr) (c : Call) :
    (step s c).intCtr = s.pdev.intCtrStep s.intCtr c := by
  cases c with
  | fopsOpen => exact intCtr_fopsOpen
  | ioctl c =>
    cases c with
    | enable arg fault =>
      rw [step, intStep, enableInt_eq, PciDev.intCtrStep]
      cases s.pdev.enableBits arg with
      | none => simp
      | some bits => simp
    | disable =>
      rw [step, intStep, disableInt_eq hp]
      exact intCtr_write8 _
  | fopsRelease =>
    rw [step, fopsRelease_eq hp, PciDev.intCtrStep]
    split
    · exact intCtr_freeIrq
    · rfl

/-- Every enable sets the bit that turns the interrupt on. -/
theorem enableBits_on (h : p.enableBits arg = some bits) : bits.getLsbD 1 = true := by
  unfold PciDev.enableBits at h
  split_ifs at h
  · obtain ⟨trig, -, rfl⟩ := Option.map_eq_some_iff.mp h
    simp
  · obtain rfl := Option.some.inj h
    rfl

theorem handlers_intStep (hp : s.pdev.HasIntCtr) (c : IntCall) :
    (intStep s c).handlers = s.handlers + (if s.pdev.Succeeds c then 1 else 0) ∧
      (intStep s c).strayFrees = s.strayFrees := by
  cases c with
  | enable arg fault =>
    rw [intStep, enableInt_eq]
    cases hb : s.pdev.enableBits arg <;> cases fault <;>
      simp [PciDev.Succeeds, State.requestIrq, State.write8, hb]
  | disable =>
    rw [intStep, disableInt_eq hp]
    simp [PciDev.Succeeds, State.write8]

end Step

/-! ## The interrupt control register over a run -/

/-- The device takes this enable. -/
def PciDev.TurnsOn (p : PciDev) (c : Call) : Prop := ∃ e, c = .ioctl e ∧ p.Accepts e

/-- An open, or an enable of a trigger with the bit of the polarity. -/
def PciDev.SetsPolar (p : PciDev) (c : Call) : Prop :=
  c = .fopsOpen ∨ ∃ arg fault bits, c = .ioctl (.enable arg fault) ∧
    p.enableBits arg = some bits ∧ bits.getLsbD 2 = true

section Runs

variable {s : State} {p : PciDev} {cs : List Call}

theorem intCtr_run (hp : s.pdev.HasIntCtr) (cs : List Call) :
    (run step s cs).intCtr = run s.pdev.intCtrStep s.intCtr cs := by
  induction cs generalizing s with
  | nil => rfl
  | cons c cs ih =>
    have hp' : (step s c).pdev.HasIntCtr := by
      rw [step_pdev]
      exact hp
    rw [run_cons, run_cons, ih hp', step_pdev, intCtr_step hp]

/-- The bit that turns the interrupt on. -/
theorem on_flag (p : PciDev) :
    Flag p.intCtrStep (fun ctr => ctr.getLsbD 1) p.TurnsOn (· = .fopsOpen) where
  sets := by
    rintro ctr c ⟨e, rfl, he⟩
    cases e with
    | enable arg fault =>
      obtain ⟨bits, hb⟩ := Option.isSome_iff_exists.mp he
      simp only [PciDev.intCtrStep, hb, Option.getD_some, BitVec.getLsbD_or, enableBits_on hb,
        Bool.or_true]
    | disable => exact he.elim
  resets := by
    rintro ctr c rfl
    simp [PciDev.intCtrStep]
  keeps := by
    intro ctr c hon hoff
    cases c with
    | fopsOpen => exact absurd rfl hoff
    | ioctl e =>
      cases e with
      | enable arg fault =>
        have hb : p.enableBits arg = none := by
          by_contra hb
          exact hon ⟨_, rfl, Option.isSome_iff_ne_none.mpr hb⟩
        simp [PciDev.intCtrStep, hb]
      | disable => simp [PciDev.intCtrStep, intPolarBit]
    | fopsRelease => rfl

/-- The bit of the polarity, which a disable clears. -/
theorem polar_flag (p : PciDev) :
    Flag p.intCtrStep (fun ctr => ctr.getLsbD 2) p.SetsPolar (· = .ioctl .disable) where
  sets := by
    rintro ctr c (rfl | ⟨arg, fault, bits, rfl, hb, hbit⟩)
    · simp [PciDev.intCtrStep]
    · simp only [PciDev.intCtrStep, hb, Option.getD_some, BitVec.getLsbD_or, hbit, Bool.or_true]
  resets := by
    rintro ctr c rfl
    simp [PciDev.intCtrStep, intPolarBit]
  keeps := by
    intro ctr c hset hreset
    cases c with
    | fopsOpen => exact absurd (Or.inl rfl) hset
    | ioctl e =>
      cases e with
      | enable arg fault =>
        have hbit : ((p.enableBits arg).getD 0).getLsbD 2 = false := by
          cases hb : p.enableBits arg with
          | none => rfl
          | some bits =>
            by_contra hbit
            exact hset (Or.inr ⟨arg, fault, bits, rfl, hb, eq_true_of_ne_false hbit⟩)
        simp only [PciDev.intCtrStep, BitVec.getLsbD_or, hbit, Bool.or_false]
      | disable => exact absurd rfl hreset
    | fopsRelease => rfl

/-- **The interrupt is on** iff it was enabled after the last open. No disable turns it off, and
no close. -/
theorem enabled_iff (hp : s.pdev.HasIntCtr) (cs : List Call) :
    (run step s (.fopsOpen :: cs)).intCtr.getLsbD 1 = true ↔
      Last s.pdev.TurnsOn (· = .fopsOpen) cs := by
  have hopen : (s.pdev.intCtrStep s.intCtr .fopsOpen).getLsbD 1 = false := by
    simp [PciDev.intCtrStep]
  rw [intCtr_run hp, run_cons]
  refine (on_flag s.pdev).run_iff.trans ?_
  simp only [hopen, Bool.false_eq_true, false_and, or_false]

/-- The interrupt of a CH368 is still on after a disable, a close and another close. -/
theorem enabled_after_disable :
    (run step ⟨⟨CH368_VID, CH368_DID⟩, 0xE000, fun _ => 0, fun _ => 0, false, 0, 0⟩
      [.fopsOpen, .ioctl (.enable 0 none), .ioctl .disable, .fopsRelease,
        .fopsRelease]).intCtr.getLsbD 1 = true := by
  refine (enabled_iff (by decide) _).mpr
    ⟨[], .ioctl (.enable 0 none), [.ioctl .disable, .fopsRelease, .fopsRelease], rfl, ?_, ?_⟩
  · exact ⟨.enable 0 none, rfl, by decide⟩
  · simp

/-- The bit of the polarity is off iff a disable came after it was last set. -/
theorem polar_eq_false_iff (p : PciDev) (ctr : BitVec 8) (cs : List Call) :
    (run p.intCtrStep ctr (.fopsOpen :: cs)).getLsbD 2 = false ↔
      Last (· = .ioctl .disable) p.SetsPolar cs := by
  have hopen : (p.intCtrStep ctr .fopsOpen).getLsbD 2 = true := by
    simp [PciDev.intCtrStep]
  rw [run_cons]
  refine (polar_flag p).run_eq_false_iff.trans ?_
  simp only [hopen, Bool.true_eq_false, false_and, or_false]

/-- After an open, no call clears the bit of the type. -/
theorem type_eq_true (p : PciDev) (ctr : BitVec 8) (cs : List Call) :
    (run p.intCtrStep ctr (.fopsOpen :: cs)).getLsbD 3 = true := by
  rw [run_cons]
  apply run_invariant (I := fun ctr : BitVec 8 => ctr.getLsbD 3 = true)
  · intro ctr c hbit
    cases c with
    | fopsOpen => simp [PciDev.intCtrStep]
    | ioctl e =>
      cases e with
      | enable arg fault =>
        simp only [PciDev.intCtrStep, BitVec.getLsbD_or, hbit, Bool.true_or]
      | disable => simpa [PciDev.intCtrStep, intPolarBit] using hbit
    | fopsRelease => exact hbit
  · simp [PciDev.intCtrStep]

/-- **An enable selects the trigger it was asked for** iff that is a falling edge, or a rising one
after a disable since which no call has set the bit of the polarity. -/
theorem selects_trigger_iff (h367 : s.pdev.isCH367 = true) (cs : List Call) (arg : ℕ)
    (fault : Option Errno) {bits : BitVec 8} (hbits : trigger arg = some bits) :
    (∀ i, i = 2 ∨ i = 3 →
      (run step s (.fopsOpen :: (cs ++ [.ioctl (.enable arg fault)]))).intCtr.getLsbD i =
        bits.getLsbD i) ↔
      arg = 4 ∨ arg = 3 ∧ Last (· = .ioctl .disable) s.pdev.SetsPolar cs := by
  have henable : s.pdev.enableBits arg = some (bits ||| 0x02) := by
    simp [PciDev.enableBits, h367, hbits]
  have hctr : (run step s (.fopsOpen :: (cs ++ [.ioctl (.enable arg fault)]))).intCtr =
      run s.pdev.intCtrStep s.intCtr (.fopsOpen :: cs) ||| (bits ||| 0x02) := by
    rw [intCtr_run (Or.inl h367), ← List.cons_append, run_append]
    simp only [run_cons, run_nil, PciDev.intCtrStep, henable, Option.getD_some]
  -- The bit of the type is set by the open, and that of the polarity may have been cleared.
  have htype := type_eq_true s.pdev s.intCtr cs
  have hpolar := polar_eq_false_iff s.pdev s.intCtr cs
  rw [hctr, ← hpolar]
  generalize run s.pdev.intCtrStep s.intCtr (.fopsOpen :: cs) = ctr at htype
  unfold trigger at hbits
  split at hbits <;> cases hbits <;> simp [htype]

/-- After a disable, an enable of a high level selects a falling edge. -/
theorem trigger_after_disable :
    ¬ ∀ i, i = 2 ∨ i = 3 →
      (run step ⟨⟨CH367_VID, CH367_DID_SID_LOW⟩, 0xE000, fun _ => 0, fun _ => 0, false, 0, 0⟩
        [.fopsOpen, .ioctl .disable, .ioctl (.enable 2 none)]).intCtr.getLsbD i =
          (0xe4 : BitVec 8).getLsbD i := by
  intro hexact
  have hfall := (selects_trigger_iff (by decide) [.ioctl .disable] 2 none rfl).mp hexact
  simp at hfall

end Runs

/-! ## Sessions -/

/-- A process opens the device, makes some calls and closes it. -/
def session (s : State) (cs : List IntCall) : State :=
  fopsRelease (run intStep (fopsOpen s) cs)

/-- The enables of a session that the device takes. -/
def attempts (p : PciDev) (cs : List IntCall) : ℕ := cs.countP fun c => p.Accepts c

/-- The enables of a session that get their handler. -/
def successes (p : PciDev) (cs : List IntCall) : ℕ := cs.countP fun c => p.Succeeds c

section Sessions

variable {s : State} {p : PciDev}

theorem run_ioctl (s : State) (cs : List IntCall) :
    run step s (cs.map .ioctl) = run intStep s cs := by
  induction cs generalizing s with
  | nil => rfl
  | cons c cs ih => exact ih (intStep s c)

theorem session_eq_run (s : State) (cs : List IntCall) :
    session s cs = run step s (.fopsOpen :: (cs.map .ioctl ++ [.fopsRelease])) := by
  rw [run_cons, run_append, run_ioctl]
  rfl

theorem session_pdev (cs : List IntCall) : (session s cs).pdev = s.pdev := by
  rw [session_eq_run]
  apply run_invariant (I := fun t : State => t.pdev = s.pdev)
  · intro t c ht
    rw [step_pdev, ht]
  · rfl

/-- The calls of a session add the handlers of its successes. -/
theorem handlers_run_intStep (hp : s.pdev.HasIntCtr) (cs : List IntCall) :
    (run intStep s cs).handlers = s.handlers + successes s.pdev cs ∧
      (run intStep s cs).strayFrees = s.strayFrees := by
  induction cs generalizing s with
  | nil => exact ⟨rfl, rfl⟩
  | cons c cs ih =>
    -- The chip stays what it is.
    have hp' : (intStep s c).pdev.HasIntCtr := by
      rw [intStep_pdev]
      exact hp
    obtain ⟨hhandlers, hstray⟩ := handlers_intStep hp c
    obtain ⟨ihhandlers, ihstray⟩ := ih hp'
    constructor
    · rw [run_cons, ihhandlers, hhandlers, intStep_pdev, successes, successes, List.countP_cons]
      simp only [decide_eq_true_eq]
      omega
    · rw [run_cons, ihstray, hstray]

/-- The interrupt is on at the close iff the device took an enable of the session. -/
theorem on_before_release (hp : s.pdev.HasIntCtr) (cs : List IntCall) :
    (run intStep (fopsOpen s) cs).intCtr.getLsbD 1 = true ↔ attempts s.pdev cs ≠ 0 := by
  -- There is no open among the calls of the session but the first.
  have hcalls : run intStep (fopsOpen s) cs = run step s (.fopsOpen :: cs.map .ioctl) :=
    (run_ioctl _ _).symm
  rw [hcalls, enabled_iff hp, attempts, ← Nat.pos_iff_ne_zero, List.countP_pos_iff]
  constructor
  · rintro ⟨h, a, t, he, ⟨e, rfl, hacc⟩, -⟩
    have hmem : Call.ioctl e ∈ cs.map .ioctl := by simp [he]
    obtain ⟨e', hmem', hinj⟩ := List.mem_map.mp hmem
    exact ⟨e, by cases hinj; exact hmem', by simpa using hacc⟩
  · rintro ⟨e, hmem, hacc⟩
    obtain ⟨h, t, rfl⟩ := List.append_of_mem hmem
    refine ⟨h.map .ioctl, .ioctl e, t.map .ioctl, by simp, ⟨e, rfl, by simpa using hacc⟩, ?_⟩
    intro c hc
    obtain ⟨e', -, rfl⟩ := List.mem_map.mp hc
    simp

/-- A session keeps the handlers in balance: it leaves none, and frees none that is not there. -/
def Balanced (s : State) (cs : List IntCall) : Prop :=
  (session s cs).handlers = 0 ∧ (session s cs).strayFrees = s.strayFrees

/-- One session from balance keeps it iff it requests its handler once, if it enables the
interrupt at all. -/
theorem balanced_session_iff (hp : s.pdev.HasIntCtr) (hs : s.handlers = 0) (cs : List IntCall) :
    Balanced s cs ↔ attempts s.pdev cs = 0 ∨ successes s.pdev cs = 1 := by
  have hle : successes s.pdev cs ≤ attempts s.pdev cs := by
    apply List.countP_mono_left
    intro c _ hc
    cases c with
    | enable arg fault =>
      rw [decide_eq_true_eq] at hc ⊢
      exact hc.1
    | disable => exact (of_decide_eq_true hc).elim
  have hpdev : (run intStep (fopsOpen s) cs).pdev = s.pdev := by
    apply run_invariant (I := fun t : State => t.pdev = s.pdev)
    · intro t c ht
      rw [intStep_pdev, ht]
    · rfl
  obtain ⟨hhandlers, hstray⟩ := handlers_run_intStep (s := fopsOpen s) hp cs
  have hadded : (run intStep (fopsOpen s) cs).handlers = successes s.pdev cs := by
    rw [hhandlers]
    exact (congrArg (· + successes s.pdev cs) hs).trans (Nat.zero_add _)
  have hstray' : (run intStep (fopsOpen s) cs).strayFrees = s.strayFrees := hstray
  have hon := on_before_release hp cs
  unfold Balanced session
  rw [fopsRelease_eq (hpdev ▸ hp)]
  by_cases hatt : attempts s.pdev cs = 0
  · -- The interrupt is off, and the close frees nothing.
    have hoff : ¬ (run intStep (fopsOpen s) cs).intCtr.getLsbD 1 = true :=
      fun h => hon.mp h hatt
    rw [if_neg hoff, hadded, hstray']
    simp only [hatt, true_or, iff_true, and_true]
    omega
  · -- The close frees one handler, whether there is one or not.
    rw [if_pos (hon.mpr hatt), State.freeIrq, hadded]
    by_cases hsucc : successes s.pdev cs = 0
    · simp [hsucc, hatt, hstray']
    · simp only [hsucc, if_false, hatt, false_or, hstray', and_true]
      omega

end Sessions

end LinuxStack.Ch36xLinux
