import LinuxStack.Led.Frame

/-!
# Another device under an open file

Where the pin comes from a platform device, `led_probe` writes the global that every call reads,
also while a client has the file open. `led_open` maps the bank of the pin that it finds and makes
that pin an output. `led_write` drives the pin that it finds, in the bank that is still mapped.

## Main definitions

* `Rebound`, `Call`, `Rebound.step`: the driver among probes, opens, writes and releases
* `Lights`: a write drives the pin of the device, which is an output, and changes no other bit
* `Reaches`: what a write needs of the probes, opens and releases before it
* `Tracks`: the pointers, the mappings and the outputs, read off the calls

## Main results

* `ledWrite_eq_of_tracks`: which register a write changes
* `lights_iff`: the writes of a run light the LED iff each of them has what it needs
-/

namespace LinuxStack.Led

open Transition

/-! ## Banks -/

namespace Pin

variable {p q : Pin}

theorem mem_bases (p : Pin) : p.base ∈ gpioBase.map (·.2) := by
  obtain ⟨entry, hentry, hbase⟩ := Option.map_eq_some_iff.mp p.listed
  exact List.mem_map.mpr ⟨entry, List.mem_of_getElem? hentry, hbase⟩

theorem base_eq_iff : p.base = q.base ↔ p.bank = q.bank := by
  have hnodup : (gpioBase.map (·.2)).Nodup := by decide
  have hp : (gpioBase.map (·.2))[p.bank]? = some p.base := by rw [List.getElem?_map, p.listed]
  have hq : (gpioBase.map (·.2))[q.bank]? = some q.base := by rw [List.getElem?_map, q.listed]
  constructor
  · intro h
    exact (List.getElem?_inj p.bank_lt hnodup).mp (by rw [hp, hq, h])
  · intro h
    rw [h] at hp
    exact Option.some.inj (hp.symm.trans hq)

theorem data_eq_iff : p.data = q.data ↔ p.bank = q.bank := by
  rw [data, data, BitVec.add_left_inj, base_eq_iff]

/-- The registers of a bank begin at a multiple of 16. -/
theorem base_mod (p : Pin) : p.base.toNat % 16 = 0 := by
  have hall : ∀ base ∈ gpioBase.map (·.2), base.toNat % 16 = 0 := by simp [gpioBase]
  exact hall p.base p.mem_bases

/-- No data register is a configuration register. -/
theorem data_ne (p q : Pin) : p.data ≠ q.base := by
  intro h
  have hp := p.base_mod
  have hq := q.base_mod
  rw [← h, data, BitVec.toNat_add] at hq
  have hfour : (4 : BitVec 32).toNat = 4 := rfl
  omega

/-- A pin is its bank and its number. -/
theorem ext_iff' : p = q ↔ p.bank = q.bank ∧ p.nr = q.nr := by
  constructor
  · rintro rfl
    exact ⟨rfl, rfl⟩
  · rintro ⟨hbank, hnr⟩
    have hbase := base_eq_iff.mpr hbank
    cases p
    cases q
    simp_all

end Pin

/-! ## Calls -/

/-- The driver, the number of mappings so far, and what its calls tell: the pin of the last device
probed; the pin whose open made the mapping behind `gpio_dat`, while that is live; whether
`gpio_con` points there, too; the pins that were opened. -/
structure Rebound where
  led : MyLed ℕ
  maps : ℕ
  bound : Pin
  reached : Option Pin
  con : Bool
  opened : List Pin

/-- A probe of a device with the pin `p`, or a call of a client. -/
inductive Call
  | ledProbe (p : Pin)
  | ledOpen (maps : Bool)
  | ledWrite (val : UInt8)
  | ledRelease

/-- A driver that has probed its first device, on registers with any contents. -/
def Rebound.load (p : Pin) (reg : BitVec 32 → BitVec 32) : Rebound where
  led := ⟨p.ledPin, none, none, fun _ => none, reg⟩
  maps := 0
  bound := p
  reached := none
  con := false
  opened := []

variable (beyond : ℤ → BitVec 32)

/-- The state after a call. -/
def Rebound.step (s : Rebound) : Call → Rebound
  | .ledProbe p => { s with led := ledProbe s.led p.ledPin, bound := p }
  | .ledOpen true =>
    { led := (ledOpen s.led beyond (some s.maps)).1
      maps := s.maps + 1
      bound := s.bound
      reached := some s.bound
      con := true
      opened := s.bound :: s.opened }
  -- An open that fails clears `gpio_con`, and keeps `gpio_dat`.
  | .ledOpen false => { s with led := (ledOpen s.led beyond none).1, con := false }
  | .ledWrite val => { s with led := (ledWrite s.led val).1 }
  | .ledRelease =>
    { s with led := (ledRelease s.led).1, reached := if s.con then none else s.reached }

/-- The pin is an output. -/
def Output (reg : BitVec 32 → BitVec 32) (p : Pin) : Prop :=
  (reg p.base).getLsbD (2 * p.nr) = true ∧ (reg p.base).getLsbD (2 * p.nr + 1) = false

/-- **A write lights the LED**, or turns it off: it makes no access that goes astray, the pin of the
device is an output, and the write gives its bit the level asked for and changes no other bit of any
register. -/
def Lights (s : Rebound) : Call → Prop
  | .ledWrite val =>
    let after := (s.step beyond (.ledWrite val)).led.reg
    (∀ x ∈ (ledWrite s.led val).2.2, x.Sound) ∧ Output s.led.reg s.bound ∧
      (after s.bound.data).getLsbD s.bound.nr = decide (val = 0) ∧
      ∀ r i, (r ≠ s.bound.data ∨ i ≠ s.bound.nr) →
        (after r).getLsbD i = (s.led.reg r).getLsbD i
  | _ => True

/-- The bit of the pin of the device, in the data register `r`, is at the level asked for. -/
def Level (s : Rebound) (val : UInt8) (r : BitVec 32) : Prop :=
  (s.led.reg r).getLsbD s.bound.nr = decide (val = 0)

/-- **What a write needs**: the pin of the device was opened at some time, or was an output before
`reg`; a bank is mapped; and that is the one of the device, or there is nothing to change. -/
def Reaches (reg : BitVec 32 → BitVec 32) (s : Rebound) : Call → Prop
  | .ledWrite val =>
    (s.bound ∈ s.opened ∨ Output reg s.bound) ∧
      ∃ q ∈ s.reached,
        q.bank = s.bound.bank ∨ Level s val s.bound.data ∧ Level s val q.data
  | _ => True

/-! ## The invariant -/

/-- The registers after a write at the number `nr` of the bank of `q`, if a bank is mapped. -/
def written (q : Option Pin) (nr : ℕ) (val : UInt8) (reg : BitVec 32 → BitVec 32) :
    BitVec 32 → BitVec 32 :=
  match q with
  | none => reg
  | some q => Function.update reg q.data (driven nr val (reg q.data))

/-- The pointers, the mappings and the outputs are what the calls tell. -/
structure Tracks (reg : BitVec 32 → BitVec 32) (s : Rebound) : Prop where
  pin : s.led.ledPin = s.bound.ledPin
  con : if s.con then
      ∃ m, s.led.gpioCon = some ⟨m, 0⟩ ∧ s.led.gpioDat = some ⟨m, 1⟩
    else s.led.gpioCon = none
  dat : match s.reached with
    | none => s.led.gpioDat.bind (phys s.led) = none
    | some q => ∃ m, s.led.gpioDat = some ⟨m, 1⟩ ∧ s.led.live m = some q.base
  outputs : ∀ p, Output s.led.reg p ↔ p ∈ s.opened ∨ Output reg p

variable {beyond} {reg : BitVec 32 → BitVec 32} {s : Rebound}

/-- The bank that a write reaches, by its access. -/
def touched : Option Pin → Access ℕ
  | none => .touch none
  | some q => .touch (some q.data)

/-- **A write changes the bank that is mapped**, at the number of the pin of the device. -/
theorem ledWrite_eq_of_tracks (hs : Tracks reg s) (val : UInt8) :
    ledWrite s.led val =
      ({ s.led with reg := written s.reached s.bound.nr val s.led.reg }, 1,
        [.shift s.bound.nr, touched s.reached]) := by
  have hdat := hs.dat
  have hnr : pinOf s.led.ledPin = s.bound.nr := by rw [hs.pin, s.bound.pinOf_ledPin]
  cases hreached : s.reached with
  | none =>
    rw [hreached] at hdat
    rw [ledWrite_of_dead hdat, hnr]
    rfl
  | some q =>
    rw [hreached] at hdat
    obtain ⟨m, hdat, hlive⟩ := hdat
    rw [ledWrite_of_live hdat hlive, hnr]
    rfl

/-- No data register is a configuration register. -/
theorem written_base (q : Option Pin) (p : Pin) (nr : ℕ) (val : UInt8) :
    written q nr val reg p.base = reg p.base := by
  cases q with
  | none => rfl
  | some q => exact Function.update_of_ne (q.data_ne p).symm _ _

theorem tracks_load (p : Pin) (reg : BitVec 32 → BitVec 32) : Tracks reg (.load p reg) where
  pin := rfl
  con := rfl
  dat := rfl
  outputs q := by simp [Rebound.load]

/-- An open makes its own pin an output, and no other. -/
theorem output_configured (reg : BitVec 32 → BitVec 32) (p q : Pin) :
    Output (Function.update reg p.base (configured p.nr (reg p.base))) q ↔
      q = p ∨ Output reg q := by
  have hp := p.lt
  by_cases hbank : q.bank = p.bank
  · have hbase := Pin.base_eq_iff.mpr hbank
    have hself : q = p ↔ q.nr = p.nr := by rw [Pin.ext_iff', and_iff_right hbank]
    rw [hself]
    unfold Output
    rw [hbase, Function.update_self, getLsbD_configured hp, getLsbD_configured hp]
    by_cases hnr : q.nr = p.nr
    · simp [hnr]
    · rw [if_neg (by omega), if_neg (by omega), if_neg (by omega), if_neg (by omega)]
      simp [hnr]
  · have hbase : q.base ≠ p.base := fun h => hbank (Pin.base_eq_iff.mp h)
    have hother : q ≠ p := fun h => hbank (congrArg Pin.bank h)
    unfold Output
    rw [Function.update_of_ne hbase]
    simp [hother]

theorem tracks_ledOpen (hs : Tracks reg s) : Tracks reg (s.step beyond (.ledOpen true)) := by
  have hopen : (ledOpen s.led beyond (some s.maps)).1 = _ := ledOpen_eq hs.pin s.maps
  refine ⟨?_, ?_, ?_, ?_⟩
  · simpa [Rebound.step, hopen] using hs.pin
  · simp [Rebound.step, hopen]
  · simp [Rebound.step, hopen]
  · intro p
    simp only [Rebound.step, hopen, output_configured, hs.outputs, List.mem_cons, or_assoc]

theorem tracks_ledWrite (hs : Tracks reg s) (val : UInt8) :
    Tracks reg (s.step beyond (.ledWrite val)) := by
  have hwrite := ledWrite_eq_of_tracks hs val
  refine ⟨?_, ?_, ?_, ?_⟩
  · simpa [Rebound.step, hwrite] using hs.pin
  · simpa [Rebound.step, hwrite] using hs.con
  · simpa [Rebound.step, hwrite, phys] using hs.dat
  · intro p
    refine Iff.trans ?_ (hs.outputs p)
    simp only [Rebound.step, hwrite, Output, written_base]

theorem tracks_ledRelease (hs : Tracks reg s) : Tracks reg (s.step beyond .ledRelease) := by
  have hcon := hs.con
  have hdat := hs.dat
  cases hc : s.con with
  | false =>
    simp only [hc, Bool.false_eq_true, if_false] at hcon
    have hled : (ledRelease s.led).1 = s.led := by simp [ledRelease, iounmap, hcon]
    refine ⟨?_, ?_, ?_, ?_⟩
    · simpa [Rebound.step, hled] using hs.pin
    · simpa [Rebound.step, hled, hc] using hcon
    · simpa [Rebound.step, hled, hc] using hdat
    · simpa [Rebound.step, hled] using hs.outputs
  | true =>
    -- The mapping that goes is the one behind both pointers.
    simp only [hc, if_true] at hcon
    obtain ⟨m, hcon, hdat⟩ := hcon
    have hled : (ledRelease s.led).1 =
        { s.led with live := Function.update s.led.live m none } := by
      simp [ledRelease, iounmap, hcon]
    refine ⟨?_, ?_, ?_, ?_⟩
    · simpa [Rebound.step, hled] using hs.pin
    · simp [Rebound.step, hled, hc, hcon, hdat]
    · simp [Rebound.step, hled, hc, hdat, phys]
    · simpa [Rebound.step, hled] using hs.outputs

/-- **The calls tell where a write goes.** -/
theorem step_tracks (hs : Tracks reg s) (a : Call) : Tracks reg (s.step beyond a) := by
  cases a with
  | ledProbe p => exact ⟨rfl, hs.con, hs.dat, hs.outputs⟩
  | ledOpen maps =>
    cases maps with
    | true => exact tracks_ledOpen hs
    | false =>
      refine ⟨hs.pin, rfl, ?_, hs.outputs⟩
      exact hs.dat
  | ledWrite val => exact tracks_ledWrite hs val
  | ledRelease => exact tracks_ledRelease hs

/-! ## Writes -/

/-- The bits of a write that reaches the bank of `q`. -/
theorem getLsbD_update (p q : Pin) (val : UInt8) (r : BitVec 32) (i : ℕ) :
    ((Function.update reg q.data (driven p.nr val (reg q.data))) r).getLsbD i =
      if r = q.data ∧ i = p.nr then decide (val = 0) else (reg r).getLsbD i := by
  by_cases hr : r = q.data
  · rw [hr, Function.update_self, getLsbD_driven p.lt]
    simp
  · rw [Function.update_of_ne hr, if_neg (fun h => hr h.1)]

/-- **A write lights the LED** iff it has what it needs. -/
theorem lights_iff_of_tracks (hs : Tracks reg s) (a : Call) :
    Lights beyond s a ↔ Reaches reg s a := by
  cases a with
  | ledWrite val =>
    have hreg : (s.step beyond (.ledWrite val)).led.reg =
        written s.reached s.bound.nr val s.led.reg := by
      simp only [Rebound.step, ledWrite_eq_of_tracks hs val]
    have hsound : (∀ x ∈ (ledWrite s.led val).2.2, x.Sound) ↔ s.reached ≠ none := by
      rw [ledWrite_eq_of_tracks hs val]
      cases s.reached <;> simp [touched, Access.Sound]
    simp only [Lights, Reaches, ← hs.outputs, hreg, hsound]
    rw [and_left_comm]
    refine and_congr_right fun _ => ?_
    cases s.reached with
    -- The kernel oopses without a mapping.
    | none => simp
    | some q =>
      simp only [written, getLsbD_update, Option.mem_some_iff, exists_eq_left', ne_eq,
        reduceCtorEq, not_false_eq_true, true_and]
      by_cases hbank : q.bank = s.bound.bank
      · have hdata := Pin.data_eq_iff.mpr hbank
        refine iff_of_true ⟨by simp [hdata], fun r i hne => ?_⟩ (Or.inl hbank)
        rw [if_neg]
        rintro ⟨rfl, rfl⟩
        exact hne.elim (fun h => h hdata) (fun h => h rfl)
      · have hdata : s.bound.data ≠ q.data := fun h => hbank (Pin.data_eq_iff.mp h).symm
        rw [or_iff_right hbank, if_neg (fun h => hdata h.1)]
        -- The write misses the pin, and must not change the one that it hits.
        refine and_congr_right fun _ => ⟨fun h => ?_, fun h r i _ => ?_⟩
        · have hsame := h q.data s.bound.nr (Or.inl hdata.symm)
          rw [if_pos ⟨rfl, rfl⟩] at hsame
          exact hsame.symm
        · split
          · rename_i hhit
            obtain ⟨rfl, rfl⟩ := hhit
            exact h.symm
          · rfl
  | _ => exact Iff.rfl

/-- **The writes of a run light the LED** iff each finds its pin an output and its bank mapped, or
another bank and nothing to change. -/
theorem lights_iff (beyond : ℤ → BitVec 32) (p : Pin) (reg : BitVec 32 → BitVec 32)
    (as : List Call) :
    Along (Rebound.step beyond) (Lights beyond) (.load p reg) as ↔
      Along (Rebound.step beyond) (Reaches reg) (.load p reg) as :=
  along_congr (I := Tracks reg) (fun _ a hs => step_tracks hs a)
    (fun _ a hs => lights_iff_of_tracks hs a) (tracks_load p reg)

end LinuxStack.Led
