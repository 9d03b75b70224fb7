import LinuxStack.Ch36x.Spi

/-!
# What SPI transfers carry

Over any run of transfers and mode settings, and whatever the chip answers, the bytes that leave
are those of the transfers that start, in order, and the data register is only accessed while the
chip is selected. A start that the chip refuses is not reported, and leaves the chip selected. A
data-in start writes to a port outside the device.

## Main definitions

* `Transfer`, `SpiCall`, `spiStep`: the calls, and what a call does to the device
* `Starts`: the transfer gets past its start
* `Strays`: the transfer makes the write outside the device

## Main results

* `stream_outcome`: what a transfer that starts, and one that is refused, come to
* `spi_sends`: what leaves the device in a run
* `spi_onSpi_iff`: a run stays on the registers of the SPI iff no call of it strays
-/

namespace LinuxStack.Ch36x

open Memory Transition

/-! ## Calls -/

/-- The arguments of a transfer, its caller, and whether its buffer can be allocated. -/
structure Transfer where
  kmalloc : Bool
  ibuf : ℕ
  ilen : ℕ
  obuf : ℕ
  olen : ℕ
  user : User

/-- The bytes to send. -/
def Transfer.input (t : Transfer) : List UInt8 := load t.user.byte t.ibuf t.ilen

/-- The bytes to send can all be read. -/
def Transfer.Readable (t : Transfer) : Prop :=
  t.kmalloc = true ∧ uncopied t.ilen (t.user.fault t.ibuf t.ilen) = 0

instance (t : Transfer) : Decidable t.Readable := inferInstanceAs (Decidable (_ ∧ _))

/-- The calls on the SPI. -/
inductive SpiCall where
  | setStream (mode : ℕ)
  | stream (t : Transfer)

section Calls

variable (hw : Hardware) (s : State Ch36xDev)

/-- A transfer, for its caller. -/
def stream (t : Transfer) : State Ch36xDev × ℤ :=
  streamSpi hw t.kmalloc { s with user := t.user } t.ibuf t.ilen t.obuf t.olen

def spiStep : SpiCall → State Ch36xDev
  | .setStream mode => { s with dev.spimode := mode }
  | .stream t => (stream hw s t).1

/-- The transfer reaches its start, and the chip shows itself selected. -/
def Starts (t : Transfer) : Prop :=
  t.Readable ∧ (startSpi hw { s with user := t.user }).2.2 = 0

instance (t : Transfer) : Decidable (Starts hw s t) := inferInstanceAs (Decidable (_ ∧ _))

/-- The bytes that a call sends. -/
def SpiCall.sends : SpiCall → List UInt8
  | .setStream _ => []
  | .stream t => if Starts hw s t then t.input else []

/-- The call makes the write of a data-in start. -/
def Strays : SpiCall → Prop
  | .setStream _ => False
  | .stream t => Starts hw s t ∧ t.olen ≠ 0 ∧ s.dev.spimode.testBit 1 = true

end Calls

/-! ## Pieces of a transfer -/

section Pieces

variable {hw : Hardware} {base n : ℕ} {d : Ch36xDev} {as before : List Access} {bs : List UInt8}
  {selected ends : Bool} {regGPOR : BitVec 8}

/-- An access touches one port at most. -/
theorem Access.Touches.eq {a : Access} {p q : ℕ} (hp : a.Touches p) (hq : a.Touches q) :
    p = q := by
  cases a with
  | read space _ _ => cases space with
    | io => exact hp.symm.trans hq
    | config | mem => cases hp
  | write space _ _ _ => cases space with
    | io => exact hp.symm.trans hq
    | config | mem => cases hp
  | readBlock _ _ | writeBlock _ _ => cases hp

theorem Around.quiet (h : Around base as ends) : Quiet base as := by
  intro a ha htouches
  rcases h.aside a ha with hgpor | hctrl
  · have heq := hgpor.eq htouches
    simp [mCH367GPOR, mCH367SPIData] at heq
  · have heq := hctrl.eq htouches
    simp [mCH367SPICtrl, mCH367SPIData] at heq

theorem Around.onSpi (h : Around base as ends) : ∀ a ∈ as, a.OnSpi base := fun a ha =>
  (h.aside a ha).elim Or.inl fun hctrl => Or.inr (Or.inl hctrl)

/-- Accesses elsewhere leave the chip select as it is. -/
theorem run_selectStep_of_not_touches (h : ∀ a ∈ as, ¬ a.Touches (base + mCH367GPOR)) :
    run (selectStep base) selected as = selected := by
  induction as with
  | nil => rfl
  | cons a as ih =>
    obtain ⟨ha, has⟩ := List.forall_mem_cons.mp h
    have hstep : selectStep base selected a = selected := by
      cases a with
      | write space w addr val => cases space with
        | io => cases w with
          | byte => exact if_neg ha
          | word | dword => rfl
        | config | mem => rfl
      | _ => rfl
    rw [run_cons, hstep, ih has]

/-- The write of a data-in start goes to a port in front of the registers. -/
theorem stray_port_lt (b : BitVec 8) : (b &&& 0x39).toNat < mCH367GPOR := by
  have hle : (b &&& 0x39).toNat ≤ 0x39 := by
    rw [BitVec.toNat_and]
    exact Nat.and_le_right
  exact Nat.lt_of_le_of_lt hle (by decide)

theorem stray_touches : ∀ a ∈ stray d regGPOR, a.Touches (regGPOR &&& 0x39).toNat := by
  unfold stray
  split <;> simp [Access.Touches]

theorem stray_quiet : Quiet d.ioaddr (stray d regGPOR) := by
  intro a ha htouches
  have heq := (stray_touches a ha).eq htouches
  -- The port is no register of the device, as it is less than the offset of one.
  have hlt := stray_port_lt regGPOR
  have hpos : mCH367GPOR < mCH367SPIData := by decide
  omega

theorem run_selectStep_stray :
    run (selectStep d.ioaddr) selected (stray d regGPOR) = selected := by
  apply run_selectStep_of_not_touches
  intro a ha htouches
  have heq := (stray_touches a ha).eq htouches
  have hlt := stray_port_lt regGPOR
  omega

theorem stray_not_onSpi (h : d.spimode.testBit 1 = true) (regGPOR : BitVec 8) :
    ∃ a ∈ stray d regGPOR, ¬ a.OnSpi d.ioaddr := by
  have hlt := stray_port_lt regGPOR
  have hctrl : mCH367GPOR < mCH367SPICtrl := by decide
  have hdata : mCH367GPOR < mCH367SPIData := by decide
  rw [stray, if_pos h]
  refine ⟨_, List.mem_singleton_self _, ?_⟩
  simp only [Access.OnSpi, Access.Touches]
  omega

/-! The loops. -/

@[simp] theorem sent_sends :
    sent (base + mCH367SPIData) (sends base bs) = bs.map UInt8.toNat := by
  simp [sent, sends, List.filterMap_map]

@[simp] theorem sent_receives : sent (base + mCH367SPIData) (receives base n) = [] := by
  simp [sent, receives]

@[simp] theorem answered_sends :
    answered hw (base + mCH367SPIData) before (sends base bs) = [] := by
  induction bs generalizing before with
  | nil => rfl
  | cons b bs ih =>
    rw [sends, List.map_cons, answered, if_neg (by simp)]
    exact ih

theorem answered_receives_length :
    (answered hw (base + mCH367SPIData) before (receives base n)).length = n := by
  induction n generalizing before with
  | zero => rfl
  | succ n ih =>
    rw [receives, List.replicate_succ, answered, if_pos rfl, List.length_cons]
    exact congrArg (· + 1) ih

/-- Accesses to the data register keep the chip selected. -/
theorem run_selectStep_data (h : ∀ a ∈ as, a.Touches (base + mCH367SPIData)) :
    run (selectStep base) selected as = selected := by
  apply run_selectStep_of_not_touches
  intro a ha htouches
  have heq := (h a ha).eq htouches
  simp [mCH367GPOR, mCH367SPIData] at heq

theorem framed_data (h : ∀ a ∈ as, a.Touches (base + mCH367SPIData)) : Framed base true as := by
  apply along_iff_forall_prefix.mpr
  rintro before a after rfl -
  exact run_selectStep_data fun a ha => h a (List.mem_append_left _ ha)

theorem sends_touches : ∀ a ∈ sends base bs, a.Touches (base + mCH367SPIData) := by
  simp [sends, Access.Touches]

theorem receives_touches : ∀ a ∈ receives base n, a.Touches (base + mCH367SPIData) := by
  intro a ha
  obtain rfl := List.eq_of_mem_replicate ha
  rfl

end Pieces

/-! ## Transfers -/

section Transfers

variable {hw : Hardware} {s : State Ch36xDev} {t : Transfer}

/-- The accesses of a transfer that starts. -/
def carried (d : Ch36xDev) (t : Transfer) (regGPOR : BitVec 8) (start stop : List Access) :
    List Access :=
  start ++ sends d.ioaddr t.input ++
    (if t.olen ≠ 0 then stray d regGPOR ++ receives d.ioaddr t.olen else []) ++ stop

theorem answered_carried {d : Ch36xDev} {regGPOR : BitVec 8} {start stop before : List Access}
    (hstart : Quiet d.ioaddr start) (hstop : Quiet d.ioaddr stop) :
    answered hw (d.ioaddr + mCH367SPIData) before (carried d t regGPOR start stop) =
      if t.olen ≠ 0 then
        answered hw (d.ioaddr + mCH367SPIData)
          (before ++ (start ++ sends d.ioaddr t.input ++ stray d regGPOR))
          (receives d.ioaddr t.olen)
      else [] := by
  unfold carried
  split
  · simp [answered_append, answered_of_quiet, hstart, hstop, stray_quiet]
  · simp [answered_append, answered_of_quiet, hstart, hstop]

section Carried

variable {d : Ch36xDev} {regGPOR : BitVec 8} {start stop : List Access}

theorem sent_carried (hstart : Quiet d.ioaddr start) (hstop : Quiet d.ioaddr stop) :
    sent (d.ioaddr + mCH367SPIData) (carried d t regGPOR start stop) =
      t.input.map UInt8.toNat := by
  unfold carried
  split <;> simp [sent_of_quiet, hstart, hstop, stray_quiet]

/-- The chip is selected by the start, and nothing before the stop changes that. -/
theorem framed_carried (hstart : Around d.ioaddr start true) (hstop : Around d.ioaddr stop false)
    (selected : Bool) : Framed d.ioaddr selected (carried d t regGPOR start stop) := by
  have hsends : Framed d.ioaddr true (sends d.ioaddr t.input) := framed_data sends_touches
  -- The stray write is none to the output register, so the chip stays selected.
  have hmiddle : Framed d.ioaddr true
      (if t.olen ≠ 0 then stray d regGPOR ++ receives d.ioaddr t.olen else []) := by
    split
    · refine along_append.mpr ⟨framed_of_quiet stray_quiet true, ?_⟩
      rw [run_selectStep_stray]
      exact framed_data receives_touches
    · trivial
  refine along_append.mpr ⟨along_append.mpr ⟨along_append.mpr
    ⟨framed_of_quiet hstart.quiet selected, ?_⟩, ?_⟩, framed_of_quiet hstop.quiet _⟩
  · rwa [hstart.ends]
  · rwa [run_append, hstart.ends, run_selectStep_data sends_touches]

theorem run_selectStep_carried (hstop : Around d.ioaddr stop false) (selected : Bool) :
    run (selectStep d.ioaddr) selected (carried d t regGPOR start stop) = false := by
  rw [carried, run_append, hstop.ends]

/-- Among the accesses of a transfer, only the write of a data-in start is elsewhere. -/
theorem carried_onSpi_iff (hstart : Around d.ioaddr start true)
    (hstop : Around d.ioaddr stop false) :
    (∀ a ∈ carried d t regGPOR start stop, a.OnSpi d.ioaddr) ↔
      ¬ (t.olen ≠ 0 ∧ d.spimode.testBit 1 = true) := by
  simp only [carried, List.forall_mem_append]
  constructor
  · rintro ⟨⟨-, hmiddle⟩, -⟩ ⟨hlen, hmode⟩
    obtain ⟨a, ha, hnot⟩ := stray_not_onSpi hmode regGPOR
    rw [if_pos hlen] at hmiddle
    exact hnot (hmiddle a (List.mem_append_left _ ha))
  · intro hnot
    refine ⟨⟨⟨hstart.onSpi, fun a ha => Or.inr (Or.inr (sends_touches a ha))⟩, ?_⟩, hstop.onSpi⟩
    split
    · have hmode : ¬ d.spimode.testBit 1 = true := fun hmode => hnot ⟨‹_›, hmode⟩
      rw [stray, if_neg hmode, List.nil_append]
      exact fun a ha => Or.inr (Or.inr (receives_touches a ha))
    · simp

end Carried

/-- The second half of a transfer. -/
theorem dataIn_eq (n : ℕ) (regGPOR : BitVec 8) :
    (if n ≠ 0 then receiveBytes hw n (startSpiDataIn s regGPOR) else ([], s)) =
      (if n ≠ 0 then
          answered hw (s.dev.ioaddr + mCH367SPIData) (s.log ++ stray s.dev regGPOR)
            (receives s.dev.ioaddr n)
        else [],
        s.push (if n ≠ 0 then stray s.dev regGPOR ++ receives s.dev.ioaddr n else [])) := by
  rw [startSpiDataIn_eq, receiveBytes_eq]
  split <;> simp

theorem copyFromUser_of_readable (h : t.Readable) :
    t.user.copyFromUser t.ibuf t.ilen = (t.input, 0) := by
  have hlen : uncopied (load t.user.byte t.ibuf t.ilen).length (t.user.fault t.ibuf t.ilen) =
      0 := by
    rw [load_length, h.2]
  exact Prod.ext (stored_of_uncopied hlen) h.2

/-- What a transfer does that starts. -/
theorem stream_of_starts (h : Starts hw s t) :
    ∃ start stop regGPOR, Around s.dev.ioaddr start true ∧ Around s.dev.ioaddr stop false ∧
      ∃ as, as = carried s.dev t regGPOR start stop ∧
        stream hw s t =
          (State.mk s.dev (s.log ++ as) (t.user.copyToUser t.obuf
              (answered hw (s.dev.ioaddr + mCH367SPIData) s.log as)).1,
            ((t.user.copyToUser t.obuf
              (answered hw (s.dev.ioaddr + mCH367SPIData) s.log as)).2 : ℤ)) := by
  obtain ⟨hread, hret⟩ := h
  obtain ⟨start, hstart, haround⟩ := startSpi_spec hw { s with user := t.user }
  generalize hr : (startSpi hw { s with user := t.user }).2.1 = regGPOR
  have hres : startSpi hw { s with user := t.user } =
      ((State.mk s.dev s.log t.user).push start, regGPOR, 0) :=
    Prod.ext hstart (Prod.ext hr hret)
  unfold stream streamSpi
  rw [if_neg (by simp [hread.1]), copyFromUser_of_readable hread]
  simp only [hres, sendBytes_eq, dataIn_eq]
  -- The stop comes after the bytes have been sent and received.
  obtain ⟨stop, hstop, haround'⟩ := stopSpi_spec hw
    (((State.mk s.dev s.log t.user).push start).push (sends s.dev.ioaddr t.input) |>.push
      (if t.olen ≠ 0 then stray s.dev regGPOR ++ receives s.dev.ioaddr t.olen else [])) regGPOR
  refine ⟨start, stop, regGPOR, haround, haround', _, rfl, ?_⟩
  rw [answered_carried haround.quiet haround'.quiet]
  simp only [State.push_dev] at hstop ⊢
  rw [if_neg (by simp), if_neg (by simp), hstop]
  simp only [State.copyToUser, State.push, carried, List.append_assoc]

/-- A transfer whose input cannot be read does not reach the device. -/
theorem stream_of_not_readable (hw : Hardware) (s : State Ch36xDev) (h : ¬ t.Readable) :
    ∃ ret, ret ≠ 0 ∧ stream hw s t = ({ s with user := t.user }, ret) := by
  unfold stream streamSpi
  by_cases halloc : t.kmalloc = false
  · exact ⟨-ENOMEM, by decide, if_pos halloc⟩
  · rw [if_neg halloc]
    have hleft : t.user.copyFromUser t.ibuf t.ilen =
        (stored t.input (t.user.fault t.ibuf t.ilen),
          uncopied t.ilen (t.user.fault t.ibuf t.ilen)) := rfl
    have hne : uncopied t.ilen (t.user.fault t.ibuf t.ilen) ≠ 0 := by
      intro hzero
      exact h ⟨eq_true_of_ne_false halloc, hzero⟩
    simp only [hleft]
    exact ⟨_, Int.natCast_ne_zero.mpr hne, if_pos hne⟩

/-- A transfer that the chip refuses. -/
theorem stream_of_refused (hread : t.Readable) (h : ¬ Starts hw s t) :
    ∃ as, Around s.dev.ioaddr as true ∧
      stream hw s t = (State.mk s.dev (s.log ++ as) t.user, 0) := by
  obtain ⟨as, hstart, haround⟩ := startSpi_spec hw { s with user := t.user }
  have hret : (startSpi hw { s with user := t.user }).2.2 ≠ 0 := fun hret => h ⟨hread, hret⟩
  refine ⟨as, haround, ?_⟩
  unfold stream streamSpi
  rw [if_neg (by simp [hread.1]), copyFromUser_of_readable hread]
  simp only [ne_eq, not_true_eq_false, if_false]
  rw [if_pos hret, hstart]
  rfl

/-- **What a readable transfer comes to.** If it starts, its bytes are those the chip answers, as
far as the caller can be written to, and the chip ends deselected. If the chip refuses, the call
returns zero, the caller gets nothing, and the chip ends selected. -/
theorem stream_outcome (hw : Hardware) (s : State Ch36xDev) (hread : t.Readable) :
    ∃ as, (stream hw s t).1.log = s.log ++ as ∧
      (∀ selected, run (selectStep s.dev.ioaddr) selected as = !decide (Starts hw s t)) ∧
      (Starts hw s t →
        (answered hw (s.dev.ioaddr + mCH367SPIData) s.log as).length = t.olen ∧
          (stream hw s t).1.user =
            (t.user.copyToUser t.obuf
              (answered hw (s.dev.ioaddr + mCH367SPIData) s.log as)).1 ∧
          (stream hw s t).2 = uncopied t.olen (t.user.fault t.obuf t.olen)) ∧
      (¬ Starts hw s t → (stream hw s t).1.user = t.user ∧ (stream hw s t).2 = 0) := by
  by_cases h : Starts hw s t
  · obtain ⟨start, stop, regGPOR, hstart, hstop, as, rfl, hres⟩ := stream_of_starts h
    have hlen : (answered hw (s.dev.ioaddr + mCH367SPIData) s.log
        (carried s.dev t regGPOR start stop)).length = t.olen := by
      rw [answered_carried hstart.quiet hstop.quiet]
      split
      · exact answered_receives_length
      · simp_all
    refine ⟨_, congrArg (fun r => r.1.log) hres, fun selected => ?_, fun _ => ?_, absurd h⟩
    · rw [run_selectStep_carried hstop, decide_eq_true h, Bool.not_true]
    · refine ⟨hlen, congrArg (fun r => r.1.user) hres, ?_⟩
      rw [hres, ← hlen]
      rfl
  · obtain ⟨as, haround, hres⟩ := stream_of_refused hread h
    refine ⟨as, congrArg (fun r => r.1.log) hres, fun selected => ?_, fun h' => absurd h' h,
      fun _ => ⟨congrArg (fun r => r.1.user) hres, congrArg Prod.snd hres⟩⟩
    rw [haround.ends, decide_eq_false h, Bool.not_false]

/-- A chip whose select line does not go low refuses, and the call returns zero. -/
theorem stream_outcome_stuck :
    ¬ Starts ⟨fun _ _ _ _ => 0xFF, fun _ _ => 0, fun _ _ => 0⟩
        ⟨⟨.ch367, 0xE000, 0, 0, 0⟩, [], ⟨fun _ => 0, fun _ _ => none⟩⟩
        ⟨true, 0x100, 2, 0x200, 2, ⟨fun _ => 0x5A, fun _ _ => none⟩⟩ ∧
      (stream ⟨fun _ _ _ _ => 0xFF, fun _ _ => 0, fun _ _ => 0⟩
        ⟨⟨.ch367, 0xE000, 0, 0, 0⟩, [], ⟨fun _ => 0, fun _ _ => none⟩⟩
        ⟨true, 0x100, 2, 0x200, 2, ⟨fun _ => 0x5A, fun _ _ => none⟩⟩).2 = 0 := by
  obtain ⟨as, -, -, -, hrefused⟩ := stream_outcome ⟨fun _ _ _ _ => 0xFF, fun _ _ => 0, fun _ _ => 0⟩
    ⟨⟨.ch367, 0xE000, 0, 0, 0⟩, [], ⟨fun _ => 0, fun _ _ => none⟩⟩
    (t := ⟨true, 0x100, 2, 0x200, 2, ⟨fun _ => 0x5A, fun _ _ => none⟩⟩) (by decide)
  have hnot : ¬ Starts ⟨fun _ _ _ _ => 0xFF, fun _ _ => 0, fun _ _ => 0⟩
      ⟨⟨.ch367, 0xE000, 0, 0, 0⟩, [], ⟨fun _ => 0, fun _ _ => none⟩⟩
      ⟨true, 0x100, 2, 0x200, 2, ⟨fun _ => 0x5A, fun _ _ => none⟩⟩ := by decide
  exact ⟨hnot, (hrefused hnot).2⟩

/-! ## Runs -/

/-- What a call does to the device: accesses that carry its bytes, each while the chip is selected,
and that stay on the registers of the SPI unless the call strays. -/
theorem spiStep_carries (hw : Hardware) (s : State Ch36xDev) (c : SpiCall) :
    ∃ as, (spiStep hw s c).log = s.log ++ as ∧ (spiStep hw s c).dev.ioaddr = s.dev.ioaddr ∧
      sent (s.dev.ioaddr + mCH367SPIData) as = (c.sends hw s).map UInt8.toNat ∧
      (∀ selected, Framed s.dev.ioaddr selected as) ∧
      ((∀ a ∈ as, a.OnSpi s.dev.ioaddr) ↔ ¬ Strays hw s c) := by
  cases c with
  | setStream mode =>
    exact ⟨[], (List.append_nil _).symm, rfl, rfl, fun _ => trivial, by simp [Strays]⟩
  | stream t =>
    rw [SpiCall.sends, Strays]
    by_cases h : Starts hw s t
    · obtain ⟨start, stop, regGPOR, hstart, hstop, as, rfl, hres⟩ := stream_of_starts h
      refine ⟨_, congrArg (fun r => r.1.log) hres, congrArg (fun r => r.1.dev.ioaddr) hres, ?_,
        framed_carried hstart hstop, ?_⟩
      · rw [sent_carried hstart.quiet hstop.quiet, if_pos h]
      · rw [carried_onSpi_iff hstart hstop, and_iff_right h]
    · simp only [h, if_false, false_and, not_false_eq_true, iff_true]
      -- Nothing is sent by a transfer that does not start.
      by_cases hread : t.Readable
      · obtain ⟨as, haround, hres⟩ := stream_of_refused hread h
        exact ⟨as, congrArg (fun r => r.1.log) hres, congrArg (fun r => r.1.dev.ioaddr) hres,
          sent_of_quiet haround.quiet, framed_of_quiet haround.quiet, haround.onSpi⟩
      · obtain ⟨ret, -, hres⟩ := stream_of_not_readable hw s hread
        rw [spiStep, hres]
        exact ⟨[], (List.append_nil _).symm, rfl, rfl, fun _ => trivial, by simp⟩

/-- The accesses of a run are those of its calls. The induction is on the calls. -/
theorem run_spiStep_carries (hw : Hardware) (s : State Ch36xDev) (cs : List SpiCall) :
    ∃ as, (run (spiStep hw) s cs).log = s.log ++ as ∧
      sent (s.dev.ioaddr + mCH367SPIData) as =
        (outputs (spiStep hw) (fun s c => c.sends hw s) s cs).flatten.map UInt8.toNat ∧
      (∀ selected, Framed s.dev.ioaddr selected as) ∧
      ((∀ a ∈ as, a.OnSpi s.dev.ioaddr) ↔
        Along (spiStep hw) (fun s c => ¬ Strays hw s c) s cs) := by
  induction cs generalizing s with
  | nil => exact ⟨[], (List.append_nil _).symm, rfl, fun _ => trivial, by simp⟩
  | cons c cs ih =>
    obtain ⟨as, hlog, hio, hsent, hframed, hon⟩ := spiStep_carries hw s c
    obtain ⟨bs, hlog', hsent', hframed', hon'⟩ := ih (spiStep hw s c)
    -- The calls that follow are made to the same ports.
    rw [hio] at hsent' hframed' hon'
    refine ⟨as ++ bs, ?_, ?_, fun selected => ?_, ?_⟩
    · rw [run_cons, hlog', hlog, List.append_assoc]
    · rw [sent_append, hsent, hsent', outputs_cons, List.flatten_cons, List.map_append]
    · exact along_append.mpr ⟨hframed selected, hframed' _⟩
    · rw [List.forall_mem_append, hon, hon', along_cons]

/-- **What leaves the device in a run**: the bytes of the transfers that start, in order, each
while the chip is selected. -/
theorem spi_sends (hw : Hardware) (s : State Ch36xDev) (cs : List SpiCall) :
    ∃ as, (run (spiStep hw) s cs).log = s.log ++ as ∧
      sent (s.dev.ioaddr + mCH367SPIData) as =
        (outputs (spiStep hw) (fun s c => c.sends hw s) s cs).flatten.map UInt8.toNat ∧
      ∀ selected, Framed s.dev.ioaddr selected as := by
  obtain ⟨as, hlog, hsent, hframed, -⟩ := run_spiStep_carries hw s cs
  exact ⟨as, hlog, hsent, hframed⟩

/-- **A run stays on the registers of the SPI** iff no transfer of it strays: receives while bit 1
of the mode is set. -/
theorem spi_onSpi_iff (hw : Hardware) (s : State Ch36xDev) (cs : List SpiCall) :
    ∃ as, (run (spiStep hw) s cs).log = s.log ++ as ∧
      ((∀ a ∈ as, a.OnSpi s.dev.ioaddr) ↔
        Along (spiStep hw) (fun s c => ¬ Strays hw s c) s cs) := by
  obtain ⟨as, hlog, -, -, hon⟩ := run_spiStep_carries hw s cs
  exact ⟨as, hlog, hon⟩

end Transfers

end LinuxStack.Ch36x
