import LinuxStack.Ch36x.Bus
import LinuxStack.Transition.Run

/-!
# SPI transfers

`ch36x_stream_spi` sends some bytes and then receives some, between a start that pulls the chip
select low through a general output register and a stop that raises it.

## Main definitions

* `startSpi`, `startSpiDataIn`, `stopSpi`, `streamSpi`: the functions of the driver
* `sent`, `answered`: what an observer of the data register sees leave and enter
* `selectStep`: the chip select, as the writes to the output register set it
-/

namespace LinuxStack.Ch36x

open Memory Transition

/-! ## The transfer -/

/-- `offsetof(mCH367_IO_REG, mCH367GPOR)`, and the two registers of the SPI. -/
def mCH367GPOR : ℕ := 0xE8
def mCH367SPICtrl : ℕ := 0xFD
def mCH367SPIData : ℕ := 0xFE

/-- The bits of the output register that the transfer names. -/
def gporSetScs : BitVec 8 := 0x04
def gporSetSdxDir : BitVec 8 := 0x40
def gporSetSdx : BitVec 8 := 0x80

/-- The bits of the SPI control register that the transfer names. -/
def spicrFreq : BitVec 8 := 0x20
def spicrSltSdi : BitVec 8 := 0x40
def spicrNewtran : BitVec 8 := 0x80

/-- The value that a start writes to the control register. -/
def spiControl (spimode : ℕ) : BitVec 8 :=
  if spimode.testBit 0 then
    if spimode.testBit 1 then spicrNewtran ||| spicrFreq ||| spicrSltSdi
    else spicrNewtran ||| spicrFreq
  else
    if spimode.testBit 1 then spicrNewtran ||| spicrSltSdi
    else spicrNewtran

section Transfer

variable (hw : Hardware)

def startSpiDataIn (s : State Ch36xDev) (regGPOR : BitVec 8) : State Ch36xDev :=
  if s.dev.spimode.testBit 1 then
    -- The address is passed as the value, and the value as the address.
    s.outb (BitVec.ofNat 8 (s.dev.ioaddr + mCH367GPOR)) (regGPOR &&& 0x39).toNat
  else s

/-- The state, the output register as it was, and the return value. -/
def startSpi (s : State Ch36xDev) : State Ch36xDev × BitVec 8 × ℤ :=
  let (_, s) := s.inb hw (s.dev.ioaddr + mCH367SPICtrl)
  let s := s.outb (spiControl s.dev.spimode) (s.dev.ioaddr + mCH367SPICtrl)
  let (regGPOR, s) := s.inb hw (s.dev.ioaddr + mCH367GPOR)
  let s :=
    if regGPOR &&& gporSetScs = 0 then s.outb (regGPOR ||| gporSetScs) (s.dev.ioaddr + mCH367GPOR)
    else s
  let s := s.outb ((regGPOR &&& 0x39) ||| gporSetSdxDir) (s.dev.ioaddr + mCH367GPOR)
  let (regval, s) := s.inb hw (s.dev.ioaddr + mCH367GPOR)
  if regval &&& gporSetScs ≠ 0 then (s, regGPOR, -1) else (s, regGPOR, 0)

def stopSpi (s : State Ch36xDev) (regGPOR : BitVec 8) : State Ch36xDev × ℤ :=
  let (regval, s) := s.inb hw (s.dev.ioaddr + mCH367SPICtrl)
  let s := s.outb (regval &&& spicrFreq) (s.dev.ioaddr + mCH367SPICtrl)
  let s := s.outb ((regGPOR &&& 0x39) ||| gporSetSdx ||| gporSetScs) (s.dev.ioaddr + mCH367GPOR)
  let (regval, s) := s.inb hw (s.dev.ioaddr + mCH367GPOR)
  if regval &&& gporSetScs = 0 then (s, -1) else (s, 0)

/-- The first loop of a transfer. -/
def sendBytes : List UInt8 → State Ch36xDev → State Ch36xDev
  | [], s => s
  | b :: bs, s => sendBytes bs (s.outb b.toBitVec (s.dev.ioaddr + mCH367SPIData))

/-- The second loop of a transfer: the bytes it puts in the buffer. -/
def receiveBytes : ℕ → State Ch36xDev → List UInt8 × State Ch36xDev
  | 0, s => ([], s)
  | n + 1, s =>
    let (b, s) := s.inb hw (s.dev.ioaddr + mCH367SPIData)
    let (bs, s) := receiveBytes n s
    (⟨b⟩ :: bs, s)

/-- A transfer, whose buffer is allocated or not. A start that fails leaves the return value of
the copy before it. -/
def streamSpi (kmalloc : Bool) (s : State Ch36xDev) (ibuf ilen obuf olen : ℕ) :
    State Ch36xDev × ℤ :=
  if kmalloc = false then (s, -ENOMEM)
  else
    let (buf, retval) := s.user.copyFromUser ibuf ilen
    if retval ≠ 0 then (s, retval)
    else
      let (s, regGPOR, ret) := startSpi hw s
      -- A start that fails is not undone.
      if ret ≠ 0 then (s, retval)
      else
        let s := sendBytes buf s
        let (buf, s) :=
          if olen ≠ 0 then receiveBytes hw olen (startSpiDataIn s regGPOR) else ([], s)
        let (s, _) := stopSpi hw s regGPOR
        let (s, retval) := s.copyToUser obuf buf
        (s, retval)

end Transfer

/-! ## What is seen on the wire -/

/-- An access to a port, of any width. -/
def Access.Touches (port : ℕ) : Access → Prop
  | .read .io _ addr => addr = port
  | .write .io _ addr _ => addr = port
  | _ => False

/-- The bytes written to a port, in order. -/
def sent (port : ℕ) : List Access → List ℕ :=
  List.filterMap fun
    | .write .io .byte addr val => if addr = port then some val else none
    | _ => none

/-- The bytes that a chip answers at a port, in order, after the accesses `before`. -/
def answered (hw : Hardware) (port : ℕ) : List Access → List Access → List UInt8
  | _, [] => []
  | before, a :: as =>
    if a = .read .io .byte port then
      UInt8.ofNat (hw.read before .io .byte port) :: answered hw port (before ++ [a]) as
    else answered hw port (before ++ [a]) as

/-- The chip is selected while bit 2 of its output register is low. -/
def selectStep (base : ℕ) (selected : Bool) : Access → Bool
  | .write .io .byte addr val => if addr = base + mCH367GPOR then !val.testBit 2 else selected
  | _ => selected

/-- The data register is only accessed while the chip is selected. -/
def Framed (base : ℕ) : Bool → List Access → Prop :=
  Along (selectStep base) fun selected a => a.Touches (base + mCH367SPIData) → selected = true

/-- Accesses that leave the data register alone. -/
def Quiet (base : ℕ) (as : List Access) : Prop :=
  ∀ a ∈ as, ¬ a.Touches (base + mCH367SPIData)

section Observers

variable {hw : Hardware} {base port : ℕ} {before as bs : List Access}

@[simp] theorem sent_append : sent port (as ++ bs) = sent port as ++ sent port bs :=
  List.filterMap_append

theorem answered_append :
    answered hw port before (as ++ bs) =
      answered hw port before as ++ answered hw port (before ++ as) bs := by
  -- What the chip answers depends on all accesses before.
  induction as generalizing before with
  | nil => simp [answered]
  | cons a as ih =>
    by_cases ha : a = .read .io .byte port
    · simp [answered, ha, ih]
    · simp [answered, ha, ih]

theorem sent_of_quiet (h : Quiet base as) : sent (base + mCH367SPIData) as = [] := by
  apply List.filterMap_eq_nil_iff.mpr
  intro a ha
  have hquiet := h a ha
  cases a with
  | write space w addr val =>
    cases space <;> cases w <;> simp_all [Access.Touches]
  | _ => rfl

theorem answered_of_quiet (h : Quiet base as) :
    answered hw (base + mCH367SPIData) before as = [] := by
  induction as generalizing before with
  | nil => rfl
  | cons a as ih =>
    obtain ⟨ha, has⟩ := List.forall_mem_cons.mp h
    have hne : a ≠ .read .io .byte (base + mCH367SPIData) := by
      rintro rfl
      exact ha rfl
    rw [answered, if_neg hne, ih has]

theorem framed_of_quiet (h : Quiet base as) (selected : Bool) : Framed base selected as := by
  apply along_iff_forall_prefix.mpr
  rintro before a after rfl htouches
  exact absurd htouches (h a (by simp))

end Observers

/-! ## What the functions do on the wire -/

/-- An access to one of the three registers of the SPI. -/
def Access.OnSpi (base : ℕ) (a : Access) : Prop :=
  a.Touches (base + mCH367GPOR) ∨ a.Touches (base + mCH367SPICtrl) ∨
    a.Touches (base + mCH367SPIData)

/-- Accesses around the data, that end with the chip selected or not. -/
structure Around (base : ℕ) (as : List Access) (ends : Bool) : Prop where
  aside : ∀ a ∈ as, a.Touches (base + mCH367GPOR) ∨ a.Touches (base + mCH367SPICtrl)
  ends : ∀ selected, run (selectStep base) selected as = ends

theorem setSdxDir_scs (b : BitVec 8) :
    ((b &&& 0x39) ||| gporSetSdxDir).toNat.testBit 2 = false := by
  have hmask : Nat.testBit 0x39 2 = false := rfl
  have hdir : Nat.testBit 0x40 2 = false := rfl
  simp [gporSetSdxDir, BitVec.testBit_toNat, hmask, hdir]

theorem setScs_scs (b : BitVec 8) :
    ((b &&& 0x39) ||| gporSetSdx ||| gporSetScs).toNat.testBit 2 = true := by
  have hscs : Nat.testBit 0x04 2 = true := rfl
  simp [gporSetScs, BitVec.testBit_toNat, hscs]

section Functions

variable (hw : Hardware) (s : State Ch36xDev)

/-- A start leaves the chip selected, whatever it returns. -/
theorem startSpi_spec :
    ∃ as, (startSpi hw s).1 = s.push as ∧ Around s.dev.ioaddr as true := by
  unfold startSpi
  simp only [State.inb_eq, State.outb_eq, State.push_dev, State.push_push, State.ite_push,
    apply_ite Prod.fst, ite_self]
  refine ⟨_, rfl, ?_⟩
  generalize State.answer hw _ _ _ = regGPOR
  -- The last write to the output register clears the chip select, whatever was read before.
  have hscs := setSdxDir_scs regGPOR
  generalize ((regGPOR &&& 0x39) ||| gporSetSdxDir).toNat = v at hscs ⊢
  constructor
  · split <;> simp [Access.Touches]
  · intro selected
    split <;> simp [selectStep, hscs, mCH367GPOR, mCH367SPICtrl]

/-- A stop leaves the chip deselected, whatever it returns. -/
theorem stopSpi_spec (regGPOR : BitVec 8) :
    ∃ as, (stopSpi hw s regGPOR).1 = s.push as ∧ Around s.dev.ioaddr as false := by
  unfold stopSpi
  simp only [State.inb_eq, State.outb_eq, State.push_dev, State.push_push, apply_ite Prod.fst,
    ite_self]
  refine ⟨_, rfl, ?_⟩
  have hscs := setScs_scs regGPOR
  generalize ((regGPOR &&& 0x39) ||| gporSetSdx ||| gporSetScs).toNat = v at hscs ⊢
  constructor
  · simp [Access.Touches]
  · intro selected
    simp [selectStep, hscs, mCH367GPOR, mCH367SPICtrl]

/-- The writes of the first loop. -/
def sends (base : ℕ) (bs : List UInt8) : List Access :=
  bs.map fun b => .write .io .byte (base + mCH367SPIData) b.toNat

/-- The reads of the second loop. -/
def receives (base : ℕ) (n : ℕ) : List Access :=
  List.replicate n (.read .io .byte (base + mCH367SPIData))

/-- The write of a data-in start, which goes to a port below the device. -/
def stray (d : Ch36xDev) (regGPOR : BitVec 8) : List Access :=
  if d.spimode.testBit 1 then
    [.write .io .byte (regGPOR &&& 0x39).toNat (BitVec.ofNat 8 (d.ioaddr + mCH367GPOR)).toNat]
  else []

theorem sendBytes_eq (bs : List UInt8) : sendBytes bs s = s.push (sends s.dev.ioaddr bs) := by
  induction bs generalizing s with
  | nil => exact State.push_nil.symm
  | cons b bs ih =>
    rw [sendBytes, State.outb_eq, ih, State.push_push]
    rfl

theorem receiveBytes_eq (n : ℕ) :
    receiveBytes hw n s =
      (answered hw (s.dev.ioaddr + mCH367SPIData) s.log (receives s.dev.ioaddr n),
        s.push (receives s.dev.ioaddr n)) := by
  induction n generalizing s with
  | zero => exact Prod.ext rfl State.push_nil.symm
  | succ n ih =>
    have hlist : receives s.dev.ioaddr (n + 1) =
        .read .io .byte (s.dev.ioaddr + mCH367SPIData) :: receives s.dev.ioaddr n :=
      List.replicate_succ
    simp only [receiveBytes, State.inb_eq, ih, State.push_push, State.push_dev, State.push_log]
    rw [hlist, answered, if_pos rfl]
    rfl

theorem startSpiDataIn_eq (regGPOR : BitVec 8) :
    startSpiDataIn s regGPOR = s.push (stray s.dev regGPOR) := by
  unfold startSpiDataIn stray
  split <;> simp

end Functions

end LinuxStack.Ch36x
