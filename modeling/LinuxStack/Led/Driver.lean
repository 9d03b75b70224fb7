import Mathlib.Data.BitVec
import Mathlib.Logic.Function.Basic

/-!
# The LED drivers

The three `led_drv.c` share their file operations. `led_open` maps the registers of the bank that
`led_pin` names and configures its pin, `led_write` drives the pin, and `led_release` unmaps. The
two pointers into the mapping are globals, written by every open. The drivers differ in where
`led_pin` comes from: a constant, or the start of the platform device's resource.

## Main definitions

* `IoPtr M`, `MyLed M`: a pointer into an I/O mapping, and the state of a driver
* `gpioBase`, `bankOf`, `pinOf`: the table of configuration registers, and the decoding of
  `led_pin`
* `Access`, `Access.Sound`: what a call does to the outside, and that it does not go astray
* `ledOpen`, `ledWrite`, `ledRelease`, `ledProbe`: the file operations and the probe

## Main results

* `ledOpen_some`, `ledWrite_of_live`: what the calls leave in the registers, and their accesses
-/

namespace LinuxStack.Led

/-- A pointer to a word of the I/O mapping `map`. -/
structure IoPtr (M : Type*) where
  map : M
  word : ℕ

/-- The state of a driver: its globals, the live I/O mappings with their physical addresses, and
the registers by physical address. -/
structure MyLed (M : Type*) where
  ledPin : BitVec 32
  gpioCon : Option (IoPtr M)
  gpioDat : Option (IoPtr M)
  live : M → Option (BitVec 32)
  reg : BitVec 32 → BitVec 32

/-! ## Banks and pins -/

/-- The banks that the table and the device tree know, by letter. -/
inductive Letter
  | A | B | C | D | E | F | G | H | I | J | K | L | M
  deriving DecidableEq

/-- `gpio_base`, with the letters of its comments. -/
def gpioBase : List (Letter × BitVec 32) :=
  [(.A, 0x56000000), (.B, 0x56000010), (.C, 0x56000020), (.D, 0x56000030), (.E, 0x56000040),
    (.F, 0x56000050), (.G, 0x56000060), (.H, 0x56000070), (.I, 0), (.J, 0x560000D0)]

/-- `gpio_base[bank]`. What lies beyond the table is `beyond`. -/
def gpioBaseAt (beyond : ℤ → BitVec 32) (bank : ℤ) : BitVec 32 :=
  if 0 ≤ bank then ((gpioBase[bank.toNat]?).map (·.2)).getD (beyond bank) else beyond bank

/-- `led_pin >> 16`, of a signed number. -/
def bankOf (ledPin : BitVec 32) : ℤ := (ledPin.sshiftRight 16).toInt

/-- `led_pin & 0xffff`. -/
def pinOf (ledPin : BitVec 32) : ℕ := (ledPin &&& 0xffff).toNat

/-! ## I/O mappings -/

/-- What a call does to the outside: an index into `gpio_base`, a shift, a physical address mapped,
a register read and written back, a mapping given back. Behind `NULL`, and behind a pointer into a
mapping that is gone, there is no register and no mapping. -/
inductive Access (M : Type*)
  | index (bank : ℤ)
  | shift (amount : ℕ)
  | map (base : BitVec 32) (m : M)
  | touch (p : Option (BitVec 32))
  | unmap (m : Option M)
  deriving DecidableEq

/-- An access reaches a register, or gives a live mapping back. -/
def Access.Sound {M : Type*} : Access M → Prop
  | .touch p => p ≠ none
  | .unmap m => m ≠ none
  | _ => True

section Mappings

variable {M : Type*} (s : MyLed M)

/-- The physical address behind a pointer, if its mapping is live. -/
def phys (p : IoPtr M) : Option (BitVec 32) := (s.live p.map).map (· + 4 * p.word)

/-- A read and a write back through a pointer. An access that reaches no register is an oops, and
changes nothing. -/
def modify (p : Option (IoPtr M)) (f : BitVec 32 → BitVec 32) : MyLed M × List (Access M) :=
  match p.bind (phys s) with
  | none => (s, [.touch none])
  | some a => ({ s with reg := Function.update s.reg a (f (s.reg a)) }, [.touch (some a)])

variable [DecidableEq M]

/-- `gpio_con = ioremap(base, 8)`, which yields the mapping `map` or `NULL`. -/
def ioremap (base : BitVec 32) (map : Option M) : MyLed M × List (Access M) :=
  match map with
  | none => ({ s with gpioCon := none }, [])
  | some m =>
    ({ s with gpioCon := some ⟨m, 0⟩, live := Function.update s.live m (some base) },
      [.map base m])

/-- `iounmap`. -/
def iounmap (p : Option (IoPtr M)) : MyLed M × List (Access M) :=
  match p with
  | none => (s, [.unmap none])
  | some p =>
    ({ s with live := Function.update s.live p.map none },
      [.unmap ((s.live p.map).map fun _ => p.map)])

end Mappings

/-! ## The file operations -/

section Operations

variable {M : Type*} (s : MyLed M)

/-- `gpio_dat = gpio_con + 1`, and the configuration of the pin as an output. -/
def configure (pin : ℕ) : MyLed M × List (Access M) :=
  let s := { s with gpioDat := s.gpioCon.map fun p => { p with word := p.word + 1 } }
  let cleared := modify s s.gpioCon fun con => con &&& ~~~((3 : BitVec 32) <<< (pin * 2))
  let set := modify cleared.1 cleared.1.gpioCon fun con => con ||| 1 <<< (pin * 2)
  (set.1, .shift (pin * 2) :: cleared.2 ++ .shift (pin * 2) :: set.2)

/-- `led_write` of the byte `val`: the state, the result, and what it did. -/
def ledWrite (val : UInt8) : MyLed M × ℤ × List (Access M) :=
  let pin := pinOf s.ledPin
  let written :=
    if val ≠ 0 then modify s s.gpioDat fun dat => dat &&& ~~~((1 : BitVec 32) <<< pin)
    else modify s s.gpioDat fun dat => dat ||| 1 <<< pin
  (written.1, 1, .shift pin :: written.2)

variable [DecidableEq M]

/-- `led_open`, whose `ioremap` yields `map`. -/
def ledOpen (beyond : ℤ → BitVec 32) (map : Option M) : MyLed M × ℤ × List (Access M) :=
  let bank := bankOf s.ledPin
  let base := gpioBaseAt beyond bank
  let pin := pinOf s.ledPin
  let mapped := ioremap s base map
  match mapped.1.gpioCon with
  | some _ =>
    let opened := configure mapped.1 pin
    (opened.1, 0, .index bank :: mapped.2 ++ opened.2)
  | none => (mapped.1, -22, .index bank :: mapped.2)

/-- `led_release`. -/
def ledRelease : MyLed M × ℤ × List (Access M) :=
  let unmapped := iounmap s s.gpioCon
  (unmapped.1, 0, unmapped.2)

end Operations

/-- `led_pin = res->start`, from `led_probe`. -/
def ledProbe {M : Type*} (s : MyLed M) (start : BitVec 32) : MyLed M := { s with ledPin := start }

/-! ## What the operations do -/

/-- The value `con` after `led_open`. -/
def configured (nr : ℕ) (con : BitVec 32) : BitVec 32 :=
  con &&& ~~~((3 : BitVec 32) <<< (nr * 2)) ||| (1 : BitVec 32) <<< (nr * 2)

/-- The value `dat` after `led_write` of `val`. -/
def driven (nr : ℕ) (val : UInt8) (dat : BitVec 32) : BitVec 32 :=
  if val ≠ 0 then dat &&& ~~~((1 : BitVec 32) <<< nr) else dat ||| (1 : BitVec 32) <<< nr

section Results

variable {M : Type*} {s : MyLed M} {m : M} {base : BitVec 32}

/-- The mask `1 << nr`, whether it is shifted before or after it gets its 32 bits. -/
theorem natCast_one_shiftLeft {nr : ℕ} : ((1 <<< nr : ℕ) : BitVec 32) = (1 : BitVec 32) <<< nr := by
  apply BitVec.eq_of_toNat_eq
  simp

/-- A read and a write back through a pointer into a live mapping. -/
theorem modify_of_live {k : ℕ} {f : BitVec 32 → BitVec 32} (hlive : s.live m = some base) :
    modify s (some ⟨m, k⟩) f =
      ({ s with
          reg := Function.update s.reg (base + 4 * (k : BitVec 32))
            (f (s.reg (base + 4 * (k : BitVec 32)))) },
        [.touch (some (base + 4 * (k : BitVec 32)))]) := by
  simp [modify, phys, hlive]

/-- **A write drives its pin** in the bank that `gpio_dat` points into. -/
theorem ledWrite_of_live (hdat : s.gpioDat = some ⟨m, 1⟩) (hlive : s.live m = some base)
    (val : UInt8) :
    ledWrite s val =
      ({ s with
          reg := Function.update s.reg (base + 4)
            (driven (pinOf s.ledPin) val (s.reg (base + 4))) },
        1, [.shift (pinOf s.ledPin), .touch (some (base + 4))]) := by
  unfold ledWrite driven
  simp only [hdat, modify_of_live hlive, natCast_one_shiftLeft]
  by_cases hval : val = 0 <;> simp [hval]

/-- A write through a pointer that leads nowhere. -/
theorem ledWrite_of_dead (hdat : s.gpioDat.bind (phys s) = none) (val : UInt8) :
    ledWrite s val = (s, 1, [.shift (pinOf s.ledPin), .touch none]) := by
  unfold ledWrite modify
  simp only [hdat, ite_self]

variable [DecidableEq M] (s)

/-- **An open maps a bank and makes its pin an output.** -/
theorem ledOpen_some (beyond : ℤ → BitVec 32) (m : M) :
    let base := gpioBaseAt beyond (bankOf s.ledPin)
    let pin := pinOf s.ledPin
    ledOpen s beyond (some m) =
      ({ s with
          gpioCon := some ⟨m, 0⟩
          gpioDat := some ⟨m, 1⟩
          live := Function.update s.live m (some base)
          reg := Function.update s.reg base (configured pin (s.reg base)) },
        0, [.index (bankOf s.ledPin), .map base m, .shift (pin * 2), .touch (some base),
          .shift (pin * 2), .touch (some base)]) := by
  intro base pin
  have hlive : Function.update s.live m (some base) m = some base := Function.update_self ..
  simp only [ledOpen, ioremap, configure, Option.map_some]
  rw [modify_of_live hlive, modify_of_live hlive]
  simp only [natCast_one_shiftLeft]
  simp [configured, base, pin]

theorem ledOpen_none (beyond : ℤ → BitVec 32) :
    ledOpen s beyond none = ({ s with gpioCon := none }, -22, [.index (bankOf s.ledPin)]) := rfl

end Results

end LinuxStack.Led
