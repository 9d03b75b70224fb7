import LinuxStack.Kernel.Chrdev
import LinuxStack.Kernel.Uaccess

/-!
# The three GPIO drivers

`gpio_base`, `gpio_intr` and `gpio_wakeup` register the same char device and drive GPIO 21 from
its `write`; the last two also toggle GPIO 21 on every debounced rising edge of GPIO 25, and
`gpio_wakeup` makes that interrupt a wake-up source. Their loads share a prefix of their text,
written here once; each driver then has its own load and unload.

## Main definitions

* `Etx w ω`: the state of a driver, with `w`-bit jiffies
* `Outcomes`: what the kernel answers during a load
* `Base.etxDriverInit`, `Intr.etxDriverInit`, `Wakeup.etxDriverInit` and the three
  `etxDriverExit`: the loads and unloads
* `Driver.etxDriverInit`, `Driver.etxDriverExit`: the same, by driver
* `gpioIrqHandler`, `etxRead`, `etxWrite`: the handler and the file operations
* `Driver.handle`, `Driver.activity`: the events of a loaded driver
-/

namespace LinuxStack.Gpio

open Registry

/-- The output levels of the GPIOs, and the globals next to those of the char device.
`gpio_base` has no use for the last three. -/
structure Globals (w : ℕ) where
  level : ℕ → Bool
  gpioIrqNumber : BitVec 32
  ledToggle : BitVec 32
  oldJiffie : BitVec w

/-- The state of a driver. -/
abbrev Etx (w : ℕ) (ω : Type*) := Chrdev ω (Globals w)

/-- A freshly loaded driver, on hardware with the given output levels. -/
def Etx.load {w : ℕ} {ω : Type*} (k : Kernel (Owner Unit ω)) (etxCdev : ℕ) (level : ℕ → Bool) :
    Etx w ω :=
  Chrdev.load k etxCdev ⟨level, 0, 0, 0⟩

/-- The answers of the kernel during a load. The faults of `gpio_direction_output` and
`gpio_export` go unchecked. -/
structure Outcomes extends ChrdevFaults where
  gpioIsValid : ℕ → Bool
  gpioRequest : ℕ → Option Errno
  gpioDirectionOutput : Option Errno
  gpioExport : Option Errno
  gpioToIrq : ℕ → BitVec 32
  requestIrq : Option Errno
  enableIrqWake : Option Errno

/-- The kernel's answers to a load without a fault. -/
def quietOutcomes : Outcomes where
  toChrdevFaults := .quiet
  gpioIsValid _ := true
  gpioRequest _ := none
  gpioDirectionOutput := none
  gpioExport := none
  gpioToIrq _ := 41
  requestIrq := none
  enableIrqWake := none

/-! ## Levels -/

section Levels

variable {w : ℕ} (g : Globals w)

/-- `gpio_set_value`. -/
def gpioSetValue (n : ℕ) (value : BitVec 32) : Globals w :=
  { g with level := Function.update g.level n (value != 0) }

/-- `gpio_get_value`. -/
def gpioGetValue (n : ℕ) : UInt8 := if g.level n then 1 else 0

/-- `gpio_direction_output`: a GPIO that cannot be driven keeps its level. -/
def gpioDirectionOutput (n : ℕ) (value : BitVec 32) (fault : Option Errno) : Globals w :=
  match fault with
  | some _ => g
  | none => gpioSetValue g n value

/-- The handler of rising edges on GPIO 25, with the two values of `jiffies` it reads. In
`gpio_wakeup` it also calls `pm_wakeup_event` on the device `NULL`, which does nothing. -/
def gpioIrqHandler (jiffies₁ jiffies₂ : BitVec w) : Globals w :=
  let diff := jiffies₁ - g.oldJiffie
  if diff.toNat < 20 then g
  else
    let g := { g with oldJiffie := jiffies₂ }
    let g := { g with ledToggle := 1 ^^^ g.ledToggle }
    gpioSetValue g 21 g.ledToggle

/-- `etx_read`: the bytes delivered, and the result. -/
def etxRead (fault : Option ℕ) : List UInt8 × ℤ :=
  ((copyToUser [gpioGetValue g 21] fault).1, 0)

/-- `etx_write` of the bytes `buf`: the globals, the bytes stored past `rec_buf`, and the result. -/
def etxWrite (buf : List UInt8) (fault : Option ℕ) : Globals w × List UInt8 × ℤ :=
  let recBuf := copyFromUser (List.replicate 10 0) buf fault
  let g :=
    if recBuf.buf.head? = some '1'.toUInt8 then gpioSetValue g 21 1
    else if recBuf.buf.head? = some '0'.toUInt8 then gpioSetValue g 21 0
    else g
  (g, recBuf.beyond, buf.length)

end Levels

/-! ## Kernel calls -/

section Calls

variable {w : ℕ} {ω : Type*} (s : Etx w ω)

def gpioRequest (n : ℕ) (fault : Option Errno) : Except Errno (Etx w ω) :=
  s.withKernel (s.kernel.gpioRequest (.mine ()) n fault)

def requestIrq (fault : Option Errno) : Except Errno (Etx w ω) :=
  s.withKernel (s.kernel.requestIrq (.mine ()) s.rest.gpioIrqNumber.toNat fault)

def enableIrqWake (fault : Option Errno) : Except Errno (Etx w ω) :=
  s.withKernel (s.kernel.enableIrqWake s.rest.gpioIrqNumber.toNat fault)

end Calls

/-! ## The labels -/

section Labels

variable {w : ℕ} {ω : Type*} [DecidableEq ω] (s : Etx w ω)

def gpioFree (n : ℕ) : Etx w ω := s.release (.gpioFree n)

def freeIrq : Etx w ω := s.release (.freeIrq s.rest.gpioIrqNumber.toNat)

def rUnreg : Etx w ω × ℤ := (s.unregisterChrdevRegion, -1)

def rDel : Etx w ω × ℤ := rUnreg s.cdevDel

def rClass : Etx w ω × ℤ := rDel s.classDestroy

def rDevice : Etx w ω × ℤ := rClass s.deviceDestroy

/-- Label `r_gpio_out`, which is called `r_gpio` in `gpio_base`. -/
def rGpioOut : Etx w ω × ℤ := rDevice (gpioFree s 21)

def rGpioIn : Etx w ω × ℤ := rGpioOut (gpioFree s 25)

end Labels

/-! ## Loads and unloads -/

section Load

variable {w : ℕ} {ω : Type*} [DecidableEq ω] (o : Outcomes) (s : Etx w ω)

/-- The lines that all three loads begin with, up to the first level of GPIO 21. -/
def registerDevice (next : Etx w ω → Etx w ω × ℤ) : Etx w ω × ℤ :=
  orGoto (s.allocChrdevRegion o.allocChrdevRegion) (rUnreg s) fun s =>
  orGoto (s.cdevAdd o.cdevAdd) (rDel s) fun s =>
  isErrGoto (·.devClass.isErr) (s.classCreate "etx_class" o.classCreate) rClass fun s =>
  isErrGoto (·.1.isErr) (s.deviceCreate o.deviceCreate) (fun p => rDevice p.2) fun p =>
  let s := p.2
  if o.gpioIsValid 21 = false then rDevice s else
  orGoto (gpioRequest s 21 (o.gpioRequest 21)) (rGpioOut s) fun s =>
  next { s with rest := gpioDirectionOutput s.rest 21 0 o.gpioDirectionOutput }

/-- The lines on GPIO 25 that `gpio_intr` and `gpio_wakeup` share. -/
def requestInput (next : Etx w ω → Etx w ω × ℤ) : Etx w ω × ℤ :=
  if o.gpioIsValid 25 = false then rGpioIn s else
  orGoto (gpioRequest s 25 (o.gpioRequest 25)) (rGpioIn s) fun s =>
  let s := { s with rest := { s.rest with gpioIrqNumber := o.gpioToIrq 25 } }
  orGoto (requestIrq s o.requestIrq) (rGpioIn s) next

/-- The lines that all three unloads end with. -/
def unregisterDevice : Etx w ω :=
  (gpioFree s 21).deviceDestroy.classDestroy.cdevDel.unregisterChrdevRegion

namespace Base

/-- `etx_driver_init` of `gpio_base`. -/
def etxDriverInit : Etx w ω × ℤ :=
  registerDevice o s fun s => ({ s with kernel := s.kernel.gpioExport 21 o.gpioExport }, 0)

/-- `etx_driver_exit` of `gpio_base`. -/
def etxDriverExit : Etx w ω := unregisterDevice { s with kernel := s.kernel.gpioUnexport 21 }

end Base

namespace Intr

/-- `etx_driver_init` of `gpio_intr`. -/
def etxDriverInit : Etx w ω × ℤ :=
  registerDevice o s fun s => requestInput o s fun s => (s, 0)

/-- `etx_driver_exit` of `gpio_intr`. -/
def etxDriverExit : Etx w ω := unregisterDevice (gpioFree (freeIrq s) 25)

end Intr

namespace Wakeup

/-- `etx_driver_init` of `gpio_wakeup`. -/
def etxDriverInit : Etx w ω × ℤ :=
  registerDevice o s fun s => requestInput o s fun s =>
  orGoto (enableIrqWake s o.enableIrqWake) (rGpioIn s) fun s => (s, 0)

/-- `etx_driver_exit` of `gpio_wakeup`. -/
def etxDriverExit : Etx w ω := unregisterDevice (gpioFree (freeIrq s) 25)

end Wakeup

/-- The three drivers. -/
inductive Driver
  | gpioBase
  | gpioIntr
  | gpioWakeup
  deriving DecidableEq

/-- The load of a driver. -/
def Driver.etxDriverInit (d : Driver) : Etx w ω × ℤ :=
  match d with
  | .gpioBase => Base.etxDriverInit o s
  | .gpioIntr => Intr.etxDriverInit o s
  | .gpioWakeup => Wakeup.etxDriverInit o s

/-- The unload of a driver. -/
def Driver.etxDriverExit (d : Driver) : Etx w ω :=
  match d with
  | .gpioBase => Base.etxDriverExit s
  | .gpioIntr => Intr.etxDriverExit s
  | .gpioWakeup => Wakeup.etxDriverExit s

end Load

/-! ## The activity of a loaded driver -/

/-- What happens to a loaded driver: a rising edge on GPIO 25, at the two values of `jiffies`
that the handler reads, or a call on `/dev/etx_device`. -/
inductive Event (w : ℕ)
  | edge (jiffies₁ jiffies₂ : BitVec w)
  | etxOpen
  | etxRelease
  | etxRead (fault : Option ℕ)
  | etxWrite (buf : List UInt8) (fault : Option ℕ)

/-- The globals after an event. No handler runs in `gpio_base`, and only `etx_write` among the
calls changes them. -/
def Driver.handle {w : ℕ} (d : Driver) (g : Globals w) : Event w → Globals w
  | .edge jiffies₁ jiffies₂ =>
    match d with
    | .gpioBase => g
    | _ => gpioIrqHandler g jiffies₁ jiffies₂
  | .etxWrite buf fault => (etxWrite g buf fault).1
  | _ => g

/-- The driver after an event. -/
def Driver.activity {w : ℕ} {ω : Type*} (d : Driver) (s : Etx w ω) (e : Event w) : Etx w ω :=
  { s with rest := d.handle s.rest e }

end LinuxStack.Gpio
