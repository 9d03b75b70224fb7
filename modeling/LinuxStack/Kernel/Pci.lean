import LinuxStack.Kernel.Resource

/-!
# The resources of a PCI device

What a PCI driver acquires for a device: its memory, a reference that keeps the device enabled, the
regions of its addresses, mappings of them, the interrupt handler and the char device. Objects that
the kernel hands out are named by the probe that asked for them. Only the regions of a device can
belong to another driver.

## Main definitions

* `PciRes`, `PciRelease`: the keys of a driver, and the calls that give them back
* `PciLedger`, `host`: the entries of a driver, and a machine as it finds it
-/

namespace LinuxStack

open Registry

/-- The keys of a PCI driver. A probe is named by a number. -/
inductive PciRes
  | memory (i : ℕ)
  | enabled (pdev i : ℕ)
  | regions (pdev : ℕ)
  | ioport (i : ℕ)
  | iomap (i : ℕ)
  | handler (i : ℕ)
  | cdev (i : ℕ)
  | node (minor : ℕ)
  | chrdev (minor count : ℕ)
  | cls
  deriving DecidableEq

/-- The calls that give an entry back. An address that was never set is none of a mapping, and an
`ERR_PTR` none of a class. -/
inductive PciRelease
  | kfree (i : ℕ)
  | pciDisableDevice (pdev i : ℕ)
  | pciReleaseRegions (pdev : ℕ)
  | ioportUnmap (i : Option ℕ)
  | iounmap (i : Option ℕ)
  | freeIrq (i : ℕ)
  | cdevDel (i : ℕ)
  | deviceDestroy (minor : ℕ)
  | unregisterChrdevRegion (minor count : ℕ)
  | classDestroy (isErr : Bool)
  deriving DecidableEq

/-- The entry that a call is aimed at. -/
def PciRelease.target : PciRelease → Option PciRes
  | .kfree i => some (.memory i)
  | .pciDisableDevice pdev i => some (.enabled pdev i)
  | .pciReleaseRegions pdev => some (.regions pdev)
  | .ioportUnmap i => i.map .ioport
  | .iounmap i => i.map .iomap
  | .freeIrq i => some (.handler i)
  | .cdevDel i => some (.cdev i)
  | .deviceDestroy minor => some (.node minor)
  | .unregisterChrdevRegion minor count => some (.chrdev minor count)
  | .classDestroy isErr => if isErr then none else some .cls

/-- The entries of a driver. Its own belong to the module, or to a probe. -/
abbrev PciLedger (ω : Type*) := Ledger PciRes (Owner (Option ℕ) ω) PciRelease

/-- A machine on which other drivers have the regions of some devices. -/
def host {ω : Type*} (busy : ℕ → Option ω) : PciLedger ω where
  table
    | .regions pdev => (busy pdev).map .other
    | _ => none
  stray := []

end LinuxStack
