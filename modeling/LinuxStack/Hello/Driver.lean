import LinuxStack.Kernel.Uaccess
import LinuxStack.Memory.Bytes
import Mathlib.Data.Int.Notation

/-!
# The hello driver

`hello.c` reaches its buffer by `container_of` on `inode->i_cdev`, as if the `cdev` of its device
were the first member of a `struct cdd_cdev`. It registers with `register_chrdev`, which allocates
a `cdev` of its own, so the buffer is whatever memory follows that `cdev`.

## Main definitions

* `Layout`: where the members of `struct cdd_cdev` are
* `State`: the objects allocated for the module, the memory, and the open files
* `myInit`, `myOpen`, `myRead`, `myWrite`, `handle`: the calls of the driver
* `Access`, `Access.Touches`: what a call accesses in the memory of the kernel

## Main results

* `myInit_ok`, `myInit_error`: a load leaves a bare `cdev`, or nothing
-/

namespace LinuxStack.Hello

open Memory

/-! ## Memory -/

/-- The sizes that the layout of `struct cdd_cdev` depends on. -/
structure Layout where
  cdev : ℕ
  pointer : ℕ

def bufSize : ℕ := 100

/-- The offset of `led`, after `cdev` and `dev_device`. -/
def Layout.led (l : Layout) : ℕ := l.cdev + l.pointer

/-- The offset of `kbuf`. -/
def Layout.kbuf (l : Layout) : ℕ := l.led + 1

/-- `container_of`, for a member at an offset. -/
def containerOf (ptr offset : ℕ) : ℕ := ptr - offset

/-- The types of the objects that matter here. -/
inductive ObjectType where
  | cdev
  | cddCdev
  deriving DecidableEq

/-- The driver and its device, with open files named by `F`. -/
structure State (F : Type*) where
  /-- The objects allocated for the module, with their addresses. -/
  objects : List (ℕ × ObjectType)
  byte : ℕ → UInt8
  deviceFileMajorNumber : ℤ
  /-- The `cdev` under which the device is registered, `i_cdev` of its inodes. -/
  iCdev : Option ℕ
  /-- The `private_data` of the open files. -/
  privateData : F → Option ℕ

variable {F : Type*}

/-- Before `my_init`, with any contents of the memory. -/
def State.fresh (byte : ℕ → UInt8) : State F where
  objects := []
  byte := byte
  deviceFileMajorNumber := 0
  iCdev := none
  privateData _ := none

/-- An address inside the buffer of a `struct cdd_cdev` of the module. -/
def InKbuf (l : Layout) (s : State F) (a : ℕ) : Prop :=
  ∃ p, (p, ObjectType.cddCdev) ∈ s.objects ∧ p + l.kbuf ≤ a ∧ a < p + l.kbuf + bufSize

/-! ## Loading -/

/-- `register_chrdev` allocates a `cdev` and returns the major number, or fails with an error. -/
def registerChrdev (s : State F) : Except ℕ (ℕ × ℕ) → State F × ℤ
  | .error e => (s, -(e + 1))
  | .ok (major, p) =>
    ({ s with objects := (p, .cdev) :: s.objects, iCdev := some p }, major)

def myInit (s : State F) (outcome : Except ℕ (ℕ × ℕ)) : State F × ℤ :=
  let result := (registerChrdev s outcome).2
  let registered := (registerChrdev s outcome).1
  if result < 0 then (registered, result)
  else ({ registered with deviceFileMajorNumber := result }, 0)

/-- A load that cannot register changes nothing. -/
theorem myInit_error (s : State F) (e : ℕ) : (myInit s (.error e)).1 = s := by
  have hneg : (registerChrdev s (.error e)).2 < 0 := by
    show -((e : ℤ) + 1) < 0
    omega
  unfold myInit
  rw [if_pos hneg]
  rfl

/-- A load that registers leaves a bare `cdev`. -/
theorem myInit_ok (s : State F) (major p : ℕ) :
    (myInit s (.ok (major, p))).1 =
      { s with objects := (p, .cdev) :: s.objects
               iCdev := some p
               deviceFileMajorNumber := major } := by
  have hpos : ¬ (registerChrdev s (.ok (major, p))).2 < 0 := by
    show ¬ (major : ℤ) < 0
    omega
  unfold myInit
  rw [if_neg hpos]
  rfl

/-! ## Calls -/

/-- What a call accesses in the memory of the kernel: some bytes at an address, or a string that
`printk` prints. -/
inductive Access where
  | bytes (p n : ℕ)
  | string (p : ℕ)
  deriving DecidableEq

/-- The addresses that `printk` reads of a string at `p`: up to its first NUL, included. -/
def StringRead (byte : ℕ → UInt8) (p a : ℕ) : Prop :=
  p ≤ a ∧ ∀ b, p ≤ b → b < a → byte b ≠ 0

/-- The first byte of a string is read whatever it is. -/
theorem stringRead_self (byte : ℕ → UInt8) (p : ℕ) : StringRead byte p p := by
  refine ⟨Nat.le_refl p, ?_⟩
  intro b hle hlt
  omega

/-- The addresses of an access. -/
def Access.Touches (byte : ℕ → UInt8) (a : ℕ) : Access → Prop
  | .bytes p n => p ≤ a ∧ a < p + n
  | .string p => StringRead byte p a

/-- What a call hands back: its return value, the number of bytes it transferred, the bytes delivered
to the user, and its accesses. -/
structure Reply where
  ret : ℕ
  transferred : ℕ
  delivered : List UInt8
  accesses : List Access
  deriving DecidableEq

/-- The calls on the device. A copy faults after some bytes, or does not. -/
inductive Event (F : Type*) where
  | myOpen (file : F)
  | myRead (file : F) (count : ℕ) (fault : Option ℕ)
  | myWrite (file : F) (buf : List UInt8) (fault : Option ℕ)
  | myRelease (file : F)

/-- The number of bytes that the copy of a call does not transfer. -/
def Event.left : Event F → ℕ
  | .myRead _ count fault => uncopied count fault
  | .myWrite _ buf fault => uncopied buf.length fault
  | _ => 0

section Calls

variable (l : Layout) (s : State F)

/-- The return value is what `copy_to_user` returns, the number of bytes not copied. The buffer is
copied to the user, and then printed. -/
def myRead (cdevp count : ℕ) (fault : Option ℕ) : State F × Reply :=
  let kbuf := cdevp + l.kbuf
  let (delivered, ret) := copyToUser (load s.byte kbuf count) fault
  (s, ⟨ret, count - ret, delivered, [.bytes kbuf delivered.length, .string kbuf]⟩)

/-- The return value is what `copy_from_user` returns, the number of bytes not copied. -/
def myWrite (cdevp : ℕ) (buf : List UInt8) (fault : Option ℕ) : State F × Reply :=
  let kbuf := cdevp + l.kbuf
  let ret := uncopied buf.length fault
  let bytes := stored buf fault
  ({ s with byte := store s.byte kbuf bytes },
    ⟨ret, buf.length - ret, [], [.bytes kbuf bytes.length]⟩)

/-- A call that reaches the driver if there is a pointer to pass to it. -/
def reach (ptr : Option ℕ) (call : ℕ → State F × Reply) : State F × Option Reply :=
  match ptr with
  | some p => ((call p).1, some (call p).2)
  | none => (s, none)

variable {s}

/-- A reply comes from the driver. -/
theorem mem_reach {ptr : Option ℕ} {call : ℕ → State F × Reply} {r : Reply} :
    r ∈ (reach s ptr call).2 ↔ ∃ p ∈ ptr, r = (call p).2 := by
  cases ptr with
  | none => simp [reach]
  | some p => simp [reach, eq_comm]

variable (s) [DecidableEq F]

/-- An open of an inode with the given `i_cdev`, whose `led` it prints. -/
def myOpen (iCdev : ℕ) (file : F) : State F × Reply :=
  let pcdevp := containerOf iCdev 0
  ({ s with privateData := Function.update s.privateData file (some pcdevp) },
    ⟨0, 0, [], [.bytes (pcdevp + l.led) 1]⟩)

def myRelease (file : F) : State F × Reply :=
  ({ s with privateData := Function.update s.privateData file none }, ⟨0, 0, [], []⟩)

/-- One call: the state after it, and the reply if it reaches the driver. -/
def handle : Event F → State F × Option Reply
  | .myOpen file => reach s s.iCdev fun iCdev => myOpen l s iCdev file
  | .myRead file count fault =>
    reach s (s.privateData file) fun cdevp => myRead l s cdevp count fault
  | .myWrite file buf fault =>
    reach s (s.privateData file) fun cdevp => myWrite l s cdevp buf fault
  | .myRelease file => reach s (s.privateData file) fun _ => myRelease s file

end Calls

end LinuxStack.Hello
