import LinuxStack.Kernel.Uaccess
import Mathlib.Data.Int.Notation

/-!
# The proc entry

`proc.c` keeps 20 bytes behind `/proc/etx/etx_proc`. A read copies all of them out, whatever the
length asked for. The end of the file is signalled through `len`, one flag for all readers that
every read toggles.

## Main definitions

* `Globals`: `etx_array` and `len`
* `procRead`, `procWrite`: the calls on the entry

## Main results

* `procRead_up`, `procRead_reply`: a read toggles the flag, and answers from it
* `procWrite_beyond_eq_nil`: a write stays inside the array iff it has at most 20 bytes
-/

namespace LinuxStack.Proc

/-- The globals of `proc.c`. -/
structure Globals where
  etxArray : List UInt8
  len : ℤ
  size : etxArray.length = 20

/-- The globals of a module that has just been loaded. -/
def Globals.load : Globals where
  etxArray := "try_proc_array\n".toList.map Char.toUInt8 ++ List.replicate 5 0
  len := 1
  size := by decide

/-- What a read hands back: its return value, and the bytes copied to the reader. -/
structure Reply where
  ret : ℕ
  bytes : List UInt8
  deriving DecidableEq

variable (g : Globals)

def procRead (length : ℕ) (fault : Option ℕ) : Globals × Reply :=
  if g.len ≠ 0 then
    -- A copy that faults is only logged.
    ({ g with len := 0 }, ⟨length, (copyToUser g.etxArray fault).1⟩)
  else ({ g with len := 1 }, ⟨0, []⟩)

/-- A write of all of `buffer`: the globals, the bytes stored past the array, and the return
value. -/
def procWrite (buffer : List UInt8) (fault : Option ℕ) : Globals × List UInt8 × ℕ :=
  let copied := copyFromUser g.etxArray buffer fault
  ({ g with etxArray := copied.buf
            size := by rw [copyFromUser_buf_length, g.size] },
    copied.beyond, buffer.length)

variable {g}

/-- The flag, up when the next read delivers. -/
def Globals.up (g : Globals) : Bool := g.len ≠ 0

@[simp] theorem procRead_etxArray (length : ℕ) (fault : Option ℕ) :
    (procRead g length fault).1.etxArray = g.etxArray := by
  unfold procRead
  split <;> rfl

/-- Every read toggles the flag. -/
theorem procRead_up (length : ℕ) (fault : Option ℕ) :
    (procRead g length fault).1.up = !g.up := by
  by_cases hlen : g.len = 0 <;> simp [procRead, Globals.up, hlen]

/-- The reply to a read that does not fault, when it finds the flag up or down. -/
def replyTo (etxArray : List UInt8) (length : ℕ) : Bool → Reply
  | true => ⟨length, etxArray⟩
  | false => ⟨0, []⟩

theorem procRead_reply (length : ℕ) :
    (procRead g length none).2 = replyTo g.etxArray length g.up := by
  by_cases hlen : g.len = 0 <;> simp [procRead, Globals.up, replyTo, hlen, copyToUser, uncopied]

/-- **A write stays inside the array iff it has at most 20 bytes**, whether it faults or not. -/
theorem procWrite_beyond_eq_nil (buffer : List UInt8) (fault : Option ℕ) :
    (procWrite g buffer fault).2.1 = [] ↔ buffer.length ≤ 20 := by
  show (stored buffer fault).drop g.etxArray.length = [] ↔ _
  rw [List.drop_eq_nil_iff, stored_length, g.size]

end LinuxStack.Proc
