import LinuxStack.Loop.Counted
import LinuxStack.Memory.Bytes

/-!
# The hex dumps

`firmware.c` and `read_file.c` copy bytes into a buffer and print it in rows of 16. Both dumps run a
16-bit row counter against a bound that is computed from a 32-bit or a 64-bit size.

## Main definitions

* `Event`: an access to the buffer, or a part of a row
* `dump`: the loops over rows and their bytes
* `Firmware.sampleFwLoad`, `ReadFile.sampleFwLoad`: the two functions, each with the outcome of its
  allocation
* `rowOf`: the events of a row

## Main results

* `dump_eq_done`: a dump whose rows fit the counter prints them in order
* `dump_done_iff`: a dump ends iff its rows fit the counter
* `dumps_end_iff`: the two functions end iff the size, or the size with its 32 appended bytes, is
  less than `2 ^ 20`
-/

namespace LinuxStack.Dump

open Loop

/-- Where a function accesses its buffer. -/
inductive Site where
  | memcpy
  | memset
  | terminator
  | kernelRead
  | dump
  deriving DecidableEq

/-- What a function does: it accesses `count` bytes of its buffer from the index `first` on, or it
prints a part of a row. -/
inductive Event where
  | access (site : Site) (first : ℤ) (count : ℕ)
  | label (offset : BitVec 32)
  | byte (b : UInt8)
  | newline

/-! ## The loops -/

section Loops

variable (buf : ℕ → UInt8)

/-- `addr * LINE_SIZE`. -/
def offset (addr : BitVec 16) : BitVec 32 := addr.setWidth 32 * 16

/-- `index + (addr * LINE_SIZE)`. -/
def cell (addr : BitVec 16) (index : BitVec 8) : BitVec 32 := index.setWidth 32 + offset addr

/-- `size / LINE_SIZE`, which rounds towards zero. -/
def rowCount (size : ℤ) : ℤ := size.tdiv 16

def printByte (addr : BitVec 16) (index : BitVec 8) (log : List Event) : Progress (List Event) :=
  let i := (cell addr index).toNat
  .done (log ++ [.access .dump i 1, .byte (buf i)])

def printRow (fuel : ℕ) (addr : BitVec 16) (log : List Event) : Progress (List Event) :=
  (forLoop 16 (printByte buf addr) fuel 0 (log ++ [.label (offset addr)])).bind fun log =>
  .done (log ++ [.newline])

/-- The loop over the rows, with at most `fuel` iterations of every loop. -/
def dump (rows : ℤ) (fuel : ℕ) (log : List Event) : Progress (List Event) :=
  forLoop rows (printRow buf fuel) fuel 0 log

end Loops

/-! ## The two functions -/

namespace Firmware

/-- `sample_fw_load` of `firmware.c`, on the memory at `firmware` and a size that is not negative. An
allocation that succeeds delivers memory with any contents; without one, the first store crashes. -/
def sampleFwLoad (kmalloc : Option (ℕ → UInt8)) (firmware : ℕ → UInt8) (size : BitVec 32)
    (fuel : ℕ) : Progress (List Event) :=
  match kmalloc with
  | none => .crashed []
  | some buf =>
    let buf := Memory.store buf 0 (Memory.load firmware 0 size.toNat)
    let buf := Memory.store buf size.toNat [0]
    dump buf (rowCount size.toInt) fuel
      [.access .memcpy 0 size.toNat, .access .terminator size.toInt 1]

end Firmware

/-- `kernel_write`: the file is filled with zeros up to the position; at a negative one it fails. -/
def kernelWrite (file data : List UInt8) (pos : ℤ) : List UInt8 :=
  if pos < 0 then file
  else
    file.take pos.toNat ++ List.replicate (pos.toNat - file.length) 0 ++ data ++
      file.drop (pos.toNat + data.length)

namespace ReadFile

/-- `data`. -/
def data : List UInt8 := "macro_linux_test".toList.map Char.toUInt8

/-- The contents of the file after the append. -/
def appended (file : List UInt8) (size : BitVec 64) : List UInt8 :=
  let wrPos := size + 32
  kernelWrite file data wrPos.toInt

/-- `sample_fw_load` of `read_file.c`. The result of the allocation is not checked, so the `memset`
crashes without one. -/
def sampleFwLoad (kmalloc : Option (ℕ → UInt8)) (file : List UInt8) (size : BitVec 64)
    (fuel : ℕ) : Progress (List Event) :=
  let bufSize := size + 32
  let set := Event.access .memset 0 (bufSize + 1).toNat
  match kmalloc with
  | none => .crashed [set]
  | some buf =>
    let buf := Memory.store buf 0 (List.replicate (bufSize + 1).toNat 0)
    -- The terminator is stored one behind what was set.
    let nul := (bufSize + 1).toInt
    let buf := if 0 ≤ nul then Memory.store buf nul.toNat [0] else buf
    -- `kernel_read` from the start of the file
    let bytes := (appended file size).take 64
    let buf := Memory.store buf 0 bytes
    dump buf (rowCount bufSize.toInt) fuel
      [set, .access .terminator nul 1, .access .kernelRead 0 bytes.length]

end ReadFile

/-! ## Rows -/

variable {buf : ℕ → UInt8} {rows : ℤ} {fuel fuel' n r : ℕ} {log t : List Event}

theorem rowCount_toNat (size : ℤ) : (rowCount size).toNat = size.toNat / 16 := by
  unfold rowCount
  cases size with
  | ofNat m => rfl
  | negSucc m =>
    show (-(((m + 1) / 16 : ℕ) : ℤ)).toNat = 0 / 16
    omega

theorem rowCount_lt_iff (size : ℤ) : rowCount size < 2 ^ 16 ↔ size < 2 ^ 20 := by
  have hnat := rowCount_toNat size
  omega

/-- The events of the row `r`. -/
def rowOf (buf : ℕ → UInt8) (r : ℕ) : List Event :=
  .label (BitVec.ofNat 32 (16 * r)) ::
    (List.range 16).flatMap (fun j => [.access .dump (16 * r + j : ℕ) 1, .byte (buf (16 * r + j))])
      ++ [.newline]

theorem offset_ofNat (hr : r < 2 ^ 16) : offset (BitVec.ofNat 16 r) = BitVec.ofNat 32 (16 * r) := by
  apply BitVec.eq_of_toNat_eq
  simp [offset]
  omega

theorem cell_toNat (addr : BitVec 16) (index : BitVec 8) :
    (cell addr index).toNat = 16 * addr.toNat + index.toNat := by
  have haddr := addr.isLt
  have hindex := index.isLt
  simp [cell, offset]
  omega

theorem printRow_eq_done (hr : r < 2 ^ 16) (hfuel : 16 < fuel) :
    printRow buf fuel (BitVec.ofNat 16 r) log = .done (log ++ rowOf buf r) := by
  have hbyte : ∀ j < 16, ∀ log, printByte buf (BitVec.ofNat 16 r) (BitVec.ofNat 8 j) log =
      .done (log ++ [.access .dump (16 * r + j : ℕ) 1, .byte (buf (16 * r + j))]) := by
    intro j hj log
    have hcell : (cell (BitVec.ofNat 16 r) (BitVec.ofNat 8 j)).toNat = 16 * r + j := by
      rw [cell_toNat, BitVec.toNat_ofNat, BitVec.toNat_ofNat, Nat.mod_eq_of_lt hr,
        Nat.mod_eq_of_lt (by omega)]
    unfold printByte
    rw [hcell]
  unfold printRow
  rw [forLoop_eq_done (n := 16) rfl (by decide) hbyte hfuel, List.foldl_append_eq_append,
    ← List.flatMap_def, Progress.done_bind, offset_ofNat hr]
  simp [rowOf]

/-- **A dump whose rows fit the counter prints them in order.** -/
theorem dump_eq_done (hn : rows.toNat = n) (hfits : n < 2 ^ 16) (hrow : 16 < fuel)
    (hfuel : n < fuel) :
    dump buf rows fuel log = .done (log ++ (List.range n).flatMap (rowOf buf)) := by
  have hbody : ∀ j < n, ∀ log, printRow buf fuel (BitVec.ofNat 16 j) log =
      .done (log ++ rowOf buf j) := fun j hj log => printRow_eq_done (by omega) hrow
  unfold dump
  rw [forLoop_eq_done hn hfits hbody hfuel, List.foldl_append_eq_append, ← List.flatMap_def]

theorem dump_mono (hle : fuel ≤ fuel') (h : dump buf rows fuel log = .done t) :
    dump buf rows fuel' log = .done t := by
  apply forLoop_mono _ hle h
  intro addr log t hrow
  obtain ⟨t', hbytes, hend⟩ := Progress.bind_eq_done.mp hrow
  exact Progress.bind_eq_done.mpr ⟨t', forLoop_mono (fun _ _ _ h => h) hle hbytes, hend⟩

/-- **A dump ends iff its rows fit the counter.** -/
theorem dump_done_iff : (∃ fuel t, dump buf rows fuel log = .done t) ↔ rows < 2 ^ 16 := by
  constructor
  · rintro ⟨fuel, t, h⟩
    by_contra hge
    exact forLoop_ne_done (by omega) h
  · intro hlt
    -- 17 iterations end a row, and one more than there are rows ends the dump.
    exact ⟨rows.toNat + 17, _, dump_eq_done rfl (by omega) (by omega) (by omega)⟩

/-- A dump that has ended has printed its rows. -/
theorem eq_of_dump_eq_done (h : dump buf rows fuel log = .done t) :
    t = log ++ (List.range rows.toNat).flatMap (rowOf buf) := by
  have hlt : rows < 2 ^ 16 := dump_done_iff.mp ⟨fuel, t, h⟩
  -- With more fuel the result is the same, and `dump_eq_done` says which it is.
  have hmore := dump_mono (Nat.le_add_right fuel (rows.toNat + 17)) h
  rw [dump_eq_done rfl (by omega) (by omega) (by omega)] at hmore
  exact (Progress.done.inj hmore).symm

/-! ## Termination -/

/-- **The dumps end iff their rows fit 16 bits.** Once memory is allocated, the dump of an image
ends iff the image has less than `2 ^ 20` bytes, and the dump of a file ends iff its size and 32
more, as a signed 64-bit number, are less than `2 ^ 20`. -/
theorem dumps_end_iff (heap firmware : ℕ → UInt8) (imageSize : BitVec 32) (file : List UInt8)
    (fileSize : BitVec 64) :
    ((∃ fuel log, Firmware.sampleFwLoad (some heap) firmware imageSize fuel = .done log) ↔
      imageSize.toInt < 2 ^ 20) ∧
    ((∃ fuel log, ReadFile.sampleFwLoad (some heap) file fileSize fuel = .done log) ↔
      (fileSize + 32).toInt < 2 ^ 20) := by
  constructor
  · exact dump_done_iff.trans (rowCount_lt_iff imageSize.toInt)
  · exact dump_done_iff.trans (rowCount_lt_iff (fileSize + 32).toInt)

/-- An image of `2 ^ 20` bytes has more rows than the counter can count. -/
theorem not_dumps_end_image :
    ¬ ∃ fuel log, Firmware.sampleFwLoad (some fun _ => 0) (fun _ => 0) 1048576 fuel = .done log := by
  intro h
  have hlt := dump_done_iff.mp h
  revert hlt
  decide

end LinuxStack.Dump
