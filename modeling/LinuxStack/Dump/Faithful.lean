import LinuxStack.Dump.Driver

/-!
# What the dumps print

A dump prints whole rows. The number of rows rounds down, so `firmware.c` leaves out the last bytes
of an image that does not fill its last row, and `read_file.c`, whose rows count 32 of the 48 bytes
that it has appended to the file, always leaves out its last bytes.

## Main definitions

* `printed`: the bytes printed
* `LabelsRight`: every label is the number of bytes printed before it
* `Prints run content`: the dump ends, and has printed the bytes `content`
* `Labelled run`: a dump that has ended has printed the right labels

## Main results

* `printed_of_dump_done`, `labelsRight_of_dump_done`: a dump prints the start of its buffer under
  the right labels
* `firmware_prints_iff`, `not_readFile_prints`: when the two functions print their content
* `dumps_faithful_iff`: both together
-/

namespace LinuxStack.Dump

open Loop

/-- The bytes printed. -/
def printed (log : List Event) : List UInt8 :=
  log.filterMap fun e => match e with
    | .byte b => some b
    | _ => none

/-- Every label is the number of bytes printed before it, when `n` were printed before the first
event. -/
def LabelsRight : ℕ → List Event → Prop
  | _, [] => True
  | n, .label offset :: log => offset.toNat = n ∧ LabelsRight n log
  | n, .byte _ :: log => LabelsRight (n + 1) log
  | n, _ :: log => LabelsRight n log

/-- **The dump ends and has printed the content**, byte by byte. -/
def Prints (run : ℕ → Progress (List Event)) (content : List UInt8) : Prop :=
  ∃ fuel log, run fuel = .done log ∧ printed log = content

/-- A dump that has ended has printed the right labels. -/
def Labelled (run : ℕ → Progress (List Event)) : Prop :=
  ∀ fuel log, run fuel = .done log → LabelsRight 0 log

/-! ## Rows -/

variable {buf : ℕ → UInt8} {rows : ℤ} {fuel n r : ℕ} {log log' t : List Event}

theorem printed_append : printed (log ++ log') = printed log ++ printed log' :=
  List.filterMap_append

theorem labelsRight_append :
    LabelsRight n (log ++ log') ↔
      LabelsRight n log ∧ LabelsRight (n + (printed log).length) log' := by
  induction log generalizing n with
  | nil => simp [LabelsRight, printed]
  | cons e log ih =>
    cases e with
    | label offset => simp [LabelsRight, printed, ih, and_assoc]
    | byte b =>
      have hlen : n + (printed (.byte b :: log)).length = n + 1 + (printed log).length := by
        simp [printed]
        omega
      rw [List.cons_append, hlen]
      exact ih
    | access site first count => exact ih
    | newline => exact ih

theorem labelsRight_of_no_label (h : ∀ offset, Event.label offset ∉ log) : LabelsRight n log := by
  induction log generalizing n with
  | nil => trivial
  | cons e log ih =>
    have htail : ∀ offset, Event.label offset ∉ log := fun offset hmem =>
      h offset (List.mem_cons_of_mem e hmem)
    cases e with
    | label offset => exact absurd List.mem_cons_self (h offset)
    | byte b => exact ih htail
    | access site first count => exact ih htail
    | newline => exact ih htail

/-- A row prints its 16 bytes. -/
theorem printed_rowOf : printed (rowOf buf r) = Memory.load buf (16 * r) 16 := by
  unfold Memory.load
  rw [List.map_eq_flatMap]
  simp [printed, rowOf, List.filterMap_flatMap]

/-- A row has the right label. -/
theorem labelsRight_rowOf (hr : r < 2 ^ 16) : LabelsRight (16 * r) (rowOf buf r) := by
  refine ⟨?_, labelsRight_of_no_label ?_⟩
  · rw [BitVec.toNat_ofNat, Nat.mod_eq_of_lt (by omega)]
  · simp

/-- The first `n` rows print the first `16 * n` bytes. -/
theorem printed_rows : printed ((List.range n).flatMap (rowOf buf)) = Memory.load buf 0 (16 * n) := by
  induction n with
  | zero => rfl
  | succ n ih =>
    rw [List.range_succ, List.flatMap_append, printed_append, ih, Nat.mul_succ, Memory.load_add,
      Nat.zero_add, List.flatMap_singleton, printed_rowOf]

theorem labelsRight_rows (hn : n ≤ 2 ^ 16) :
    LabelsRight 0 ((List.range n).flatMap (rowOf buf)) := by
  induction n with
  | zero => trivial
  | succ n ih =>
    rw [List.range_succ, List.flatMap_append, labelsRight_append, printed_rows, Memory.load_length,
      Nat.zero_add, List.flatMap_singleton]
    exact ⟨ih (by omega), labelsRight_rowOf (by omega)⟩

/-- **A dump prints the start of its buffer**, in whole rows. -/
theorem printed_of_dump_done (h : dump buf rows fuel log = .done t) :
    printed t = printed log ++ Memory.load buf 0 (16 * rows.toNat) := by
  rw [eq_of_dump_eq_done h, printed_append, printed_rows]

/-- **A dump prints the right labels.** -/
theorem labelsRight_of_dump_done (hlog : LabelsRight 0 log) (hnone : printed log = [])
    (h : dump buf rows fuel log = .done t) : LabelsRight 0 t := by
  have hlt : rows < 2 ^ 16 := dump_done_iff.mp ⟨fuel, t, h⟩
  rw [eq_of_dump_eq_done h, labelsRight_append, hnone]
  exact ⟨hlog, labelsRight_rows (by omega)⟩

/-! ## The two functions -/

theorem firmware_labelled (kmalloc : Option (ℕ → UInt8)) (firmware : ℕ → UInt8)
    (size : BitVec 32) : Labelled (Firmware.sampleFwLoad kmalloc firmware size) := by
  intro fuel log h
  cases kmalloc with
  | none => cases h
  | some heap =>
    refine labelsRight_of_dump_done ?_ rfl h
    trivial

/-- **When the dump of an image prints the image**: memory was allocated, and the image fills its
last row. -/
theorem firmware_prints_iff (kmalloc : Option (ℕ → UInt8)) (firmware : ℕ → UInt8) (hn : n < 2 ^ 20) :
    Prints (Firmware.sampleFwLoad kmalloc firmware (BitVec.ofNat 32 n)) (Memory.load firmware 0 n) ↔
      kmalloc.isSome ∧ 16 ∣ n := by
  cases kmalloc with
  | none =>
    constructor
    · rintro ⟨fuel, log, h, -⟩
      cases h
    · rintro ⟨h, -⟩
      cases h
  | some heap =>
    have hnat : (BitVec.ofNat 32 n).toNat = n := by
      rw [BitVec.toNat_ofNat, Nat.mod_eq_of_lt (by omega)]
    have hint : (BitVec.ofNat 32 n).toInt = n := by
      rw [BitVec.toInt_eq_toNat_of_lt (by omega), hnat]
    have hrows : (rowCount (BitVec.ofNat 32 n).toInt).toNat = n / 16 := by
      rw [rowCount_toNat, hint, Int.toNat_natCast]
    constructor
    · rintro ⟨fuel, log, h, hprinted⟩
      -- The bytes printed come in rows of 16, and the image has as many.
      have hlength := congrArg List.length ((printed_of_dump_done h).symm.trans hprinted)
      rw [hrows, List.length_append, Memory.load_length, Memory.load_length] at hlength
      exact ⟨rfl, n / 16, by simpa [printed] using hlength.symm⟩
    · rintro ⟨-, hdvd⟩
      have hlt : (BitVec.ofNat 32 n).toInt < 2 ^ 20 := by omega
      obtain ⟨fuel, log, h⟩ := dump_done_iff.mpr ((rowCount_lt_iff _).mpr hlt)
      refine ⟨fuel, log, h, ?_⟩
      -- The buffer starts with the image; the terminator is stored behind it.
      rw [printed_of_dump_done h, hrows, Nat.mul_div_cancel' hdvd, hnat,
        Memory.load_store_of_le (by omega)]
      have hcopied : Memory.load (Memory.store heap 0 (Memory.load firmware 0 n)) 0
          (Memory.load firmware 0 n).length = Memory.load firmware 0 n := Memory.load_store
      rw [Memory.load_length] at hcopied
      exact hcopied

/-- `size + 32`, which may be negative, as an unsigned number. -/
theorem add_32_toNat (hn : n < 2 ^ 63) : (BitVec.ofNat 64 n + 32).toNat = n + 32 := by
  rw [BitVec.toNat_add, BitVec.toNat_ofNat]
  show (n % 2 ^ 64 + 32) % 2 ^ 64 = n + 32
  omega

/-- `size + 32`, while it does not wrap. -/
theorem add_32_toInt (hn : n < 2 ^ 63 - 32) :
    (BitVec.ofNat 64 n + 32).toInt = (n + 32 : ℕ) := by
  have hnat := add_32_toNat (n := n) (by omega)
  rw [BitVec.toInt_eq_toNat_of_lt (by omega), hnat]

/-- The append adds 32 zeros and 16 bytes. -/
theorem appended_length {file : List UInt8} (hsize : file.length < 2 ^ 63 - 32) :
    (ReadFile.appended file (BitVec.ofNat 64 file.length)).length = file.length + 48 := by
  show (kernelWrite file ReadFile.data (BitVec.ofNat 64 file.length + 32).toInt).length = _
  have hdata : ReadFile.data.length = 16 := rfl
  unfold kernelWrite
  rw [add_32_toInt hsize, if_neg (by omega)]
  simp only [List.length_append, List.length_take, List.length_replicate, List.length_drop, hdata,
    Int.toNat_natCast]
  omega

/-- **The dump of a file never prints the file after its append.** -/
theorem not_readFile_prints (kmalloc : Option (ℕ → UInt8)) {file : List UInt8}
    (hsize : file.length < 2 ^ 20 - 48) :
    ¬ Prints (ReadFile.sampleFwLoad kmalloc file (BitVec.ofNat 64 file.length))
      (ReadFile.appended file (BitVec.ofNat 64 file.length)) := by
  rintro ⟨fuel, log, h, hprinted⟩
  cases kmalloc with
  | none => cases h
  | some heap =>
    -- The rows count 32 of the 48 bytes that were appended, so the lengths differ.
    have hlength := congrArg List.length ((printed_of_dump_done h).symm.trans hprinted)
    rw [appended_length (by omega), List.length_append, Memory.load_length, rowCount_toNat,
      add_32_toInt (by omega), Int.toNat_natCast] at hlength
    simp only [printed, List.filterMap_cons, List.filterMap_nil, List.length_nil] at hlength
    omega

/-- **When the dumps are faithful.** For every image of less than `2 ^ 20` bytes, the bytes printed
are the image and every label is the offset of its row, iff memory was allocated and the length of
the image is a multiple of 16. For no file of less than `2 ^ 20 - 48` bytes are the bytes printed the
file after its append. -/
theorem dumps_faithful_iff (kmalloc : Option (ℕ → UInt8)) (firmware : ℕ → UInt8) (n : ℕ)
    (file : List UInt8) (hn : n < 2 ^ 20) (hfile : file.length < 2 ^ 20 - 48) :
    (Prints (Firmware.sampleFwLoad kmalloc firmware (BitVec.ofNat 32 n))
        (Memory.load firmware 0 n) ∧
      Labelled (Firmware.sampleFwLoad kmalloc firmware (BitVec.ofNat 32 n)) ↔
        kmalloc.isSome ∧ 16 ∣ n) ∧
    ¬ Prints (ReadFile.sampleFwLoad kmalloc file (BitVec.ofNat 64 file.length))
      (ReadFile.appended file (BitVec.ofNat 64 file.length)) := by
  refine ⟨?_, not_readFile_prints kmalloc hfile⟩
  rw [and_iff_left (firmware_labelled kmalloc firmware _)]
  exact firmware_prints_iff kmalloc firmware hn

theorem dumps_faithful_iff_samples :
    (Prints (Firmware.sampleFwLoad (some fun _ => 0) (fun i => UInt8.ofNat i) (BitVec.ofNat 32 256))
        (Memory.load (fun i => UInt8.ofNat i) 0 256) ∧
      Labelled (Firmware.sampleFwLoad (some fun _ => 0) (fun i => UInt8.ofNat i)
        (BitVec.ofNat 32 256)) ↔
      (some fun _ : ℕ => (0 : UInt8)).isSome ∧ 16 ∣ 256) ∧
    ¬ Prints (ReadFile.sampleFwLoad (some fun _ => 0) [7, 8, 9] (BitVec.ofNat 64 3))
      (ReadFile.appended [7, 8, 9] (BitVec.ofNat 64 3)) :=
  dumps_faithful_iff _ _ 256 [7, 8, 9] (by decide) (by decide)

/-- An image of one byte has no row. -/
theorem not_prints_oneByte :
    ¬ Prints (Firmware.sampleFwLoad (some fun _ => 0) (fun _ => 1) (BitVec.ofNat 32 1))
      (Memory.load (fun _ => 1) 0 1) := by
  rw [firmware_prints_iff _ _ (by decide)]
  decide

end LinuxStack.Dump
