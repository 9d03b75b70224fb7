import LinuxStack.Dump.Faithful

/-!
# The buffer of `read_file.c`

`sample_fw_load` allocates the size of the file and 33 bytes more. The terminator is stored at the
index after the last of them, and 64 bytes are read however short the file is; the `memset` and the
dump stay inside. Without memory, the `memset` goes through `NULL`.

## Main definitions

* `File`: the contents of a file, whose size is a signed 64-bit number
* `Inside`: an access below the allocated size
* `Bounded`: all accesses of a call lie inside, and there is none without memory

## Main results

* `dump_accesses`: the indices that a dump reads, however far it comes
* `inside_iff`: with memory, the terminator lies outside, the read of a file of less than 31 bytes
  does, and no other access
* `not_bounded`: no call is bounded
-/

namespace LinuxStack.Dump

open Loop

/-- The contents of a file, whose size is a signed 64-bit number. -/
structure File where
  content : List UInt8
  size_lt : content.length < 2 ^ 63

/-- `i_size_read`. -/
def File.size (f : File) : BitVec 64 := BitVec.ofNat 64 f.content.length

/-- The call of `sample_fw_load` in `mod_int`. -/
def ReadFile.load (kmalloc : Option (ℕ → UInt8)) (f : File) (fuel : ℕ) : Progress (List Event) :=
  sampleFwLoad kmalloc f.content f.size fuel

/-- The access lies below the allocated size. -/
def Inside (f : File) (first : ℤ) (count : ℕ) : Prop :=
  0 ≤ first ∧ first + count ≤ f.content.length + 33

/-- **All accesses lie inside the buffer**, and none is made without one. -/
def Bounded (kmalloc : Option (ℕ → UInt8)) (f : File) : Prop :=
  ∀ fuel site first count, .access site first count ∈ (ReadFile.load kmalloc f fuel).state →
    kmalloc.isSome ∧ Inside f first count

/-! ## Sizes -/

variable {f : File}

/-- The number of bytes set and allocated. -/
theorem allocated_toNat : (f.size + 32 + 1).toNat = f.content.length + 33 := by
  have hsize := f.size_lt
  rw [BitVec.toNat_add, File.size, add_32_toNat hsize]
  show (f.content.length + 32 + 1) % 2 ^ 64 = f.content.length + 33
  omega

/-- The index of the terminator: the allocated size, unless that wraps around. -/
theorem terminator_toInt :
    (f.size + 32 + 1).toInt = f.content.length + 33 ∨ (f.size + 32 + 1).toInt < 0 := by
  have hsize := f.size_lt
  rw [BitVec.toInt_eq_toNat_cond, allocated_toNat]
  split
  · exact .inl (by omega)
  · exact .inr (by omega)

/-- The rows cover no more than the size of the file and 32 bytes. -/
theorem rowCount_size_le : 16 * rowCount (f.size + 32).toInt ≤ f.content.length + 32 := by
  have hrows := rowCount_toNat (f.size + 32).toInt
  have hle : (f.size + 32).toInt ≤ f.content.length + 32 := by
    rw [BitVec.toInt_eq_toNat_cond, File.size, add_32_toNat f.size_lt]
    split <;> omega
  omega

/-- The number of bytes read lies inside the buffer iff the file has at least 31. -/
theorem read_length_le_iff :
    ((ReadFile.appended f.content f.size).take 64).length ≤ f.content.length + 33 ↔
      31 ≤ f.content.length := by
  rw [List.length_take]
  by_cases hwraps : f.content.length < 2 ^ 63 - 32
  · have hlength : (ReadFile.appended f.content f.size).length = f.content.length + 48 :=
      appended_length hwraps
    omega
  · omega

/-! ## Accesses -/

/-- What a dump adds to the log are accesses below 16 times its rows. -/
theorem dump_accesses {buf : ℕ → UInt8} {rows : ℤ} {fuel : ℕ} {log : List Event} {site : Site}
    {first : ℤ} {count : ℕ} (h : .access site first count ∈ (dump buf rows fuel log).state) :
    .access site first count ∈ log ∨
      site = .dump ∧ 0 ≤ first ∧ first + count ≤ 16 * rows := by
  let I (log' : List Event) : Prop := .access site first count ∈ log' →
    .access site first count ∈ log ∨ site = .dump ∧ 0 ≤ first ∧ first + count ≤ 16 * rows
  have hinv : I (dump buf rows fuel log).state := by
    apply forLoop_invariant _ fun h => .inl h
    intro addr log₁ haddr hlog₁
    apply Progress.bind_state
    · apply forLoop_invariant
      · intro index log₂ hindex hlog₂ hmem
        -- One byte is read, at an index inside the row.
        have hcell := cell_toNat addr index
        rcases List.mem_append.mp hmem with hmem | hmem
        · exact hlog₂ hmem
        · obtain ⟨rfl, rfl, rfl⟩ : site = .dump ∧ first = (cell addr index).toNat ∧ count = 1 := by
            simpa using hmem
          exact .inr ⟨rfl, by omega, by omega⟩
      · intro hmem
        exact hlog₁ (by simpa using hmem)
    · intro log₂ hlog₂ hmem
      have hmem₂ : .access site first count ∈ log₂ := by
        simpa [Progress.state] using hmem
      exact hlog₂ hmem₂
  exact hinv h

/-- **Which accesses lie inside the buffer.** With memory, for every file and however far the dump
comes: all but the terminator, and the bytes read from a file of less than 31 bytes. -/
theorem inside_iff {heap : ℕ → UInt8} {fuel : ℕ} {site : Site} {first : ℤ} {count : ℕ}
    (h : .access site first count ∈ (ReadFile.load (some heap) f fuel).state) :
    Inside f first count ↔
      site ≠ .terminator ∧ (site = .kernelRead → 31 ≤ f.content.length) := by
  unfold Inside
  rcases dump_accesses h with h | ⟨rfl, hfirst, hlast⟩
  · rcases List.mem_cons.mp h with h | h
    · -- The `memset` sets what was allocated.
      obtain ⟨rfl, rfl, rfl⟩ := Event.access.inj h
      rw [allocated_toNat]
      simp
    · rcases List.mem_cons.mp h with h | h
      · -- The terminator is stored behind it, or at a negative index.
        obtain ⟨rfl, rfl, rfl⟩ := Event.access.inj h
        have hindex := terminator_toInt (f := f)
        simp only [ne_eq, not_true_eq_false, false_and, iff_false]
        omega
      · obtain ⟨rfl, rfl, rfl⟩ := Event.access.inj (List.mem_singleton.mp h)
        have hread := read_length_le_iff (f := f)
        constructor
        · rintro ⟨-, hle⟩
          exact ⟨nofun, fun _ => hread.mp (by omega)⟩
        · rintro ⟨-, hlength⟩
          have hle := hread.mpr (hlength rfl)
          omega
  · have hrows := rowCount_size_le (f := f)
    constructor
    · exact fun _ => ⟨nofun, nofun⟩
    · exact fun _ => ⟨hfirst, by omega⟩

/-- **No call is bounded.** For every file and both outcomes of the allocation, `sample_fw_load`
accesses its buffer at an index outside, or without having one. -/
theorem not_bounded (kmalloc : Option (ℕ → UInt8)) (f : File) : ¬ Bounded kmalloc f := by
  intro h
  cases kmalloc with
  | none =>
    -- The `memset` comes before any check.
    obtain ⟨hsome, -⟩ := h 0 _ _ _ List.mem_cons_self
    cases hsome
  | some heap =>
    have hmem : .access .terminator (f.size + 32 + 1).toInt 1 ∈
        (ReadFile.load (some heap) f 0).state := List.mem_cons_of_mem _ List.mem_cons_self
    obtain ⟨-, hinside⟩ := h 0 _ _ _ hmem
    obtain ⟨hne, -⟩ := (inside_iff hmem).mp hinside
    exact hne rfl

/-- For an empty file, the buffer has 33 bytes and the terminator is stored at the index 33. -/
theorem not_bounded_emptyFile : ¬ Bounded (some fun _ => 0) ⟨[], by decide⟩ := by
  intro h
  have hmem : .access .terminator 33 1 ∈
      (ReadFile.load (some fun _ => 0) ⟨[], by decide⟩ 0).state :=
    List.mem_cons_of_mem _ List.mem_cons_self
  obtain ⟨-, -, hlast⟩ := h 0 _ _ _ hmem
  revert hlast
  decide

end LinuxStack.Dump
