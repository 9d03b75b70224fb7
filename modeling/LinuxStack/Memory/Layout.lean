import LinuxStack.Memory.Word

/-!
# The layout of structs

The members of a struct lie one after another, each at the next multiple of its own size. A struct
that is filled in memory keeps whatever the memory held in its padding, and each of its members can
be loaded from its offset.

## Main definitions

* `Member`: the size and the value of a member
* `offset`, `sizeUsed`: where a member is, and where the last one ends
* `fill`: the memory after the members are stored

## Main results

* `loadWord_fill`: a load from the offset of a member delivers its value
* `loadWord_fill_beyond`: nothing is stored behind the last member
-/

namespace Memory

variable {mem : ℕ → UInt8} {p q n off w i : ℕ} {m : Member} {ms : List Member}

/-- The least multiple of `w` from `off` on. -/
def alignUp (off w : ℕ) : ℕ := off + (w - off % w) % w

theorem le_alignUp (off w : ℕ) : off ≤ alignUp off w := Nat.le_add_right _ _

theorem alignUp_of_dvd (h : w ∣ off) : alignUp off w = off := by
  rw [alignUp, Nat.mod_eq_zero_of_dvd h, Nat.sub_zero, Nat.mod_self, Nat.add_zero]

/-- A member that follows a smaller part of its own size lies at its size. -/
theorem alignUp_of_le (hpos : 0 < off) (hle : off ≤ w) : alignUp off w = w := by
  rcases Nat.lt_or_eq_of_le hle with hlt | rfl
  · rw [alignUp, Nat.mod_eq_of_lt hlt, Nat.mod_eq_of_lt (by omega)]
    omega
  · exact alignUp_of_dvd (Nat.dvd_refl off)

/-- A member of a struct. Its size is its alignment. -/
structure Member where
  size : ℕ
  value : ℕ

/-- The offset of the member `i` of a struct whose next free byte is `off`. -/
def offsetFrom : ℕ → List Member → ℕ → ℕ
  | off, [], _ => off
  | off, m :: _, 0 => alignUp off m.size
  | off, m :: ms, i + 1 => offsetFrom (alignUp off m.size + m.size) ms i

/-- The end of the last member of a struct whose next free byte is `off`. -/
def endFrom : ℕ → List Member → ℕ
  | off, [] => off
  | off, m :: ms => endFrom (alignUp off m.size + m.size) ms

/-- The memory after the members of a struct at `p` are stored, whose next free byte is `off`. -/
def fillFrom (p : ℕ) : ℕ → List Member → (ℕ → UInt8) → ℕ → UInt8
  | _, [], mem => mem
  | off, m :: ms, mem =>
    fillFrom p (alignUp off m.size + m.size) ms
      (storeWord mem (p + alignUp off m.size) m.size m.value)

/-- The offset of the member `i`. -/
def offset (ms : List Member) (i : ℕ) : ℕ := offsetFrom 0 ms i

/-- The end of the last member. -/
def sizeUsed (ms : List Member) : ℕ := endFrom 0 ms

/-- The memory after the struct `ms` is filled in at `p`. -/
def fill (mem : ℕ → UInt8) (p : ℕ) (ms : List Member) : ℕ → UInt8 := fillFrom p 0 ms mem

theorem le_endFrom (off : ℕ) (ms : List Member) : off ≤ endFrom off ms := by
  induction ms generalizing off with
  | nil => exact Nat.le_refl off
  | cons m ms ih =>
    have hle := le_alignUp off m.size
    exact Nat.le_trans (by omega) (ih _)

/-- Members are stored from the next free byte on. -/
theorem loadWord_fillFrom_below (h : q + n ≤ p + off) :
    loadWord (fillFrom p off ms mem) q n = loadWord mem q n := by
  induction ms generalizing off mem with
  | nil => rfl
  | cons m ms ih =>
    have hle := le_alignUp off m.size
    rw [fillFrom, ih (by omega), loadWord_storeWord_of_disjoint (Or.inl (by omega))]

/-- Members are stored before the end of the last one. -/
theorem loadWord_fillFrom_beyond (h : p + endFrom off ms ≤ q) :
    loadWord (fillFrom p off ms mem) q n = loadWord mem q n := by
  induction ms generalizing off mem with
  | nil => rfl
  | cons m ms ih =>
    have hle := le_endFrom (alignUp off m.size + m.size) ms
    rw [endFrom] at h
    rw [fillFrom, ih h, loadWord_storeWord_of_disjoint (Or.inr (by omega))]

/-- The induction is on the members: what follows a member is stored behind it. -/
theorem loadWord_fillFrom (h : ms[i]? = some m) :
    loadWord (fillFrom p off ms mem) (p + offsetFrom off ms i) m.size =
      m.value % 256 ^ m.size := by
  induction ms generalizing off mem i with
  | nil => cases h
  | cons m' ms ih =>
    cases i with
    | zero =>
      obtain rfl : m' = m := Option.some.inj h
      rw [fillFrom, offsetFrom, loadWord_fillFrom_below (by omega), loadWord_storeWord]
    | succ i =>
      rw [fillFrom, offsetFrom]
      exact ih h

/-- **A load from the offset of a member delivers its value**, as far as its size goes. -/
theorem loadWord_fill (h : ms[i]? = some m) :
    loadWord (fill mem p ms) (p + offset ms i) m.size = m.value % 256 ^ m.size :=
  loadWord_fillFrom h

/-- Nothing is stored behind the last member. -/
theorem loadWord_fill_beyond (h : p + sizeUsed ms ≤ q) :
    loadWord (fill mem p ms) q n = loadWord mem q n :=
  loadWord_fillFrom_beyond h

end Memory
