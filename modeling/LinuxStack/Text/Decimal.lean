import Mathlib.Data.Int.Cast.Lemmas
import Mathlib.Data.List.Basic
import Mathlib.Data.List.Induction
import Mathlib.Data.List.TakeWhile
import Mathlib.Tactic.IntervalCases

/-!
# Decimal numerals in byte strings

A numeral is a row of digits, with a minus sign before it or not. A printer writes the shortest
numeral of a number. A scanner skips white space, reads the longest numeral that follows and leaves
the rest alone. It computes in any ring, so a scanner that wraps is the one over the integers and a
cast.

## Main definitions

* `eval R ds`: the value of a row of digits
* `decimal n`, `printInt z`: the shortest numerals
* `scan R buf`: the value of the numeral at the beginning of a string
* `Numeral buf z`: the string begins with a numeral of value `z`

## Main results

* `scan_cast`: a scanner over a ring is the scanner over the integers and a cast
* `scan_eq_some_iff`: what the scanner accepts, and what it reads
* `scan_printInt`: what was printed is read again, whatever follows that is not a digit
-/

namespace Text

/-! ## Digits -/

/-- The white space of an eight-bit character set, with the space that does not break. -/
def isSpace (c : UInt8) : Bool := (9 ≤ c && c ≤ 13) || c == 32 || c == 160

def isDigit (c : UInt8) : Bool := 48 ≤ c && c ≤ 57

def digit (c : UInt8) : ℕ := c.toNat - 48

def minus : UInt8 := 45

/-- The value of a row of digits, the most significant one first. -/
def eval (R : Type*) [Semiring R] (ds : List UInt8) : R :=
  ds.foldl (fun r c => r * 10 + (digit c : R)) 0

section Eval

variable {R S : Type*} [Semiring R] [Semiring S] {c : UInt8} {ds : List UInt8}

@[simp] theorem eval_nil : eval R [] = 0 := rfl

@[simp] theorem eval_concat : eval R (ds ++ [c]) = eval R ds * 10 + (digit c : R) := by
  simp [eval]

/-- Homomorphisms commute with the value. -/
theorem map_eval (f : R →+* S) : f (eval R ds) = eval S ds := by
  induction ds using List.reverseRecOn with
  | nil => simp
  | append_singleton ds c ih => simp [ih, map_ofNat]

end Eval

/-! ## Printing -/

/-- The shortest row of digits of a number. -/
def decimal (n : ℕ) : List UInt8 := (Nat.toDigits 10 n).map fun c => UInt8.ofNat c.toNat

/-- The shortest numeral of a number, as `%d` writes it. -/
def printInt (z : ℤ) : List UInt8 :=
  if z < 0 then minus :: decimal z.natAbs else decimal z.natAbs

section Decimal

variable {n : ℕ}

theorem decimal_of_lt (h : n < 10) : decimal n = [UInt8.ofNat (48 + n)] := by
  rw [decimal, Nat.toDigits_of_lt_base h]
  interval_cases n <;> rfl

/-- The last digit comes off the end. -/
theorem decimal_of_le (h : 10 ≤ n) :
    decimal n = decimal (n / 10) ++ [UInt8.ofNat (48 + n % 10)] := by
  have hlast : decimal (n % 10) = [UInt8.ofNat (48 + n % 10)] :=
    decimal_of_lt (Nat.mod_lt n (by omega))
  rw [← hlast, decimal, decimal, decimal, Nat.toDigits_of_base_le (by omega) h, List.map_append,
    ← Nat.toDigits_of_lt_base (Nat.mod_lt n (by omega))]

theorem isDigit_ofNat (h : n < 10) : isDigit (UInt8.ofNat (48 + n)) = true := by
  interval_cases n <;> rfl

theorem digit_ofNat (h : n < 10) : digit (UInt8.ofNat (48 + n)) = n := by
  interval_cases n <;> rfl

theorem decimal_ne_nil (n : ℕ) : decimal n ≠ [] := by
  rcases Nat.lt_or_ge n 10 with h | h
  · simp [decimal_of_lt h]
  · simp [decimal_of_le h]

theorem isDigit_of_mem_decimal {c : UInt8} (h : c ∈ decimal n) : isDigit c = true := by
  induction n using Nat.strongRecOn with
  | ind n ih =>
    rcases Nat.lt_or_ge n 10 with hn | hn
    · rw [decimal_of_lt hn, List.mem_singleton] at h
      exact h ▸ isDigit_ofNat hn
    · rw [decimal_of_le hn, List.mem_append, List.mem_singleton] at h
      rcases h with h | rfl
      · exact ih (n / 10) (by omega) h
      · exact isDigit_ofNat (Nat.mod_lt n (by omega))

/-- **The value of the digits of a number is the number.** -/
theorem eval_decimal (n : ℕ) : eval ℕ (decimal n) = n := by
  induction n using Nat.strongRecOn with
  | ind n ih =>
    rcases Nat.lt_or_ge n 10 with hn | hn
    · rw [decimal_of_lt hn, ← List.nil_append [_], eval_concat, digit_ofNat hn]
      simp
    · rw [decimal_of_le hn, eval_concat, ih (n / 10) (by omega),
        digit_ofNat (Nat.mod_lt n (by omega))]
      simp only [Nat.cast_id]
      omega

end Decimal

/-! ## Scanning -/

/-- What stands behind a minus sign, or the string as it is. -/
def unsigned (str : List UInt8) : List UInt8 := if str.head? = some minus then str.tail else str

/-- The value of the numeral after white space, if there is one. -/
def scan (R : Type*) [Ring R] (buf : List UInt8) : Option R :=
  let str := buf.dropWhile isSpace
  let ds := (unsigned str).takeWhile isDigit
  if ds = [] then none
  else some (if str.head? = some minus then -eval R ds else eval R ds)

/-- The string does not begin with a digit. -/
def NoDigit (rest : List UInt8) : Prop := ∀ c ∈ rest.head?, isDigit c = false

instance (rest : List UInt8) : Decidable (NoDigit rest) :=
  match rest with
  | [] => isTrue nofun
  | c :: _ => decidable_of_iff (isDigit c = false) (by simp [NoDigit])

/-- White space, a numeral of value `z`, and a rest that does not continue it. -/
inductive Numeral : List UInt8 → ℤ → Prop
  | pos {ws ds rest : List UInt8} (hws : ∀ c ∈ ws, isSpace c = true) (hne : ds ≠ [])
      (hds : ∀ c ∈ ds, isDigit c = true) (hrest : NoDigit rest) :
      Numeral (ws ++ (ds ++ rest)) (eval ℤ ds)
  | neg {ws ds rest : List UInt8} (hws : ∀ c ∈ ws, isSpace c = true) (hne : ds ≠ [])
      (hds : ∀ c ∈ ds, isDigit c = true) (hrest : NoDigit rest) :
      Numeral (ws ++ minus :: (ds ++ rest)) (-eval ℤ ds)

section Scan

variable {buf ws ds rest : List UInt8} {z : ℤ}

theorem scan_cast {R : Type*} [Ring R] (buf : List UInt8) :
    scan R buf = (scan ℤ buf).map Int.cast := by
  have heval (ds : List UInt8) : ((eval ℤ ds : ℤ) : R) = eval R ds := map_eval (Int.castRingHom R)
  unfold scan
  simp only
  split
  · rfl
  · split <;> simp [heval]

theorem noDigit_nil : NoDigit [] := by
  intro c hc
  cases hc

theorem not_isSpace_of_isDigit {c : UInt8} (h : isDigit c = true) : isSpace c = false := by
  simp only [isDigit, Bool.and_eq_true, decide_eq_true_eq, UInt8.le_iff_toNat_le,
    UInt8.toNat_ofNat] at h
  by_contra hspace
  simp only [isSpace, Bool.not_eq_false, Bool.or_eq_true, Bool.and_eq_true, decide_eq_true_eq,
    beq_iff_eq, UInt8.le_iff_toNat_le, ← UInt8.toNat_inj, UInt8.toNat_ofNat] at hspace
  omega

theorem ne_minus_of_isDigit {c : UInt8} (h : isDigit c = true) : c ≠ minus := by
  rintro rfl
  cases h

theorem takeWhile_of_noDigit (hds : ∀ c ∈ ds, isDigit c = true) (hrest : NoDigit rest) :
    (ds ++ rest).takeWhile isDigit = ds := by
  rw [List.takeWhile_append_of_pos hds]
  cases rest with
  | nil => simp
  | cons c rest => simp [hrest c rfl]

/-- White space is skipped up to a byte that is none. -/
theorem dropWhile_of_head {c : UInt8} (hws : ∀ c ∈ ws, isSpace c = true) (hc : isSpace c = false)
    (hhead : rest.head? = some c) : (ws ++ rest).dropWhile isSpace = rest := by
  rw [List.dropWhile_append_of_pos hws]
  cases rest with
  | nil => rfl
  | cons b rest =>
    obtain rfl : b = c := Option.some.inj hhead
    simp [hc]

theorem scan_of_numeral (h : Numeral buf z) : scan ℤ buf = some z := by
  cases h with
  | @pos ws ds rest hws hne hds hrest =>
    obtain ⟨c, ds, rfl⟩ := List.exists_cons_of_ne_nil hne
    have hc : isDigit c = true := hds c List.mem_cons_self
    have hskip : (ws ++ (c :: ds ++ rest)).dropWhile isSpace = c :: ds ++ rest :=
      dropWhile_of_head hws (not_isSpace_of_isDigit hc) rfl
    -- A digit is no minus sign.
    have hminus : (c :: ds ++ rest).head? ≠ some minus :=
      fun he => ne_minus_of_isDigit hc (Option.some.inj he)
    simp only [scan, hskip, unsigned, if_neg hminus, takeWhile_of_noDigit hds hrest, if_neg hne]
  | @neg ws ds rest hws hne hds hrest =>
    have hskip : (ws ++ minus :: (ds ++ rest)).dropWhile isSpace = minus :: (ds ++ rest) :=
      dropWhile_of_head hws rfl rfl
    simp only [scan, hskip, unsigned, List.head?_cons, if_true, List.tail_cons,
      takeWhile_of_noDigit hds hrest, if_neg hne]

/-- A string splits at the end of the digits that it begins with. -/
theorem noDigit_dropWhile (str : List UInt8) : NoDigit (str.dropWhile isDigit) := by
  intro c hc
  have hhead := List.head?_dropWhile_not isDigit str
  rw [Option.mem_def.mp hc] at hhead
  simpa using hhead

theorem numeral_of_scan (h : scan ℤ buf = some z) : Numeral buf z := by
  have hws : ∀ c ∈ buf.takeWhile isSpace, isSpace c = true := fun c => List.mem_takeWhile_imp
  unfold scan at h
  simp only at h
  split at h
  · cases h
  · rename_i hne
    obtain rfl := Option.some.inj h
    have hds : ∀ c ∈ (unsigned (buf.dropWhile isSpace)).takeWhile isDigit, isDigit c = true :=
      fun c => List.mem_takeWhile_imp
    have hrest := noDigit_dropWhile (unsigned (buf.dropWhile isSpace))
    by_cases hminus : (buf.dropWhile isSpace).head? = some minus
    · -- The string is its white space, its sign, its digits and the rest.
      have hsplit : buf = buf.takeWhile isSpace ++ minus ::
          ((unsigned (buf.dropWhile isSpace)).takeWhile isDigit ++
            (unsigned (buf.dropWhile isSpace)).dropWhile isDigit) := by
        rw [List.takeWhile_append_dropWhile, unsigned, if_pos hminus,
          List.cons_head?_tail (Option.mem_def.mpr hminus), List.takeWhile_append_dropWhile]
      rw [if_pos hminus]
      nth_rewrite 1 [hsplit]
      exact .neg hws hne hds hrest
    · have hsplit : buf = buf.takeWhile isSpace ++
          ((unsigned (buf.dropWhile isSpace)).takeWhile isDigit ++
            (unsigned (buf.dropWhile isSpace)).dropWhile isDigit) := by
        rw [List.takeWhile_append_dropWhile, unsigned, if_neg hminus,
          List.takeWhile_append_dropWhile]
      rw [if_neg hminus]
      nth_rewrite 1 [hsplit]
      exact .pos hws hne hds hrest

/-- **The scanner reads a numeral** iff the string begins with one after white space. -/
theorem scan_eq_some_iff : scan ℤ buf = some z ↔ Numeral buf z :=
  ⟨numeral_of_scan, scan_of_numeral⟩

theorem scan_eq_none_iff : scan ℤ buf = none ↔ ∀ z, ¬ Numeral buf z := by
  rw [Option.eq_none_iff_forall_ne_some]
  exact forall_congr' fun z => not_congr scan_eq_some_iff

/-- **What was printed is read again**, whatever follows that is not a digit. -/
theorem scan_printInt (z : ℤ) (hrest : NoDigit rest) : scan ℤ (printInt z ++ rest) = some z := by
  have hvalue : eval ℤ (decimal z.natAbs) = (z.natAbs : ℤ) := by
    rw [← map_eval (Nat.castRingHom ℤ), eval_decimal]
    rfl
  have hws : ∀ c ∈ ([] : List UInt8), isSpace c = true := nofun
  have hds : ∀ c ∈ decimal z.natAbs, isDigit c = true := fun _ => isDigit_of_mem_decimal
  apply scan_of_numeral
  unfold printInt
  split
  · rename_i hneg
    have hnumeral := Numeral.neg hws (decimal_ne_nil _) hds hrest
    rw [hvalue] at hnumeral
    have hz : -(z.natAbs : ℤ) = z := by omega
    rwa [hz] at hnumeral
  · rename_i hneg
    have hnumeral := Numeral.pos hws (decimal_ne_nil _) hds hrest
    rw [hvalue] at hnumeral
    have hz : (z.natAbs : ℤ) = z := by omega
    rwa [hz] at hnumeral

end Scan

end Text
