import LinuxStack.Transition.Run
import Mathlib.Data.Nat.Notation

/-!
# A latch and its handler

Events set a latch. A handler looks at the latch, tells a listener that it is set, and clears it.
The listener is told at once, or through a flag that it takes. A step of the handler that is not
its next one does nothing. An event that is followed by no notice, and of which no trace is left,
is lost. In a register, the latch is a bit: the handler tests what it has read, and writes that
back with the bit cleared.

## Main definitions

* `Latch`, `Latch.step`: the state, and what an act does to it
* `Latch.Lost`: an event of which neither the listener nor any trace knows
* `Latch.InGap`: an event would come after the notice of the handler and before it clears
* `Handler`, `Line`: a handler of a status register, and the register under it

## Main results

* `Latch.guarded`: an event is lost only through the gap, and one in the gap is lost at the clear
* `Latch.never_lost_iff`: a run loses no event iff none comes in the gap
* `Line.run_serve`: the steps of the handler in a row are the handler
* `Line.never_lost_iff`: the same of a register whose handler tests one bit
-/

namespace Transition

/-- Where the handler is: it has not looked, has seen the latch set, or has told the listener. -/
inductive Phase
  | idle
  | seen
  | told
  deriving DecidableEq

/-- The acts on a latch: an event, the steps of the handler, and the two steps of the listener. -/
inductive LatchAct
  | event
  | look
  | tell
  | clear
  | test
  | take
  deriving DecidableEq

/-- A latch, its handler and its listener. The listener is owed a notice from an event on. -/
@[ext] structure Latch where
  isSet : Bool
  phase : Phase
  flag : Bool
  tested : Bool
  owed : Bool

namespace Latch

/-- At rest, with nothing to tell. -/
def quiet : Latch := ⟨false, .idle, false, false, false⟩

/-- What an act does, if the handler tells the listener at once or through the flag. -/
def step (atOnce : Bool) (s : Latch) : LatchAct → Latch
  | .event => { s with isSet := true, owed := true }
  | .look => if s.phase = .idle ∧ s.isSet then { s with phase := .seen } else s
  | .tell =>
    if s.phase = .seen then
      if atOnce then { s with phase := .told, owed := false }
      else { s with phase := .told, flag := true }
    else s
  | .clear => if s.phase = .told then { s with phase := .idle, isSet := false } else s
  | .test => { s with tested := s.flag }
  | .take => if s.tested then { s with flag := false, tested := false, owed := false } else s

/-- The listener is owed a notice, and nothing is left that would give it. -/
def Lost (s : Latch) : Prop :=
  s.owed = true ∧ s.isSet = false ∧ s.flag = false ∧ s.tested = false

/-- The handler has told the listener, who has taken the notice, and has still to clear. -/
def Gap (s : Latch) : Prop := s.phase = .told ∧ s.flag = false ∧ s.tested = false

/-- An event that comes in the gap. -/
def InGap (s : Latch) (a : LatchAct) : Prop := a = .event ∧ s.Gap

/-- What holds as long as no event comes in the gap. -/
structure Kept (s : Latch) : Prop where
  handled : s.phase ≠ .idle → s.isSet = true
  traced : s.owed = true → s.isSet = true ∨ s.flag = true
  untold : s.Gap → s.owed = false
  tested : s.tested = true → s.flag = true

/-- An event has come in the gap, and the handler has still to clear. -/
def Doomed (s : Latch) : Prop := s.Gap ∧ s.owed = true

variable {atOnce : Bool} {s : Latch} {a : LatchAct}

theorem Kept.not_lost (h : s.Kept) : ¬ s.Lost := by
  rintro ⟨howed, hset, hflag, -⟩
  rcases h.traced howed with h | h
  · rw [hset] at h
    cases h
  · rw [hflag] at h
    cases h

/-- One act outside the gap keeps a trace of every event. -/
theorem Kept.step (h : s.Kept) (ha : ¬ s.InGap a) : (s.step atOnce a).Kept := by
  obtain ⟨handled, traced, untold, tested⟩ := h
  cases a with
  | event => exact ⟨fun _ => rfl, fun _ => Or.inl rfl, fun hgap => absurd ⟨rfl, hgap⟩ ha, tested⟩
  | look =>
    simp only [Latch.step]
    split_ifs with hlook
    · exact ⟨fun _ => hlook.2, traced, fun hgap => absurd hgap.1 (by simp), tested⟩
    · exact ⟨handled, traced, untold, tested⟩
  | tell =>
    simp only [Latch.step]
    split_ifs with hseen honce
    · have hset : s.isSet = true := handled (by simp [hseen])
      exact ⟨fun _ => hset, fun howed => absurd howed (by simp), fun _ => rfl, tested⟩
    · have hset : s.isSet = true := handled (by simp [hseen])
      exact ⟨fun _ => hset, fun _ => Or.inr rfl, fun hgap => absurd hgap.2.1 (by simp),
        fun _ => rfl⟩
    · exact ⟨handled, traced, untold, tested⟩
  | clear =>
    simp only [Latch.step]
    split_ifs with htold
    · refine ⟨fun hne => absurd rfl hne, fun howed => Or.inr ?_,
        fun hgap => absurd hgap.1 (by simp), tested⟩
      -- A listener that is owed a notice has not taken the one there is.
      by_contra hflag
      have hnot : s.tested = false := by
        cases htest : s.tested with
        | false => rfl
        | true => exact absurd (tested htest) hflag
      have hfalse := untold ⟨htold, eq_false_of_ne_true hflag, hnot⟩
      rw [hfalse] at howed
      cases howed
    · exact ⟨handled, traced, untold, tested⟩
  | test =>
    refine ⟨handled, traced, fun hgap => ?_, id⟩
    have hflag : s.flag = false := hgap.2.1
    have hnot : s.tested = false := by
      cases htest : s.tested with
      | false => rfl
      | true => exact absurd (tested htest) (by simp [hflag])
    exact untold ⟨hgap.1, hflag, hnot⟩
  | take =>
    simp only [Latch.step]
    split_ifs with htest
    · exact ⟨handled, fun howed => absurd howed (by simp), fun _ => rfl,
        fun htest => absurd htest (by simp)⟩
    · exact ⟨handled, traced, untold, tested⟩

/-- An event in the gap dooms. -/
theorem doomed_of_inGap (ha : s.InGap a) : (s.step atOnce a).Doomed := by
  obtain ⟨rfl, hgap⟩ := ha
  exact ⟨hgap, rfl⟩

/-- Nothing but the clear ends a doomed state, and the clear loses the event. -/
theorem Doomed.step (h : s.Doomed) (ha : ¬ (s.step atOnce a).Lost) :
    (s.step atOnce a).Doomed := by
  obtain ⟨⟨hphase, hflag, htested⟩, howed⟩ := h
  cases a with
  | event => exact ⟨⟨hphase, hflag, htested⟩, rfl⟩
  | look =>
    have hsame : s.step atOnce .look = s := if_neg (by simp [hphase])
    rw [hsame]
    exact ⟨⟨hphase, hflag, htested⟩, howed⟩
  | tell =>
    have hsame : s.step atOnce .tell = s := if_neg (by simp [hphase])
    rw [hsame]
    exact ⟨⟨hphase, hflag, htested⟩, howed⟩
  | clear =>
    -- The clear takes the event with the one before.
    have hclear : s.step atOnce .clear = { s with phase := .idle, isSet := false } := if_pos hphase
    rw [hclear] at ha
    exact absurd ⟨howed, rfl, hflag, htested⟩ ha
  | test => exact ⟨⟨hphase, hflag, hflag⟩, howed⟩
  | take =>
    have hsame : s.step atOnce .take = s := if_neg (by simp [htested])
    rw [hsame]
    exact ⟨⟨hphase, hflag, htested⟩, howed⟩

/-- **An event is lost only through the gap**, and one that comes there is lost at the clear. -/
theorem guarded (atOnce : Bool) :
    Guarded (Latch.step atOnce) (fun _ _ => True) (fun s a => ¬ (s.step atOnce a).Lost)
      (fun s a => ¬ s.InGap a) Kept Doomed where
  keeps _ _ h _ ha := (h.step ha).not_lost
  preserves _ _ h _ ha := h.step ha
  dooms _ _ _ _ _ ha := doomed_of_inGap (not_not.mp ha)
  stays _ _ h _ ha := h.step ha

/-- **A run loses no event iff none comes in the gap**, unless the handler has still to clear an
event that came there. -/
theorem never_lost_iff {as : List LatchAct} (hs : s.Kept)
    (hend : ¬ (run (Latch.step atOnce) s as).Doomed) :
    Along (Latch.step atOnce) (fun s a => ¬ (s.step atOnce a).Lost) s as ↔
      Along (Latch.step atOnce) (fun s a => ¬ s.InGap a) s as :=
  (guarded atOnce).along_iff hs (along_of_forall fun _ _ => trivial) hend

end Latch

/-! ## A latch in a register -/

/-- A handler of a status register: what it tests in the value read, and what it writes back. -/
structure Handler (w : ℕ) where
  test : BitVec w → Bool
  clear : BitVec w → BitVec w

/-- What the handler writes, if it takes the interrupt. -/
def Handler.serve {w : ℕ} (h : Handler w) (v : BitVec w) : Option (BitVec w) :=
  if h.test v then some (h.clear v) else none

/-- A status register, and the value of it that the handler has read. -/
structure Line (w : ℕ) where
  status : BitVec w
  read : BitVec w
  phase : Phase
  flag : Bool
  tested : Bool
  owed : Bool

namespace Line

variable {w : ℕ}

/-- At rest, with a register that the listener does not wait for. -/
def quiet (status : BitVec w) : Line w := ⟨status, 0, .idle, false, false, false⟩

/-- What an act does, if an event sets some bits. -/
def step (h : Handler w) (bits : BitVec w) (atOnce : Bool) (s : Line w) : LatchAct → Line w
  | .event => { s with status := s.status ||| bits, owed := true }
  | .look =>
    if s.phase = .idle then
      { s with read := s.status, phase := if h.test s.status then .seen else .idle }
    else s
  | .tell =>
    if s.phase = .seen then
      if atOnce then { s with phase := .told, owed := false }
      else { s with phase := .told, flag := true }
    else s
  | .clear => if s.phase = .told then { s with phase := .idle, status := h.clear s.read } else s
  | .test => { s with tested := s.flag }
  | .take => if s.tested then { s with flag := false, tested := false, owed := false } else s

/-- The latch that a bit of the register is. -/
def latch (i : ℕ) (s : Line w) : Latch := ⟨s.status.getLsbD i, s.phase, s.flag, s.tested, s.owed⟩

/-- The steps of a handler that nothing interrupts. -/
def served : List LatchAct := [.look, .tell, .clear]

end Line

/-- The handler is one of a bit: it tests the bit and clears it, and an event sets it. -/
structure Handler.Serves {w : ℕ} (h : Handler w) (bits : BitVec w) (i : ℕ) : Prop where
  test : ∀ v, h.test v = v.getLsbD i
  clear : ∀ v, (h.clear v).getLsbD i = false
  event : bits.getLsbD i = true

namespace Line

variable {w i : ℕ} {h : Handler w} {bits : BitVec w} {atOnce : Bool} {s : Line w}
  {as : List LatchAct}

/-- **The steps of the handler in a row are the handler**: it writes what it would, and tells the
listener if it takes the interrupt. -/
theorem run_serve (h : Handler w) (bits : BitVec w) (atOnce : Bool) (hidle : s.phase = .idle) :
    (run (step h bits atOnce) s served).status = (h.serve s.status).getD s.status ∧
      (run (step h bits atOnce) s served).phase = .idle ∧
      (run (step h bits atOnce) s served).flag = (s.flag || (!atOnce && h.test s.status)) ∧
      (run (step h bits atOnce) s served).owed = (s.owed && !(atOnce && h.test s.status)) := by
  cases ht : h.test s.status <;> cases atOnce <;> simp [served, step, hidle, ht, Handler.serve]

/-- The bit is a latch. -/
theorem latch_step (hs : h.Serves bits i) (s : Line w) (a : LatchAct) :
    (s.step h bits atOnce a).latch i = (s.latch i).step atOnce a := by
  cases a with
  | event => simp [step, latch, Latch.step, hs.event]
  | look =>
    cases hbit : s.status.getLsbD i <;> by_cases hp : s.phase = .idle <;>
      simp [step, latch, Latch.step, hs.test, hbit, hp]
  | tell => cases atOnce <;> by_cases hp : s.phase = .seen <;> simp [step, latch, Latch.step, hp]
  | clear => by_cases hp : s.phase = .told <;> simp [step, latch, Latch.step, hs.clear, hp]
  | test => rfl
  | take => by_cases ht : s.tested = true <;> simp [step, latch, Latch.step, ht]

theorem latch_run (hs : h.Serves bits i) :
    (run (step h bits atOnce) s as).latch i = run (Latch.step atOnce) (s.latch i) as := by
  -- The register and the bit take the same steps.
  induction as generalizing s with
  | nil => rfl
  | cons a as ih => rw [run_cons, run_cons, ih, latch_step hs]

/-- **No event of the register is lost** iff none comes after the notice and before the clear, in a
run at whose end the handler is done. -/
theorem never_lost_iff (hs : h.Serves bits i) (status : BitVec w)
    (hend : (run (step h bits atOnce) (quiet status) as).phase = .idle) :
    Along (step h bits atOnce) (fun s a => ¬ ((s.step h bits atOnce a).latch i).Lost)
        (quiet status) as ↔
      Along (step h bits atOnce) (fun s a => ¬ (s.latch i).InGap a) (quiet status) as := by
  have hkept : ((quiet status).latch i).Kept := by
    constructor <;> simp [quiet, latch, Latch.Gap]
  have hdone : ¬ (run (Latch.step atOnce) ((quiet status).latch i) as).Doomed := by
    rw [← latch_run hs]
    rintro ⟨⟨htold, -⟩, -⟩
    exact absurd (hend.symm.trans htold) (by simp)
  have hmap : ∀ P : Latch → LatchAct → Prop,
      Along (Latch.step atOnce) P ((quiet status).latch i) as ↔
        Along (step h bits atOnce) (fun t a => P (t.latch i) a) (quiet status) as :=
    fun P => along_map (latch i) (latch_step hs)
  simp only [latch_step hs]
  exact (hmap _).symm.trans ((Latch.never_lost_iff hkept hdone).trans (hmap _))

end Line

end Transition
