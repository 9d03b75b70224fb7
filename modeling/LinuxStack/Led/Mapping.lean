import LinuxStack.Led.Driver
import LinuxStack.Transition.Run
import Mathlib.Data.List.Count

/-!
# The lifecycle of register mappings

Clients open `/dev/led`, write and release in any interleaving. Every open writes the two global
pointers, also one that fails, and every release unmaps what `gpio_con` then points to. One client
at a time is safe. As soon as an open happens during another session, the mapping of that session
is out of reach and can never be unmapped.

## Main definitions

* `Bench C M`, `Action`, `Bench.step`: the driver with its clients `C`
* `Issued`: one open for each client, writes and one release after an open that succeeded
* `Kept`: no access of a call goes astray, and no mapping is left when nobody has the device open
* `Alone`: nobody has the device open at an open
* `Consistent`, `Doomed`: the invariant, and a mapping out of reach

## Main results

* `mapping_guarded`: opens on their own guard the contract
* `kept_iff_alone`: a run whose opens are alone keeps the contract, and a run that keeps it until
  all sessions are over has only such opens
-/

namespace LinuxStack.Led

open Transition

variable {C M : Type*} [DecidableEq C] [DecidableEq M]

/-- How far a client has come. -/
inductive Session
  | fresh
  | opened
  | over
  deriving DecidableEq

/-- The driver with its clients, and the accesses of all calls so far. -/
structure Bench (C M : Type*) where
  led : MyLed M
  session : C → Session
  log : List (Access M)

/-- A driver that nobody has opened yet. -/
def Bench.load (ledPin : BitVec 32) (reg : BitVec 32 → BitVec 32) : Bench C M :=
  ⟨⟨ledPin, none, none, fun _ => none, reg⟩, fun _ => .fresh, []⟩

/-- A call on `/dev/led` by a client; `map` is what the `ioremap` of an open yields. -/
inductive Action (C M : Type*)
  | ledOpen (c : C) (map : Option M)
  | ledWrite (c : C) (val : UInt8)
  | ledRelease (c : C)

/-- The call itself. -/
def Bench.call (beyond : ℤ → BitVec 32) (s : Bench C M) :
    Action C M → MyLed M × ℤ × List (Access M)
  | .ledOpen _ map => ledOpen s.led beyond map
  | .ledWrite _ val => ledWrite s.led val
  | .ledRelease _ => ledRelease s.led

/-- The session of the client after a call with the result `ret`. -/
def Action.sessions (session : C → Session) (ret : ℤ) : Action C M → C → Session
  | .ledOpen c _ => Function.update session c (if ret = 0 then .opened else .over)
  | .ledWrite _ _ => session
  | .ledRelease c => Function.update session c .over

/-- The state after a call. -/
def Bench.step (beyond : ℤ → BitVec 32) (s : Bench C M) (a : Action C M) : Bench C M :=
  let (led, ret, accesses) := s.call beyond a
  ⟨led, a.sessions s.session ret, s.log ++ accesses⟩

/-- A client opens once, and writes and releases when its open has succeeded. A mapping that
`ioremap` yields is not live. -/
def Issued (s : Bench C M) : Action C M → Prop
  | .ledOpen c map => s.session c = .fresh ∧ ∀ m ∈ map, s.led.live m = none
  | .ledWrite c _ => s.session c = .opened
  | .ledRelease c => s.session c = .opened

/-- Nobody has the device open. -/
def Closed (s : Bench C M) : Prop := ∀ c, s.session c ≠ .opened

/-- The mappings obtained by the accesses. -/
def obtained (log : List (Access M)) : List M :=
  log.filterMap fun
    | .map _ m => some m
    | _ => none

/-- The mappings given back by the accesses. -/
def unmapped (log : List (Access M)) : List M :=
  log.filterMap fun
    | .unmap m => m
    | _ => none

/-- No mapping is left, and each one obtained has been unmapped as often as it was obtained. -/
def Settled (s : Bench C M) : Prop :=
  (∀ m, s.led.live m = none) ∧ ∀ m, (unmapped s.log).count m = (obtained s.log).count m

/-- **The contract of a call.** Each of its accesses reaches a register of a live mapping, or gives a
live mapping back, and the mappings are settled when nobody has the device open. -/
def Kept (beyond : ℤ → BitVec 32) (s : Bench C M) (a : Action C M) : Prop :=
  (∀ x ∈ (s.call beyond a).2.2, x.Sound) ∧
    (Closed (s.step beyond a) → Settled (s.step beyond a))

/-- Nobody has the device open at an open, whether it succeeds or not. -/
def Alone (s : Bench C M) : Action C M → Prop
  | .ledOpen _ _ => Closed s
  | _ => True

/-! ## The invariant -/

/-- The mappings obtained are those unmapped and the live one. -/
def Balanced (s : Bench C M) : Prop :=
  ∀ m, (obtained s.log).count m =
    (unmapped s.log).count m + if s.led.live m = none then 0 else 1

/-- The client `c` alone has the device open, and both globals point into the one live mapping
`m`. -/
structure Holds (s : Bench C M) (c : C) (m : M) : Prop where
  opened : s.session c = .opened
  alone : ∀ c', c' ≠ c → s.session c' ≠ .opened
  con : s.led.gpioCon = some ⟨m, 0⟩
  dat : s.led.gpioDat = some ⟨m, 1⟩
  live : ∀ m', s.led.live m' ≠ none ↔ m' = m

/-- The states of a run whose opens are alone. -/
def Consistent (s : Bench C M) : Prop :=
  Balanced s ∧ ((Closed s ∧ ∀ m, s.led.live m = none) ∨ ∃ c m, Holds s c m)

/-- Somebody has the device open, and a live mapping is out of reach of `gpio_con`. -/
def Doomed (s : Bench C M) : Prop :=
  ¬ Closed s ∧ ∃ m, s.led.live m ≠ none ∧ ∀ p ∈ s.led.gpioCon, p.map ≠ m

/-! ## What the calls do to the mappings -/

section Accesses

variable (log log' : List (Access M))

omit [DecidableEq M] in
@[simp] theorem obtained_append : obtained (log ++ log') = obtained log ++ obtained log' :=
  List.filterMap_append

omit [DecidableEq M] in
@[simp] theorem unmapped_append : unmapped (log ++ log') = unmapped log ++ unmapped log' :=
  List.filterMap_append

end Accesses

section Operations

variable (s : MyLed M) (beyond : ℤ → BitVec 32)

omit [DecidableEq M] in
/-- A write keeps the mappings and the pointers. -/
theorem ledWrite_mappings (val : UInt8) :
    (ledWrite s val).1.gpioCon = s.gpioCon ∧ (ledWrite s val).1.gpioDat = s.gpioDat ∧
      (ledWrite s val).1.live = s.live := by
  unfold ledWrite modify
  cases s.gpioDat.bind (phys s) <;> split_ifs <;> exact ⟨rfl, rfl, rfl⟩

/-- A release gives back the mapping of `gpio_con`, if it is live. -/
theorem ledRelease_some {q : IoPtr M} (hcon : s.gpioCon = some q) :
    ledRelease s =
      ({ s with live := Function.update s.live q.map none }, 0,
        [.unmap ((s.live q.map).map fun _ => q.map)]) := by
  simp only [ledRelease, hcon, iounmap]

/-- An open leaves the mappings that are live out of reach. -/
theorem ledOpen_out_of_reach {m : M} {map : Option M} (hm : s.live m ≠ none)
    (hfresh : ∀ m' ∈ map, s.live m' = none) :
    (ledOpen s beyond map).1.live m ≠ none ∧
      ∀ p ∈ (ledOpen s beyond map).1.gpioCon, p.map ≠ m := by
  cases map with
  | none =>
    -- An open that gets no mapping clears `gpio_con`.
    exact ⟨hm, nofun⟩
  | some m' =>
    have hne : m' ≠ m := by
      rintro rfl
      exact hm (hfresh m' rfl)
    rw [ledOpen_some]
    refine ⟨?_, ?_⟩
    · show Function.update s.live m' _ m ≠ none
      rw [Function.update_of_ne hne.symm]
      exact hm
    · rintro p ⟨⟩
      exact hne

end Operations

/-! ## Steps -/

section Steps

variable {beyond : ℤ → BitVec 32} {s : Bench C M}

omit [DecidableEq M] in
/-- A session that ends leaves the device closed if it was the only one. -/
theorem update_over_ne_opened {session : C → Session} {c : C}
    (h : ∀ c', c' ≠ c → session c' ≠ .opened) (c' : C) :
    Function.update session c .over c' ≠ .opened := by
  by_cases hc : c' = c
  · simp [hc]
  · rw [Function.update_of_ne hc]
    exact h c' hc

omit [DecidableEq C] in
theorem settled_of_consistent (hs : Consistent s) (hclosed : Closed s) : Settled s := by
  obtain ⟨hbalanced, ⟨-, hlive⟩ | ⟨c, m, hs⟩⟩ := hs
  · refine ⟨hlive, fun m => ?_⟩
    rw [hbalanced m, if_pos (hlive m), Nat.add_zero]
  · exact absurd hs.opened (hclosed c)

omit [DecidableEq C] in
/-- The client of an issued write or release is the one that holds the mapping. -/
theorem holds_of_opened (hs : Consistent s) {c : C} (hc : s.session c = .opened) :
    ∃ m, Holds s c m := by
  obtain ⟨-, ⟨hclosed, -⟩ | ⟨c', m, hs⟩⟩ := hs
  · exact absurd hc (hclosed c)
  · by_cases hcc : c = c'
    · subst hcc
      exact ⟨m, hs⟩
    · exact absurd hc (hs.alone c hcc)

/-- An open on its own makes sound accesses and keeps the state consistent. -/
theorem consistent_of_ledOpen (hs : Consistent s) (hclosed : Closed s) (c : C) (map : Option M) :
    (∀ x ∈ (s.call beyond (.ledOpen c map)).2.2, x.Sound) ∧
      Consistent (s.step beyond (.ledOpen c map)) := by
  obtain ⟨hbalanced, ⟨-, hnone⟩ | ⟨c', m', hs⟩⟩ := hs
  · cases map with
    | none =>
      -- The open fails, and the session is over before it has begun.
      have hcall : s.call beyond (.ledOpen c none) = _ := ledOpen_none s.led beyond
      refine ⟨by simp [hcall, Access.Sound], fun m => ?_, Or.inl ⟨?_, hnone⟩⟩
      · simpa [Bench.step, hcall, obtained, unmapped] using hbalanced m
      · exact update_over_ne_opened fun c' _ => hclosed c'
    | some m =>
      have hcall : s.call beyond (.ledOpen c (some m)) = _ := ledOpen_some s.led beyond m
      refine ⟨by simp [hcall, Access.Sound], fun m' => ?_, Or.inr ⟨c, m, ?_⟩⟩
      · have hold := hbalanced m'
        rw [if_pos (hnone m')] at hold
        by_cases hm : m' = m
        · subst hm
          simpa [Bench.step, hcall, obtained, unmapped] using hold
        · simpa [Bench.step, hcall, obtained, unmapped, hm, Ne.symm hm, hnone m'] using hold
      · constructor
        · simp [Bench.step, hcall, Action.sessions]
        · intro c' hc
          simpa [Bench.step, hcall, Action.sessions, hc] using hclosed c'
        · simp [Bench.step, hcall]
        · simp [Bench.step, hcall]
        · intro m'
          by_cases hm : m' = m <;> simp [Bench.step, hcall, hm, hnone]
  · exact absurd hs.opened (hclosed c')

/-- A write of the one open session touches a register of its mapping. -/
theorem consistent_of_ledWrite {c : C} {m : M} (hbalanced : Balanced s) (hs : Holds s c m)
    (val : UInt8) :
    (∀ x ∈ (s.call beyond (.ledWrite c val)).2.2, x.Sound) ∧
      Consistent (s.step beyond (.ledWrite c val)) := by
  obtain ⟨base, hlive⟩ := Option.ne_none_iff_exists'.mp ((hs.live m).mpr rfl)
  have hcall : s.call beyond (.ledWrite c val) = _ := ledWrite_of_live hs.dat hlive val
  refine ⟨by simp [hcall, Access.Sound], fun m' => ?_, Or.inr ⟨c, m, ?_⟩⟩
  · simpa [Bench.step, hcall, obtained, unmapped] using hbalanced m'
  · simp only [Bench.step, hcall]
    exact ⟨hs.opened, hs.alone, hs.con, hs.dat, hs.live⟩

/-- The release of the one open session gives its mapping back, and leaves nothing behind. -/
theorem consistent_of_ledRelease {c : C} {m : M} (hbalanced : Balanced s) (hs : Holds s c m) :
    (∀ x ∈ (s.call beyond (.ledRelease c)).2.2, x.Sound) ∧
      Consistent (s.step beyond (.ledRelease c)) := by
  have hcall : s.call beyond (.ledRelease c) = _ := ledRelease_some s.led hs.con
  obtain ⟨base, hlive⟩ := Option.ne_none_iff_exists'.mp ((hs.live m).mpr rfl)
  have hnone : ∀ m', Function.update s.led.live m none m' = none := by
    intro m'
    by_cases hm : m' = m
    · rw [hm, Function.update_self]
    · rw [Function.update_of_ne hm]
      exact not_not.mp fun h => hm ((hs.live m').mp h)
  refine ⟨by simp [hcall, Access.Sound, hlive], fun m' => ?_,
    Or.inl ⟨update_over_ne_opened hs.alone, fun m' => ?_⟩⟩
  · have hold := hbalanced m'
    by_cases hm : m' = m
    · subst hm
      simpa [Bench.step, hcall, obtained, unmapped, hlive] using hold
    · have hgone : s.led.live m' = none := not_not.mp fun h => hm ((hs.live m').mp h)
      simpa [Bench.step, hcall, obtained, unmapped, hlive, hgone, hm, Ne.symm hm] using hold
  · simpa [Bench.step, hcall] using hnone m'

/-- An open during another session puts the mapping of that session out of reach for good. -/
theorem doomed_of_ledOpen {c c' : C} {m : M} {map : Option M} (hopened : s.session c' = .opened)
    (hlive : s.led.live m ≠ none) (hissued : Issued s (.ledOpen c map)) :
    Doomed (s.step beyond (.ledOpen c map)) := by
  obtain ⟨hfresh, hmap⟩ := hissued
  have hne : c' ≠ c := by
    rintro rfl
    rw [hfresh] at hopened
    cases hopened
  refine ⟨fun hclosed => hclosed c' ?_, m, ledOpen_out_of_reach s.led beyond hlive hmap⟩
  show Function.update s.session c _ c' = .opened
  rw [Function.update_of_ne hne]
  exact hopened

/-- A mapping out of reach stays so as long as the contract is kept. -/
theorem doomed_stays {a : Action C M} (hs : Doomed s) (hissued : Issued s a)
    (hkept : Kept beyond s a) : Doomed (s.step beyond a) := by
  obtain ⟨hopen, m, hlive, hreach⟩ := hs
  cases a with
  | ledOpen c map =>
    obtain ⟨c', hc'⟩ := not_forall.mp hopen
    exact doomed_of_ledOpen (not_not.mp hc') hlive hissued
  | ledWrite c val =>
    obtain ⟨hcon, -, hmaps⟩ := ledWrite_mappings s.led val
    refine ⟨hopen, m, ?_, ?_⟩
    · show (ledWrite s.led val).1.live m ≠ none
      rw [hmaps]
      exact hlive
    · show ∀ p ∈ (ledWrite s.led val).1.gpioCon, p.map ≠ m
      rw [hcon]
      exact hreach
  | ledRelease c =>
    obtain ⟨hsound, hsettled⟩ := hkept
    cases hcon : s.led.gpioCon with
    | none =>
      -- The release gives `NULL` back.
      have hcall : s.call beyond (.ledRelease c) = (s.led, 0, [.unmap none]) := by
        simp [Bench.call, ledRelease, hcon, iounmap]
      rw [hcall] at hsound
      exact absurd rfl (hsound _ List.mem_cons_self)
    | some q =>
      -- The release unmaps another mapping, so somebody must still have the device open.
      have hcall : s.call beyond (.ledRelease c) = _ := ledRelease_some s.led hcon
      have hne : m ≠ q.map := (hreach q hcon).symm
      have hleft : (s.step beyond (.ledRelease c)).led.live m ≠ none := by
        simpa [Bench.step, hcall, hne] using hlive
      refine ⟨fun hclosed => hleft ((hsettled hclosed).1 m), m, hleft, ?_⟩
      simpa [Bench.step, hcall, hcon] using hne.symm

/-- **Opens on their own guard the contract of the mappings.** -/
theorem mapping_guarded (beyond : ℤ → BitVec 32) :
    Guarded (Bench.step beyond) Issued (Kept beyond) (Alone (C := C) (M := M)) Consistent
      Doomed := by
  have hcall : ∀ (s : Bench C M) a, Consistent s → Issued s a → Alone s a →
      (∀ x ∈ (s.call beyond a).2.2, x.Sound) ∧ Consistent (s.step beyond a) := by
    intro s a hs hissued halone
    cases a with
    | ledOpen c map => exact consistent_of_ledOpen hs halone c map
    | ledWrite c val =>
      obtain ⟨m, hm⟩ := holds_of_opened hs hissued
      exact consistent_of_ledWrite hs.1 hm val
    | ledRelease c =>
      obtain ⟨m, hm⟩ := holds_of_opened hs hissued
      exact consistent_of_ledRelease hs.1 hm
  constructor
  -- A closed device has no mapping left.
  · intro s a hs hissued halone
    obtain ⟨hsound, hnext⟩ := hcall s a hs hissued halone
    exact ⟨hsound, settled_of_consistent hnext⟩
  · exact fun s a hs hissued halone => (hcall s a hs hissued halone).2
  -- A second open puts the mapping of the first out of reach.
  · intro s a hs hissued _ hnot
    cases a with
    | ledOpen c map =>
      obtain ⟨-, ⟨hclosed, -⟩ | ⟨c', m, hm⟩⟩ := hs
      · exact absurd hclosed hnot
      · exact doomed_of_ledOpen hm.opened ((hm.live m).mpr rfl) hissued
    | ledWrite c val => exact absurd trivial hnot
    | ledRelease c => exact absurd trivial hnot
  · intro s a hs hissued hkept
    exact doomed_stays hs hissued hkept

end Steps

/-! ## Runs -/

/-- **Opens on their own are what keeps the contract.** Every run of issued calls whose opens
find the device closed keeps the contract of each call; and a run that ends with all sessions over
keeps it only if all its opens are such. -/
theorem kept_iff_alone (beyond : ℤ → BitVec 32) (ledPin : BitVec 32)
    (reg : BitVec 32 → BitVec 32) (as : List (Action C M))
    (hissued : Along (Bench.step beyond) Issued (Bench.load ledPin reg) as) :
    (Along (Bench.step beyond) Alone (Bench.load ledPin reg) as →
        Along (Bench.step beyond) (Kept beyond) (Bench.load ledPin reg) as) ∧
      (Closed (run (Bench.step beyond) (Bench.load ledPin reg) as) →
        Along (Bench.step beyond) (Kept beyond) (Bench.load ledPin reg) as →
          Along (Bench.step beyond) Alone (Bench.load ledPin reg) as) := by
  have hstart : Consistent (Bench.load ledPin reg : Bench C M) :=
    ⟨fun _ => rfl, Or.inl ⟨fun _ => nofun, fun _ => rfl⟩⟩
  refine ⟨(mapping_guarded beyond).along hstart hissued, fun hend hkept => ?_⟩
  apply (mapping_guarded beyond).guard_of_along hstart hissued hkept
  rintro ⟨hopen, -⟩
  exact hopen hend

/-- Two clients after each other, with an open in between that gets no mapping. -/
def inTurn : List (Action ℕ ℕ) :=
  [.ledOpen 0 (some 0), .ledWrite 0 1, .ledRelease 0, .ledOpen 1 none,
    .ledOpen 2 (some 1), .ledWrite 2 0, .ledRelease 2]

theorem kept_iff_alone_inTurn :
    (Along (Bench.step fun _ => 0) Alone (Bench.load 0x50005 fun _ => 0) inTurn →
        Along (Bench.step fun _ => 0) (Kept fun _ => 0) (Bench.load 0x50005 fun _ => 0)
          inTurn) ∧
      (Closed (run (Bench.step fun _ => 0) (Bench.load 0x50005 fun _ => 0) inTurn) →
        Along (Bench.step fun _ => 0) (Kept fun _ => 0) (Bench.load 0x50005 fun _ => 0)
          inTurn →
        Along (Bench.step fun _ => 0) Alone (Bench.load 0x50005 fun _ => 0) inTurn) :=
  kept_iff_alone (fun _ => 0) 0x50005 (fun _ => 0) inTurn
    ⟨⟨rfl, fun _ _ => rfl⟩, rfl, rfl, ⟨rfl, nofun⟩, ⟨rfl, by rintro m ⟨⟩; rfl⟩, rfl, rfl, trivial⟩

/-- Two clients with the device open at the same time. -/
def twoSessions : List (Action Bool ℕ) :=
  [.ledOpen false (some 0), .ledOpen true (some 1), .ledRelease false, .ledWrite true 1]

/-- The release of one of two clients pulls the mapping from under the write of the other. -/
theorem not_kept_twoSessions :
    Along (Bench.step fun _ => 0) Issued (Bench.load 0x50005 fun _ => 0) twoSessions ∧
      ¬ Along (Bench.step fun _ => 0) (Kept fun _ => 0) (Bench.load 0x50005 fun _ => 0)
        twoSessions := by
  refine ⟨⟨⟨rfl, fun _ _ => rfl⟩, ⟨rfl, ?_⟩, rfl, rfl, trivial⟩, ?_⟩
  · rintro m ⟨⟩
    rfl
  · rintro ⟨-, -, -, ⟨hsound, -⟩, -⟩
    exact hsound (.touch none) (by decide) rfl

end LinuxStack.Led
