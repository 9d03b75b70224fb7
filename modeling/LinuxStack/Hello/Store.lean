import LinuxStack.Hello.Driver
import LinuxStack.Transition.Run

/-!
# The hello driver as a byte store

A byte store accesses only its own buffers, returns what it transferred, and delivers what was
written last. The module never allocates a `struct cdd_cdev`, so the first clause fails at every
access; the driver returns what was not copied, so the second fails at every transfer. The third
holds, as far as nobody else uses the memory.

## Main definitions

* `watch`: the driver, with the bytes written last
* `IsStore`: the three clauses, for one call
* `Idle`: a call that transfers nothing and prints nothing

## Main results

* `consistent_watch`: every file reaches the same memory, which shows what was written last
* `inside_iff_idle`, `latest_of_consistent`: the clauses, one by one
* `isStore_iff_idle`: the calls of a run are those of a byte store iff all of them are idle
-/

namespace LinuxStack.Hello

open Memory Transition

variable {F : Type*} {l : Layout}

/-! ## Calls -/

/-- The contents that a write leaves, position by position. -/
def Event.written (known : ℕ → Option UInt8) : Event F → ℕ → Option UInt8
  | .myWrite _ buf fault => overwrite known (stored buf fault)
  | _ => known

/-- The call is a read or a write. -/
def Event.transfers : Event F → Bool
  | .myRead _ _ _ | .myWrite _ _ _ => true
  | _ => false

/-- The call is no read of an open file, and no write to one that writes anything. -/
def Idle (s : State F × (ℕ → Option UInt8)) : Event F → Prop
  | .myRead file _ _ => s.1.privateData file = none
  | .myWrite file buf _ => s.1.privateData file = none ∨ buf = []
  | _ => True

/-! ## The invariant -/

/-- The module has no `struct cdd_cdev`; every open file points to the registered `cdev`; and the
memory after that shows what was written last. -/
structure Consistent (l : Layout) (s : State F × (ℕ → Option UInt8)) : Prop where
  bare : ∀ o ∈ s.1.objects, o.2 = .cdev
  opened : ∀ file, ∀ p ∈ s.1.privateData file, s.1.iCdev = some p
  shows : ∀ p ∈ s.1.iCdev, Shows s.1.byte (p + l.kbuf) s.2

/-- Without a `struct cdd_cdev` no address is inside a buffer. -/
theorem not_inKbuf {s : State F × (ℕ → Option UInt8)} (hs : Consistent l s) (a : ℕ) :
    ¬ InKbuf l s.1 a := by
  rintro ⟨p, hp, -⟩
  cases hs.bare _ hp

/-- The driver after `my_init`, before anything is written. -/
def start (outcome : Except ℕ (ℕ × ℕ)) (byte : ℕ → UInt8) : State F × (ℕ → Option UInt8) :=
  ((myInit (State.fresh byte) outcome).1, fun _ => none)

theorem consistent_start (outcome : Except ℕ (ℕ × ℕ)) (byte : ℕ → UInt8) :
    Consistent l (start outcome byte : State F × _) := by
  unfold start
  cases outcome with
  | error e =>
    rw [myInit_error]
    constructor <;> simp [State.fresh]
  | ok device =>
    obtain ⟨major, p⟩ := device
    rw [myInit_ok]
    constructor
    · simp [State.fresh]
    · simp [State.fresh]
    · exact fun _ _ => shows_empty

variable [DecidableEq F]

/-! ## Accesses -/

/-- Every access of a read or a write falls inside a buffer of the module. -/
def Inside (l : Layout) (s : State F) (e : Event F) : Prop :=
  e.transfers = true → ∀ r ∈ (handle l s e).2, ∀ x ∈ r.accesses, ∀ a,
    x.Touches s.byte a → InKbuf l s a

/-- **A call stays inside iff it is idle**: any other accesses at least the first byte. -/
theorem inside_iff_idle {s : State F × (ℕ → Option UInt8)} (hs : Consistent l s) (e : Event F) :
    Inside l s.1 e ↔ Idle s e := by
  cases e with
  | myOpen file => simp [Inside, Event.transfers, Idle]
  | myRelease file => simp [Inside, Event.transfers, Idle]
  | myRead file count fault =>
    constructor
    · intro hinside
      -- Printing reads the first byte, whatever it is.
      by_contra hopen
      obtain ⟨cdevp, hcdevp⟩ := Option.ne_none_iff_exists'.mp hopen
      have hreply : (myRead l s.1 cdevp count fault).2 ∈
          (handle l s.1 (.myRead file count fault)).2 := mem_reach.mpr ⟨cdevp, hcdevp, rfl⟩
      apply not_inKbuf hs (cdevp + l.kbuf)
      exact hinside rfl _ hreply (.string _) (by simp [myRead]) _ (stringRead_self _ _)
    · rintro hclosed - r hr
      obtain ⟨cdevp, hcdevp, -⟩ := mem_reach.mp hr
      simp [show s.1.privateData file = none from hclosed] at hcdevp
  | myWrite file buf fault =>
    constructor
    · intro hinside
      rw [Idle, or_iff_not_imp_left]
      intro hopen
      obtain ⟨cdevp, hcdevp⟩ := Option.ne_none_iff_exists'.mp hopen
      by_contra hbuf
      have hreply : (myWrite l s.1 cdevp buf fault).2 ∈
          (handle l s.1 (.myWrite file buf fault)).2 := mem_reach.mpr ⟨cdevp, hcdevp, rfl⟩
      have hpos : 0 < (stored buf fault).length := by
        rw [stored_length]
        exact List.length_pos_of_ne_nil hbuf
      apply not_inKbuf hs (cdevp + l.kbuf)
      exact hinside rfl _ hreply (.bytes _ _) List.mem_cons_self _
        ⟨Nat.le_refl _, Nat.lt_add_of_pos_right hpos⟩
    · rintro hidle - r hr x hx a ha
      obtain ⟨cdevp, hcdevp, rfl⟩ := mem_reach.mp hr
      rcases hidle with hclosed | rfl
      · simp [hclosed] at hcdevp
      · -- Nothing is stored.
        obtain rfl := List.mem_singleton.mp hx
        obtain ⟨hlo, hhi⟩ := ha
        rw [stored_length, List.length_nil] at hhi
        omega

/-! ## The contract -/

/-- The driver, with the bytes that were written last through any of its files. -/
def watch (l : Layout) (s : State F × (ℕ → Option UInt8)) (e : Event F) :
    State F × (ℕ → Option UInt8) :=
  let (s', reply) := handle l s.1 e
  (s', reply.elim s.2 fun _ => e.written s.2)

/-- **A call of a byte store**: it accesses only buffers of the module; if it does not fault it
returns the number of bytes it transferred; and it delivers, position by position, the bytes
written last. -/
structure IsStore (l : Layout) (s : State F × (ℕ → Option UInt8)) (e : Event F) : Prop where
  inside : Inside l s.1 e
  counted : e.left = 0 → ∀ r ∈ (handle l s.1 e).2, r.ret = r.transferred
  latest : ∀ r ∈ (handle l s.1 e).2, ∀ i, i < r.delivered.length →
    ∀ b ∈ s.2 i, r.delivered[i]? = some b

/-! ## One call -/

/-- The reply to a call that does not transfer anything. -/
theorem counted_of_idle {s : State F × (ℕ → Option UInt8)} {e : Event F} (hidle : Idle s e) :
    ∀ r ∈ (handle l s.1 e).2, r.ret = r.transferred := by
  intro r hr
  cases e with
  | myOpen file | myRelease file =>
    obtain ⟨p, -, rfl⟩ := mem_reach.mp hr
    rfl
  | myRead file count fault =>
    obtain ⟨cdevp, hcdevp, -⟩ := mem_reach.mp hr
    have hclosed : s.1.privateData file = none := hidle
    rw [hclosed] at hcdevp
    cases hcdevp
  | myWrite file buf fault =>
    obtain ⟨cdevp, hcdevp, rfl⟩ := mem_reach.mp hr
    rcases hidle with hclosed | rfl
    · rw [hclosed] at hcdevp
      cases hcdevp
    · -- Nothing is to be copied, and nothing is left over.
      cases fault <;> simp [myWrite, uncopied]

/-- **Every read delivers what was written last**, in memory that nobody else uses. -/
theorem latest_of_consistent {s : State F × (ℕ → Option UInt8)} (hs : Consistent l s)
    (e : Event F) :
    ∀ r ∈ (handle l s.1 e).2, ∀ i, i < r.delivered.length →
      ∀ b ∈ s.2 i, r.delivered[i]? = some b := by
  intro r hr i hi b hb
  cases e with
  | myRead file count fault =>
    obtain ⟨cdevp, hfile, rfl⟩ := mem_reach.mp hr
    have hshows := hs.shows cdevp (hs.opened file cdevp hfile)
    -- A read that faults delivers a prefix of the buffer.
    simp only [myRead, copyToUser, load_length, List.length_take] at hi
    simp only [myRead, copyToUser, load_length, List.getElem?_take]
    rw [if_pos (by omega), hshows.load (by omega) hb]
  | _ =>
    -- The other calls deliver nothing.
    obtain ⟨p, -, rfl⟩ := mem_reach.mp hr
    exact absurd hi (Nat.not_lt_zero i)

/-- No call allocates an object, or registers the device anew. -/
theorem watch_frame (s : State F × (ℕ → Option UInt8)) (e : Event F) :
    (watch l s e).1.objects = s.1.objects ∧ (watch l s e).1.iCdev = s.1.iCdev := by
  cases e <;>
    simp only [watch, handle, reach] <;>
    split <;> exact ⟨rfl, rfl⟩

/-- Every open file points to the registered `cdev` after any call. -/
theorem watch_opened {s : State F × (ℕ → Option UInt8)} (hs : Consistent l s) (e : Event F)
    (file : F) : ∀ p ∈ (watch l s e).1.privateData file, s.1.iCdev = some p := by
  intro p hp
  cases e with
  | myOpen file' =>
    cases hcdev : s.1.iCdev with
    | none =>
      simp only [watch, handle, reach, hcdev] at hp
      rw [← hcdev]
      exact hs.opened file p hp
    | some iCdev =>
      simp only [watch, handle, reach, hcdev, myOpen, containerOf, Nat.sub_zero] at hp
      by_cases heq : file = file'
      · rwa [heq, Function.update_self] at hp
      · rw [Function.update_of_ne heq] at hp
        rw [← hcdev]
        exact hs.opened file p hp
  | myRelease file' =>
    cases hfile : s.1.privateData file' with
    | none =>
      simp only [watch, handle, reach, hfile] at hp
      exact hs.opened file p hp
    | some cdevp =>
      simp only [watch, handle, reach, hfile, myRelease] at hp
      by_cases heq : file = file'
      · rw [heq, Function.update_self] at hp
        cases hp
      · rw [Function.update_of_ne heq] at hp
        exact hs.opened file p hp
  | myRead file' count fault | myWrite file' buf fault =>
    simp only [watch, handle, reach] at hp
    split at hp <;> exact hs.opened file p hp

/-- A write shows in the memory after the registered `cdev`, and no other call changes it. -/
theorem watch_shows {s : State F × (ℕ → Option UInt8)} (hs : Consistent l s) (e : Event F)
    {p : ℕ} (hp : s.1.iCdev = some p) :
    Shows (watch l s e).1.byte (p + l.kbuf) (watch l s e).2 := by
  have hshows := hs.shows p hp
  cases e with
  | myWrite file buf fault =>
    cases hfile : s.1.privateData file with
    | none => simpa [watch, handle, reach, hfile] using hshows
    | some cdevp =>
      -- The file points to the registered cdev.
      have hcdev := hs.opened file cdevp hfile
      rw [hp] at hcdev
      cases hcdev
      simpa [watch, handle, reach, hfile, myWrite, Event.written] using hshows.store
  | _ =>
    simp only [watch, handle, reach]
    split <;> exact hshows

/-- **Every call keeps the files and the memory consistent.** -/
theorem consistent_watch {s : State F × (ℕ → Option UInt8)} (hs : Consistent l s) (e : Event F) :
    Consistent l (watch l s e) := by
  obtain ⟨hobjects, hcdev⟩ := watch_frame (l := l) s e
  constructor
  · rw [hobjects]
    exact hs.bare
  · rw [hcdev]
    exact watch_opened hs e
  · rw [hcdev]
    exact fun p hp => watch_shows hs e hp

/-- A call is one of a byte store iff it is idle. -/
theorem isStore_iff_of_consistent {s : State F × (ℕ → Option UInt8)} (hs : Consistent l s)
    (e : Event F) : IsStore l s e ↔ Idle s e := by
  constructor
  · intro hstore
    exact (inside_iff_idle hs e).mp hstore.inside
  · intro hidle
    exact ⟨(inside_iff_idle hs e).mpr hidle, fun _ => counted_of_idle hidle,
      latest_of_consistent hs e⟩

/-! ## Runs -/

/-- **The hello driver is a byte store only while it is idle.** After any `my_init` and over any
run of opens, reads, writes and releases of any files: every call is that of a byte store, iff no
open file is read and nothing is written to one. -/
theorem isStore_iff_idle (l : Layout) (outcome : Except ℕ (ℕ × ℕ)) (byte : ℕ → UInt8)
    (es : List (Event F)) :
    Along (watch l) (IsStore l) (start outcome byte) es ↔
      Along (watch l) Idle (start outcome byte) es := by
  apply along_congr (I := Consistent l) (fun s e hs => consistent_watch hs e)
  · exact fun s e hs => isStore_iff_of_consistent hs e
  · exact consistent_start outcome byte

/-- One byte written to a freshly opened file falls outside of any buffer. -/
theorem not_isStore_oneByte :
    ¬ Along (watch ⟨104, 8⟩) (IsStore ⟨104, 8⟩) (start (.ok (240, 4096)) fun _ => 0)
      [.myOpen (), .myWrite () [1] none] := by
  rintro ⟨-, hwrite, -⟩
  obtain ⟨p, hp, -⟩ := hwrite.inside rfl _ rfl (.bytes (4096 + 113) 1) (by decide) (4096 + 113)
    ⟨by decide, by decide⟩
  rcases List.mem_singleton.mp hp with h
  cases h

end LinuxStack.Hello
