import LinuxStack.Proc.Driver
import LinuxStack.Transition.Run

/-!
# Concurrent readers

The reads of all sessions take turns: an even read delivers the array, an odd read signals the end
of the file, whoever makes it. A session reads the array once iff its own turns start with an even
one and an odd one.

## Main definitions

* `Event`, `handle`: the calls of reader sessions, in any order
* `received`: the replies to the reads of a session
* `ReadsOnce`: the bytes before the first return value 0 are the array
* `turnsOf`: the turns of a session among all reads

## Main results

* `received_eq`: a session is answered by its turns
* `readsOnce_iff`: every session that reads until 0 reads the array once iff no session gets an
  odd turn other than right after its first, even one
-/

namespace LinuxStack.Proc

open Transition

variable {S : Type*}

/-! ## Sessions -/

/-- The calls of reader sessions. The buffer of a read has room for the array. -/
inductive Event (S : Type*) where
  | procOpen (session : S)
  | procRead (session : S) (length : ℕ) (room : 20 ≤ length)
  | procRelease (session : S)

/-- Who makes a call. -/
def Event.session : Event S → S
  | .procOpen s | .procRead s _ _ | .procRelease s => s

/-- The length that a read asks for. -/
def Event.length : Event S → ℕ
  | .procRead _ length _ => length
  | _ => 0

def Event.isRead : Event S → Bool
  | .procRead _ _ _ => true
  | _ => false

/-- One call: the globals after it, and the reply to a read. -/
def handle (g : Globals) : Event S → Globals × Option (S × Reply)
  -- `proc_open` and `proc_release` only log.
  | .procOpen _ | .procRelease _ => (g, none)
  | .procRead s length _ =>
    let (g', reply) := procRead g length none
    (g', some (s, reply))

/-- The replies to all reads of a run, with their sessions. -/
def replies (g : Globals) (es : List (Event S)) : List (S × Reply) :=
  (outputs (fun g e => (handle g e).1) (fun g e => (handle g e).2) g es).reduceOption

/-- **A session that reads until 0 receives the array exactly once**: the bytes before its first
return value 0, if there is one, are those of the array. -/
def ReadsOnce (etxArray : List UInt8) (rs : List Reply) : Prop :=
  ∀ before eof after, rs = before ++ eof :: after → (∀ r ∈ before, r.ret ≠ 0) → eof.ret = 0 →
    before.flatMap Reply.bytes = etxArray

/-! ## Answers by turns -/

/-- The reply to a read, by its turn. -/
def answer (etxArray : List UInt8) (t : Event S × Bool) : Reply :=
  replyTo etxArray t.1.length t.2

/-- **All reads together are answered by turns.** -/
theorem replies_eq (g : Globals) (es : List (Event S)) :
    replies g es =
      (turns Event.isRead g.up es).map fun t => (t.1.session, answer g.etxArray t) := by
  apply outputs_eq_map_turns (I := fun g' => g'.etxArray = g.etxArray)
  · intro g' e hg
    cases e <;> simp [handle, hg]
  · intro g' e hg hread
    cases e with
    | procRead s length room =>
      refine ⟨procRead_up length none, ?_⟩
      simp only [handle, procRead_reply, hg]
      rfl
    | _ => cases hread
  · intro g' e hg hread
    cases e with
    | procRead s length room => cases hread
    | _ => exact ⟨rfl, rfl⟩
  · rfl

/-! ## Reading once -/

variable {etxArray : List UInt8} {ts : List (Event S × Bool)}

/-- Reads that all find the flag up deliver the array once each. -/
theorem length_delivered (hup : ∀ t ∈ ts, t.2 = true) :
    ((ts.map (answer etxArray)).flatMap Reply.bytes).length = ts.length * etxArray.length := by
  induction ts with
  | nil => simp
  | cons t ts ih =>
    have hhead : (answer etxArray t).bytes = etxArray := by
      simp [answer, hup t List.mem_cons_self, replyTo]
    have htail := ih fun t' ht => hup t' (List.mem_cons_of_mem _ ht)
    simp only [List.map_cons, List.flatMap_cons, List.length_append, hhead, htail,
      List.length_cons, Nat.succ_mul]
    omega

/-- A reply signals the end of the file iff the read found the flag down. -/
theorem answer_ret_eq_zero {t : Event S × Bool} (hread : t.1.isRead = true) :
    (answer etxArray t).ret = 0 ↔ t.2 = false := by
  obtain ⟨e, up⟩ := t
  cases e with
  | procRead s length room =>
    cases up with
    | false => simp [answer, replyTo]
    | true =>
      have hne : length ≠ 0 := by omega
      simpa [answer, replyTo, Event.length] using hne
  | _ => cases hread

/-- Reads answered by turns read the array once iff an odd turn only comes right after the first,
even one. -/
theorem readsOnce_map_answer_iff (hread : ∀ t ∈ ts, t.1.isRead = true) (harray : etxArray ≠ []) :
    ReadsOnce etxArray (ts.map (answer etxArray)) ↔
      (false ∈ ts.map (·.2) → ∃ rest, ts.map (·.2) = true :: false :: rest) := by
  constructor
  · intro honce hdown
    -- Split the turns at the first odd one; the reads before it deliver the array once each.
    obtain ⟨ups, rest, hsplit, hfirst⟩ := List.eq_append_cons_of_mem hdown
    obtain ⟨before, tail, rfl, hbefore, htail⟩ := List.map_eq_append_iff.mp hsplit
    obtain ⟨eof, after, rfl, heof, hafter⟩ := List.map_eq_cons_iff.mp htail
    have hup : ∀ t ∈ before, t.2 = true := by
      intro t ht
      have hne : t.2 ≠ false := fun h => hfirst (hbefore ▸ h ▸ List.mem_map_of_mem ht)
      simpa using hne
    have hdelivered := honce (before.map (answer etxArray)) (answer etxArray eof)
      (after.map (answer etxArray)) (by simp) ?_ ?_
    · have hlength := congrArg List.length hdelivered
      rw [length_delivered hup] at hlength
      have hpos : 0 < etxArray.length := List.length_pos_of_ne_nil harray
      have hone : before.length = 1 := Nat.eq_of_mul_eq_mul_right hpos (by omega)
      obtain ⟨t, rfl⟩ := List.length_eq_one_iff.mp hone
      exact ⟨rest, by simp [hup t List.mem_cons_self, heof, hafter]⟩
    · intro r hr
      obtain ⟨t, ht, rfl⟩ := List.mem_map.mp hr
      intro hret
      have hdown := (answer_ret_eq_zero (hread t (List.mem_append_left _ ht))).mp hret
      rw [hup t ht] at hdown
      cases hdown
    · exact (answer_ret_eq_zero (hread eof (by simp))).mpr heof
  · intro hturns before eof after hsplit hbefore heof
    have hmem : eof ∈ ts.map (answer etxArray) := by simp [hsplit]
    obtain ⟨t, ht, rfl⟩ := List.mem_map.mp hmem
    have hdown : t.2 = false := (answer_ret_eq_zero (hread t ht)).mp heof
    obtain ⟨rest, hrest⟩ := hturns (hdown ▸ List.mem_map_of_mem ht)
    obtain ⟨t₀, tail, rfl, hup₀, htail⟩ := List.map_eq_cons_iff.mp hrest
    obtain ⟨t₁, tail', rfl, hdown₁, -⟩ := List.map_eq_cons_iff.mp htail
    -- The second reply is the first that is 0, so exactly the first one stands before.
    have hret₀ : (answer etxArray t₀).ret ≠ 0 := by
      rw [Ne, answer_ret_eq_zero (hread t₀ (by simp)), hup₀]
      decide
    have hret₁ : (answer etxArray t₁).ret = 0 :=
      (answer_ret_eq_zero (hread t₁ (by simp))).mpr hdown₁
    rcases before with _ | ⟨r₀, _ | ⟨r₁, before⟩⟩
    · obtain ⟨h, -⟩ := List.cons.inj hsplit
      exact absurd heof (h ▸ hret₀)
    · obtain ⟨h, -⟩ := List.cons.inj hsplit
      rw [← h]
      simp [answer, hup₀, replyTo]
    · obtain ⟨-, h⟩ := List.cons.inj hsplit
      obtain ⟨h, -⟩ := List.cons.inj h
      exact absurd hret₁ (h ▸ hbefore r₁ (by simp))

/-! ## Sessions among others -/

variable [DecidableEq S]

/-- The replies to the reads of the session `s`. -/
def received (g : Globals) (es : List (Event S)) (s : S) : List Reply :=
  ((replies g es).filter (·.1 = s)).map (·.2)

/-- The turns of the session `s` among all reads: up for an even read, down for an odd one, where
the first read is even iff the flag is up. -/
def turnsOf (up : Bool) (es : List (Event S)) (s : S) : List Bool :=
  ((turns Event.isRead up es).filter (·.1.session = s)).map (·.2)

/-- **A session is answered by its turns.** -/
theorem received_eq (g : Globals) (es : List (Event S)) (s : S) :
    received g es s =
      ((turns Event.isRead g.up es).filter (·.1.session = s)).map (answer g.etxArray) := by
  unfold received
  rw [replies_eq, List.filter_map, List.map_map]
  rfl

/-- **Who reads the array once.** From any globals and over any run of any number of sessions:
every session that reads until 0 receives the array exactly once, iff every session with an odd
turn makes it right after its first, even one. -/
theorem readsOnce_iff (g : Globals) (es : List (Event S)) :
    (∀ s, ReadsOnce g.etxArray (received g es s)) ↔
      ∀ s, false ∈ turnsOf g.up es s → ∃ rest, turnsOf g.up es s = true :: false :: rest := by
  have harray : g.etxArray ≠ [] := by
    intro h
    have hsize := g.size
    simp [h] at hsize
  apply forall_congr'
  intro s
  rw [received_eq]
  apply readsOnce_map_answer_iff _ harray
  intro t ht
  exact active_of_mem_turns (List.mem_of_mem_filter ht)

/-- Two sessions that read alternately at first. -/
def twoSessions : List (Event Bool) :=
  let read (s : Bool) : Event Bool := .procRead s 20 (Nat.le_refl 20)
  [.procOpen false, .procOpen true, read false, read true, .procRelease true,
    read false, read false, .procRelease false]

/-- One of the two receives the array twice and the other not at all. -/
theorem not_readsOnce_twoSessions :
    ¬ ∀ s, ReadsOnce Globals.load.etxArray (received Globals.load twoSessions s) := by
  intro h
  have hnone := h true [] ⟨0, []⟩ [] (by decide) (by simp) rfl
  revert hnone
  decide

end LinuxStack.Proc
