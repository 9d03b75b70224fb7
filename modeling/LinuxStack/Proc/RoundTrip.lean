import LinuxStack.Proc.Driver
import LinuxStack.Transition.Run

/-!
# Writing and reading back

A read copies out all 20 bytes of the array and returns the length that was asked for. A shorter
text that was written before is therefore delivered with the rest of the array behind it, and the
count is right for one length only. How many of its reads deliver the array depends on the flag
that the session finds.

## Main definitions

* `Access`: the calls of writers, and of one reader at a time
* `Watched`, `watch`: the globals, the last text written, and the session of the reader
* `RoundTrips`: writes stay in the array, reads stay in the buffer, both count what they move, and
  a full session after a write delivers the text
* `Fits`: the same by the lengths of the call, the text and the array

## Main results

* `procRead_cases`: a read delivers the array or signals the end of the file
* `watch_tracks`: the array starts with the last text, and a session has received the array once
  for each of its reads that found the flag up
* `roundTrips_iff`: all calls of a run keep the round trip iff all of them fit
-/

namespace LinuxStack.Proc

open Transition

/-- The calls on the entry, none of which faults. The session of a reader lasts from an open to
its first read of at least one byte that returns 0. -/
inductive Access where
  | procOpen
  | procRead (length : ℕ)
  | procWrite (buffer : List UInt8)
  | procRelease

/-- A run, watched: the last text written, the text that the session of the reader is to deliver,
what it has received, and how many of its reads found the flag up. -/
structure Watched where
  globals : Globals
  written : Option (List UInt8)
  expected : Option (List UInt8)
  received : List UInt8
  ups : ℕ

/-- A module that has just been loaded, with no reader. -/
def Watched.load : Watched := ⟨Globals.load, none, none, [], 0⟩

/-- One call. `proc_open` and `proc_release` only log; a write into a session leaves no text that
it is to deliver. -/
def watch (s : Watched) : Access → Watched
  | .procOpen => { s with expected := s.written, received := [], ups := 0 }
  | .procRelease => { s with expected := none }
  | .procWrite buffer =>
    { s with globals := (procWrite s.globals buffer none).1
             written := some buffer
             expected := none }
  | .procRead length =>
    let after := procRead s.globals length none
    { s with globals := after.1
             expected := if after.2.ret = 0 ∧ 0 < length then none else s.expected
             received := s.received ++ after.2.bytes
             ups := if s.globals.up then s.ups + 1 else s.ups }

/-- **The round trip of one call.** A write stores in the array only, and returns how many bytes it
stored; a read delivers at most `length` bytes, and returns how many; the read that ends a session
leaves it with the text written before, if that has at most 20 bytes. -/
def RoundTrips (s : Watched) : Access → Prop
  | .procWrite buffer =>
    let after := procWrite s.globals buffer none
    after.2.1 = [] ∧ after.2.2 = (stored buffer none).length
  | .procRead length =>
    let reply := (procRead s.globals length none).2
    reply.bytes.length ≤ length ∧ reply.ret = reply.bytes.length ∧
      (reply.ret = 0 → 0 < length → ∀ text ∈ s.expected, text.length ≤ 20 →
        s.received ++ reply.bytes = text)
  | _ => True

/-- A write has at most 20 bytes; a read that finds the flag up asks for 20 bytes; the text of a
session that ends is as long as the arrays it has received. -/
def Fits (s : Watched) : Access → Prop
  | .procWrite buffer => buffer.length ≤ 20
  | .procRead length =>
    (s.globals.up = true → length = 20) ∧
      (s.globals.up = false → 0 < length → ∀ text ∈ s.expected, text.length ≤ 20 →
        text.length = 20 * s.ups)
  | _ => True

/-! ## One call -/

/-- A read delivers the array and returns `length`, or delivers nothing and returns 0. -/
theorem procRead_cases (g : Globals) (length : ℕ) :
    (g.up = true ∧ (procRead g length none).2 = ⟨length, g.etxArray⟩) ∨
      (g.up = false ∧ (procRead g length none).2 = ⟨0, []⟩) := by
  rw [procRead_reply]
  cases g.up with
  | true => exact .inl ⟨rfl, rfl⟩
  | false => exact .inr ⟨rfl, rfl⟩

/-- After a write of at most 20 bytes the array starts with them. -/
theorem procWrite_take (g : Globals) {buffer : List UInt8} (h : buffer.length ≤ 20) :
    (procWrite g buffer none).1.etxArray.take buffer.length = buffer := by
  show (buffer.take g.etxArray.length ++ g.etxArray.drop buffer.length).take buffer.length = buffer
  rw [g.size, List.take_of_length_le h, List.take_left]

/-- The array starts with the last text written, and a session that is to deliver a text was opened
after the last write and has received the array once for each read that found the flag up. -/
def Tracks (s : Watched) : Prop :=
  (∀ text ∈ s.written, text.length ≤ 20 → s.globals.etxArray.take text.length = text) ∧
    (s.expected = none ∨
      s.expected = s.written ∧ s.received = (List.replicate s.ups s.globals.etxArray).flatten)

/-- **The text and the session are tracked through any call.** -/
theorem watch_tracks {s : Watched} (hs : Tracks s) (a : Access) : Tracks (watch s a) := by
  obtain ⟨hwritten, hsession⟩ := hs
  cases a with
  | procOpen => exact ⟨hwritten, .inr ⟨rfl, rfl⟩⟩
  | procRelease => exact ⟨hwritten, .inl rfl⟩
  | procWrite buffer =>
    refine ⟨?_, .inl rfl⟩
    intro text htext
    obtain rfl : buffer = text := Option.some.inj htext
    exact procWrite_take s.globals
  | procRead length =>
    have harray : (watch s (.procRead length)).globals.etxArray = s.globals.etxArray :=
      procRead_etxArray length none
    refine ⟨fun text htext hlen => harray ▸ hwritten text htext hlen, ?_⟩
    rw [harray]
    rcases hsession with hnone | ⟨hexpected, hreceived⟩
    · left
      show (if _ then none else s.expected) = none
      rw [hnone, ite_self]
    · rcases procRead_cases s.globals length with ⟨hup, hreply⟩ | ⟨hdown, hreply⟩
      · -- The array is delivered once more, and the session goes on.
        right
        have hgoes : ¬ (length = 0 ∧ 0 < length) := by omega
        simp only [watch, hreply, hup, if_true, hreceived, List.replicate_succ', List.flatten_append,
          if_neg hgoes]
        exact ⟨hexpected, by simp⟩
      · -- Nothing is delivered, which ends the session if a byte was asked for.
        by_cases hends : 0 < length
        · left
          simp [watch, hreply, hends]
        · right
          simp [watch, hreply, hdown, hends, hexpected, hreceived]

/-- What a session has received is its text iff the lengths agree. -/
theorem received_eq_iff {s : Watched} (hs : Tracks s) {text : List UInt8} (htext : text ∈ s.expected)
    (hlen : text.length ≤ 20) : s.received = text ↔ text.length = 20 * s.ups := by
  obtain ⟨hwritten, hsession⟩ := hs
  rcases hsession with hnone | ⟨hexpected, hreceived⟩
  · rw [hnone] at htext
    cases htext
  have hstarts := hwritten text (hexpected ▸ htext) hlen
  have hsize := s.globals.size
  constructor
  · rintro rfl
    simp [hreceived, hsize, Nat.mul_comm]
  · intro hfits
    rw [hreceived]
    -- At most 20 bytes are one array or none.
    obtain hups | hups : s.ups = 0 ∨ s.ups = 1 := by omega
    · have hnil : text = [] := List.eq_nil_of_length_eq_zero (by omega)
      simp [hups, hnil]
    · have hfull : s.globals.etxArray.take text.length = s.globals.etxArray :=
        List.take_of_length_le (by omega)
      rw [hups, ← hstarts, hfull]
      simp

/-- **A call keeps the round trip iff it fits.** -/
theorem roundTrips_iff_fits {s : Watched} (hs : Tracks s) (a : Access) :
    RoundTrips s a ↔ Fits s a := by
  cases a with
  | procWrite buffer =>
    show _ ∧ _ ↔ _
    rw [procWrite_beyond_eq_nil]
    exact and_iff_left rfl
  | procRead length =>
    have hsize := s.globals.size
    unfold RoundTrips Fits
    rcases procRead_cases s.globals length with ⟨hup, hreply⟩ | ⟨hdown, hreply⟩
    · -- All 20 bytes are delivered and `length` is returned, so the two must agree.
      simp only [hreply, hup, hsize]
      constructor
      · rintro ⟨-, hret, -⟩
        exact ⟨fun _ => hret, fun h => absurd h (by decide)⟩
      · rintro ⟨hret, -⟩
        have hlength := hret trivial
        exact ⟨by omega, hlength, by omega⟩
    · -- Nothing is delivered, so only what the session has received is in question.
      simp only [hreply, hdown, List.append_nil]
      constructor
      · rintro ⟨-, -, hends⟩
        refine ⟨fun h => absurd h (by decide), fun _ hpos text htext hlen => ?_⟩
        exact (received_eq_iff hs htext hlen).mp (hends trivial hpos text htext hlen)
      · rintro ⟨-, hends⟩
        refine ⟨Nat.zero_le _, rfl, fun _ hpos text htext hlen => ?_⟩
        exact (received_eq_iff hs htext hlen).mpr (hends trivial hpos text htext hlen)
  | procOpen => exact Iff.rfl
  | procRelease => exact Iff.rfl

/-! ## Runs -/

/-- **The entry keeps the round trip iff every call fits.** In any sequence of calls from a fresh
load, with one reader at a time: the writes stay in the array and count their bytes, the reads stay
in the buffer and count theirs, and every session that ends after a write of at most 20 bytes has
delivered that text, iff every write has at most 20 bytes, every read that finds the flag up asks
for 20 bytes, and every such text has 20 bytes if one read of its session found the flag up, and
none if none did. -/
theorem roundTrips_iff (as : List Access) :
    Along watch RoundTrips Watched.load as ↔ Along watch Fits Watched.load as := by
  apply along_congr (I := Tracks) (fun s a hs => watch_tracks hs a)
  · exact fun s a hs => roundTrips_iff_fits hs a
  · exact ⟨nofun, .inl rfl⟩

/-- A session that reads after a write of two bytes receives 18 bytes that were there before. -/
theorem not_roundTrips_shortText :
    ¬ Along watch RoundTrips Watched.load
        [.procWrite ['o'.toUInt8, 'k'.toUInt8], .procOpen, .procRead 20, .procRead 20] := by
  rintro ⟨-, -, -, ⟨-, -, hends⟩, -⟩
  have hreceived := hends rfl (by decide) _ rfl (by decide)
  revert hreceived
  decide

end LinuxStack.Proc
