import LinuxStack.Gpio.Interrupt
import LinuxStack.Transition.Spacing

/-!
# The debounce over true time

`jiffies` is the true tick count modulo `2 ^ w`. The handler of GPIO 25 reads it twice: the first
value is compared with the one recorded at the last accepted edge, the second is recorded. The
wrapped difference never exceeds the true one, so accepted edges are at least 20 ticks apart; but
it falls below 20 also when the true one is just above a multiple of `2 ^ w`, and before the first
accepted edge it is taken from 0, which is no time of an edge.

## Main definitions

* `Edge`: an edge, with the true ticks of the two reads
* `InOrder load es`: the handler's runs follow each other, from the tick of the load on
* `Driver.onEdge`, `Driver.toggles`: the handler at an edge, and whether it reaches the toggle
* `Driver.acts`: the handler reaches the toggle, or changes the level of GPIO 21
* `Watch`: the true tick recorded at the last accepted edge, if there was one
* `KeepsGenuine`: the first edge, and an edge at least 20 ticks after the recorded one, toggles

## Main results

* `toggles_spaced`: the edges at which the handler acts are 20 ticks apart, and a window of `T` ticks
  holds at most `T / 20 + 1` of them
* `keepsGenuine_iff`: no genuine edge is lost iff none comes less than 20 ticks above a multiple
  of `2 ^ w` after the recorded tick, or above 0 for the first
-/

namespace LinuxStack.Gpio

open Registry Transition

variable {w : ℕ}

/-- A rising edge on GPIO 25, with the true ticks of the two reads of `jiffies` in its handler. -/
structure Edge where
  first : ℕ
  second : ℕ
  order : first ≤ second

/-- The runs of the handler follow each other, from the tick `load` on. -/
def InOrder (load : ℕ) (es : List Edge) : Prop :=
  Along (fun _ e => e.second) (fun clock e => clock ≤ e.first) load es

/-- `jiffies` at a true tick. -/
def jiffies (w tick : ℕ) : BitVec w := BitVec.ofNat w tick

/-- The globals after an edge. -/
def Driver.onEdge (d : Driver) (g : Globals w) (e : Edge) : Globals w :=
  d.handle g (.edge (jiffies w e.first) (jiffies w e.second))

/-- The handler of an edge reaches the toggle. -/
def Driver.toggles (d : Driver) (g : Globals w) (e : Edge) : Bool :=
  (d.onEdge g e).ledToggle != g.ledToggle

/-- The handler of an edge reaches the toggle, or changes the level of GPIO 21. -/
def Driver.acts (d : Driver) (g : Globals w) (e : Edge) : Bool :=
  d.toggles g e || (d.onEdge g e).level 21 != g.level 21

/-! ## One edge -/

theorem jiffies_sub_toNat {recorded tick : ℕ} (h : recorded ≤ tick) :
    (jiffies w tick - jiffies w recorded).toNat = (tick - recorded) % 2 ^ w := by
  obtain ⟨gap, rfl⟩ := Nat.exists_eq_add_of_le h
  have hadd : jiffies w (recorded + gap) = jiffies w gap + jiffies w recorded := by
    unfold jiffies
    rw [BitVec.ofNat_add, BitVec.add_comm]
  rw [hadd, BitVec.add_sub_cancel, Nat.add_sub_cancel_left]
  exact BitVec.toNat_ofNat gap w

theorem xor_one_ne (v : BitVec 32) : 1 ^^^ v ≠ v := by
  intro h
  have hzero : (1 ^^^ v) ^^^ v = v ^^^ v := by rw [h]
  rw [BitVec.xor_assoc, BitVec.xor_self, BitVec.xor_zero] at hzero
  exact absurd hzero (by decide)

/-- The handler reaches the toggle iff the debounce test lets it pass. -/
theorem toggles_eq_accepts (d : Driver) (g : Globals w) (e : Edge) :
    d.toggles g e = d.accepts g (.edge (jiffies w e.first) (jiffies w e.second)) := by
  unfold Driver.toggles Driver.onEdge
  rw [handle_edge]
  cases d.accepts g (.edge (jiffies w e.first) (jiffies w e.second)) with
  | false => simp
  | true =>
    -- The toggle flips a bit of the shadow, so the change gives it away.
    exact bne_iff_ne.mpr (xor_one_ne _)

/-- The handler changes the level only when it reaches the toggle. -/
theorem acts_eq_toggles (d : Driver) : (d.acts : Globals w → Edge → Bool) = d.toggles := by
  funext g e
  unfold Driver.acts
  cases htoggles : d.toggles g e with
  | true => rfl
  | false =>
    rw [toggles_eq_accepts] at htoggles
    unfold Driver.onEdge
    rw [handle_edge, htoggles]
    simp

theorem toggles_iff {d : Driver} {g : Globals w} {e : Edge} :
    d.toggles g e = true ↔
      d ≠ .gpioBase ∧ 20 ≤ (jiffies w e.first - g.oldJiffie).toNat := by
  rw [toggles_eq_accepts]
  simp [-BitVec.toNat_sub, Driver.accepts]

/-- An edge that toggles records the second read, any other edge records nothing. -/
theorem onEdge_oldJiffie (d : Driver) (g : Globals w) (e : Edge) :
    (d.onEdge g e).oldJiffie = if d.toggles g e then jiffies w e.second else g.oldJiffie := by
  rw [toggles_eq_accepts]
  unfold Driver.onEdge
  rw [handle_edge]
  split <;> rfl

/-! ## The toggle rate -/

/-- A run of the driver with the true tick of the last read. -/
def Driver.clocked (d : Driver) (s : Globals w × ℕ) (e : Edge) : Globals w × ℕ :=
  (d.onEdge s.1 e, e.second)

/-- The recorded value is that of a true tick between the edge `e` and now. -/
def RecordedSince (e : Edge) (s : Globals w × ℕ) : Prop :=
  ∃ tick, e.second ≤ tick ∧ tick ≤ s.2 ∧ s.1.oldJiffie = jiffies w tick

theorem recordedSince_self {d : Driver} {s : Globals w × ℕ} {e : Edge}
    (hacc : d.toggles s.1 e = true) : RecordedSince e (d.clocked s e) := by
  refine ⟨e.second, Nat.le_refl _, Nat.le_refl _, ?_⟩
  show (d.onEdge s.1 e).oldJiffie = _
  rw [onEdge_oldJiffie, if_pos hacc]

theorem RecordedSince.step {d : Driver} {s : Globals w × ℕ} {e e' : Edge}
    (h : RecordedSince e s) (hclock : s.2 ≤ e'.first) : RecordedSince e (d.clocked s e') := by
  obtain ⟨tick, hsince, hpast, hold⟩ := h
  have horder := e'.order
  by_cases hacc : d.toggles s.1 e' = true
  · -- A later second read is recorded instead.
    refine ⟨e'.second, by omega, Nat.le_refl _, ?_⟩
    show (d.onEdge s.1 e').oldJiffie = _
    rw [onEdge_oldJiffie, if_pos hacc]
  · refine ⟨tick, hsince, (by show tick ≤ e'.second; omega), ?_⟩
    show (d.onEdge s.1 e').oldJiffie = _
    rw [onEdge_oldJiffie, if_neg hacc, hold]

/-- **A wrapped difference never exceeds the true one**, so an accepted edge is far from the edges
accepted before it. -/
theorem RecordedSince.spaced {d : Driver} {s : Globals w × ℕ} {e e' : Edge}
    (h : RecordedSince e s) (hclock : s.2 ≤ e'.first) (hacc : d.toggles s.1 e' = true) :
    e.second + 20 ≤ e'.second := by
  obtain ⟨tick, hsince, hpast, hold⟩ := h
  obtain ⟨-, hdiff⟩ := toggles_iff.mp hacc
  have horder := e'.order
  rw [hold, jiffies_sub_toNat (by omega)] at hdiff
  have hmod : (e'.first - tick) % 2 ^ w ≤ e'.first - tick := Nat.mod_le _ _
  omega

/-- **The debounce limits the toggle rate.** In runs of the handler that follow each other, from
any globals and any tick at load, any two edges at which the handler reaches the toggle or changes
the level of GPIO 21 are at least 20 true ticks apart, and a window of `T` ticks holds at most
`T / 20 + 1` of them. -/
theorem toggles_spaced (d : Driver) (g : Globals w) (load : ℕ) (es : List Edge)
    (horder : InOrder load es) :
    (taken d.onEdge d.acts g es).Pairwise (fun e e' => e.second + 20 ≤ e'.second) ∧
      ∀ start T : ℕ,
        ((taken d.onEdge d.acts g es).filter fun e =>
          start ≤ e.second ∧ e.second ≤ start + T).length ≤ T / 20 + 1 := by
  rw [acts_eq_toggles]
  -- The state carries the tick of the last read, which the order of the runs bounds.
  have hclock : Along d.clocked (fun s e => s.2 ≤ e.first) (g, load) es :=
    (along_map (P := fun clock (e : Edge) => clock ≤ e.first) Prod.snd (fun _ _ => rfl)).mp horder
  have htaken : taken d.clocked (fun s e => d.toggles s.1 e) (g, load) es =
      taken d.onEdge d.toggles g es := taken_map Prod.fst fun _ _ => rfl
  have hspaced : (taken d.onEdge d.toggles g es).Pairwise
      fun e e' => e.second + 20 ≤ e'.second := by
    rw [← htaken]
    apply taken_pairwise (K := RecordedSince) _ _ _ hclock
    · exact fun s e _ hacc => recordedSince_self hacc
    · exact fun e s e' hle h => h.step hle
    · exact fun e s e' hle h hacc => h.spaced hle hacc
  exact ⟨hspaced, fun start T => length_filter_le_of_spaced (by omega) hspaced start T⟩

theorem toggles_spaced_twoEdges :
    (taken Driver.gpioIntr.onEdge Driver.gpioIntr.acts
        (⟨fun _ => false, 41, 0, 0⟩ : Globals 32)
        [⟨4294967290, 4294967291, by decide⟩, ⟨4294967311, 4294967311, by decide⟩]).Pairwise
        (fun e e' => e.second + 20 ≤ e'.second) ∧
      ∀ start T : ℕ,
        ((taken Driver.gpioIntr.onEdge Driver.gpioIntr.acts
          (⟨fun _ => false, 41, 0, 0⟩ : Globals 32)
          [⟨4294967290, 4294967291, by decide⟩, ⟨4294967311, 4294967311, by decide⟩]).filter
          fun e => start ≤ e.second ∧ e.second ≤ start + T).length ≤ T / 20 + 1 :=
  toggles_spaced .gpioIntr _ 4294967280 _ ⟨by decide, by decide, trivial⟩

/-! ## No genuine edge is lost -/

/-- What is recorded of the last accepted edge: nothing before the first edge, nothing although
there were edges, or the true tick of its second read. -/
inductive Watch
  | fresh
  | unaccepted
  | accepted (tick : ℕ)

/-- The true tick that `old_jiffie` stands for. -/
def Watch.recorded : Watch → ℕ
  | .accepted tick => tick
  | _ => 0

/-- The first edge after the load, and an edge at least 20 ticks after the recorded tick. -/
def Watch.Genuine (last : Watch) (e : Edge) : Prop :=
  match last with
  | .fresh => True
  | .unaccepted => False
  | .accepted tick => tick + 20 ≤ e.first

/-- The record after an edge. -/
def Watch.next (last : Watch) (e : Edge) (toggled : Bool) : Watch :=
  if toggled then .accepted e.second
  else match last with
    | .accepted tick => .accepted tick
    | _ => .unaccepted

/-- A run of the driver with the record of the last accepted edge. -/
def Driver.watchEdge (d : Driver) (s : Globals w × Watch) (e : Edge) : Globals w × Watch :=
  (d.onEdge s.1 e, s.2.next e (d.toggles s.1 e))

/-- **The handler loses no genuine edge.** -/
def KeepsGenuine (d : Driver) (s : Globals w × Watch) (e : Edge) : Prop :=
  s.2.Genuine e → d.toggles s.1 e = true

/-- A genuine edge does not come less than 20 ticks above a multiple of `2 ^ w` after the
recorded tick. -/
def AwayFromWrap (s : Globals w × Watch) (e : Edge) : Prop :=
  s.2.Genuine e → 20 ≤ (e.first - s.2.recorded) % 2 ^ w

/-- `old_jiffie` is the recorded tick. -/
def Records (s : Globals w × Watch) : Prop := s.1.oldJiffie = jiffies w s.2.recorded

theorem watchEdge_records (d : Driver) {s : Globals w × Watch} (hs : Records s) (e : Edge) :
    Records (d.watchEdge s e) := by
  unfold Records at hs ⊢
  show (d.onEdge s.1 e).oldJiffie = _
  rw [onEdge_oldJiffie, hs]
  obtain ⟨g, last⟩ := s
  unfold Driver.watchEdge Watch.next
  cases d.toggles g e with
  | true => rfl
  | false => cases last <;> rfl

/-- An edge is kept iff it is not one that the wrapped difference takes for a bounce. -/
theorem keepsGenuine_iff_awayFromWrap {d : Driver} (hd : d ≠ .gpioBase)
    {s : Globals w × Watch} (hs : Records s) (e : Edge) :
    KeepsGenuine d s e ↔ AwayFromWrap s e := by
  apply imp_congr_right
  intro hgenuine
  -- The recorded tick lies in the past, so the two differences agree modulo `2 ^ w`.
  have hpast : s.2.recorded ≤ e.first := by
    obtain ⟨g, last⟩ := s
    cases last with
    | accepted tick =>
      have hgap : tick + 20 ≤ e.first := hgenuine
      show tick ≤ e.first
      omega
    | _ => exact Nat.zero_le _
  rw [toggles_iff, hs, jiffies_sub_toNat hpast]
  exact and_iff_right hd

variable {ω : Type*} [DecidableEq ω]

/-- The globals after a load, with no edge so far. -/
def Driver.startWatch (w : ℕ) (d : Driver) (o : Outcomes) (k : Kernel ω) (etxCdev : ℕ)
    (level : ℕ → Bool) : Globals w × Watch :=
  (d.startGlobals o k etxCdev level, .fresh)

/-- A load that succeeds leaves `old_jiffie` zero. -/
theorem records_startWatch (d : Driver) (o : Outcomes) (k : Kernel ω) (p : ℕ) (level : ℕ → Bool)
    (hret : (d.etxDriverInit o (Etx.load k.foreign p level : Etx w ω)).2 = 0) :
    Records (d.startWatch w o k p level) := by
  obtain ⟨irq, hstart⟩ := startGlobals_eq d o k p level hret
  show (d.startGlobals o k p level).oldJiffie = 0
  rw [hstart]
  cases o.gpioDirectionOutput <;> rfl

/-- **The debounce loses no genuine edge iff none is near a wrap.** After a load that succeeds,
the first edge toggles, and so does every later one that comes at least 20 ticks after the tick
recorded at the last accepted edge, iff the first edge does not come less than 20 ticks above a
multiple of `2 ^ w` and no other of these comes less than 20 ticks above a multiple of `2 ^ w`
after the recorded tick. -/
theorem keepsGenuine_iff (d : Driver) (o : Outcomes) (k : Kernel ω) (p : ℕ) (level : ℕ → Bool)
    (es : List Edge) (hd : d ≠ .gpioBase)
    (hret : (d.etxDriverInit o (Etx.load k.foreign p level : Etx w ω)).2 = 0) :
    Along d.watchEdge (KeepsGenuine d) (d.startWatch w o k p level) es ↔
      Along d.watchEdge AwayFromWrap (d.startWatch w o k p level) es := by
  have hstart := records_startWatch d o k p level hret
  apply along_congr (I := Records) (fun s e hs => watchEdge_records d hs e) _ hstart
  exact fun s e hs => keepsGenuine_iff_awayFromWrap hd hs e

theorem keepsGenuine_iff_twoEdges :
    Along Driver.gpioIntr.watchEdge (KeepsGenuine .gpioIntr)
        (Driver.gpioIntr.startWatch 32 quietOutcomes (Kernel.empty : Kernel ℕ) 0 fun _ => false)
        [⟨100, 101, by decide⟩, ⟨4294967500, 4294967500, by decide⟩] ↔
      Along Driver.gpioIntr.watchEdge AwayFromWrap
        (Driver.gpioIntr.startWatch 32 quietOutcomes (Kernel.empty : Kernel ℕ) 0 fun _ => false)
        [⟨100, 101, by decide⟩, ⟨4294967500, 4294967500, by decide⟩] :=
  keepsGenuine_iff .gpioIntr quietOutcomes Kernel.empty 0 (fun _ => false) _ (by decide) rfl

/-- The first edge after the load is lost when it comes just after `jiffies` has wrapped. -/
theorem not_keepsGenuine_firstEdge :
    ¬ Along Driver.gpioIntr.watchEdge (KeepsGenuine .gpioIntr)
        (Driver.gpioIntr.startWatch 32 quietOutcomes (Kernel.empty : Kernel ℕ) 0 fun _ => false)
        [⟨4294967299, 4294967299, by decide⟩] := by
  rintro ⟨hkeeps, -⟩
  have htoggles := hkeeps trivial
  revert htoggles
  decide

end LinuxStack.Gpio
