import LinuxStack.Transition.Run
import Mathlib.Data.List.Infix

/-!
# Modules with one job

Eight of the examples defer one function once or a few times: to a tasklet, to a workqueue, to a
softirq or to a thread. `mod_int` and `mod_exit` are short programs of kernel calls, and the job is
started and finished on other processors in between. A module whose memory is given back while its
job is queued or runs has the kernel execute memory that is not its own.

## Main definitions

* `Call`, `Module.modInt`, `Module.modExit`: the programs of the eight modules
* `State`, `Module.step`: the job, and what is left of the programs
* `Stale`: the module is gone and its job is not

## Main results

* `never_stale_iff`: the job is gone with the module iff `mod_exit` waits for it or returns when
  there is nothing to wait for
* `drained`: a module that waits has run its job once for each time that the kernel took it
* `crashes_iff`: which modules can crash, with a job and without one
-/

namespace LinuxStack.Deferred.Job

open Transition

/-! ## Programs -/

/-- The calls on the job. -/
inductive Call where
  /-- `tasklet_schedule`, `schedule_work`, `queue_work`, `raise_softirq` and `wake_up_process`. -/
  | queue
  | msleep
  /-- The first half of `kthread_stop`. -/
  | stop
  /-- `tasklet_kill`, `destroy_workqueue` and the second half of `kthread_stop`. -/
  | wait
  deriving DecidableEq

inductive Module where
  | taskletSm
  | taskletDm
  | workqueueSm
  | workqueueDm
  | workqueueOwn
  | softIrq
  | kthread
  | kthreadRun
  deriving DecidableEq

/-- Whether `kmalloc` succeeds, and `create_workqueue` or `kthread_create`. -/
structure Outcome where
  kmalloc : Bool
  create : Bool

namespace Module

/-- There is a job. -/
def made : Module → Outcome → Bool
  | .taskletSm, _ | .workqueueSm, _ | .softIrq, _ => true
  | .taskletDm, f | .workqueueDm, f => f.kmalloc
  | .workqueueOwn, f => f.kmalloc && f.create
  | .kthread, f | .kthreadRun, f => f.create

/-- `mod_int`. Without memory it goes to `out`; the result of `create_workqueue` is not looked at,
and an `ERR_PTR` passes for a thread. `kthread_run` wakes what it has created. -/
def modInt : Module → Outcome → List Call
  | .taskletSm, _ | .workqueueSm, _ | .softIrq, _ | .kthread, _ => [.queue]
  | .taskletDm, f | .workqueueDm, f => if f.kmalloc then [.queue] else []
  | .workqueueOwn, f => if f.kmalloc then [.queue, .msleep, .queue] else []
  | .kthreadRun, f => if f.create then [.queue] else []

/-- `mod_exit`. -/
def modExit : Module → List Call
  | .taskletSm | .taskletDm => [.wait]
  | .workqueueSm | .workqueueDm | .softIrq => []
  | .workqueueOwn => [.queue, .wait]
  | .kthread | .kthreadRun => [.stop, .wait]

/-- The function of the job returns only when it is asked to. -/
def loops : Module → Bool
  | .kthread | .kthreadRun => true
  | _ => false

/-- The last that `mod_exit` does is to wait for the job. -/
def Waits (m : Module) : Prop := m.modExit.getLast? = some .wait

instance (m : Module) : Decidable m.Waits := inferInstanceAs (Decidable (_ = _))

end Module

/-! ## Steps -/

/-- A module with its job: what is left of `mod_int`, and of `mod_exit` once that is called; the
job; how often the kernel has taken it, run it to its end, and dropped it. -/
structure State where
  init : List Call
  exit : Option (List Call)
  made : Bool
  pending : Bool
  running : Bool
  shouldStop : Bool
  crashed : Bool
  accepted : ℕ
  executed : ℕ
  dropped : ℕ
  deriving DecidableEq

/-- The job is neither queued nor running. -/
def State.Idle (s : State) : Prop := s.pending = false ∧ s.running = false

instance (s : State) : Decidable s.Idle := inferInstanceAs (Decidable (_ ∧ _))

/-- The module is gone and its job is not. -/
def Stale (s : State) : Prop := s.exit = some [] ∧ ¬ s.Idle

/-- `mod_exit` has returned, and the code of the module is given back. -/
def State.gone (s : State) : Bool := decide (s.exit = some [])

/-- A call, unless it crashes on a job that there is not. Work that is queued is not queued
again. -/
def State.call (s : State) : Call → Option State
  | .msleep => some s
  | .queue =>
    if !s.made then none
    else if s.pending then some s
    else some { s with pending := true, accepted := s.accepted + 1 }
  | .stop => if !s.made then none else some { s with shouldStop := true }
  | .wait => if !s.made then none else some s

/-- The call returns or crashes. -/
def State.Ready (s : State) (c : Call) : Prop := c = .wait → s.made = true → s.Idle

instance (s : State) (c : Call) : Decidable (s.Ready c) := inferInstanceAs (Decidable (_ → _))

inductive Action where
  | modInt
  | modExit
  | start
  | finish
  deriving DecidableEq

namespace Module

variable (m : Module)

/-- A module at its load. -/
def load (f : Outcome) : State where
  init := m.modInt f
  exit := none
  made := m.made f
  pending := false
  running := false
  shouldStop := false
  crashed := false
  accepted := 0
  executed := 0
  dropped := 0

/-- One step. A program stops where it crashes or has to wait, and `mod_exit` is called after
`mod_int` has returned. A job that runs when the module is gone crashes. -/
def step (s : State) : Action → State
  | .modInt =>
    match s.init with
    | [] => s
    | c :: cs =>
      if s.crashed = false ∧ s.Ready c then
        match s.call c with
        | some s' => { s' with init := cs }
        | none => { s with crashed := true }
      else s
  | .modExit =>
    match s.exit with
    | none => if s.init = [] ∧ s.crashed = false then { s with exit := some m.modExit } else s
    | some [] => s
    | some (c :: cs) =>
      if s.crashed = false ∧ s.Ready c then
        match s.call c with
        | some s' => { s' with exit := some cs }
        | none => { s with crashed := true }
      else s
  | .start =>
    if s.pending = true ∧ s.running = false then
      -- A thread that is asked to stop before it runs does not call its function.
      if s.shouldStop then { s with pending := false, dropped := s.dropped + 1 }
      else { s with pending := false, running := true, crashed := s.crashed || s.gone }
    else s
  | .finish =>
    if s.running = true ∧ (m.loops = true → s.shouldStop = true) then
      { s with running := false, executed := s.executed + 1, crashed := s.crashed || s.gone }
    else s

end Module

/-! ## What a step does -/

/-- The calls that are left of the two programs. -/
def State.left (s : State) : List Call := s.init ++ s.exit.getD []

/-- What a step does if it does something. -/
inductive Effect (m : Module) (s : State) : State → Prop where
  | init {c : Call} {cs : List Call} {s' : State} (hinit : s.init = c :: cs) (ready : s.Ready c)
      (call : s.call c = some s') : Effect m s { s' with init := cs }
  | called (hexit : s.exit = none) (hinit : s.init = []) :
      Effect m s { s with exit := some m.modExit }
  | exit {c : Call} {cs : List Call} {s' : State} (hexit : s.exit = some (c :: cs))
      (ready : s.Ready c) (call : s.call c = some s') : Effect m s { s' with exit := some cs }
  | crash {c : Call} (hleft : c ∈ s.left) (call : s.call c = none) :
      Effect m s { s with crashed := true }
  | start (hpending : s.pending = true) (hrunning : s.running = false)
      (hstop : s.shouldStop = false) :
      Effect m s { s with pending := false, running := true, crashed := s.crashed || s.gone }
  | drop (hpending : s.pending = true) (hstop : s.shouldStop = true) :
      Effect m s { s with pending := false, dropped := s.dropped + 1 }
  | finish (hrunning : s.running = true) :
      Effect m s
        { s with running := false, executed := s.executed + 1, crashed := s.crashed || s.gone }

section Steps

variable {m : Module} {s s' : State} {c : Call} {f : Outcome}

theorem step_effect (m : Module) (s : State) (a : Action) :
    m.step s a = s ∨ Effect m s (m.step s a) := by
  cases a with
  | modInt =>
    simp only [Module.step]
    split
    · exact Or.inl rfl
    · rename_i c cs hinit
      split
      · rename_i hready
        split
        · rename_i s' hcall
          exact Or.inr (.init hinit hready.2 hcall)
        · rename_i hcall
          exact Or.inr (.crash (by simp [State.left, hinit]) hcall)
      · exact Or.inl rfl
  | modExit =>
    simp only [Module.step]
    split
    · rename_i hexit
      split
      · rename_i hdone
        exact Or.inr (.called hexit hdone.1)
      · exact Or.inl rfl
    · exact Or.inl rfl
    · rename_i c cs hexit
      split
      · rename_i hready
        split
        · rename_i s' hcall
          exact Or.inr (.exit hexit hready.2 hcall)
        · rename_i hcall
          exact Or.inr (.crash (by simp [State.left, hexit]) hcall)
      · exact Or.inl rfl
  | start =>
    simp only [Module.step]
    split
    · rename_i hpending
      split
      · rename_i hstop
        exact Or.inr (.drop hpending.1 hstop)
      · rename_i hstop
        exact Or.inr (.start hpending.1 hpending.2 (by simpa using hstop))
    · exact Or.inl rfl
  | finish =>
    simp only [Module.step]
    split
    · rename_i hrunning
      exact Or.inr (.finish hrunning.1)
    · exact Or.inl rfl

/-- What a call does that returns: it may put the job in the queue, or ask it to stop. -/
structure Called (s s' : State) (c : Call) : Prop where
  init : s'.init = s.init
  exit : s'.exit = s.exit
  made : s'.made = s.made
  running : s'.running = s.running
  crashed : s'.crashed = s.crashed
  executed : s'.executed = s.executed
  dropped : s'.dropped = s.dropped
  grows : s.shouldStop = true → s'.shouldStop = true
  stops : s'.shouldStop = true → s.shouldStop = true ∨ c = .stop
  accepts : s.accepted ≤ s'.accepted
  takes : s'.accepted + s.pending.toNat = s.accepted + s'.pending.toNat
  once : s'.accepted ≤ s.accepted + [c].count .queue
  queued : c = .queue → s'.pending = true
  absent : s.made = false → s'.accepted = s.accepted
  idle : c = .wait → s' = s

theorem call_called (h : s.call c = some s') : Called s s' c := by
  cases c with
  | msleep =>
    obtain rfl := Option.some.inj h
    constructor <;> simp
  | queue =>
    simp only [State.call] at h
    split at h
    · cases h
    · rename_i hmade
      have hmade' : s.made = true := by simpa using hmade
      split at h
      · rename_i hpending
        obtain rfl := Option.some.inj h
        constructor <;> simp [hpending]
      · rename_i hpending
        obtain rfl := Option.some.inj h
        constructor <;> simp [hpending, hmade']
  | stop =>
    simp only [State.call] at h
    split at h
    · cases h
    · obtain rfl := Option.some.inj h
      constructor <;> simp
  | wait =>
    simp only [State.call] at h
    split at h
    · cases h
    · obtain rfl := Option.some.inj h
      constructor <;> simp

theorem call_eq_none_iff : s.call c = none ↔ s.made = false ∧ c ≠ .msleep := by
  cases c <;> cases hm : s.made <;> cases hp : s.pending <;> simp [State.call, hm, hp]

end Steps

/-! ## Invariants -/

/-- The calls that ask for the job once more. -/
def queues (cs : List Call) : ℕ := cs.count .queue

/-- What holds of a module in every run. -/
structure Inv (m : Module) (f : Outcome) (s : State) : Prop where
  made : s.made = m.made f
  init : s.init <:+ m.modInt f
  exit : ∀ cs, s.exit = some cs → cs <:+ m.modExit ∧ s.init = []
  crashed : s.crashed = true →
    (s.made = true ∧ ¬ m.Waits) ∨ s.made = false ∧ ∃ c ∈ m.modInt f ++ m.modExit, c ≠ .msleep
  absent : s.made = false → s.accepted = 0
  stops : s.shouldStop = true → .stop ∈ m.modExit
  drops : 0 < s.dropped → s.shouldStop = true
  count : s.accepted = s.executed + s.dropped + s.running.toNat + s.pending.toNat
  budget : s.accepted + queues s.init + queues (s.exit.getD m.modExit) ≤
    queues (m.modInt f) + queues m.modExit
  first : s.made = true → s.init ≠ m.modInt f → 0 < s.accepted
  waited : m.Waits → s.exit = some [] → s.made = true ∧ s.Idle

section Runs

variable {m : Module} {f : Outcome} {s s' : State}

theorem inv_load (m : Module) (f : Outcome) : Inv m f (m.load f) where
  made := rfl
  init := List.suffix_refl _
  exit cs hcs := by cases hcs
  crashed hc := by cases hc
  absent _ := rfl
  stops hs := by cases hs
  drops hd := absurd hd (Nat.lt_irrefl 0)
  count := rfl
  budget := by simp [Module.load]
  first _ hne := absurd rfl hne
  waited _ he := by cases he

theorem mem_of_mem_left (h : Inv m f s) {c : Call} (hc : c ∈ s.left) :
    c ∈ m.modInt f ++ m.modExit := by
  rcases List.mem_append.mp hc with hc | hc
  · exact List.mem_append_left _ (h.init.subset hc)
  · cases he : s.exit with
    | none => simp [he] at hc
    | some cs =>
      rw [he, Option.getD_some] at hc
      exact List.mem_append_right _ ((h.exit cs he).1.subset hc)

theorem queues_cons (c : Call) (cs : List Call) :
    queues (c :: cs) = [c].count .queue + queues cs := by
  rw [queues, ← List.singleton_append, List.count_append]
  rfl

theorem stop_not_mem_modInt (m : Module) (f : Outcome) : Call.stop ∉ m.modInt f := by
  cases m <;> simp only [Module.modInt] <;> try split
  all_goals decide

theorem head_modInt {c : Call} {cs : List Call} (h : m.modInt f = c :: cs) : c = .queue := by
  cases m <;> simp only [Module.modInt] at h <;> try split at h
  all_goals simp_all

theorem inv_init (h : Inv m f s) {c : Call} {cs : List Call} (hinit : s.init = c :: cs)
    (hc : Called s s' c) : Inv m f { s' with init := cs } where
  made := hc.made.trans h.made
  init := (List.suffix_cons c cs).trans (hinit ▸ h.init)
  exit cs' he := by
    have hnil := (h.exit cs' (hc.exit ▸ he)).2
    simp [hinit] at hnil
  crashed hcr := hc.made.symm ▸ h.crashed (hc.crashed ▸ hcr)
  absent hmade := (hc.absent (hc.made ▸ hmade)).trans (h.absent (hc.made ▸ hmade))
  stops hs := by
    rcases hc.stops hs with hs | rfl
    · exact h.stops hs
    · exact absurd (h.init.subset (hinit ▸ List.mem_cons_self)) (stop_not_mem_modInt m f)
  drops hd := hc.grows (h.drops (hc.dropped ▸ hd))
  count := by
    have hcount := h.count
    have htakes := hc.takes
    simp only [hc.executed, hc.dropped, hc.running]
    omega
  budget := by
    have hbudget := h.budget
    have honce := hc.once
    rw [hinit, queues_cons] at hbudget
    simp only [hc.exit]
    omega
  first hmade _ := by
    have htakes := hc.takes
    have haccepts := hc.accepts
    have hcount := h.count
    by_cases hfirst : s.init = m.modInt f
    · -- Every program begins with the job.
      have hqueued := hc.queued (head_modInt (hfirst.symm.trans hinit))
      simp only [hqueued, Bool.toNat_true] at htakes ⊢
      omega
    · have hpos := h.first (hc.made ▸ hmade) hfirst
      show 0 < s'.accepted
      omega
  waited hw he := by
    have hnil := (h.exit [] (hc.exit ▸ he)).2
    simp [hinit] at hnil

theorem inv_called (h : Inv m f s) (hexit : s.exit = none) (hinit : s.init = []) :
    Inv m f { s with exit := some m.modExit } where
  made := h.made
  init := h.init
  exit cs hcs := by
    obtain rfl := Option.some.inj hcs
    exact ⟨List.suffix_refl _, hinit⟩
  crashed := h.crashed
  absent := h.absent
  stops := h.stops
  drops := h.drops
  count := h.count
  budget := by simpa [hexit] using h.budget
  first := h.first
  waited hw he := by
    have hnil : m.modExit = [] := Option.some.inj he
    simp [Module.Waits, hnil] at hw

theorem inv_exit (h : Inv m f s) {c : Call} {cs : List Call} (hexit : s.exit = some (c :: cs))
    (ready : s.Ready c) (call : s.call c = some s') : Inv m f { s' with exit := some cs } := by
  have hc := call_called call
  obtain ⟨hsuffix, hinit⟩ := h.exit _ hexit
  refine ⟨hc.made.trans h.made, hc.init.symm ▸ h.init, ?_, ?_, ?_, ?_, ?_, ?_, ?_, ?_, ?_⟩
  · intro cs' he
    obtain rfl := Option.some.inj he
    exact ⟨(List.suffix_cons c cs).trans hsuffix, hc.init.trans hinit⟩
  · exact fun hcr => hc.made.symm ▸ h.crashed (hc.crashed ▸ hcr)
  · exact fun hmade => (hc.absent (hc.made ▸ hmade)).trans (h.absent (hc.made ▸ hmade))
  · intro hs
    rcases hc.stops hs with hs | rfl
    · exact h.stops hs
    · exact hsuffix.subset List.mem_cons_self
  · exact fun hd => hc.grows (h.drops (hc.dropped ▸ hd))
  · have hcount := h.count
    have htakes := hc.takes
    simp only [hc.executed, hc.dropped, hc.running]
    omega
  · have hbudget := h.budget
    have honce := hc.once
    rw [hexit, Option.getD_some, queues_cons] at hbudget
    simp only [hc.init, Option.getD_some]
    omega
  · intro hmade hne
    exact Nat.lt_of_lt_of_le (h.first (hc.made ▸ hmade) (hc.init ▸ hne)) hc.accepts
  · intro hw he
    -- The last call of the program was a wait, which found the job gone.
    obtain rfl : cs = [] := Option.some.inj he
    obtain ⟨before, hbefore⟩ := hsuffix
    obtain rfl : c = .wait := by
      rw [Module.Waits, ← hbefore, List.getLast?_append] at hw
      simpa using hw
    have hmade : s.made = true := by
      by_contra hmade
      rw [call_eq_none_iff.mpr ⟨by simpa using hmade, by simp⟩] at call
      cases call
    obtain rfl := hc.idle rfl
    exact ⟨hmade, ready rfl hmade⟩

/-- A job that is queued or runs is there. -/
theorem made_of_busy (h : Inv m f s) (hbusy : ¬ s.Idle) : s.made = true := by
  by_contra hmade
  have hnone := h.absent (by simpa using hmade)
  have hcount := h.count
  rw [hnone] at hcount
  refine hbusy ⟨?_, ?_⟩
  · by_contra hpending
    simp only [eq_true_of_ne_false hpending, Bool.toNat_true] at hcount
    omega
  · by_contra hrunning
    simp only [eq_true_of_ne_false hrunning, Bool.toNat_true] at hcount
    omega

/-- A job that runs crashes only if its module is gone, which has not waited for it then. -/
theorem crashed_of_busy (h : Inv m f s) (hbusy : ¬ s.Idle)
    (hcrashed : (s.crashed || s.gone) = true) :
    (s.made = true ∧ ¬ m.Waits) ∨
      s.made = false ∧ ∃ c ∈ m.modInt f ++ m.modExit, c ≠ .msleep := by
  rcases Bool.or_eq_true_iff.mp hcrashed with hcrashed | hgone
  · exact h.crashed hcrashed
  · refine Or.inl ⟨made_of_busy h hbusy, fun hw => ?_⟩
    exact hbusy (h.waited hw (of_decide_eq_true hgone)).2

theorem inv_effect (h : Inv m f s) (he : Effect m s s') : Inv m f s' := by
  -- A step of the job shows that a waiting unload has not returned.
  have hidle : s.pending = true ∨ s.running = true → m.Waits → s.exit ≠ some [] := by
    rintro hbusy hw hexit
    obtain ⟨-, hpending, hrunning⟩ := h.waited hw hexit
    simp [hpending, hrunning] at hbusy
  have hcount := h.count
  cases he with
  | init hinit ready call => exact inv_init h hinit (call_called call)
  | called hexit hinit => exact inv_called h hexit hinit
  | exit hexit ready call => exact inv_exit h hexit ready call
  | crash hleft call =>
    obtain ⟨hmade, hc⟩ := call_eq_none_iff.mp call
    exact { h with crashed := fun _ => Or.inr ⟨hmade, _, mem_of_mem_left h hleft, hc⟩ }
  | start hpending hrunning hstop =>
    refine { h with
      crashed := crashed_of_busy h fun h => absurd h.1 (by simp [hpending])
      count := ?_
      waited := fun hw he => absurd he (hidle (Or.inl hpending) hw) }
    simp only [hpending, hrunning, Bool.toNat_true, Bool.toNat_false] at hcount ⊢
    omega
  | drop hpending hstop =>
    refine { h with
      drops := fun _ => hstop
      count := ?_
      waited := fun hw he => absurd he (hidle (Or.inl hpending) hw) }
    simp only [hpending, Bool.toNat_true, Bool.toNat_false] at hcount ⊢
    omega
  | finish hrunning =>
    refine { h with
      crashed := crashed_of_busy h fun h => absurd h.2 (by simp [hrunning])
      count := ?_
      waited := fun hw he => absurd he (hidle (Or.inr hrunning) hw) }
    simp only [hrunning, Bool.toNat_true, Bool.toNat_false] at hcount ⊢
    omega

theorem inv_step (h : Inv m f s) (a : Action) : Inv m f (m.step s a) := by
  rcases step_effect m s a with hsame | he
  · rw [hsame]
    exact h
  · exact inv_effect h he

/-- **The invariant holds after every run.** -/
theorem inv_run (m : Module) (f : Outcome) (as : List Action) :
    Inv m f (run m.step (m.load f) as) :=
  run_invariant (fun _ a hs => inv_step hs a) (inv_load m f)

/-! ## Unloads -/

/-- The step is the last one of `mod_exit`. -/
def Returns (m : Module) (s : State) (a : Action) : Prop :=
  s.exit ≠ some [] ∧ (m.step s a).exit = some []

/-- Nothing happens when the module is gone and its job, too. -/
theorem step_of_gone (h : Inv m f s) (hexit : s.exit = some []) (hidle : s.Idle) (a : Action) :
    m.step s a = s := by
  have hinit := (h.exit [] hexit).2
  obtain ⟨hpending, hrunning⟩ := hidle
  cases a <;> simp [Module.step, hexit, hinit, hpending, hrunning]

theorem modExit_of_not_waits (h : ¬ m.Waits) : m.modExit = [] := by
  cases m <;> first | rfl | exact absurd (by decide) h

/-- Where there is no wait, `mod_exit` returns at once, and the job stays what it is. -/
theorem idle_step_of_returns (h : Inv m f s) (hw : ¬ m.Waits) {a : Action}
    (hreturns : Returns m s a) : (m.step s a).Idle ↔ s.Idle := by
  obtain ⟨hbefore, hafter⟩ := hreturns
  rcases step_effect m s a with hsame | he
  · rw [hsame]
  · generalize m.step s a = s' at he hafter
    cases he with
    | init hinit ready call =>
      exact absurd ((call_called call).exit.symm.trans hafter) hbefore
    | called hexit hinit => exact Iff.rfl
    | exit hexit ready call =>
      have hsuffix := (h.exit _ hexit).1
      rw [modExit_of_not_waits hw] at hsuffix
      cases List.suffix_nil.mp hsuffix
    | crash hleft call => exact absurd hafter hbefore
    | start hpending hrunning hstop => exact absurd hafter hbefore
    | drop hpending hstop => exact absurd hafter hbefore
    | finish hrunning => exact absurd hafter hbefore

/-- **The job is gone with the module** iff `mod_exit` waits for it, or returns when there is
nothing to wait for. -/
theorem never_stale_iff (m : Module) (f : Outcome) (as : List Action) :
    (∀ bs, bs <+: as → ¬ Stale (run m.step (m.load f) bs)) ↔
      m.Waits ∨ Along m.step (fun s a => Returns m s a → s.Idle) (m.load f) as := by
  by_cases hw : m.Waits
  · refine iff_of_true ?_ (Or.inl hw)
    rintro bs - ⟨hgone, hbusy⟩
    exact hbusy ((inv_run m f bs).waited hw hgone).2
  · rw [or_iff_right hw]
    constructor
    · intro hnever
      refine along_iff_forall_prefix.mpr ?_
      rintro bs a cs rfl hreturns
      -- A job that is there when the unload returns is stale.
      have hnot := hnever (bs ++ [a]) ⟨cs, by simp⟩
      rw [run_append] at hnot
      refine (idle_step_of_returns (inv_run m f bs) hw hreturns).mp ?_
      by_contra hbusy
      exact hnot ⟨hreturns.2, hbusy⟩
    · rintro hidle bs ⟨cs, rfl⟩
      -- A module that is gone without a job stays so.
      have hgone := (along_append.mp hidle).1.invariant
        (I := fun s => Inv m f s ∧ (s.exit = some [] → s.Idle)) ?_
        ⟨inv_load m f, fun hexit => by cases hexit⟩
      · exact fun hstale => hstale.2 (hgone.2 hstale.1)
      · rintro s a ⟨hinv, hsettled⟩ hreturns
        refine ⟨inv_step hinv a, fun hexit => ?_⟩
        by_cases hbefore : s.exit = some []
        · rw [step_of_gone hinv hbefore (hsettled hbefore)]
          exact hsettled hbefore
        · exact (idle_step_of_returns hinv hw ⟨hbefore, hexit⟩).mpr (hreturns ⟨hbefore, hexit⟩)

/-- **A module that waits has run its job** once for each time that the kernel took it, which is at
least once and at most as often as it asked. Only threads can be dropped. -/
theorem drained {as : List Action} (hw : m.Waits)
    (hgone : (run m.step (m.load f) as).exit = some []) :
    (run m.step (m.load f) as).executed + (run m.step (m.load f) as).dropped =
        (run m.step (m.load f) as).accepted ∧
      1 ≤ (run m.step (m.load f) as).accepted ∧
      (run m.step (m.load f) as).accepted ≤ queues (m.modInt f) + queues m.modExit ∧
      (m.loops = false → (run m.step (m.load f) as).dropped = 0) := by
  have hinv := inv_run m f as
  generalize run m.step (m.load f) as = s at hinv hgone
  obtain ⟨hmade, hpending, hrunning⟩ := hinv.waited hw hgone
  have hcount := hinv.count
  have hbudget := hinv.budget
  rw [(hinv.exit [] hgone).2, hgone] at hbudget
  simp only [hpending, hrunning, Bool.toNat_false] at hcount
  -- The programs are used up, so all their requests were made.
  refine ⟨by omega, hinv.first hmade ?_, Nat.le_trans (by omega) hbudget, ?_⟩
  · rw [(hinv.exit [] hgone).2]
    rw [hinv.made] at hmade
    cases m <;> simp_all [Module.made, Module.modInt]
  · intro hloops
    by_contra hdropped
    have hstop := hinv.stops (hinv.drops (Nat.pos_of_ne_zero hdropped))
    cases m <;> simp_all [Module.loops, Module.modExit]

/-- A run in which the workqueue of its own takes the work twice: the first has started in time. -/
def twice : List Action :=
  [.modInt, .start, .finish, .modInt, .modInt, .modExit, .modExit, .start, .finish, .modExit]

theorem drained_twice :
    let s := run (Module.workqueueOwn.step) (Module.workqueueOwn.load ⟨true, true⟩) twice
    s.executed + s.dropped = s.accepted ∧ 1 ≤ s.accepted ∧ s.accepted ≤ 3 ∧ s.dropped = 0 := by
  have hwaits : Module.workqueueOwn.Waits := rfl
  have hgone : (run (Module.workqueueOwn.step) (Module.workqueueOwn.load ⟨true, true⟩)
      twice).exit = some [] := rfl
  obtain ⟨hall, hlow, hhigh, hdropped⟩ := drained hwaits hgone
  exact ⟨hall, hlow, hhigh, hdropped rfl⟩

/-- **Which modules can crash**: with a job, those that do not wait for it, by a job that runs when
they are gone; without one, all but the one that never touches its work again. -/
theorem crashes_iff (m : Module) (f : Outcome) :
    (∃ as, (run m.step (m.load f) as).crashed = true) ↔
      (m.made f = true ∧ ¬ m.Waits) ∨ (m.made f = false ∧ m ≠ .workqueueDm) := by
  constructor
  · rintro ⟨as, hcrashed⟩
    have hinv := inv_run m f as
    rcases hinv.crashed hcrashed with ⟨hmade, hw⟩ | ⟨hmade, c, hc, hne⟩
    · exact Or.inl ⟨hinv.made.symm.trans hmade, hw⟩
    · rw [hinv.made] at hmade
      refine Or.inr ⟨hmade, ?_⟩
      rintro rfl
      simp_all [Module.made, Module.modInt, Module.modExit]
  · obtain ⟨kmalloc, create⟩ := f
    rintro (⟨hmade, hw⟩ | ⟨hmade, hne⟩)
    · -- The job is queued at the load, and starts after the unload.
      cases m <;> cases kmalloc <;> first
        | exact absurd hmade Bool.false_ne_true
        | exact absurd (by decide) hw
        | exact ⟨[.modInt, .modExit, .start], rfl⟩
    · -- The job is first touched at the load, or else by the wait of the unload.
      cases m <;> cases kmalloc <;> cases create <;> first
        | exact absurd hmade (by decide)
        | exact absurd rfl hne
        | exact ⟨[.modInt], rfl⟩
        | exact ⟨[.modExit, .modExit], rfl⟩

end Runs

end LinuxStack.Deferred.Job
