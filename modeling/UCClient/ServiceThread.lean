import Mathlib.Data.Finset.Card
import UCClient.Basic
import UCClient.Runs

/-!
# The Service Thread of the Controls

All controls of a process share one thread that serves their sockets. The first control
starts it and the last one waits for its end, by a counter and a `std::thread`, both global.
The counter is atomic; but what a control does because of the value it found there is done
in a later step, and other controls may take theirs between. Here every such step is an
action of its own, and so are the steps of the thread, which tests the counter and leaves
when it finds 0.

A control that starts finds 0 when no control is there. It also finds 0 while the last
control waits for the thread, and then everything goes wrong: it assigns a new thread to a
`std::thread` that is still joinable, which ends the process, or the old thread finds 1 in
the counter and the waiting control waits on. Nothing else can go wrong.

## Main results

* `service_thread_iff`: **exactly the overlap of a start with a join** breaks the service
  thread, for any number of controls and all interleavings.
* `service_thread_overlap`: one control starts while the last one is about to wait.
-/

namespace UCClient

/-- Where a control is: between finding 0 and assigning the thread; in use; between taking the
counter to 0 and the end of the join; destroyed. -/
inductive ControlPhase
  | assigning | up | joining | gone
  deriving DecidableEq, Repr

/-- Where a service thread is: in its loop; behind it; over. -/
inductive ThreadPhase
  | looping | leaving | over
  deriving DecidableEq, Repr

/-- The globals of `ATLWebSocket.cpp`, and where each control and each thread is, in the order
in which they were created. A `std::thread` is the place of the thread it stands for, if it is
joinable. -/
structure Service where
  g_WebSocketServerReferce : ℕ := 0
  g_WebSocketServerTh : Option ℕ := none
  control : List ControlPhase := []
  thread : List ThreadPhase := []
  terminated : Bool := false

/-- The atomic steps: two each of `InitWebSocket` and `UnInitWebSocket` of a control, and two
of `WebSocketThread`. The first step of a control makes it the last of the list. -/
inductive ServiceStep
  | fetch_add
  | assign (control : ℕ)
  | fetch_sub (control : ℕ)
  | join (control : ℕ)
  | test (thread : ℕ)
  | exit (thread : ℕ)
  deriving DecidableEq, Repr

namespace Service

/-- Who can take the step: `UnInitWebSocket` of a control comes after its `InitWebSocket`,
and a join returns when the thread is over. -/
def may (s : Service) : ServiceStep → Prop
  | .fetch_add => True
  | .assign i => s.control[i]? = some .assigning
  | .fetch_sub i => s.control[i]? = some .up
  | .join i => s.control[i]? = some .joining ∧
      ∀ t ∈ s.g_WebSocketServerTh, s.thread[t]? = some .over
  | .test t => s.thread[t]? = some .looping
  | .exit t => s.thread[t]? = some .leaving

instance (s : Service) : ∀ a, Decidable (s.may a)
  | .fetch_add => inferInstanceAs (Decidable True)
  | .assign _ | .fetch_sub _ | .test _ | .exit _ => inferInstanceAs (Decidable (_ = _))
  | .join _ => inferInstanceAs (Decidable (_ ∧ _))

/-- A step. The counter is an `atomic_ulong`, of 32 bits. -/
def step (s : Service) : ServiceStep → Service
  | .fetch_add =>
      { s with
        g_WebSocketServerReferce := (s.g_WebSocketServerReferce + 1) % 2 ^ 32
        control := s.control ++ [if s.g_WebSocketServerReferce ≠ 0 then .up else .assigning] }
  | .assign i =>
      -- the new thread runs before it is assigned; to assign to a joinable one terminates
      if s.g_WebSocketServerTh.isSome then
        { s with thread := s.thread ++ [.looping], terminated := true }
      else
        { s with
          g_WebSocketServerTh := some s.thread.length
          control := s.control.set i .up
          thread := s.thread ++ [.looping] }
  | .fetch_sub i =>
      { s with
        g_WebSocketServerReferce := (s.g_WebSocketServerReferce + (2 ^ 32 - 1)) % 2 ^ 32
        control := s.control.set i
          (if s.g_WebSocketServerReferce = 1 then .joining else .gone) }
  | .join i =>
      { s with
        g_WebSocketServerTh := none
        control := s.control.set i .gone }
  | .test t =>
      if s.g_WebSocketServerReferce > 0 then s
      else { s with thread := s.thread.set t .leaving }
  | .exit t => { s with thread := s.thread.set t .over }

/-- The controls of a process and their thread, in any order of steps. -/
def system : StepSystem Service ServiceStep Empty where
  init := {}
  allowed := fun s a => s.terminated = false ∧ s.may a
  step := fun s a => .ok (s.step a)

instance (s : Service) (a : ServiceStep) : Decidable (system.allowed s a) :=
  inferInstanceAs (Decidable (_ ∧ _))

/-- The counter does not overflow. -/
def Fits (s : Service) (a : ServiceStep) : Prop :=
  a = .fetch_add → s.g_WebSocketServerReferce + 1 < 2 ^ 32

instance (s : Service) (a : ServiceStep) : Decidable (s.Fits a) :=
  inferInstanceAs (Decidable (_ → _))

/-- No control takes the counter from 0 to 1 while a join is outstanding. -/
def NoOverlap (s : Service) (a : ServiceStep) : Prop :=
  a = .fetch_add → s.g_WebSocketServerReferce = 0 → .joining ∉ s.control

instance (s : Service) (a : ServiceStep) : Decidable (s.NoOverlap a) :=
  inferInstanceAs (Decidable (_ → _ → _))

/-- The thread has been started and is not over. -/
def Running (s : Service) (t : ℕ) : Prop :=
  s.thread[t]? = some .looping ∨ s.thread[t]? = some .leaving

/-- All is well: no thread was assigned over a joinable one, at most one service thread is
running, and as long as a control waits for it the thread finds the counter at 0. -/
structure Sound (s : Service) : Prop where
  assigned : s.terminated = false
  single : ∀ t u, s.Running t → s.Running u → t = u
  awaited : .joining ∈ s.control → s.g_WebSocketServerReferce = 0

/-! ### Counting controls -/

/-- A control goes from one phase to another: the count of each phase follows. -/
theorem count_set_add {l : List ControlPhase} {i : ℕ} {p : ControlPhase} (h : l[i]? = some p)
    (q r : ControlPhase) :
    (l.set i q).count r + (if p = r then 1 else 0) = l.count r + (if q = r then 1 else 0) := by
  obtain ⟨hlt, rfl⟩ := List.getElem?_eq_some_iff.mp h
  have hle : (if l[i] = r then 1 else 0) ≤ l.count r := by
    split
    · next heq =>
      rw [← heq]
      exact List.count_pos_iff.mpr (List.getElem_mem hlt)
    · exact Nat.zero_le _
  rw [List.count_set hlt]
  simp only [beq_iff_eq]
  omega

theorem count_append_add (l : List ControlPhase) (q r : ControlPhase) :
    (l ++ [q]).count r = l.count r + (if q = r then 1 else 0) := by
  rw [List.count_append, List.count_singleton]
  simp

/-- **What holds between the counter, the thread and the controls** as long as no start overlaps
with a join: the counter counts the controls, there is no thread to wait for when no control
is counted and none waits, one control at most is about to assign the thread, and those that
wait find the counter at 0. -/
structure Balanced (n : ℕ) (th : Option ℕ) (control : List ControlPhase) : Prop where
  count : control.count .assigning + control.count .up = n
  idle : n = 0 → control.count .joining = 0 → th = none
  assigning : 0 < control.count .assigning → th = none ∧ control.count .assigning = 1
  awaited : 0 < control.count .joining → n = 0

namespace Balanced

variable {n i : ℕ} {th : Option ℕ} {control : List ControlPhase}

/-- The first control finds 0, and nobody waits. -/
theorem add_first (h : Balanced 0 th control) (hj : control.count .joining = 0) :
    Balanced 1 th (control ++ [.assigning]) := by
  have hassigning := count_append_add control .assigning .assigning
  have hup := count_append_add control .assigning .up
  have hjoining := count_append_add control .assigning .joining
  simp only [reduceCtorEq, if_true, if_false] at hassigning hup hjoining
  have hcount := h.count
  have hth := h.idle rfl hj
  constructor
  · omega
  · omega
  · exact fun _ => ⟨hth, by omega⟩
  · omega

theorem add (h : Balanced n th control) (hn : n ≠ 0) :
    Balanced (n + 1) th (control ++ [.up]) := by
  have hassigning := count_append_add control .up .assigning
  have hup := count_append_add control .up .up
  have hjoining := count_append_add control .up .joining
  simp only [reduceCtorEq, if_true, if_false] at hassigning hup hjoining
  have hcount := h.count
  have hwait := h.awaited
  constructor
  · omega
  · omega
  · rw [hassigning]
    exact h.assigning
  · omega

/-- The control that found 0 finds no thread to assign over. -/
theorem th_eq_none (h : Balanced n th control) (hi : control[i]? = some .assigning) :
    th = none :=
  (h.assigning (List.count_pos_iff.mpr (List.mem_of_getElem? hi))).1

theorem assign (h : Balanced n th control) (hi : control[i]? = some .assigning) (t : ℕ) :
    Balanced n (some t) (control.set i .up) := by
  have hassigning := count_set_add hi .up .assigning
  have hup := count_set_add hi .up .up
  have hjoining := count_set_add hi .up .joining
  simp only [reduceCtorEq, if_true, if_false] at hassigning hup hjoining
  have hone := (h.assigning (by omega)).2
  have hcount := h.count
  have hwait := h.awaited
  constructor
  · omega
  · omega
  · omega
  · omega

/-- The last control takes the counter to 0 and is then the only one that waits. -/
theorem sub_last (h : Balanced 1 th control) (hi : control[i]? = some .up) :
    Balanced 0 th (control.set i .joining) := by
  have hassigning := count_set_add hi .joining .assigning
  have hup := count_set_add hi .joining .up
  have hjoining := count_set_add hi .joining .joining
  simp only [reduceCtorEq, if_true, if_false] at hassigning hup hjoining
  have hcount := h.count
  constructor
  · omega
  · omega
  · omega
  · omega

theorem sub (h : Balanced n th control) (hi : control[i]? = some .up) (hn : n ≠ 1) :
    Balanced (n - 1) th (control.set i .gone) := by
  have hassigning := count_set_add hi .gone .assigning
  have hup := count_set_add hi .gone .up
  have hjoining := count_set_add hi .gone .joining
  simp only [reduceCtorEq, if_true, if_false] at hassigning hup hjoining
  have hcount := h.count
  have hwait := h.awaited
  constructor
  · omega
  · omega
  · rw [show (control.set i .gone).count .assigning = control.count .assigning by omega]
    exact h.assigning
  · omega

theorem join (h : Balanced n th control) (hi : control[i]? = some .joining) :
    Balanced n none (control.set i .gone) := by
  have hassigning := count_set_add hi .gone .assigning
  have hup := count_set_add hi .gone .up
  have hjoining := count_set_add hi .gone .joining
  simp only [reduceCtorEq, if_true, if_false] at hassigning hup hjoining
  have hcount := h.count
  have hwait := h.awaited
  constructor
  · omega
  · exact fun _ _ => rfl
  · omega
  · omega

end Balanced

/-! ### The invariant -/

structure Inv (s : Service) : Prop where
  assigned : s.terminated = false
  fits : s.g_WebSocketServerReferce < 2 ^ 32
  balanced : Balanced s.g_WebSocketServerReferce s.g_WebSocketServerTh s.control
  running : ∀ t, s.Running t → s.g_WebSocketServerTh = some t

namespace Inv

variable {s : Service} {i t : ℕ}

theorem sound (h : Inv s) : Sound s where
  assigned := h.assigned
  single := fun t u ht hu => Option.some.inj ((h.running t ht).symm.trans (h.running u hu))
  awaited := fun hmem => h.balanced.awaited (List.count_pos_iff.mpr hmem)

theorem init : Inv {} where
  assigned := rfl
  fits := by decide
  balanced := ⟨rfl, fun _ _ => rfl, by simp, by simp⟩
  running := by simp [Running]

/-- A control starts: it is the first and will assign the thread, or it is not. -/
theorem fetch_add (h : Inv s) (hfit : s.g_WebSocketServerReferce + 1 < 2 ^ 32)
    (hover : s.NoOverlap .fetch_add) : Inv (s.step .fetch_add) := by
  rw [step, Nat.mod_eq_of_lt hfit]
  refine ⟨h.assigned, hfit, ?_, h.running⟩
  by_cases h0 : s.g_WebSocketServerReferce = 0
  · have hjoin : s.control.count .joining = 0 := List.count_eq_zero.mpr (hover rfl h0)
    have hbal := h.balanced
    rw [h0] at hbal
    simp only [h0, ne_eq, not_true_eq_false, if_false]
    exact hbal.add_first hjoin
  · simp only [ne_eq, h0, not_false_eq_true, if_true]
    exact h.balanced.add h0

/-- The first control assigns the thread; no other is running. -/
theorem assign (h : Inv s) (hi : s.control[i]? = some .assigning) : Inv (s.step (.assign i)) := by
  have hth := h.balanced.th_eq_none hi
  have hstep : s.step (.assign i) = { s with
      g_WebSocketServerTh := some s.thread.length
      control := s.control.set i .up
      thread := s.thread ++ [.looping] } := by
    simp [step, hth]
  rw [hstep]
  refine ⟨h.assigned, h.fits, h.balanced.assign hi _, fun t ht => ?_⟩
  rcases Nat.lt_trichotomy t s.thread.length with hlt | rfl | hgt
  · have hold : s.Running t := by
      simpa only [Running, List.getElem?_append_left hlt] using ht
    have hsome := h.running t hold
    rw [hth] at hsome
    cases hsome
  · rfl
  · have hnone : (s.thread ++ [ThreadPhase.looping])[t]? = none :=
      List.getElem?_eq_none (by simp; omega)
    simp [Running, hnone] at ht

/-- A control ends: it is the last and will wait for the thread, or it is not. -/
theorem fetch_sub (h : Inv s) (hi : s.control[i]? = some .up) : Inv (s.step (.fetch_sub i)) := by
  have hpos : 0 < s.g_WebSocketServerReferce := by
    have hup : 0 < s.control.count .up := List.count_pos_iff.mpr (List.mem_of_getElem? hi)
    have hcount := h.balanced.count
    omega
  have hfits := h.fits
  have hmod : (s.g_WebSocketServerReferce + (2 ^ 32 - 1)) % 2 ^ 32 =
      s.g_WebSocketServerReferce - 1 := by omega
  rw [step, hmod]
  refine ⟨h.assigned, Nat.lt_of_le_of_lt (Nat.sub_le _ 1) hfits, ?_, h.running⟩
  by_cases h1 : s.g_WebSocketServerReferce = 1
  · have hbal := h.balanced
    rw [h1] at hbal
    simp only [h1, if_true]
    exact hbal.sub_last hi
  · simp only [h1, if_false]
    exact h.balanced.sub hi h1

/-- The last control has waited for the thread: none is running. -/
theorem join (h : Inv s) (hi : s.control[i]? = some .joining)
    (hover : ∀ t ∈ s.g_WebSocketServerTh, s.thread[t]? = some .over) :
    Inv (s.step (.join i)) := by
  refine ⟨h.assigned, h.fits, h.balanced.join hi, fun t ht => ?_⟩
  have hphase := hover t (h.running t ht)
  rcases ht with ht | ht
  · rw [show s.thread[t]? = some .looping from ht] at hphase
    cases hphase
  · rw [show s.thread[t]? = some .leaving from ht] at hphase
    cases hphase

/-- A thread goes on; only one that was running does. -/
theorem thread_step (h : Inv s) (ht : s.Running t) (p : ThreadPhase) :
    Inv { s with thread := s.thread.set t p } := by
  refine ⟨h.assigned, h.fits, h.balanced, fun u hu => ?_⟩
  rcases eq_or_ne t u with rfl | hne
  · exact h.running t ht
  · refine h.running u ?_
    simpa only [Running, List.getElem?_set_ne hne] using hu

/-- **Every step keeps the invariant**, unless a start overlaps with a join. -/
theorem step (h : Inv s) {a : ServiceStep} (ha : s.may a) (hfit : s.Fits a)
    (hover : s.NoOverlap a) : Inv (s.step a) := by
  cases a with
  | fetch_add => exact h.fetch_add (hfit rfl) hover
  | assign i => exact h.assign ha
  | fetch_sub i => exact h.fetch_sub ha
  | join i => exact h.join ha.1 ha.2
  | test t =>
      rw [Service.step]
      split
      · exact h
      · exact h.thread_step (.inl ha) .leaving
  | exit t => exact h.thread_step (.inr ha) .over

end Inv

/-! ### Runs -/

/-- A start that overlaps with a join leaves a join waiting for a thread that finds 1. -/
theorem Sound.noOverlap {s : Service} {a : ServiceStep} (h : Sound (s.step a)) :
    s.NoOverlap a := by
  rintro rfl h0 hmem
  have hone : (s.step .fetch_add).g_WebSocketServerReferce = 1 := by simp [step, h0]
  have hzero := h.awaited (List.mem_append_left _ hmem)
  omega

/-- **Exactly the overlap of a start with a join breaks the service thread.** For any number
of controls, each destroyed after it was created, and for all interleavings of the steps, as
long as the counter does not overflow: a thread is only assigned over none, at most one is
running, and every join waits for a thread that finds the counter at 0, exactly when no
control takes the counter from 0 to 1 while a join is outstanding. -/
theorem service_thread_iff {as : List ServiceStep} {s : Service}
    (h : (system.restrict Fits).Run as s) :
    (system.restrict Fits).AllStates as Sound ↔
      (system.restrict Fits).AllSteps as NoOverlap := by
  constructor
  · refine fun hsound => hsound.allSteps ?_ h
    intro s a s' _ hst hs'
    cases hst
    exact hs'.noOverlap
  · intro hover bs t hp hrun
    refine Inv.sound ?_
    refine (StepSystem.allStates_iff_allSteps (P := Inv) Inv.init ?_ h).mpr hover bs t hp hrun
    intro s a s' _ hs hal hst
    cases hst
    exact ⟨fun hs' => hs'.sound.noOverlap, hs.step hal.1.2 hal.2⟩

/-- Two controls come and go at the same time; the thread ends before the next one starts. -/
theorem service_thread_twoControls :
    ∃ as s, (system.restrict Fits).Run as s ∧ (system.restrict Fits).AllStates as Sound ∧
      s.control = [.gone, .gone, .up] ∧ s.thread = [.over, .looping] := by
  obtain ⟨s, hrun, hs⟩ := StepSystem.run_of_check_map
    (S := (system.restrict Fits).restrict NoOverlap) (f := fun s => (s.control, s.thread))
    (b := ([.gone, .gone, .up], [.over, .looping]))
    [.fetch_add, .fetch_add, .assign 0, .test 0, .fetch_sub 0, .fetch_sub 1, .test 0, .exit 0,
      .join 1, .fetch_add, .assign 2] (by decide)
  obtain ⟨hrun, hsteps⟩ := hrun.of_restrict
  obtain ⟨hcontrol, hthread⟩ := Prod.mk.inj hs
  exact ⟨_, s, hrun, (service_thread_iff hrun).mpr hsteps, hcontrol, hthread⟩

/-- **A start overlaps with a join.** A control takes the counter to 0; before it waits for
the thread, or the thread tests the counter, another control starts. It finds 0, starts a
second thread while the first is running and assigns it over the first: the process ends. -/
theorem service_thread_overlap :
    ∃ s, (system.restrict Fits).Run
        [.fetch_add, .assign 0, .fetch_sub 0, .fetch_add, .assign 1] s ∧
      s.thread = [.looping, .looping] ∧ s.terminated = true := by
  obtain ⟨s, hrun, hs⟩ := StepSystem.run_of_check_map (S := system.restrict Fits)
    (f := fun s => (s.thread, s.terminated)) (b := ([.looping, .looping], true))
    [.fetch_add, .assign 0, .fetch_sub 0, .fetch_add, .assign 1] (by decide)
  obtain ⟨hthread, hterm⟩ := Prod.mk.inj hs
  exact ⟨s, hrun, hthread, hterm⟩

end Service

end UCClient
