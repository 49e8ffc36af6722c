import UCClient.Basic
import UCClient.Histories
import UCClient.Runs

/-!
# Instances of the Program

The program should run once for each user. Its first process makes a named event; a process that
finds the event sets it and ends, and the first one, told by the event, shows its window. Two
threads of the first process go on beside its main thread: `listenWS` serves the sockets as long
as `m_bWSRunning` is set, and `signton` waits for the event. At the end the main thread clears
`m_bWSRunning`, waits for `listenWS`, sets the event itself, closes its handle and waits for
`signton`.

The name of the event is one of the session of the user, so each session has an event of its own.
It exists as long as some process of the session has a handle of it, setting it releases a thread
that waits for it, or else is remembered, and a thread that is released takes the signal with it.
Processes can be killed at any point, and then the system closes their handles. A closed handle is
taken to be invalid, so that a wait for it fails.

The program does not look at the outcomes of two calls, and these are chosen by the environment:
`CreateEvent` may fail, and the process then goes on as a first one, without an event; and the
icon of a window may not be added to the tray. The tray may also lose an icon, when the shell is
restarted.

Each call of the system is an action of its own here, and so are the tests of `m_bWSRunning` by
the two threads; any number of processes take theirs in any order.

## Main results

* `one_instance`: at most one process of a session serves sockets, if the event can be made.
* `second_start_shows`: a process that is started a second time shows the window of the first.
* `shutdown_ends`: the main thread does not wait for `signton` forever.
* `hidden_window_has_icon`: a hidden window can be shown by its icon, if the tray has it.
-/

namespace UCClient

/-! ### Processes -/

/-- Where the main thread of a process is. -/
inductive MainThread
  /-- Before `CreateEvent`. -/
  | start
  /-- The event was there, and is going to be set. -/
  | found
  /-- The event is set, and its handle is going to be closed. -/
  | told
  /-- The event is new, and the window is being made. -/
  | created
  /-- In the message loop. -/
  | serving
  /-- In `WSStop`, waiting for `m_wsserver`. -/
  | stopping
  /-- Behind the message loop, about to set the event. -/
  | stopped
  /-- About to close the handle. -/
  | signalled
  /-- Waiting for `m_sington`. -/
  | joining
  | gone
  deriving DecidableEq, Repr

namespace MainThread

/-- The thread has a handle of the event, if it got one. -/
def holds : MainThread → Bool
  | found | told | created | serving | stopping | stopped | signalled => true
  | start | joining | gone => false

/-- The thread went on as that of a first process, and has not closed its handle. -/
def owns : MainThread → Bool
  | created | serving | stopping | stopped | signalled => true
  | start | found | told | joining | gone => false

/-- The thread has started the others. -/
def started : MainThread → Bool
  | serving | stopping | stopped | signalled | joining => true
  | start | found | told | created | gone => false

theorem holds_of_owns {main : MainThread} (h : main.owns = true) : main.holds = true := by
  revert h
  cases main <;> decide

theorem owns_of_started {main : MainThread} (h : main.holds = true) (h' : main.started = true) :
    main.owns = true := by
  revert h h'
  cases main <;> decide

end MainThread

/-- Where `listenWS` is. -/
inductive ListenThread
  | none
  | looping
  | ended
  deriving DecidableEq, Repr

/-- Where `signton` is. -/
inductive SigntonThread
  | none
  /-- About to call `WaitForSingleObject`. -/
  | calling
  | waiting
  /-- Released, and about to test `m_bWSRunning`. -/
  | woken
  | showing
  | ended
  deriving DecidableEq, Repr

/-- The thread has been started and is not over. -/
def SigntonThread.alive : SigntonThread → Bool
  | calling | waiting | woken | showing => true
  | none | ended => false

/-- A process: its threads, what they share, and its window. -/
structure Process where
  main : MainThread := .start
  session : ℕ := 0
  /-- `m_SingletonEvent` is not NULL. -/
  m_SingletonEvent : Bool := false
  m_wsserver : ListenThread := .none
  m_sington : SigntonThread := .none
  m_bWSRunning : Bool := false
  visible : Bool := false
  /-- The icon of the window in the tray. -/
  icon : Bool := false
  /-- `WM_CLOSE` is posted. -/
  closing : Bool := false
  deriving DecidableEq, Repr

/-- The process made the event of its session, and has a handle of it. -/
def Process.owns (x : Process) : Bool := x.main.owns && x.m_SingletonEvent

/-- The processes, and the events of their sessions. -/
structure Machine where
  process : ℕ → Process := fun _ => {}
  /-- The processes with a handle; the event of a session exists as long as one of it has. -/
  handles : List ℕ := []
  signalled : ℕ → Bool := fun _ => false

/-- The actions: calls of the system by a main thread, what the user does, and the steps of the
two other threads. -/
inductive InstanceStep
  /-- A process is started in a session, and gets a handle of the event or fails to. -/
  | CreateEvent (p session : ℕ) (got : Bool)
  | SetEvent (p : ℕ)
  | CloseHandle (p : ℕ)
  /-- The window is there: `OnPrepare`. -/
  | Start (p : ℕ)
  /-- A click on `closebtn` or `minbtn`, and whether the tray takes the icon. -/
  | Notify (p : ℕ) (added : Bool)
  /-- A left click on the icon. -/
  | OnMouseLButtonDown (p : ℕ)
  /-- A right click on the icon, and whether the entry of the menu is chosen. -/
  | OnMouseRButtonDown (p : ℕ) (chosen : Bool)
  | OnClose (p : ℕ)
  /-- `listenWS` tests `m_bWSRunning`. -/
  | listenWS (p : ℕ)
  /-- The wait of `WSStop` is over. -/
  | WSStop (p : ℕ)
  | WaitForSingleObject (p : ℕ)
  /-- `signton` tests `m_bWSRunning`. -/
  | signton (p : ℕ)
  | ShowWindow (p : ℕ)
  | join (p : ℕ)
  /-- The tray loses the icon. -/
  | iconLost (p : ℕ)
  | kill (p : ℕ)
  deriving DecidableEq, Repr

namespace Machine

/-- A process changes. -/
def set (m : Machine) (p : ℕ) (f : Process → Process) : Machine :=
  { m with process := Function.update m.process p (f (m.process p)) }

/-- The processes with a handle of the event of a session. -/
def holders (m : Machine) (session : ℕ) : List ℕ :=
  m.handles.filter fun q => (m.process q).session = session

/-- The event of a session is set: a thread that waits is released, or else the signal stays. -/
def setEvent (m : Machine) (session : ℕ) : Machine :=
  match (m.holders session).find? fun q => (m.process q).m_sington = .waiting with
  | some q => m.set q fun x => { x with m_sington := .woken }
  | none => { m with signalled := Function.update m.signalled session true }

/-- `SetEvent` by a process; it fails for NULL. -/
def SetEvent (m : Machine) (p : ℕ) : Machine :=
  if (m.process p).m_SingletonEvent then m.setEvent (m.process p).session else m

/-- A handle is closed. -/
def close (m : Machine) (p : ℕ) : Machine := { m with handles := m.handles.filter (· ≠ p) }

/-- Who can take the step. A join returns when its thread is over; and `ShowWindow`, which is
called on another thread, waits for the thread of the window while that one waits in `WSStop`. Only
an icon that is in the tray can be clicked. -/
def may (m : Machine) : InstanceStep → Prop
  | .CreateEvent p _ _ => (m.process p).main = .start
  | .SetEvent p => (m.process p).main = .found ∨ (m.process p).main = .stopped
  | .CloseHandle p => (m.process p).main = .told ∨ (m.process p).main = .signalled
  | .Start p => (m.process p).main = .created
  | .Notify p _ | .OnClose p => (m.process p).main = .serving
  | .OnMouseLButtonDown p | .OnMouseRButtonDown p _ | .iconLost p =>
      (m.process p).main = .serving ∧ (m.process p).icon = true
  | .listenWS p => (m.process p).m_wsserver = .looping
  | .WSStop p => (m.process p).main = .stopping ∧ (m.process p).m_wsserver = .ended
  | .WaitForSingleObject p => (m.process p).m_sington = .calling
  | .signton p => (m.process p).m_sington = .woken
  | .ShowWindow p => (m.process p).m_sington = .showing ∧ (m.process p).main ≠ .stopping
  | .join p => (m.process p).main = .joining ∧ (m.process p).m_sington = .ended
  | .kill p => (m.process p).main ≠ .start

instance (m : Machine) : ∀ a, Decidable (m.may a)
  | .CreateEvent _ _ _ | .Start _ | .Notify _ _ | .OnClose _ | .listenWS _
  | .WaitForSingleObject _ | .signton _ => inferInstanceAs (Decidable (_ = _))
  | .SetEvent _ | .CloseHandle _ => inferInstanceAs (Decidable (_ ∨ _))
  | .OnMouseLButtonDown _ | .OnMouseRButtonDown _ _ | .iconLost _ | .WSStop _ | .ShowWindow _
  | .join _ => inferInstanceAs (Decidable (_ ∧ _))
  | .kill _ => inferInstanceAs (Decidable (_ ≠ _))

/-- A step. -/
def step (m : Machine) : InstanceStep → Machine
  | .CreateEvent p session got =>
      -- a failure is not `ERROR_ALREADY_EXISTS`, and so is taken for a new event
      if got = false then
        m.set p fun x => { x with session, m_SingletonEvent := false, main := .created }
      else if m.holders session = [] then
        Machine.set { m with
            handles := p :: m.handles, signalled := Function.update m.signalled session false }
          p fun x => { x with session, m_SingletonEvent := true, main := .created }
      else
        Machine.set { m with handles := p :: m.handles } p fun x =>
          { x with session, m_SingletonEvent := true, main := .found }
  | .SetEvent p =>
      (m.SetEvent p).set p fun x =>
        { x with main := if x.main = .found then .told else .signalled }
  | .CloseHandle p =>
      (m.close p).set p fun x => { x with main := if x.main = .told then .gone else .joining }
  | .Start p => m.set p fun x =>
      { x with
        main := .serving, m_bWSRunning := true, m_wsserver := .looping, m_sington := .calling
        visible := true }
  | .Notify p added => m.set p fun x => { x with icon := x.icon || added, visible := false }
  | .OnMouseLButtonDown p => m.set p fun x => { x with icon := false, visible := true }
  | .OnMouseRButtonDown p chosen => m.set p fun x =>
      if chosen then { x with icon := false, closing := true } else x
  | .OnClose p => m.set p fun x => { x with main := .stopping, m_bWSRunning := false }
  | .listenWS p => m.set p fun x => if x.m_bWSRunning then x else { x with m_wsserver := .ended }
  | .WSStop p => m.set p fun x => { x with main := .stopped, visible := false }
  | .WaitForSingleObject p =>
      -- without a handle, or when it is closed, the wait fails
      if p ∉ m.handles then m.set p fun x => { x with m_sington := .ended }
      else if m.signalled (m.process p).session then
        Machine.set { m with signalled := Function.update m.signalled (m.process p).session false }
          p fun x => { x with m_sington := .woken }
      else m.set p fun x => { x with m_sington := .waiting }
  | .signton p => m.set p fun x =>
      { x with m_sington := if x.m_bWSRunning then .showing else .ended }
  | .ShowWindow p =>
      m.set p fun x =>
        { x with m_sington := .calling, visible := x.visible || x.main = .serving }
  | .join p => m.set p fun x => { x with main := .gone }
  | .iconLost p => m.set p fun x => { x with icon := false }
  | .kill p => (m.close p).set p fun _ => { main := .gone }

/-- Any number of processes, in any order of steps. -/
def system : StepSystem Machine InstanceStep Empty where
  init := {}
  allowed := may
  step := fun m a => .ok (m.step a)

instance (m : Machine) (a : InstanceStep) : Decidable (system.allowed m a) :=
  inferInstanceAs (Decidable (m.may a))

/-! ### Changes -/

section Changes

variable (m : Machine) (p q : ℕ) (f : Process → Process)

theorem process_set : (m.set p f).process q = if q = p then f (m.process p) else m.process q :=
  Function.update_apply ..

@[simp] theorem process_set_self : (m.set p f).process p = f (m.process p) :=
  Function.update_self ..

theorem process_set_of_ne (h : q ≠ p) : (m.set p f).process q = m.process q :=
  Function.update_of_ne h ..

@[simp] theorem handles_set : (m.set p f).handles = m.handles := rfl

@[simp] theorem signalled_set : (m.set p f).signalled = m.signalled := rfl

theorem mem_close : q ∈ (m.close p).handles ↔ q ∈ m.handles ∧ q ≠ p := by
  rw [close, List.mem_filter, decide_eq_true_eq]

theorem mem_holders {session : ℕ} :
    q ∈ m.holders session ↔ q ∈ m.handles ∧ (m.process q).session = session := by
  rw [holders, List.mem_filter, decide_eq_true_eq]

/-- What setting the event does: nothing without one; it releases the thread of a process with a
handle, or, where no such thread waits, the signal stays. -/
theorem SetEvent_cases :
    ((m.process p).m_SingletonEvent = false ∧ m.SetEvent p = m) ∨
    (∃ q ∈ m.handles, (m.process q).session = (m.process p).session ∧
      (m.process q).m_sington = .waiting ∧
      m.SetEvent p = m.set q fun x => { x with m_sington := .woken }) ∨
    (∀ q ∈ m.handles, (m.process q).session = (m.process p).session →
      (m.process q).m_sington ≠ .waiting) ∧
      m.SetEvent p =
        { m with signalled := Function.update m.signalled (m.process p).session true } := by
  rw [SetEvent]
  split_ifs with hevent
  · rw [setEvent]
    split
    · next q hq =>
      obtain ⟨hmem, hsession⟩ := (m.mem_holders q).mp (List.mem_of_find?_eq_some hq)
      refine .inr (.inl ⟨q, hmem, hsession, ?_, rfl⟩)
      simpa using List.find?_some hq
    · next hnone =>
      refine .inr (.inr ⟨fun q hq hsession => ?_, rfl⟩)
      simpa using List.find?_eq_none.mp hnone q ((m.mem_holders q).mpr ⟨hq, hsession⟩)
  · exact .inl ⟨by simpa using hevent, rfl⟩

/-- Setting the event changes of a process at most where its `signton` is. -/
theorem process_SetEvent :
    (m.SetEvent p).process q = m.process q ∨ (m.process q).m_sington = .waiting ∧
      (m.SetEvent p).process q = { m.process q with m_sington := .woken } := by
  rcases m.SetEvent_cases p with ⟨-, heq⟩ | ⟨r, -, -, hr, heq⟩ | ⟨-, heq⟩
  · rw [heq]
    exact .inl rfl
  · rw [heq, process_set]
    split_ifs with hqr
    · subst hqr
      exact .inr ⟨hr, rfl⟩
    · exact .inl rfl
  · rw [heq]
    exact .inl rfl

@[simp] theorem handles_SetEvent : (m.SetEvent p).handles = m.handles := by
  rcases m.SetEvent_cases p with ⟨-, heq⟩ | ⟨r, -, -, -, heq⟩ | ⟨-, heq⟩ <;> rw [heq]
  rfl

theorem main_SetEvent : ((m.SetEvent p).process q).main = (m.process q).main := by
  rcases m.process_SetEvent p q with h | ⟨-, h⟩ <;> rw [h]

theorem owns_SetEvent : ((m.SetEvent p).process q).owns = (m.process q).owns := by
  rcases m.process_SetEvent p q with h | ⟨-, h⟩ <;> rw [h]
  rfl

theorem event_SetEvent :
    ((m.SetEvent p).process q).m_SingletonEvent = (m.process q).m_SingletonEvent := by
  rcases m.process_SetEvent p q with h | ⟨-, h⟩ <;> rw [h]

theorem session_SetEvent : ((m.SetEvent p).process q).session = (m.process q).session := by
  rcases m.process_SetEvent p q with h | ⟨-, h⟩ <;> rw [h]

end Changes

end Machine

/-! ### One process -/

namespace Process

/-- What holds of a process by itself, for each place of its main thread. -/
def Fits (x : Process) : MainThread → Prop
  | .start | .created => x.m_wsserver = .none ∧ x.m_sington = .none ∧ x.m_bWSRunning = false
  | .found | .told =>
      x.m_wsserver = .none ∧ x.m_sington = .none ∧ x.m_bWSRunning = false ∧
        x.m_SingletonEvent = true
  | .serving =>
      -- without an event `signton` is soon over
      x.m_wsserver = .looping ∧ x.m_sington ≠ .none ∧ x.m_bWSRunning = true ∧
        (x.m_SingletonEvent = true → x.m_sington.alive = true)
  | .stopping => x.m_wsserver ≠ .none ∧ x.m_sington ≠ .none ∧ x.m_bWSRunning = false
  | .stopped => x.m_wsserver = .ended ∧ x.m_sington ≠ .none ∧ x.m_bWSRunning = false
  | .signalled | .joining =>
      -- `signton` has been released, and will not wait again
      x.m_wsserver = .ended ∧ x.m_sington ≠ .none ∧ x.m_bWSRunning = false ∧
        x.m_sington ≠ .waiting
  | .gone => x.m_wsserver ≠ .looping ∧ x.m_sington.alive = false ∧ x.m_bWSRunning = false

namespace Fits

variable {x : Process} {main : MainThread}

theorem listening (h : x.Fits main) (hl : x.m_wsserver = .looping) :
    main = .serving ∨ main = .stopping := by
  cases main with
  | serving => exact .inl rfl
  | stopping => exact .inr rfl
  | gone => exact absurd hl h.1
  | _ =>
      have hserver := h.1
      rw [hl] at hserver
      cases hserver

theorem started (h : x.Fits main) (halive : x.m_sington.alive = true) : main.started = true := by
  cases main with
  | start | found | told | created =>
      have hnone := h.2.1
      rw [hnone] at halive
      cases halive
  | gone =>
      have hdead := h.2.1
      rw [halive] at hdead
      cases hdead
  | _ => rfl

theorem running_iff (h : x.Fits main) : x.m_bWSRunning = true ↔ main = .serving := by
  cases main with
  | serving => exact iff_of_true h.2.2.1 rfl
  | found | told | signalled | joining =>
      exact iff_of_false (by rw [h.2.2.1]; exact Bool.false_ne_true) (by simp)
  | _ => exact iff_of_false (by rw [h.2.2]; exact Bool.false_ne_true) (by simp)

/-- The thread `signton` goes on, to a place that it can be at. -/
theorem signton {s : SigntonThread} (h : x.Fits main) (halive : x.m_sington.alive = true)
    (hnone : s ≠ .none) (hserve : main = .serving → x.m_SingletonEvent = true → s.alive = true)
    (hwait : s = .waiting → main ≠ .signalled ∧ main ≠ .joining) :
    Fits { x with m_sington := s } main := by
  have hstarted := h.started halive
  cases main with
  | start | found | told | created | gone => cases hstarted
  | serving => exact ⟨h.1, hnone, h.2.2.1, hserve rfl⟩
  | stopping | stopped => exact ⟨h.1, hnone, h.2.2⟩
  | signalled => exact ⟨h.1, hnone, h.2.2.1, fun hs => (hwait hs).1 rfl⟩
  | joining => exact ⟨h.1, hnone, h.2.2.1, fun hs => (hwait hs).2 rfl⟩

/-- The window does not matter. -/
theorem window (h : x.Fits main) (visible icon closing : Bool) :
    Fits { x with visible := visible, icon := icon, closing := closing } main := by
  cases main <;> exact h

end Fits

end Process

/-! ### All processes -/

/-- What holds of a process among the others: it has a handle where it should have one, only with
one its `signton` waits, and at the end of the program the signal is there that it needs. -/
structure Machine.Good (m : Machine) (p : ℕ) : Prop where
  fits : (m.process p).Fits (m.process p).main
  handle : p ∈ m.handles ↔
    (m.process p).main.holds = true ∧ (m.process p).m_SingletonEvent = true
  waits : (m.process p).m_sington = .waiting → (m.process p).m_SingletonEvent = true
  released : (m.process p).main = .signalled → (m.process p).m_SingletonEvent = true →
    (m.process p).m_sington = .calling ∨ (m.process p).m_sington = .showing →
    m.signalled (m.process p).session = true

/-- What holds in every state; at most one process of a session owns the event. -/
structure MachineInv (m : Machine) : Prop where
  good : ∀ p, m.Good p
  owner : ∀ p q, (m.process p).owns = true → (m.process q).owns = true →
    (m.process p).session = (m.process q).session → p = q

namespace MachineInv

variable {m m' : Machine} {p : ℕ}

theorem fits (h : MachineInv m) {main : MainThread} (hp : (m.process p).main = main) :
    (m.process p).Fits main := by
  rw [← hp]
  exact (h.good p).fits

theorem owns_iff {x : Process} : x.owns = true ↔ x.main.owns = true ∧ x.m_SingletonEvent = true :=
  Bool.and_eq_true_iff

theorem owner_mem (h : MachineInv m) (hp : (m.process p).owns = true) : p ∈ m.handles :=
  (h.good p).handle.mpr ((owns_iff.mp hp).imp_left MainThread.holds_of_owns)

/-- A process with a handle whose `signton` is there owns the event. -/
theorem owns_of_alive (h : MachineInv m) (hp : p ∈ m.handles)
    (halive : (m.process p).m_sington.alive = true) : (m.process p).owns = true := by
  obtain ⟨hholds, hevent⟩ := (h.good p).handle.mp hp
  have howns := MainThread.owns_of_started hholds ((h.good p).fits.started halive)
  exact owns_iff.mpr ⟨howns, hevent⟩

/-- The other processes of the session do not own the event. -/
theorem not_owns (h : MachineInv m) (hp : (m.process p).owns = true) :
    ∀ q, q ≠ p → (m.process q).session = (m.process p).session → (m.process q).owns = false := by
  intro q hq hsession
  rw [← Bool.not_eq_true]
  exact fun hown => hq (h.owner q p hown hp hsession)

/-- **One process changes.** If another one owns the event, the event stays as it is for it. -/
theorem change (h : MachineInv m) (hgood : m'.Good p)
    (hother : ∀ q, q ≠ p → m'.process q = m.process q)
    (hmem : ∀ q, q ≠ p → (q ∈ m'.handles ↔ q ∈ m.handles))
    (hevent : ∀ q, q ≠ p → (m.process q).owns = true →
      m'.signalled (m.process q).session = m.signalled (m.process q).session)
    (howner : (m'.process p).owns = true → ∀ q, q ≠ p →
      (m.process q).session = (m'.process p).session → (m.process q).owns = false) :
    MachineInv m' := by
  constructor
  · intro q
    by_cases hq : q = p
    · rw [hq]
      exact hgood
    · have hold := h.good q
      refine ⟨?_, ?_, ?_, ?_⟩
      all_goals rw [hother q hq]
      · exact hold.fits
      · rw [hmem q hq]
        exact hold.handle
      · exact hold.waits
      · intro hmain hsingle hs
        rw [hevent q hq (owns_iff.mpr ⟨by rw [hmain]; rfl, hsingle⟩)]
        exact hold.released hmain hsingle hs
  · intro q r hown hown' hsession
    by_cases hq : q = p
    · by_cases hr : r = p
      · rw [hq, hr]
      · rw [hq] at hown hsession
        rw [hother r hr] at hown' hsession
        rw [howner hown r hr hsession.symm] at hown'
        cases hown'
    · rw [hother q hq] at hown hsession
      by_cases hr : r = p
      · rw [hr] at hown' hsession
        rw [howner hown' q hq hsession] at hown
        cases hown
      · rw [hother r hr] at hown' hsession
        exact h.owner q r hown hown' hsession

/-- A process changes and leaves the event alone. -/
theorem set (h : MachineInv m) {f : Process → Process} {main : MainThread}
    (hsession : (f (m.process p)).session = (m.process p).session)
    (hsingle : (f (m.process p)).m_SingletonEvent = (m.process p).m_SingletonEvent)
    (hmain : (f (m.process p)).main = main) (hfits : (f (m.process p)).Fits main)
    (hholds : main.holds = (m.process p).main.holds)
    (howns : main.owns = true → (m.process p).main.owns = true)
    (hwaits : (f (m.process p)).m_sington = .waiting → (m.process p).m_SingletonEvent = true)
    (hreleased : main = .signalled → (m.process p).m_SingletonEvent = true →
      (f (m.process p)).m_sington = .calling ∨ (f (m.process p)).m_sington = .showing →
      m.signalled (m.process p).session = true) : MachineInv (m.set p f) := by
  refine h.change (p := p) ⟨?_, ?_, ?_, ?_⟩ (fun q hq => m.process_set_of_ne p q f hq)
    (fun q _ => Iff.rfl) (fun q _ _ => rfl) fun hown => ?_
  · rw [Machine.process_set_self, hmain]
    exact hfits
  · rw [Machine.process_set_self, hmain, hholds, hsingle]
    exact (h.good p).handle
  · rw [Machine.process_set_self, hsingle]
    exact hwaits
  · rw [Machine.process_set_self, hmain, hsingle, hsession]
    exact hreleased
  · rw [Machine.process_set_self] at hown ⊢
    rw [owns_iff, hmain, hsingle] at hown
    rw [hsession]
    exact h.not_owns (owns_iff.mpr (hown.imp_left howns))

/-- A process changes with its main thread where it was. -/
theorem move (h : MachineInv m) {f : Process → Process}
    (hsession : (f (m.process p)).session = (m.process p).session)
    (hsingle : (f (m.process p)).m_SingletonEvent = (m.process p).m_SingletonEvent)
    (hmain : (f (m.process p)).main = (m.process p).main)
    (hfits : (f (m.process p)).Fits (m.process p).main)
    (hwaits : (f (m.process p)).m_sington = .waiting → (m.process p).m_SingletonEvent = true)
    (hreleased : (m.process p).main = .signalled → (m.process p).m_SingletonEvent = true →
      (f (m.process p)).m_sington = .calling ∨ (f (m.process p)).m_sington = .showing →
      m.signalled (m.process p).session = true) : MachineInv (m.set p f) :=
  h.set hsession hsingle hmain hfits rfl id hwaits hreleased

/-- A process with its threads where they were. -/
theorem same (h : MachineInv m) {f : Process → Process} {visible icon closing : Bool}
    (hf : f (m.process p) =
      { m.process p with visible := visible, icon := icon, closing := closing }) :
    MachineInv (m.set p f) := by
  have hold := h.good p
  refine h.move ?_ ?_ ?_ ?_ ?_ ?_
  all_goals rw [hf]
  · exact hold.fits.window visible icon closing
  · exact hold.waits
  · exact hold.released

/-! ### Setting the event -/

/-- Setting the event keeps everything, and the owner will get the signal or has it. -/
theorem setEvent (h : MachineInv m) (p : ℕ) : MachineInv (m.SetEvent p) ∧
    ((m.process p).m_SingletonEvent = true → ∀ q, (m.process q).owns = true →
      (m.process q).session = (m.process p).session →
      ((m.SetEvent p).process q).m_sington ≠ .waiting ∧
      ((m.SetEvent p).signalled (m.process q).session = true ∨
        ((m.SetEvent p).process q).m_sington = .woken)) := by
  rcases m.SetEvent_cases p with ⟨hnull, heq⟩ | ⟨r, hr, hsession, hwait, heq⟩ | ⟨hnone, heq⟩
  · rw [heq]
    exact ⟨h, fun hsingle => by rw [hnull] at hsingle; cases hsingle⟩
  · have halive : (m.process r).m_sington.alive = true := by rw [hwait]; rfl
    have hown := h.owns_of_alive hr halive
    rw [heq]
    constructor
    · refine h.move rfl rfl rfl ((h.good r).fits.signton halive ?_ (fun _ _ => rfl) ?_) ?_ ?_
      · exact SigntonThread.noConfusion
      · exact fun hs => by cases hs
      · exact fun hs => by cases hs
      · rintro - - (hs | hs) <;> cases hs
    · intro _ q hq hsession'
      obtain rfl := h.owner q r hq hown (hsession'.trans hsession.symm)
      rw [Machine.process_set_self]
      exact ⟨SigntonThread.noConfusion, .inr rfl⟩
  · rw [heq]
    refine ⟨⟨fun q => ?_, h.owner⟩, fun _ q hq hsession => ⟨?_, .inl ?_⟩⟩
    · have hold := h.good q
      refine ⟨hold.fits, hold.handle, hold.waits, fun hmain hsingle hs => ?_⟩
      show Function.update m.signalled (m.process p).session true (m.process q).session = true
      rw [Function.update_apply]
      split_ifs
      · rfl
      · exact hold.released hmain hsingle hs
    · exact hnone q (h.owner_mem hq) hsession
    · rw [hsession]
      exact Function.update_self ..

/-! ### Steps -/

/-- A process makes the event, or finds it, or does without. -/
theorem createEvent (h : MachineInv m) (hp : (m.process p).main = .start) (session : ℕ)
    (got : Bool) : MachineInv (m.step (.CreateEvent p session got)) := by
  obtain ⟨hserver, hsington, hrun⟩ := h.fits hp
  have hmem : p ∉ m.handles := fun hmem => by
    have hholds := ((h.good p).handle.mp hmem).1
    rw [hp] at hholds
    cases hholds
  rw [Machine.step]
  split_ifs with hgot hnil
  · refine h.change (p := p) ⟨?_, ?_, ?_, ?_⟩ (fun q hq => Machine.process_set_of_ne _ p q _ hq)
      (fun q _ => Iff.rfl) (fun q _ _ => rfl) ?_
    · rw [Machine.process_set_self]
      exact ⟨hserver, hsington, hrun⟩
    · simpa using hmem
    · simp [hsington]
    · simp
    · simp [Process.owns]
  · -- without handles of the session there is no owner in it
    have hno : ∀ q, (m.process q).session = session → (m.process q).owns = false := by
      intro q hq
      rw [← Bool.not_eq_true]
      intro hown
      have hmem := (m.mem_holders q).mpr ⟨h.owner_mem hown, hq⟩
      rw [hnil] at hmem
      cases hmem
    refine h.change (p := p) ⟨?_, ?_, ?_, ?_⟩ (fun q hq => Machine.process_set_of_ne _ p q _ hq)
      (fun q hq => by simp [hq]) (fun q _ hown => ?_) fun _ q _ => ?_
    · rw [Machine.process_set_self]
      exact ⟨hserver, hsington, hrun⟩
    · simp [MainThread.holds]
    · simp
    · simp
    · refine Function.update_of_ne (fun hs => ?_) ..
      rw [hno q hs] at hown
      cases hown
    · rw [Machine.process_set_self]
      exact hno q
  · refine h.change (p := p) ⟨?_, ?_, ?_, ?_⟩ (fun q hq => Machine.process_set_of_ne _ p q _ hq)
      (fun q hq => by simp [hq]) (fun q _ _ => rfl) ?_
    · rw [Machine.process_set_self]
      exact ⟨hserver, hsington, hrun, rfl⟩
    · simp [MainThread.holds]
    · simp
    · simp
    · simp [Process.owns, MainThread.owns]

theorem setEvent_step (h : MachineInv m)
    (hp : (m.process p).main = .found ∨ (m.process p).main = .stopped) :
    MachineInv (m.step (.SetEvent p)) := by
  obtain ⟨hset, hanswer⟩ := h.setEvent p
  have hmain := m.main_SetEvent p p
  have hwaits := (hset.good p).waits
  rw [Machine.step]
  rcases hp with hfound | hstopped
  · rw [hfound] at hmain
    refine hset.set rfl rfl (if_pos hmain) (hset.fits hmain) (by rw [hmain]; rfl) (fun hown => ?_)
      hwaits fun hsig => ?_
    · cases hown
    · cases hsig
  · rw [hstopped] at hmain
    have hfits := hset.fits hmain
    have hanswer' : ((m.SetEvent p).process p).m_SingletonEvent = true →
        ((m.SetEvent p).process p).m_sington ≠ .waiting ∧
        ((m.SetEvent p).signalled ((m.SetEvent p).process p).session = true ∨
          ((m.SetEvent p).process p).m_sington = .woken) := by
      intro hsingle
      have hown : (m.process p).owns = true := by
        rw [← m.owns_SetEvent p p, owns_iff, hmain]
        exact ⟨rfl, hsingle⟩
      rw [m.session_SetEvent p p]
      exact hanswer (owns_iff.mp hown).2 p hown rfl
    refine hset.set rfl rfl (if_neg (by simp [hmain]))
      ⟨hfits.1, hfits.2.1, hfits.2.2, fun hwait => (hanswer' (hwaits hwait)).1 hwait⟩
      (by rw [hmain]; rfl) (fun _ => by rw [hmain]; rfl) hwaits fun _ hsingle hs => ?_
    refine (hanswer' hsingle).2.resolve_right fun hwoken => ?_
    rcases hs with hs | hs
    all_goals
      rw [show ((m.SetEvent p).process p).m_sington = _ from hs] at hwoken
      cases hwoken

/-- A process closes its handle, or the system closes it. -/
theorem closeHandle (h : MachineInv m) {f : Process → Process} {main : MainThread}
    (hmain : (f (m.process p)).main = main) (hfits : (f (m.process p)).Fits main)
    (hholds : main.holds = false) (hwaits : (f (m.process p)).m_sington ≠ .waiting) :
    MachineInv ((m.close p).set p f) := by
  have hself : ((m.close p).set p f).process p = f (m.process p) := Machine.process_set_self ..
  refine h.change (p := p) ⟨?_, ?_, ?_, ?_⟩ (fun q hq => Machine.process_set_of_ne _ p q _ hq)
    (fun q hq => (m.mem_close p q).trans (and_iff_left hq)) (fun q _ _ => rfl) fun hown => ?_
  · rw [hself, hmain]
    exact hfits
  · rw [hself, hmain, hholds]
    exact iff_of_false (fun hmem => ((m.mem_close p p).mp hmem).2 rfl) (by simp)
  · rw [hself]
    exact fun hwait => absurd hwait hwaits
  · rw [hself, hmain]
    intro hsig
    rw [hsig] at hholds
    cases hholds
  · rw [hself, owns_iff, hmain] at hown
    rw [MainThread.holds_of_owns hown.1] at hholds
    cases hholds

theorem closeHandle_step (h : MachineInv m)
    (hp : (m.process p).main = .told ∨ (m.process p).main = .signalled) :
    MachineInv (m.step (.CloseHandle p)) := by
  rw [Machine.step]
  rcases hp with hp | hp
  · obtain ⟨hserver, hsington, hrun, -⟩ := h.fits hp
    refine h.closeHandle (if_pos hp) ⟨?_, ?_, hrun⟩ rfl ?_
    · rw [hserver]
      exact ListenThread.noConfusion
    · rw [hsington]
      rfl
    · rw [hsington]
      exact SigntonThread.noConfusion
  · have hfits := h.fits hp
    exact h.closeHandle (if_neg (by simp [hp])) hfits rfl hfits.2.2.2

theorem start_step (h : MachineInv m) (hp : (m.process p).main = .created) :
    MachineInv (m.step (.Start p)) := by
  rw [Machine.step]
  refine h.set rfl rfl rfl ⟨rfl, SigntonThread.noConfusion, rfl, fun _ => rfl⟩ (by rw [hp]; rfl)
    (fun _ => by rw [hp]; rfl) ?_ ?_
  · exact fun hs => by cases hs
  · exact fun hsig => by cases hsig

theorem onClose_step (h : MachineInv m) (hp : (m.process p).main = .serving) :
    MachineInv (m.step (.OnClose p)) := by
  obtain ⟨hserver, hsington, -, -⟩ := h.fits hp
  rw [Machine.step]
  refine h.set rfl rfl rfl ⟨?_, hsington, rfl⟩ (by rw [hp]; rfl) (fun _ => by rw [hp]; rfl)
    (h.good p).waits ?_
  · rw [hserver]
    exact ListenThread.noConfusion
  · exact fun hsig => by cases hsig

/-- While the message loop runs, so does `listenWS`; it ends in `WSStop`. -/
theorem listen_step (h : MachineInv m) (hl : (m.process p).m_wsserver = .looping) :
    MachineInv (m.step (.listenWS p)) := by
  have hold := h.good p
  rw [Machine.step]
  rcases hold.fits.listening hl with hp | hp
  · have hrun := hold.fits.running_iff.mpr hp
    refine h.move ?_ ?_ ?_ ?_ ?_ ?_
    all_goals rw [if_pos hrun]
    · exact hold.fits
    · exact hold.waits
    · exact hold.released
  · obtain ⟨-, hsington, hrun⟩ := h.fits hp
    have hnot : ¬ (m.process p).m_bWSRunning = true := by simp [hrun]
    refine h.move ?_ ?_ ?_ ?_ ?_ fun hsig => ?_
    · rw [if_neg hnot]
    · rw [if_neg hnot]
    · rw [if_neg hnot]
    · rw [if_neg hnot, hp]
      exact ⟨ListenThread.noConfusion, hsington, hrun⟩
    · rw [if_neg hnot]
      exact hold.waits
    · rw [hp] at hsig
      cases hsig

theorem wsStop_step (h : MachineInv m) (hp : (m.process p).main = .stopping)
    (hover : (m.process p).m_wsserver = .ended) : MachineInv (m.step (.WSStop p)) := by
  obtain ⟨-, hsington, hrun⟩ := h.fits hp
  rw [Machine.step]
  refine h.set rfl rfl rfl ⟨hover, hsington, hrun⟩ (by rw [hp]; rfl) (fun _ => by rw [hp]; rfl)
    (h.good p).waits ?_
  exact fun hsig => by cases hsig

theorem wait_step (h : MachineInv m) (hp : (m.process p).m_sington = .calling) :
    MachineInv (m.step (.WaitForSingleObject p)) := by
  have hold := h.good p
  have halive : (m.process p).m_sington.alive = true := by rw [hp]; rfl
  rw [Machine.step]
  split_ifs with hmem hsig
  · -- the signal is taken; only the owner waits, so nobody else misses it
    have hown := h.owns_of_alive hmem halive
    refine h.change (p := p) ⟨?_, ?_, ?_, ?_⟩ (fun q hq => Machine.process_set_of_ne _ p q _ hq)
      (fun q _ => Iff.rfl) (fun q hq hown' => ?_) fun _ => ?_
    · rw [Machine.process_set_self]
      exact hold.fits.signton halive SigntonThread.noConfusion (fun _ _ => rfl)
        fun hs => by cases hs
    · rw [Machine.process_set_self]
      exact hold.handle
    · rw [Machine.process_set_self]
      exact fun hs => by cases hs
    · rw [Machine.process_set_self]
      rintro - - (hs | hs) <;> cases hs
    · exact Function.update_of_ne (fun hs => hq (h.owner q p hown' hown hs)) ..
    · rw [Machine.process_set_self]
      exact h.not_owns hown
  · -- it waits, which it does not do where it needs the signal
    have hsingle := (hold.handle.mp hmem).2
    refine h.move rfl rfl rfl (hold.fits.signton halive ?_ (fun _ _ => rfl) fun _ => ?_)
      (fun _ => hsingle) ?_
    · exact SigntonThread.noConfusion
    · refine ⟨fun hmain => hsig (hold.released hmain hsingle (.inl hp)), fun hmain => ?_⟩
      have hholds := (hold.handle.mp hmem).1
      rw [hmain] at hholds
      cases hholds
    · rintro - - (hs | hs) <;> cases hs
  · -- there is no handle, or it is closed
    refine h.move rfl rfl rfl (hold.fits.signton halive SigntonThread.noConfusion
      (fun hmain hsingle => ?_) ?_) ?_ ?_
    · exact absurd (hold.handle.mpr ⟨by rw [hmain]; rfl, hsingle⟩) hmem
    · exact fun hs => by cases hs
    · exact fun hs => by cases hs
    · rintro - - (hs | hs) <;> cases hs

theorem test_step (h : MachineInv m) (hp : (m.process p).m_sington = .woken) :
    MachineInv (m.step (.signton p)) := by
  have hold := h.good p
  have halive : (m.process p).m_sington.alive = true := by rw [hp]; rfl
  rw [Machine.step]
  by_cases hmain : (m.process p).main = .serving
  · have hrun := hold.fits.running_iff.mpr hmain
    refine h.move rfl rfl rfl ?_ ?_ fun hsig => ?_
    · rw [if_pos hrun]
      exact hold.fits.signton halive SigntonThread.noConfusion (fun _ _ => rfl)
        fun hs => by cases hs
    · rw [if_pos hrun]
      exact fun hs => by cases hs
    · rw [hmain] at hsig
      cases hsig
  · have hrun : ¬ (m.process p).m_bWSRunning = true := mt hold.fits.running_iff.mp hmain
    refine h.move rfl rfl rfl ?_ ?_ ?_
    all_goals rw [if_neg hrun]
    · exact hold.fits.signton halive SigntonThread.noConfusion (fun h' => absurd h' hmain)
        fun hs => by cases hs
    · exact fun hs => by cases hs
    · rintro - - (hs | hs) <;> cases hs

theorem show_step (h : MachineInv m) (hp : (m.process p).m_sington = .showing) :
    MachineInv (m.step (.ShowWindow p)) := by
  have hold := h.good p
  have halive : (m.process p).m_sington.alive = true := by rw [hp]; rfl
  have hmoved : Process.Fits { m.process p with m_sington := .calling } (m.process p).main :=
    hold.fits.signton halive SigntonThread.noConfusion (fun _ _ => rfl) fun hs => by cases hs
  rw [Machine.step]
  refine h.move rfl rfl rfl (hmoved.window ..) (fun hs => ?_) fun hsig hsingle _ => ?_
  · cases hs
  · exact hold.released hsig hsingle (.inr hp)

theorem join_step (h : MachineInv m) (hp : (m.process p).main = .joining)
    (hover : (m.process p).m_sington = .ended) : MachineInv (m.step (.join p)) := by
  obtain ⟨hserver, -, hrun, -⟩ := h.fits hp
  rw [Machine.step]
  refine h.set rfl rfl rfl ⟨?_, ?_, hrun⟩ (by rw [hp]; rfl) (fun hown => ?_) (h.good p).waits
    fun hsig => ?_
  · rw [hserver]
    exact ListenThread.noConfusion
  · rw [hover]
    rfl
  · cases hown
  · cases hsig

theorem kill_step (h : MachineInv m) : MachineInv (m.step (.kill p)) := by
  rw [Machine.step]
  exact h.closeHandle rfl ⟨ListenThread.noConfusion, rfl, rfl⟩ rfl SigntonThread.noConfusion

/-- **Every step keeps the invariant.** -/
theorem step {a : InstanceStep} (h : MachineInv m) (hal : m.may a) : MachineInv (m.step a) := by
  cases a with
  | CreateEvent p session got => exact h.createEvent hal session got
  | SetEvent p => exact h.setEvent_step hal
  | CloseHandle p => exact h.closeHandle_step hal
  | Start p => exact h.start_step hal
  | Notify p added =>
      rw [Machine.step]
      exact h.same rfl
  | OnMouseLButtonDown p =>
      rw [Machine.step]
      exact h.same rfl
  | OnMouseRButtonDown p chosen =>
      rw [Machine.step]
      cases chosen <;> exact h.same rfl
  | OnClose p => exact h.onClose_step hal
  | listenWS p => exact h.listen_step hal
  | WSStop p => exact h.wsStop_step hal.1 hal.2
  | WaitForSingleObject p => exact h.wait_step hal
  | signton p => exact h.test_step hal
  | ShowWindow p => exact h.show_step hal.1
  | join p => exact h.join_step hal.1 hal.2
  | iconLost p =>
      rw [Machine.step]
      exact h.same rfl
  | kill p => exact h.kill_step

end MachineInv

theorem machineInv_init : MachineInv {} := by
  refine ⟨fun p => ⟨⟨rfl, rfl, rfl⟩, ?_, fun hs => ?_, fun hsig => ?_⟩, fun p q hown => ?_⟩
  · exact iff_of_false List.not_mem_nil (by simp [MainThread.holds])
  · cases hs
  · cases hsig
  · cases hown

theorem machineInv_reachable {m : Machine} (h : Machine.system.Reachable m) : MachineInv m := by
  refine h.invariant machineInv_init fun m a m' _ hinv hal hstep => ?_
  obtain rfl := Except.ok.inj hstep
  exact hinv.step hal

/-! ### Whose steps -/

namespace InstanceStep

/-- The process that takes the step. -/
def process : InstanceStep → ℕ
  | CreateEvent p _ _ | SetEvent p | CloseHandle p | Start p | Notify p _ | OnMouseLButtonDown p
  | OnMouseRButtonDown p _ | OnClose p | listenWS p | WSStop p | WaitForSingleObject p | signton p
  | ShowWindow p | join p | iconLost p | kill p => p

/-- The step is one of the thread `signton` of the process. -/
def bySignton (p : ℕ) : InstanceStep → Bool
  | WaitForSingleObject q | signton q | ShowWindow q => q = p
  | _ => false

theorem process_of_bySignton {p : ℕ} {a : InstanceStep} (h : a.bySignton p = true) :
    a.process = p := by
  cases a with
  | WaitForSingleObject q | signton q | ShowWindow q => exact of_decide_eq_true h
  | _ => cases h

end InstanceStep

namespace Machine

variable {m : Machine} {a : InstanceStep} {p : ℕ}

/-- A step of another process changes of a process at most that its `signton` is released. -/
theorem process_step_of_ne (h : a.process ≠ p) :
    (m.step a).process p = m.process p ∨ (m.process p).m_sington = .waiting ∧
      (m.step a).process p = { m.process p with m_sington := .woken } := by
  cases a with
  | CreateEvent q session got =>
      rw [step]
      split_ifs <;> exact .inl (process_set_of_ne _ q p _ h.symm)
  | SetEvent q =>
      rw [step, process_set_of_ne _ q p _ h.symm]
      exact process_SetEvent m q p
  | WaitForSingleObject q =>
      rw [step]
      split_ifs <;> exact .inl (process_set_of_ne _ q p _ h.symm)
  | _ =>
      rw [step]
      exact .inl (process_set_of_ne _ _ p _ (Ne.symm h))

theorem signalled_SetEvent {session : ℕ} (h : m.signalled session = true) (q : ℕ) :
    (m.SetEvent q).signalled session = true := by
  rcases m.SetEvent_cases q with ⟨-, heq⟩ | ⟨r, -, -, -, heq⟩ | ⟨-, heq⟩
  · rw [heq]
    exact h
  · rw [heq]
    exact h
  · rw [heq]
    show Function.update m.signalled (m.process q).session true session = true
    rw [Function.update_apply]
    split_ifs
    · rfl
    · exact h

/-- Another process does not take the signal away from the owner of the event. -/
theorem signalled_step_of_ne (hinv : MachineInv m) (hal : m.may a) (h : a.process ≠ p)
    (hown : (m.process p).owns = true) (hsig : m.signalled (m.process p).session = true) :
    (m.step a).signalled (m.process p).session = true := by
  cases a with
  | CreateEvent q session got =>
      rw [step]
      split_ifs with hgot hnil
      · exact hsig
      · refine (Function.update_of_ne (fun hs => ?_) ..).trans hsig
        have hmem := (m.mem_holders p).mpr ⟨hinv.owner_mem hown, hs⟩
        rw [hnil] at hmem
        cases hmem
      · exact hsig
  | SetEvent q => exact signalled_SetEvent hsig q
  | WaitForSingleObject q =>
      have halive : (m.process q).m_sington.alive = true := by
        rw [show (m.process q).m_sington = .calling from hal]
        rfl
      rw [step]
      split_ifs with hmem
      · refine (Function.update_of_ne (fun hs => h ?_) ..).trans hsig
        exact hinv.owner q p (hinv.owns_of_alive hmem halive) hown hs.symm
      · exact hsig
      · exact hsig
  | _ => exact hsig

end Machine

/-! ### A second start -/

/-- The process is in its message loop and its `signton` will show the window. -/
def Machine.Told (m : Machine) (p : ℕ) : Prop :=
  ((m.process p).main = .serving ∧ (m.process p).m_SingletonEvent = true) ∧
    ((m.process p).m_sington = .calling ∧ m.signalled (m.process p).session = true ∨
      (m.process p).m_sington = .woken ∨ (m.process p).m_sington = .showing)

/-- How many steps the thread is away from showing the window, once it is told. -/
def SigntonThread.untilShown : SigntonThread → ℕ
  | calling => 2
  | woken => 1
  | none | waiting | showing | ended => 0

namespace Machine.Told

variable {m : Machine} {a : InstanceStep} {p q : ℕ}

/-- The event is set while the process is in its message loop. -/
theorem of_setEvent (hinv : MachineInv m) (hserve : (m.process p).main = .serving)
    (hsingle : (m.process p).m_SingletonEvent = true) (hfound : (m.process q).main = .found)
    (hsession : (m.process p).session = (m.process q).session) :
    (m.step (.SetEvent q)).Told p := by
  obtain ⟨hset, hanswer⟩ := hinv.setEvent q
  have hown : (m.process p).owns = true :=
    MachineInv.owns_iff.mpr ⟨by rw [hserve]; rfl, hsingle⟩
  obtain ⟨hwait, hsig⟩ := hanswer (hinv.fits hfound).2.2.2 p hown hsession
  have hmain := (m.main_SetEvent q p).trans hserve
  have hsingle' := (MachineInv.owns_iff.mp ((m.owns_SetEvent q p).trans hown)).2
  have halive := (hset.fits hmain).2.2.2 hsingle'
  have hne : p ≠ q := by
    rintro rfl
    rw [hserve] at hfound
    cases hfound
  rw [Machine.step]
  refine ⟨?_, ?_⟩ <;> rw [Machine.process_set_of_ne _ q p _ hne]
  · exact ⟨hmain, hsingle'⟩
  · rw [Machine.signalled_set, m.session_SetEvent q p]
    generalize ((m.SetEvent q).process p).m_sington = s at *
    cases s with
    | calling => exact .inl ⟨rfl, hsig.resolve_right SigntonThread.noConfusion⟩
    | woken => exact .inr (.inl rfl)
    | showing => exact .inr (.inr rfl)
    | waiting => exact absurd rfl hwait
    | none | ended => cases halive

theorem not_waiting (h : m.Told p) : (m.process p).m_sington ≠ .waiting := by
  rcases h.2 with ⟨hs, -⟩ | hs | hs
  all_goals
    rw [hs]
    exact SigntonThread.noConfusion

/-- A step that moves neither thread, nor touches the event. -/
theorem of_same (h : m.Told p) {f : Process → Process} {visible icon closing : Bool}
    (hf : f (m.process p) =
      { m.process p with visible := visible, icon := icon, closing := closing }) :
    (m.set p f).Told p ∧
      ((m.set p f).process p).m_sington.untilShown ≤ (m.process p).m_sington.untilShown := by
  rw [Machine.Told, Machine.process_set_self, hf]
  exact ⟨h, Nat.le_refl _⟩

/-- **Until the window is shown** or closed, each step of `signton` brings it nearer to showing
the window, and no other step takes it back. -/
theorem step (hinv : MachineInv m) (h : m.Told p) (hal : m.may a) (hclose : a ≠ .OnClose p)
    (hkill : a ≠ .kill p) (hshow : a ≠ .ShowWindow p) :
    (m.step a).Told p ∧ ((m.step a).process p).m_sington.untilShown +
      (if a.bySignton p then 1 else 0) ≤ (m.process p).m_sington.untilShown := by
  obtain ⟨⟨hserve, hsingle⟩, hsington⟩ := h
  by_cases hp : a.process = p
  · -- a step of the process itself: its main thread is in the message loop
    cases a with
    | OnClose q => exact absurd (congrArg _ hp) hclose
    | kill q => exact absurd (congrArg _ hp) hkill
    | ShowWindow q => exact absurd (congrArg _ hp) hshow
    | WaitForSingleObject q =>
        obtain rfl : q = p := hp
        have hcalling : (m.process q).m_sington = .calling := hal
        have hmem : q ∈ m.handles := (hinv.good q).handle.mpr ⟨by rw [hserve]; rfl, hsingle⟩
        have hsig : m.signalled (m.process q).session = true := by
          rw [hcalling] at hsington
          rcases hsington with ⟨-, hsig⟩ | hs | hs
          · exact hsig
          · cases hs
          · cases hs
        rw [Machine.step, if_neg (not_not.mpr hmem), if_pos hsig]
        refine ⟨⟨?_, .inr (.inl ?_)⟩, ?_⟩
        all_goals rw [Machine.process_set_self]
        · exact ⟨hserve, hsingle⟩
        · rw [hcalling, InstanceStep.bySignton, decide_eq_true rfl]
          rfl
    | signton q =>
        obtain rfl : q = p := hp
        have hwoken : (m.process q).m_sington = .woken := hal
        have hrun := (hinv.good q).fits.running_iff.mpr hserve
        rw [Machine.step]
        refine ⟨⟨?_, .inr (.inr ?_)⟩, ?_⟩
        all_goals rw [Machine.process_set_self]
        · exact ⟨hserve, hsingle⟩
        · exact if_pos hrun
        · rw [hwoken, if_pos hrun, InstanceStep.bySignton, decide_eq_true rfl]
          rfl
    | Notify q added | OnMouseLButtonDown q | iconLost q =>
        obtain rfl : q = p := hp
        rw [Machine.step]
        exact of_same ⟨⟨hserve, hsingle⟩, hsington⟩ rfl
    | OnMouseRButtonDown q chosen =>
        obtain rfl : q = p := hp
        rw [Machine.step]
        cases chosen <;> exact of_same ⟨⟨hserve, hsingle⟩, hsington⟩ rfl
    | listenWS q =>
        obtain rfl : q = p := hp
        have hrun := (hinv.good q).fits.running_iff.mpr hserve
        rw [Machine.step]
        exact of_same ⟨⟨hserve, hsingle⟩, hsington⟩ (if_pos hrun)
    | _ => simp_all [Machine.may, InstanceStep.process]
  · have hown : (m.process p).owns = true :=
      MachineInv.owns_iff.mpr ⟨by rw [hserve]; rfl, hsingle⟩
    have hsame : (m.step a).process p = m.process p :=
      (Machine.process_step_of_ne hp).resolve_right fun hw =>
        not_waiting ⟨⟨hserve, hsingle⟩, hsington⟩ hw.1
    have hnot : ¬ a.bySignton p = true := mt InstanceStep.process_of_bySignton hp
    rw [Machine.Told, hsame, if_neg hnot]
    refine ⟨⟨⟨hserve, hsingle⟩, hsington.imp_left fun hs => ⟨hs.1, ?_⟩⟩, Nat.le_refl _⟩
    exact Machine.signalled_step_of_ne hinv hal hp hown hs.2

/-- A told thread can always take its next step. -/
theorem progress (h : m.Told p) : ∃ a, a.bySignton p = true ∧ m.may a ∧
    ((m.process p).m_sington.untilShown = 0 →
      a = .ShowWindow p ∧ ((m.step a).process p).visible = true) := by
  obtain ⟨⟨hserve, -⟩, hs | hs | hs⟩ := h
  · refine ⟨.WaitForSingleObject p, decide_eq_true rfl, hs.1, fun h0 => ?_⟩
    rw [hs.1] at h0
    cases h0
  · refine ⟨.signton p, decide_eq_true rfl, hs, fun h0 => ?_⟩
    rw [hs] at h0
    cases h0
  · refine ⟨.ShowWindow p, decide_eq_true rfl, ⟨hs, by simp [hserve]⟩, fun _ => ⟨rfl, ?_⟩⟩
    rw [Machine.step, Machine.process_set_self]
    simp [hserve]

end Machine.Told

/-! ### The end of the program -/

/-- The message loop is left. -/
def MainThread.ending : MainThread → Bool
  | stopping | stopped | signalled | joining | gone => true
  | start | found | told | created | serving => false

def MainThread.remaining : MainThread → ℕ
  | stopping => 4
  | stopped => 3
  | signalled => 2
  | joining => 1
  | start | found | told | created | serving | gone => 0

def ListenThread.remaining : ListenThread → ℕ
  | looping => 1
  | none | ended => 0

def SigntonThread.remaining : SigntonThread → ℕ
  | showing => 4
  | calling => 3
  | waiting => 2
  | woken => 1
  | none | ended => 0

/-- How many steps the threads of a process still have, once the message loop is left. -/
def Process.remaining (x : Process) : ℕ :=
  x.main.remaining + x.m_wsserver.remaining + x.m_sington.remaining

theorem SigntonThread.remaining_le (s : SigntonThread) : s.remaining ≤ 4 := by
  cases s <;> decide

theorem ListenThread.remaining_le (s : ListenThread) : s.remaining ≤ 1 := by
  cases s <;> decide

namespace Machine

variable {m : Machine} {a : InstanceStep} {p : ℕ}

theorem remaining_SetEvent (m : Machine) (p : ℕ) :
    ((m.SetEvent p).process p).m_wsserver = (m.process p).m_wsserver ∧
      ((m.SetEvent p).process p).m_sington.remaining ≤ (m.process p).m_sington.remaining := by
  rcases m.process_SetEvent p p with h | ⟨hwait, h⟩
  · rw [h]
    exact ⟨rfl, Nat.le_refl _⟩
  · rw [h, hwait]
    exact ⟨rfl, Nat.le_succ 1⟩

/-- The wait of `signton` ends, or it begins. -/
theorem remaining_wait (hcalling : (m.process p).m_sington = .calling) :
    ((m.step (.WaitForSingleObject p)).process p).main = (m.process p).main ∧
      ((m.step (.WaitForSingleObject p)).process p).remaining + 1 ≤ (m.process p).remaining := by
  rw [step]
  split_ifs
  all_goals
    rw [process_set_self, Process.remaining, Process.remaining, hcalling]
    exact ⟨rfl, by simp only [SigntonThread.remaining]; omega⟩

/-- **After the message loop** each step of the process leaves it with fewer steps to take, and
no step of another process adds one. -/
theorem ending_step (hinv : MachineInv m) (hend : (m.process p).main.ending = true)
    (hal : m.may a) (hkill : a ≠ .kill p) :
    ((m.step a).process p).main.ending = true ∧
      ((m.step a).process p).remaining + (if a.process = p then 1 else 0) ≤
        (m.process p).remaining := by
  by_cases hp : a.process = p
  · rw [if_pos hp]
    have hrun : ¬ (m.process p).m_bWSRunning = true := fun hrun => by
      rw [(hinv.good p).fits.running_iff.mp hrun] at hend
      cases hend
    cases a with
    | kill q => exact absurd (congrArg _ hp) hkill
    | SetEvent q =>
        obtain rfl : q = p := hp
        have hstopped : (m.process q).main = .stopped := hal.resolve_left fun hfound => by
          rw [hfound] at hend
          cases hend
        obtain ⟨hserver, hsington⟩ := m.remaining_SetEvent q
        have hmain := (m.main_SetEvent q q).trans hstopped
        rw [step, process_set_self, Process.remaining, Process.remaining, hstopped, hserver,
          if_neg (by simp [hmain])]
        exact ⟨rfl, by simp only [MainThread.remaining]; omega⟩
    | CloseHandle q =>
        obtain rfl : q = p := hp
        have hsig : (m.process q).main = .signalled := hal.resolve_left fun htold => by
          rw [htold] at hend
          cases hend
        rw [step, process_set_self, Process.remaining, Process.remaining]
        have hself : (m.close q).process q = m.process q := rfl
        rw [hself, if_neg (by simp [hsig]), hsig]
        exact ⟨rfl, by simp only [MainThread.remaining]; omega⟩
    | listenWS q =>
        obtain rfl : q = p := hp
        rw [step, process_set_self, if_neg hrun, Process.remaining, Process.remaining,
          show (m.process q).m_wsserver = .looping from hal]
        exact ⟨hend, by simp only [ListenThread.remaining]; omega⟩
    | WSStop q =>
        obtain rfl : q = p := hp
        rw [step, process_set_self, Process.remaining, Process.remaining, hal.1]
        exact ⟨rfl, by simp only [MainThread.remaining]; omega⟩
    | WaitForSingleObject q =>
        obtain rfl : q = p := hp
        obtain ⟨hmain, hle⟩ := remaining_wait hal
        rw [hmain]
        exact ⟨hend, hle⟩
    | signton q =>
        obtain rfl : q = p := hp
        rw [step, process_set_self, if_neg hrun, Process.remaining, Process.remaining,
          show (m.process q).m_sington = .woken from hal]
        exact ⟨hend, by simp only [SigntonThread.remaining]; omega⟩
    | ShowWindow q =>
        obtain rfl : q = p := hp
        rw [step, process_set_self, Process.remaining, Process.remaining, hal.1]
        exact ⟨hend, by simp only [SigntonThread.remaining]; omega⟩
    | join q =>
        obtain rfl : q = p := hp
        rw [step, process_set_self, Process.remaining, Process.remaining, hal.1]
        exact ⟨rfl, by simp only [MainThread.remaining]; omega⟩
    | OnMouseLButtonDown q | OnMouseRButtonDown q chosen | iconLost q =>
        obtain rfl : q = p := hp
        rw [hal.1] at hend
        cases hend
    | _ =>
        -- these are steps of a main thread elsewhere
        rw [InstanceStep.process] at hp
        rw [hp, may] at hal
        rw [hal] at hend
        cases hend
  · rw [if_neg hp]
    rcases process_step_of_ne (m := m) hp with hsame | ⟨hwait, hsame⟩
    · rw [hsame]
      exact ⟨hend, Nat.le_refl _⟩
    · rw [hsame, Process.remaining, Process.remaining, hwait]
      exact ⟨hend, by simp only [SigntonThread.remaining]; omega⟩

/-- **No deadlock at the end**: some thread of the process can go on, until the process is
gone. -/
theorem ending_progress (hinv : MachineInv m) (hend : (m.process p).main.ending = true) :
    (m.process p).main = .gone ∨ ∃ a, a.process = p ∧ a ≠ .kill p ∧ m.may a := by
  cases hmain : (m.process p).main with
  | gone => exact .inl rfl
  | stopping =>
      cases hserver : (m.process p).m_wsserver with
      | none => exact absurd hserver (hinv.fits hmain).1
      | looping => exact .inr ⟨.listenWS p, rfl, InstanceStep.noConfusion, hserver⟩
      | ended => exact .inr ⟨.WSStop p, rfl, InstanceStep.noConfusion, hmain, hserver⟩
  | stopped => exact .inr ⟨.SetEvent p, rfl, InstanceStep.noConfusion, .inr hmain⟩
  | signalled => exact .inr ⟨.CloseHandle p, rfl, InstanceStep.noConfusion, .inr hmain⟩
  | joining =>
      obtain ⟨-, hnone, -, hwait⟩ := hinv.fits hmain
      cases hsington : (m.process p).m_sington with
      | none => exact absurd hsington hnone
      | waiting => exact absurd hsington hwait
      | calling => exact .inr ⟨.WaitForSingleObject p, rfl, InstanceStep.noConfusion, hsington⟩
      | woken => exact .inr ⟨.signton p, rfl, InstanceStep.noConfusion, hsington⟩
      | showing =>
          refine .inr ⟨.ShowWindow p, rfl, InstanceStep.noConfusion, hsington, ?_⟩
          rw [hmain]
          exact MainThread.noConfusion
      | ended => exact .inr ⟨.join p, rfl, InstanceStep.noConfusion, hmain, hsington⟩
  | _ =>
      rw [hmain] at hend
      cases hend

end Machine

/-! ### Main results -/

/-- A step of a process that leaves it the owner of its event, but for the one by which it gets the
event, finds it so. -/
theorem Machine.owns_step {m : Machine} {a : InstanceStep} (hal : m.may a)
    (ha : ∀ session got, a ≠ .CreateEvent a.process session got)
    (hown : ((m.step a).process a.process).main.owns = true) :
    (m.process a.process).main.owns = true ∧ ((m.step a).process a.process).m_SingletonEvent =
      (m.process a.process).m_SingletonEvent := by
  cases a with
  | CreateEvent q session got => exact absurd rfl (ha session got)
  | SetEvent q =>
      rw [step, InstanceStep.process, process_set_self] at hown ⊢
      rw [main_SetEvent] at hown
      refine ⟨?_, m.event_SetEvent q q⟩
      rcases hal with hmain | hmain <;> rw [hmain] at hown ⊢
      · cases hown
      · rfl
  | CloseHandle q =>
      rw [step, InstanceStep.process, process_set_self] at hown
      rcases hal with hmain | hmain
      all_goals
        rw [show ((m.close q).process q).main = _ from hmain] at hown
        cases hown
  | Start q | OnClose q =>
      refine ⟨?_, by rw [step, InstanceStep.process, process_set_self]⟩
      rw [InstanceStep.process, show (m.process q).main = _ from hal]
      rfl
  | WSStop q =>
      refine ⟨?_, by rw [step, InstanceStep.process, process_set_self]⟩
      rw [InstanceStep.process, hal.1]
      rfl
  | WaitForSingleObject q =>
      rw [step, InstanceStep.process] at hown ⊢
      split_ifs at hown ⊢ <;> rw [process_set_self] at hown ⊢ <;> exact ⟨hown, rfl⟩
  | listenWS q | OnMouseRButtonDown q chosen =>
      rw [step, InstanceStep.process, process_set_self] at hown ⊢
      split_ifs at hown ⊢ <;> exact ⟨hown, rfl⟩
  | Notify q added | OnMouseLButtonDown q | signton q | ShowWindow q | iconLost q =>
      rw [step, InstanceStep.process, process_set_self] at hown ⊢
      exact ⟨hown, rfl⟩
  | join q | kill q =>
      rw [step, InstanceStep.process, process_set_self] at hown
      cases hown

/-- A process that did not fail to get its event has it as long as it has not closed it. -/
theorem event_of_run {as : List InstanceStep} {m : Machine} {p : ℕ} (h : Machine.system.Run as m)
    (hp : ∀ session, .CreateEvent p session false ∉ as) :
    (m.process p).main.owns = true → (m.process p).m_SingletonEvent = true := by
  induction h with
  | nil => exact fun hown => by cases hown
  | @snoc as m m' a hrun hal hst ih =>
      obtain rfl := Except.ok.inj hst
      have hbefore := ih fun session hmem => hp session (List.mem_append_left _ hmem)
      by_cases ha : a.process = p
      · subst ha
        by_cases hcreate : ∃ session got, a = .CreateEvent a.process session got
        · obtain ⟨session, got, heq⟩ := hcreate
          have hgot : got = true := by
            by_contra hno
            rw [Bool.not_eq_true] at hno
            exact hp session (by rw [← hno, ← heq]; simp)
          rw [hgot] at heq
          intro _
          generalize a.process = q at heq ⊢
          rw [heq, Machine.step, if_neg (by simp)]
          split_ifs <;> rw [Machine.process_set_self]
        · intro hown
          obtain ⟨hown', hsame⟩ :=
            Machine.owns_step hal (fun session got heq => hcreate ⟨session, got, heq⟩) hown
          rw [hsame]
          exact hbefore hown'
      · rcases Machine.process_step_of_ne (m := m) ha with hsame | ⟨-, hsame⟩ <;> rw [hsame]
        · exact hbefore
        · exact hbefore

/-- **At most one process of a session serves sockets**, whatever processes are started, closed or
killed, and in whatever order they take their steps; if the processes did not fail to get their
event. -/
theorem one_instance {as : List InstanceStep} {m : Machine} (h : Machine.system.Run as m)
    {p q : ℕ} (hep : ∀ session, .CreateEvent p session false ∉ as)
    (heq : ∀ session, .CreateEvent q session false ∉ as)
    (hsession : (m.process p).session = (m.process q).session)
    (hp : (m.process p).m_wsserver = .looping) (hq : (m.process q).m_wsserver = .looping) :
    p = q := by
  have hinv := machineInv_reachable ⟨as, h⟩
  have howns : ∀ r, (∀ session, .CreateEvent r session false ∉ as) →
      (m.process r).m_wsserver = .looping → (m.process r).owns = true := by
    intro r her hr
    have hmain : (m.process r).main.owns = true := by
      rcases (hinv.good r).fits.listening hr with hmain | hmain <;> rw [hmain] <;> rfl
    exact MachineInv.owns_iff.mpr ⟨hmain, event_of_run h her hmain⟩
  exact hinv.owner p q (howns p hep hp) (howns q heq hq) hsession

/-- A process that leaves its window hidden in the tray and is killed; the one started next in the
session serves its sockets alone. -/
theorem one_instance_after_kill : ∃ m, Machine.system.Run
      [.CreateEvent 0 0 true, .Start 0, .Notify 0 true, .kill 0, .CreateEvent 1 0 true,
        .Start 1] m ∧
    ((m.process 0).main = .gone ∧ (m.process 1).m_wsserver = .looping) ∧
    ∀ q, (m.process 1).session = (m.process q).session →
      (m.process q).m_wsserver = .looping → 1 = q := by
  obtain ⟨m, hrun, hm⟩ := Machine.system.run_of_check_map
    [.CreateEvent 0 0 true, .Start 0, .Notify 0 true, .kill 0, .CreateEvent 1 0 true, .Start 1]
    (f := fun m => ((m.process 0).main, (m.process 1).m_wsserver)) (b := (.gone, .looping))
    (by decide)
  obtain ⟨hgone, hloop⟩ := Prod.mk.injEq .. ▸ hm
  exact ⟨m, hrun, ⟨hgone, hloop⟩, fun q hsession hq =>
    one_instance hrun (by simp) (by simp) hsession hloop hq⟩

/-- Two processes of one session serve sockets if the second fails to get the event. -/
example : (Machine.system.check {} [.CreateEvent 0 0 true, .Start 0, .CreateEvent 1 0 false,
      .Start 1]).map (fun m => ((m.process 0).m_wsserver, (m.process 1).m_wsserver)) =
    some (.looping, .looping) := by decide

/-- The user can reach the window: it is shown, or its icon is in the tray, or it is about to be
closed. -/
def Process.Reached (x : Process) : Prop := x.visible = true ∨ x.icon = true ∨ x.closing = true

/-- The tray does not take the icon of the process, or loses it. -/
def InstanceStep.TakesIcon (p : ℕ) (a : InstanceStep) : Prop :=
  a = .iconLost p ∨ a = .Notify p false

instance (p : ℕ) (a : InstanceStep) : Decidable (a.TakesIcon p) :=
  inferInstanceAs (Decidable (_ ∨ _))

/-- While the icon is not lost, a window in its message loop stays within reach. -/
theorem Machine.reached_step {m : Machine} {a : InstanceStep} {p : ℕ}
    (hserve : ((m.step a).process p).main = .serving)
    (hbefore : (m.process p).main = .serving → (m.process p).Reached) (ha : ¬ a.TakesIcon p) :
    ((m.step a).process p).Reached := by
  by_cases hp : a.process = p
  · subst hp
    cases a with
    | Start q | OnMouseLButtonDown q =>
        rw [step, InstanceStep.process, process_set_self]
        exact .inl rfl
    | Notify q added =>
        cases added with
        | true =>
            rw [step, InstanceStep.process, process_set_self]
            exact .inr (.inl (Bool.or_true _))
        | false => exact absurd (.inr rfl) ha
    | iconLost q => exact absurd (.inl rfl) ha
    | ShowWindow q =>
        rw [step, InstanceStep.process, process_set_self] at hserve ⊢
        refine .inl ?_
        rw [show (m.process q).main = .serving from hserve]
        exact Bool.or_true _
    | OnMouseRButtonDown q chosen =>
        rw [step, InstanceStep.process, process_set_self] at hserve ⊢
        cases chosen with
        | true => exact .inr (.inr rfl)
        | false => exact hbefore hserve
    | listenWS q =>
        rw [step, InstanceStep.process, process_set_self] at hserve ⊢
        split_ifs at hserve ⊢ <;> exact hbefore hserve
    | WaitForSingleObject q =>
        rw [step, InstanceStep.process] at hserve ⊢
        split_ifs at hserve ⊢ <;> rw [process_set_self] at hserve ⊢ <;> exact hbefore hserve
    | signton q =>
        rw [step, InstanceStep.process, process_set_self] at hserve ⊢
        exact hbefore hserve
    | CreateEvent q session got =>
        rw [step, InstanceStep.process] at hserve
        split_ifs at hserve <;> rw [process_set_self] at hserve <;> cases hserve
    | SetEvent q | CloseHandle q =>
        rw [step, InstanceStep.process, process_set_self] at hserve
        dsimp only at hserve
        split_ifs at hserve
    | OnClose q | WSStop q | join q | kill q =>
        rw [step, InstanceStep.process, process_set_self] at hserve
        cases hserve
  · rcases process_step_of_ne (m := m) hp with hsame | ⟨-, hsame⟩
    all_goals
      rw [hsame] at hserve ⊢
      exact hbefore hserve

theorem reached_of_run {as : List InstanceStep} {m : Machine} {p : ℕ}
    (h : Machine.system.Run as m) (hserve : (m.process p).main = .serving) :
    (m.process p).Reached ∨ Since (InstanceStep.TakesIcon p) (· = .Notify p true) as := by
  induction h with
  | nil => cases hserve
  | @snoc as m m' a hrun hal hst ih =>
      obtain rfl := Except.ok.inj hst
      rw [since_snoc]
      by_cases htakes : a.TakesIcon p
      · exact .inr (.inl htakes)
      · by_cases hadd : a = .Notify p true
        · subst hadd
          rw [Machine.step, Machine.process_set_self]
          exact .inl (.inr (.inl (Bool.or_true _)))
        · by_cases hsince : Since (InstanceStep.TakesIcon p) (· = .Notify p true) as
          · exact .inr (.inr ⟨hsince, hadd⟩)
          · exact .inl (Machine.reached_step hserve (fun h => (ih h).resolve_right hsince) htakes)

/-- **A hidden window can be shown again.** In the message loop a window that is hidden and not
about to be closed can be shown by a click on its icon, if the tray has neither refused nor lost
the icon since it was added last. -/
theorem hidden_window_has_icon {as : List InstanceStep} {m : Machine} {p : ℕ}
    (h : Machine.system.Run as m) (hserve : (m.process p).main = .serving)
    (hhidden : (m.process p).visible = false) (hopen : (m.process p).closing = false)
    (hicon : ¬ Since (InstanceStep.TakesIcon p) (· = .Notify p true) as) :
    m.may (.OnMouseLButtonDown p) ∧
      ((m.step (.OnMouseLButtonDown p)).process p).visible = true := by
  have hreach := (reached_of_run h hserve).resolve_right hicon
  rw [Process.Reached, hhidden, hopen] at hreach
  refine ⟨⟨hserve, by simpa using hreach⟩, ?_⟩
  rw [Machine.step, Machine.process_set_self]

/-- The shell is restarted while the window is in the tray; a second start shows the window, and it
is hidden again with a new icon. -/
theorem hidden_window_has_icon_restart : ∃ as m, Machine.system.Run as m ∧
    .iconLost 0 ∈ as ∧ ((m.process 0).main = .serving ∧ (m.process 0).visible = false ∧
      (m.process 0).closing = false) ∧ m.may (.OnMouseLButtonDown 0) := by
  obtain ⟨m, hrun, hm⟩ := Machine.system.run_of_check_map
    [.CreateEvent 0 0 true, .Start 0, .Notify 0 true, .iconLost 0, .CreateEvent 1 0 true,
      .SetEvent 1, .WaitForSingleObject 0, .signton 0, .ShowWindow 0, .Notify 0 true]
    (f := fun m => ((m.process 0).main, (m.process 0).visible, (m.process 0).closing))
    (b := (.serving, false, false)) (by decide)
  simp only [Prod.mk.injEq] at hm
  exact ⟨_, m, hrun, by simp, hm,
    (hidden_window_has_icon hrun hm.1 hm.2.1 hm.2.2 (by decide)).1⟩

/-- **A second start shows the window of the first.** A process finds the event while another one
of its session, which has a handle of the event, is in its message loop, and sets it. Then
`signton` of the other one, which may be anywhere, takes at most two steps before it shows the
window, and until it has shown it, it can take its next step; unless the other process is closed
or killed before. -/
theorem second_start_shows {as bs : List InstanceStep} {m m' : Machine} {p q : ℕ}
    (hrun : Machine.system.Run as m) (hserve : (m.process p).main = .serving)
    (hsingle : (m.process p).m_SingletonEvent = true) (hfound : (m.process q).main = .found)
    (hsession : (m.process p).session = (m.process q).session)
    (hrun' : Machine.system.Run (as ++ .SetEvent q :: bs) m') (hclose : .OnClose p ∉ bs)
    (hkill : .kill p ∉ bs) (hshow : .ShowWindow p ∉ bs) :
    bs.countP (InstanceStep.bySignton p) ≤ 2 ∧ ∃ a, a.bySignton p = true ∧ m'.may a ∧
      (bs.countP (InstanceStep.bySignton p) = 2 →
        a = .ShowWindow p ∧ ((m'.step a).process p).visible = true) := by
  have hset : Machine.system.Run (as ++ [.SetEvent q]) (m.step (.SetEvent q)) :=
    hrun.snoc (.inl hfound) rfl
  have htold := Machine.Told.of_setEvent (machineInv_reachable ⟨as, hrun⟩) hserve hsingle hfound
    hsession
  rw [List.append_cons] at hrun'
  have hstep : ∀ u b u', b ∈ bs → Machine.system.Reachable u → u.Told p →
      Machine.system.allowed u b → Machine.system.step u b = .ok u' →
      u'.Told p ∧ (u'.process p).m_sington.untilShown + (if b.bySignton p then 1 else 0) ≤
        (u.process p).m_sington.untilShown := by
    intro u b u' hb hreach hu hal hst
    obtain rfl := Except.ok.inj hst
    exact hu.step (machineInv_reachable hreach) hal (fun h => hclose (h ▸ hb))
      (fun h => hkill (h ▸ hb)) fun h => hshow (h ▸ hb)
  obtain ⟨htold', hle⟩ := hset.ranked htold hstep hrun'
  have hmost : ((m.step (.SetEvent q)).process p).m_sington.untilShown ≤ 2 := by
    cases ((m.step (.SetEvent q)).process p).m_sington <;> decide
  obtain ⟨a, hby, hmay, hlast⟩ := htold'.progress
  exact ⟨by omega, a, hby, hmay, fun htwo => hlast (by omega)⟩

/-- The window is in the tray, and `signton` has not waited yet when the second process sets the
event. -/
theorem second_start_shows_tray : ∃ m m', Machine.system.Run
      [.CreateEvent 0 0 true, .Start 0, .Notify 0 true, .CreateEvent 1 0 true] m ∧
    ((m.process 0).main = .serving ∧ (m.process 0).m_SingletonEvent = true ∧
      (m.process 1).main = .found ∧ (m.process 0).session = (m.process 1).session) ∧
    Machine.system.Run
      ([.CreateEvent 0 0 true, .Start 0, .Notify 0 true, .CreateEvent 1 0 true] ++
        [.SetEvent 1, .WaitForSingleObject 0, .signton 0]) m' ∧ m'.may (.ShowWindow 0) ∧
    ((m'.step (.ShowWindow 0)).process 0).visible = true := by
  obtain ⟨m, hrun, hm⟩ := Machine.system.run_of_check_map
    [.CreateEvent 0 0 true, .Start 0, .Notify 0 true, .CreateEvent 1 0 true]
    (f := fun m => decide ((m.process 0).main = .serving ∧
      (m.process 0).m_SingletonEvent = true ∧ (m.process 1).main = .found ∧
      (m.process 0).session = (m.process 1).session)) (b := true) (by decide)
  obtain ⟨m', hrun', -⟩ := Machine.system.run_of_check_map
    ([.CreateEvent 0 0 true, .Start 0, .Notify 0 true, .CreateEvent 1 0 true] ++
      [.SetEvent 1, .WaitForSingleObject 0, .signton 0]) (f := fun _ => ()) (b := ()) (by decide)
  rw [decide_eq_true_eq] at hm
  obtain ⟨-, a, -, hmay, hlast⟩ := second_start_shows hrun hm.1 hm.2.1 hm.2.2.1 hm.2.2.2 hrun'
    (by simp) (by simp) (by simp)
  obtain ⟨rfl, hvisible⟩ := hlast (by decide)
  exact ⟨m, m', hrun, hm, hrun', hmay, hvisible⟩

/-- **The program ends.** From the point where a process leaves its message loop, its threads take
at most nine more steps together, whatever other processes do to the event, and until the process
is gone, one of them can take its next step. -/
theorem shutdown_ends {as bs : List InstanceStep} {m m' : Machine} {p : ℕ}
    (hrun : Machine.system.Run as m) (hstop : (m.process p).main = .stopping)
    (hrun' : Machine.system.Run (as ++ bs) m') (hkill : .kill p ∉ bs) :
    bs.countP (·.process = p) ≤ 9 ∧
      ((m'.process p).main = .gone ∨ ∃ a, a.process = p ∧ a ≠ .kill p ∧ m'.may a) := by
  have hend : (m.process p).main.ending = true := by rw [hstop]; rfl
  have hstep : ∀ u b u', b ∈ bs → Machine.system.Reachable u →
      (u.process p).main.ending = true → Machine.system.allowed u b →
      Machine.system.step u b = .ok u' → (u'.process p).main.ending = true ∧
        (u'.process p).remaining + (if decide (b.process = p) then 1 else 0) ≤
          (u.process p).remaining := by
    intro u b u' hb hreach hu hal hst
    obtain rfl := Except.ok.inj hst
    simpa only [decide_eq_true_eq] using
      Machine.ending_step (machineInv_reachable hreach) hu hal fun h => hkill (h ▸ hb)
  obtain ⟨hend', hle⟩ := hrun.ranked hend hstep hrun'
  have hserver := (m.process p).m_wsserver.remaining_le
  have hsington := (m.process p).m_sington.remaining_le
  have hmost : (m.process p).remaining ≤ 9 := by
    rw [Process.remaining, hstop, MainThread.remaining]
    omega
  exact ⟨by omega, Machine.ending_progress (machineInv_reachable ⟨_, hrun'⟩) hend'⟩

/-- The window is closed while a second process is being started, which sets the event too. -/
theorem shutdown_ends_started : ∃ m m',
    Machine.system.Run [.CreateEvent 0 0 true, .Start 0, .CreateEvent 1 0 true, .OnClose 0] m ∧
    (m.process 0).main = .stopping ∧
    Machine.system.Run ([.CreateEvent 0 0 true, .Start 0, .CreateEvent 1 0 true, .OnClose 0] ++
      [.SetEvent 1, .WaitForSingleObject 0, .listenWS 0]) m' ∧
    ((m'.process 0).main = .gone ∨ ∃ a, a.process = 0 ∧ a ≠ .kill 0 ∧ m'.may a) := by
  obtain ⟨m, hrun, hm⟩ := Machine.system.run_of_check_map
    [.CreateEvent 0 0 true, .Start 0, .CreateEvent 1 0 true, .OnClose 0]
    (f := fun m => (m.process 0).main) (b := .stopping) (by decide)
  obtain ⟨m', hrun', -⟩ := Machine.system.run_of_check_map
    ([.CreateEvent 0 0 true, .Start 0, .CreateEvent 1 0 true, .OnClose 0] ++
      [.SetEvent 1, .WaitForSingleObject 0, .listenWS 0]) (f := fun _ => ()) (b := ()) (by decide)
  exact ⟨m, m', hrun, hm, hrun', (shutdown_ends hrun hm hrun' (by simp)).2⟩

end UCClient
