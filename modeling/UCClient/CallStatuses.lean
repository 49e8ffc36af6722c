import UCClient.SessionTable

/-!
# What Changes the Session of a Call

The session of a call keeps two words that decide how the next events of the call are
reported: its status, and the cause with which it was classified. Four functions of the
script write the status, for the calls they are given, and so does the event that the call
was resumed, if a reconnection was asked for; the cause is written when the call alerts or
is answered. The release of the call deletes both with the session. Everything else leaves
them alone (`wsonMessage_status`, `program_cause`): the other events, the events and functions
of other calls, and also every exception.
-/

namespace UCClient

open Page

/-- The status of a call: there is none if it is not known, or if none was stored. -/
def Page.status (s : Page) (callid : Bytes) : Option CallStatus :=
  (s.SessionS callid).bind Session._status

/-- The cause that a call was classified with. -/
def Page.cause (s : Page) (callid : Bytes) : Option Cause :=
  (s.SessionS callid).bind Session._cause

/-- The cause a handler of the page is called with. -/
def PageObs.cause : PageObs → Option Cause
  | .callback _ cause => cause
  | .send _ => none

/-- The cause an event is reported with. -/
def Page.reported (s : Page) (ev : PageEvent) : Option Cause :=
  (wsonMessage ev { s with trace := [] }).state.trace.findSome? PageObs.cause

/-- The cause an event was reported with. -/
def Entry.cause (e : Entry) : Option Cause := e.obs.findSome? PageObs.cause

theorem findSome?_callback (ev : PageEvent) (cause : Option Cause) :
    [PageObs.callback ev cause].findSome? PageObs.cause = cause := by
  cases cause <;> rfl

namespace Browser

theorem page_step_message (b : Browser) (ev : PageEvent) :
    (b.step (.message ev)).page = (wsonMessage ev { b.page with trace := [] }).state :=
  EStateM.state_bind_pure (wsonMessage ev) (none : Option ℕ) _

theorem cause_entry_message (b : Browser) (ev : PageEvent) :
    (b.entry (.message ev)).cause = b.page.reported ev :=
  congrArg (List.findSome? PageObs.cause ∘ Page.trace) (b.page_step_message ev)

end Browser

/-! ### What an event stores -/

section Events

variable {R : Page → Page → Prop} [Std.Refl R] [IsTrans Page R]

/-- **What an event does to the script**: it deletes the session of the call it releases or adds
one for the call it opens, makes at most one of two stores into a session, and selects a call. A
relation that allows these stores, and everything that concerns neither the sessions nor the
socket, is kept by it, whether it is handled or throws. -/
theorem wsonMessage_frame {ev : PageEvent}
    (hsame : ∀ s s', s'.SessionS = s.SessionS → s'.websocket = s.websocket → R s s')
    (hadd : ∀ c, Frame R (addSession c))
    (hdelete : ∀ c reason, ev = .onCallReleased c reason → Frame R
      (modify fun s => { s with SessionS := Function.update s.SessionS c none } : PageM Unit))
    (hcause : ∀ c, ev = .onCallAnswered c ∨ ev = .onCallAlerting c →
      Frame R (setSession c fun session => { session with _cause := some .Consultation }))
    (hstatus : ∀ c reason, ev = .onCallResumed c reason →
      Frame R (setSession c fun session => { session with _status := some .STATUS_CONNECTED })) :
    Frame R (wsonMessage ev) := by
  have hcallback : ∀ cause, Frame R (callback ev cause) := fun _ _ => hsame _ _ rfl rfl
  have hcallid : ∀ current, Frame R (setCallid current) := fun _ _ => hsame _ _ rfl rfl
  have hsend : ∀ cmd, Frame R (doSend cmd) := doSend_frame fun s s' h _ hw => hsame s s' h hw
  have hanother : ∀ c, Frame R (anotherCall c) := by
    intro c s
    rw [anotherCall, EStateM.get_bind]
    cases s.callid <;> exact hsame _ _ rfl rfl
  have hsession : ∀ c, Frame R (session c) := by
    intro c s
    rw [session, EStateM.get_bind]
    cases s.SessionS c <;> exact hsame _ _ rfl rfl
  cases ev with
  | onCallReleased c reason =>
      refine Frame.get.bind fun _ => (hdelete c reason rfl).bind fun _ => Frame.get.bind fun _ => ?_
      exact .ite ((hcallid none).bind fun _ => hcallback _) (hcallback _)
  | onCallAnswered c =>
      have hrest : Frame R (do
          let cause := (← session c)._cause
          setCallid (some c)
          callback (.onCallAnswered c) cause) :=
        (hsession c).bind fun _ => (hcallid _).bind fun _ => hcallback _
      refine (hadd c).bind fun _ => (hanother c).bind fun _ => ?_
      exact .ite ((hcause c (.inl rfl)).bind fun _ => hrest) hrest
  | onCallAlerting c =>
      refine (hadd c).bind fun _ => (hanother c).bind fun _ => ?_
      refine .ite ((hcause c (.inr rfl)).bind fun _ => ?_) ?_
      all_goals exact (hcallid _).bind fun _ => hcallback _
  | onIncomingCallReceived c =>
      exact (hcallid _).bind fun _ => (hadd c).bind fun _ => hcallback _
  | onCallPaused c reason =>
      refine (hsession c).bind fun _ => .ite ?_ (hcallback _)
      exact (hsend _).bind fun _ => (hsend _).bind fun _ => hcallback _
  | onCallResumed c reason =>
      refine (hcallid _).bind fun _ => (hsession c).bind fun _ => ?_
      refine .ite ((hstatus c reason rfl).bind fun _ => ?_) ?_
      all_goals exact hcallback _
  | other event => exact .ite (hcallback _) (.pure ())

end Events

/-! ### A word of the session -/

variable {β : Type} {π : Session → Option β} {callid : Bytes}

/-- What the session of the call stores as `π` is not changed. -/
def SameStored (π : Session → Option β) (callid : Bytes) (s s' : Page) : Prop :=
  (s'.SessionS callid).bind π = (s.SessionS callid).bind π

instance : Std.Refl (SameStored π callid) := ⟨fun _ => rfl⟩

instance : IsTrans Page (SameStored π callid) := ⟨fun _ _ _ h h' => h'.trans h⟩

namespace SameStored

variable {c : Bytes}

/-- The sessions are not touched. -/
theorem of_sessions {s s' : Page} (h : s'.SessionS = s.SessionS) : SameStored π callid s s' := by
  rw [SameStored, h]

/-- A session is stored or deleted, and it is that of another call or stores the same. -/
theorem of_update {s s' : Page} {entry : Option Session}
    (h : s'.SessionS = Function.update s.SessionS c entry)
    (hc : c = callid → entry.bind π = (s.SessionS callid).bind π) : SameStored π callid s s' := by
  rw [SameStored, h]
  by_cases heq : c = callid
  · rw [heq, Function.update_self, hc heq]
  · rw [Function.update_of_ne (Ne.symm heq)]

theorem setSession_of_ne (hc : c ≠ callid) (f : Session → Session) :
    Frame (SameStored π callid) (setSession c f) :=
  fun _ => of_update rfl fun h => absurd h hc

theorem setSession_of_eq {f : Session → Session} (hf : ∀ x, π (f x) = π x) :
    Frame (SameStored π callid) (setSession c f) := by
  intro s
  refine of_update rfl ?_
  rintro rfl
  cases s.SessionS c with
  | none => rfl
  | some x => exact hf x

theorem addSession (hπ : π {} = none) (c : Bytes) :
    Frame (SameStored π callid) (addSession c) := by
  intro s
  refine of_update rfl ?_
  rintro rfl
  cases s.SessionS c with
  | none => exact hπ
  | some x => rfl

theorem deleted (hc : c ≠ callid) : Frame (SameStored π callid)
    (modify fun s => { s with SessionS := Function.update s.SessionS c none } : PageM Unit) :=
  fun _ => of_update rfl fun h => absurd h hc

/-- What an event does to the session of a call, unless it releases the call. -/
theorem wsonMessage {ev : PageEvent} (hπ : π {} = none)
    (hrel : ∀ reason, ev ≠ .onCallReleased callid reason)
    (hcause : ∀ c, ev = .onCallAnswered c ∨ ev = .onCallAlerting c →
      Frame (SameStored π callid)
        (setSession c fun session => { session with _cause := some .Consultation }))
    (hstatus : ∀ c reason, ev = .onCallResumed c reason →
      Frame (SameStored π callid)
        (setSession c fun session => { session with _status := some .STATUS_CONNECTED })) :
    Frame (SameStored π callid) (wsonMessage ev) := by
  refine wsonMessage_frame (fun _ _ h _ => of_sessions h) (addSession hπ) ?_ hcause hstatus
  rintro c reason rfl
  refine deleted ?_
  rintro rfl
  exact hrel reason rfl

/-- What an action does to the sessions, from what an event does. -/
theorem program {a : PageAction}
    (hmsg : ∀ ev, a = .message ev → Frame (SameStored π callid) (Page.wsonMessage ev))
    (hset : ∀ x ∈ a.named, ∀ f : Session → Session, (∀ y, (f y)._cause = y._cause) →
      Frame (SameStored π callid) (setSession x.key f)) :
    Frame (SameStored π callid) a.program := by
  by_cases ha : ∃ ev, a = .message ev
  · obtain ⟨ev, rfl⟩ := ha
    exact (hmsg ev rfl).bind fun _ => .pure none
  · exact program_frame (fun ev hev => ha ⟨ev, hev⟩) (fun _ _ h _ _ => of_sessions h) hset

end SameStored

/-! ### The status -/

/-- Events other than those that a call is released or resumed leave its status alone. -/
theorem wsonMessage_status {ev : PageEvent} (hrel : ∀ reason, ev ≠ .onCallReleased callid reason)
    (hres : ∀ reason, ev ≠ .onCallResumed callid reason) :
    Frame (SameStored Session._status callid) (wsonMessage ev) := by
  refine SameStored.wsonMessage rfl hrel ?_ ?_
  · exact fun c _ => SameStored.setSession_of_eq fun _ => rfl
  · rintro c reason rfl
    refine SameStored.setSession_of_ne ?_ _
    rintro rfl
    exact hres reason rfl

/-- A call that was not resumed to end a reconnection keeps its status when it is resumed. -/
theorem onCallResumed_status (reason : ℤ) {s : Page}
    (h : s.status callid ≠ some .STATUS_RECONNECTING) :
    SameStored Session._status callid s (wsonMessage (.onCallResumed callid reason) s).state := by
  cases hs : s.SessionS callid with
  | none =>
      simp only [wsonMessage, Page.setCallid, EStateM.modify_bind, session_bind, hs]
      exact SameStored.of_sessions rfl
  | some session =>
      rw [status, hs, Option.bind_some] at h
      rw [onCallResumed_run hs, if_neg h]
      refine SameStored.of_update rfl fun _ => ?_
      rw [hs]

/-- The status decides how the release of the call is reported. -/
theorem reported_onCallReleased (s : Page) (reason : ℤ) :
    s.reported (.onCallReleased callid reason) =
      if s.status callid = some .STATUS_RECONNECTING then some .Reconnection else none := by
  rw [reported, onCallReleased_run]
  exact findSome?_callback _ _

/-! ### The cause -/

/-- **What leaves the cause of a call alone**: all functions, and events other than those
that it is released, alerts or is answered. -/
theorem program_cause {a : PageAction} (hrel : ¬ a.Releases callid)
    (halert : a ≠ .message (.onCallAlerting callid))
    (hanswer : a ≠ .message (.onCallAnswered callid)) :
    Frame (SameStored Session._cause callid) a.program := by
  refine SameStored.program ?_ fun x _ f hf => SameStored.setSession_of_eq hf
  rintro ev rfl
  refine SameStored.wsonMessage rfl ?_ ?_ ?_
  · rintro reason rfl
    exact hrel ⟨reason, rfl⟩
  · rintro c hev
    refine SameStored.setSession_of_ne ?_ _
    rintro rfl
    rcases hev with rfl | rfl
    · exact hanswer rfl
    · exact halert rfl
  · exact fun c reason _ => SameStored.setSession_of_eq fun _ => rfl

section Classified

variable {s : Page}

/-- Where a call is classified, the cause is a consultation if another call is current or if
it was one before. -/
theorem classified_cause : (s.classified callid)._cause = some .Consultation ↔
    s.another callid = true ∨ s.cause callid = some .Consultation := by
  rw [classified, cause]
  cases s.another callid <;> cases s.SessionS callid <;> simp

theorem onCallReleased_cause (reason : ℤ) :
    (wsonMessage (.onCallReleased callid reason) s).state.cause callid = none := by
  simp [onCallReleased_run, EStateM.Result.state, cause]

theorem onCallAlerting_cause :
    (wsonMessage (.onCallAlerting callid) s).state.cause callid =
      (s.classified callid)._cause := by
  simp [onCallAlerting_run, EStateM.Result.state, cause]

theorem onCallAnswered_cause :
    (wsonMessage (.onCallAnswered callid) s).state.cause callid =
      (s.classified callid)._cause := by
  simp [onCallAnswered_run, EStateM.Result.state, cause]

end Classified

end UCClient
