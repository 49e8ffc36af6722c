import UCClient.Histories
import UCClient.Script

/-!
# The Session Table Is Its Event History

Which calls the script knows and which one is current is decided by the events alone. On
the `CallTable` — the keys of `SessionS` and `callid` — every event is a move, whether its
handler throws or not (`wsonMessage_calls`), and the functions a page calls do nothing
(`program_calls`): they store into sessions that exist.

The moves are then read as statements about the history: a call is known since one of
the three events that open it, until it is released; it is current since an event that
selects it, until another call is selected or it is released.

## Main results

* `calls_history`: the keys of `SessionS` and `callid` after any history.
* `session_table_history`: the keys of `SessionS` and `callid` after any history in which
  no event handler throws.
-/

namespace UCClient

open Page

/-- The calls the script knows, and the current one. -/
structure CallTable where
  callid : Option Bytes
  keys : Bytes → Bool

/-- The table of the script's state. -/
def Page.calls (p : Page) : CallTable where
  callid := p.callid
  keys := fun callid => (p.SessionS callid).isSome

/-- What an event does to the table. -/
def CallTable.step (t : CallTable) : PageEvent → CallTable
  | .onCallReleased callid _ =>
      { callid := if t.callid = some callid then none else t.callid
        keys := Function.update t.keys callid false }
  | .onCallAnswered callid | .onCallAlerting callid | .onIncomingCallReceived callid =>
      { callid := some callid, keys := Function.update t.keys callid true }
  | .onCallResumed callid _ => { t with callid := some callid }
  | .onCallPaused _ _ | .other _ => t

namespace PageAction

/-- An event from which on the call is known. -/
def Opens (callid : Bytes) (a : PageAction) : Prop :=
  a = .message (.onCallAlerting callid) ∨ a = .message (.onCallAnswered callid) ∨
    a = .message (.onIncomingCallReceived callid)

/-- The event that ends the call. -/
def Releases (callid : Bytes) (a : PageAction) : Prop :=
  ∃ reason, a = .message (.onCallReleased callid reason)

/-- An event that makes the call the current one. -/
def Selects (callid : Bytes) (a : PageAction) : Prop :=
  a.Opens callid ∨ ∃ reason, a = .message (.onCallResumed callid reason)

end PageAction

/-! ### Functions of the script -/

section Functions

variable {R : Page → Page → Prop}

/-- The socket is changed by the page or by the browser. -/
def PageAction.setsSocket : PageAction → Bool
  | .Connect .. | .socket _ => true
  | .message _ | .plain _ | .ConsultationCall .. | .ReconnectCall .. | .AlternateCall ..
  | .transferMeeting .. => false

/-- Sending changes neither the sessions nor the current call nor the socket, whether it throws
or not. -/
theorem doSend_frame (hsame : ∀ s s', s'.SessionS = s.SessionS → s'.callid = s.callid →
    s'.websocket = s.websocket → R s s') (cmd : Cmd) : Frame R (doSend cmd) := by
  intro s
  cases hs : s.canSend with
  | true =>
      rw [doSend_ok hs]
      exact hsame _ _ rfl rfl rfl
  | false =>
      obtain ⟨e, he⟩ := doSend_error hs cmd
      rw [he]
      exact hsame _ _ rfl rfl rfl

variable [Std.Refl R] [IsTrans Page R]

/-- The common part of the functions about a call: a store into its session, if it exists,
and a command. -/
theorem ifKnown_frame {β : Type} {callid : JsValue} {f : Session → Session} {m n : PageM β}
    (hset : Frame R (setSession callid.key f)) (hm : Frame R m) (hn : Frame R n) :
    Frame R (do
      if ← known callid then
        setSession callid.key f
        m
      else n) := by
  have hknown : Frame R (known callid) := fun s => Std.Refl.refl s
  exact hknown.bind fun _ => .ite (hset.bind fun _ => hm) hn

/-- **What the functions of the script do to the sessions**: a relation that allows the
stores they make for the calls they are given, and everything that concerns neither the
sessions nor the current call, is kept by them, whether they throw or not. Most of them do not
touch the socket either. -/
theorem program_frame {a : PageAction} (ha : ∀ ev, a ≠ .message ev)
    (hsame : ∀ s s', s'.SessionS = s.SessionS → s'.callid = s.callid →
      a.setsSocket = true ∨ s'.websocket = s.websocket → R s s')
    (hset : ∀ x ∈ a.named, ∀ f : Session → Session, (∀ y, (f y)._cause = y._cause) →
      Frame R (setSession x.key f)) : Frame R a.program := by
  have hpure : Frame R (pure none : PageM (Option ℕ)) := .pure none
  have hsend : ∀ cmd, Frame R (doSend cmd) :=
    doSend_frame fun s s' h hc hw => hsame s s' h hc (.inr hw)
  cases a with
  | Connect websocketurl accepted =>
      refine .ite (.ite (Frame.bind (fun _ => hsame _ _ rfl rfl (.inl rfl)) fun _ => hpure) ?_)
        hpure
      exact Frame.bind (fun _ => hsame _ _ rfl rfl (.inl rfl)) fun _ => hpure
  | socket state => exact Frame.bind (fun _ => hsame _ _ rfl rfl (.inl rfl)) fun _ => hpure
  | message ev => exact absurd rfl (ha ev)
  | plain cmd => exact (hsend cmd).bind fun _ => hpure
  | ConsultationCall callid called userdata =>
      refine Frame.map some (ifKnown_frame ?_ ((hsend _).bind fun _ => .pure 0) (.pure 3))
      exact hset callid List.mem_cons_self _ fun _ => rfl
  | ReconnectCall activeCall heldCall | AlternateCall activeCall otherCall =>
      refine Frame.bind (ifKnown_frame (hset activeCall List.mem_cons_self _ fun _ => rfl)
        ((hsend _).bind fun _ => ?_) ?_) fun _ => hpure
      all_goals
        refine ifKnown_frame ?_ (hsend _) (.pure ())
        exact hset _ (List.mem_cons_of_mem _ List.mem_cons_self) _ fun _ => rfl
  | transferMeeting type otherCall activeCall consultedUser =>
      have hother : ∀ cmd, Frame R (do
          if ← known otherCall then
            setSession otherCall.key fun session =>
              { session with _status := some .STATUS_CONFERENCEING }
            doSend cmd
          else doSend cmd) := fun cmd =>
        ifKnown_frame (hset otherCall List.mem_cons_self _ fun _ => rfl) (hsend cmd) (hsend cmd)
      refine Frame.bind (ifKnown_frame ?_ (hother _) (hother _)) fun _ => hpure
      exact hset activeCall (List.mem_cons_of_mem _ List.mem_cons_self) _ fun _ => rfl

end Functions

/-! ### Handlers and functions on the table -/

/-- The table is not changed. -/
def SameCalls (p p' : Page) : Prop := p'.calls = p.calls

instance : Std.Refl SameCalls := ⟨fun _ => rfl⟩

instance : IsTrans Page SameCalls := ⟨fun _ _ _ h h' => h'.trans h⟩

namespace SameCalls

theorem of_same (s s' : Page) (h : s'.SessionS = s.SessionS) (hc : s'.callid = s.callid) :
    SameCalls s s' := by
  rw [SameCalls, calls, h, hc, calls]

theorem setSession (callid : Bytes) (f : Session → Session) :
    Frame SameCalls (setSession callid f) := by
  intro s
  have hkeys : (fun c => (Function.update s.SessionS callid ((s.SessionS callid).map f) c).isSome) =
      fun c => (s.SessionS c).isSome := by
    funext c
    by_cases hc : c = callid
    · subst hc
      simp
    · rw [Function.update_of_ne hc]
  exact congrArg (CallTable.mk s.callid) hkeys

theorem callback (ev : PageEvent) (cause : Option Cause) : Frame SameCalls (callback ev cause) :=
  fun _ => rfl

theorem doSend (cmd : Cmd) : Frame SameCalls (doSend cmd) :=
  doSend_frame (fun s s' h hc _ => of_same s s' h hc) cmd

end SameCalls

/-- **The functions a page calls leave the table alone**, whether they throw or not. -/
theorem program_calls {a : PageAction} (ha : ∀ ev, a ≠ .message ev) :
    Frame SameCalls a.program :=
  program_frame ha (fun s s' h hc _ => SameCalls.of_same s s' h hc) fun x _ f _ =>
    SameCalls.setSession x.key f

/-- The table after a session was stored or deleted. -/
theorem calls_update (s : Page) (current : Option Bytes) (callid : Bytes)
    (entry : Option Session) (trace : List PageObs) :
    Page.calls { s with
      callid := current
      SessionS := Function.update s.SessionS callid entry
      trace := trace } =
      { callid := current, keys := Function.update s.calls.keys callid entry.isSome } :=
  congrArg (CallTable.mk current) (Function.comp_update Option.isSome s.SessionS callid entry)

/-- **Every event is a move of the table**, whether it is handled or throws. -/
theorem wsonMessage_calls (ev : PageEvent) (s : Page) :
    (wsonMessage ev s).state.calls = s.calls.step ev := by
  cases ev with
  | onCallReleased callid reason =>
      rw [onCallReleased_run]
      exact calls_update s _ callid none _
  | onCallAnswered callid =>
      rw [onCallAnswered_run]
      exact calls_update s _ callid _ _
  | onCallAlerting callid =>
      rw [onCallAlerting_run]
      exact calls_update s _ callid _ _
  | onIncomingCallReceived callid =>
      rw [onIncomingCallReceived_run]
      exact calls_update s _ callid _ _
  | onCallPaused callid reason =>
      cases hs : s.SessionS callid with
      | none =>
          rw [onCallPaused_unknown hs]
          rfl
      | some session =>
          rw [onCallPaused_run hs]
          split
          · have hframe : Frame SameCalls (do
                setUserData (.number 2) session._userdata
                makeCall session._consultNumber
                callback (.onCallPaused callid reason) (some .Consultation)) :=
              (SameCalls.doSend _).bind fun _ => (SameCalls.doSend _).bind fun _ =>
                SameCalls.callback _ _
            exact hframe s
          · rfl
  | onCallResumed callid reason =>
      cases hs : s.SessionS callid with
      | none =>
          rw [onCallResumed_unknown hs]
          rfl
      | some session =>
          have hkey : s.calls.keys callid = true := congrArg Option.isSome hs
          rw [onCallResumed_run hs]
          refine (calls_update s _ callid _ _).trans ?_
          rw [Option.isSome_some, ← hkey, Function.update_eq_self]
          rfl
  | other event =>
      have hframe : Frame SameCalls (wsonMessage (.other event)) :=
        .ite (SameCalls.callback _ _) (.pure ())
      exact hframe s

/-- A call that is resumed without an exception is known. -/
theorem known_of_resumed {s s' : Page} {callid : Bytes} {reason : ℤ}
    (h : wsonMessage (.onCallResumed callid reason) s = .ok () s') :
    s.calls.keys callid = true := by
  cases hs : s.SessionS callid with
  | none =>
      rw [onCallResumed_unknown hs] at h
      cases h
  | some session => exact congrArg Option.isSome hs

/-! ### The table and the history -/

section History

open PageAction

variable {t : CallTable} {ev : PageEvent} {callid : Bytes}

theorem keys_step_iff : (t.step ev).keys callid = true ↔
    Opens callid (.message ev) ∨ t.keys callid = true ∧ ¬ Releases callid (.message ev) := by
  cases ev with
  | onCallReleased c | onCallAnswered c | onCallAlerting c | onIncomingCallReceived c =>
      rcases eq_or_ne callid c with rfl | hc
      · simp [CallTable.step, Opens, Releases]
      · simp [CallTable.step, Opens, Releases, hc, hc.symm]
  | onCallPaused | onCallResumed | other => simp [CallTable.step, Opens, Releases]

theorem callid_step_iff : (t.step ev).callid = some callid ↔
    Selects callid (.message ev) ∨ t.callid = some callid ∧
      ¬ ((∃ other, Selects other (.message ev)) ∨ Releases callid (.message ev)) := by
  cases ev with
  | onCallReleased c reason =>
      by_cases hcur : t.callid = some c
      · simp [CallTable.step, Opens, Selects, Releases, hcur]
      · have hne : t.callid = some callid → c ≠ callid := by
          rintro hcallid rfl
          exact hcur hcallid
        simpa [CallTable.step, Opens, Selects, Releases, hcur] using hne
  | onCallAnswered | onCallAlerting | onIncomingCallReceived | onCallResumed | onCallPaused
  | other => simp [CallTable.step, Opens, Selects, Releases]

end History

/-! ### Runs -/

namespace Browser

variable {b : Browser} {a : PageAction} {ev : PageEvent}

theorem step_message (b : Browser) (ev : PageEvent) :
    (b.step (.message ev)).page.calls = b.page.calls.step ev := by
  have hstate : (b.step (.message ev)).page = (wsonMessage ev { b.page with trace := [] }).state :=
    EStateM.state_bind_pure (wsonMessage ev) (none : Option ℕ) _
  rw [hstate, wsonMessage_calls]
  rfl

theorem known_of_handled {r : Option ℕ} {callid : Bytes} {reason : ℤ}
    (h : (b.outcome (.message (.onCallResumed callid reason))).value = .ok r) :
    b.page.calls.keys callid = true := by
  obtain ⟨_, s, hm, -⟩ := EStateM.bind_ok_inv (EStateM.Result.eq_ok_of_value h)
  exact known_of_resumed (s := { b.page with trace := [] }) hm

theorem step_calls (ha : ∀ ev, a ≠ .message ev) : (b.step a).page.calls = b.page.calls :=
  program_calls ha _

end Browser

/-- The call has alerted, been answered or come in, and was not released since. -/
def Known (callid : Bytes) (as : List PageAction) : Prop :=
  Since (PageAction.Opens callid) (PageAction.Releases callid) as

/-- The call was the last to alert, be answered, come in or be resumed, and was not released
since. -/
def Current (callid : Bytes) (as : List PageAction) : Prop :=
  Since (PageAction.Selects callid) (fun a => (∃ other, a.Selects other) ∨ a.Releases callid) as

/-- The table is what the history says. -/
structure TableInv (t : CallTable) (as : List PageAction) : Prop where
  keys : ∀ callid, t.keys callid = true ↔ Known callid as
  callid : ∀ callid, t.callid = some callid ↔ Current callid as

namespace TableInv

variable {t : CallTable} {as : List PageAction} {a : PageAction} {ev : PageEvent}

theorem nil : TableInv (Page.calls {}) [] where
  keys := fun _ => iff_of_false nofun not_since_nil
  callid := fun _ => iff_of_false nofun not_since_nil

theorem message (h : TableInv t as) (ev : PageEvent) :
    TableInv (t.step ev) (as ++ [.message ev]) := by
  refine ⟨fun c => ?_, fun c => ?_⟩
  · rw [keys_step_iff, Known, since_snoc, h.keys, Known]
  · rw [callid_step_iff, Current, since_snoc, h.callid, Current]

theorem other (h : TableInv t as) (ha : ∀ ev, a ≠ .message ev) : TableInv t (as ++ [a]) := by
  have hopens : ∀ c, ¬ a.Opens c := fun c hc => by
    rcases hc with rfl | rfl | rfl <;> exact ha _ rfl
  have hselects : ∀ c, ¬ a.Selects c := fun c hc => by
    rcases hc with hc | ⟨reason, rfl⟩
    · exact hopens c hc
    · exact ha _ rfl
  have hreleases : ∀ c, ¬ a.Releases c := fun c hc => by
    obtain ⟨reason, rfl⟩ := hc
    exact ha _ rfl
  refine ⟨fun c => ?_, fun c => ?_⟩
  · rw [h.keys, Known, Known, since_snoc]
    simp [hopens c, hreleases c]
  · rw [h.callid, Current, Current, since_snoc]
    simp [hselects, hreleases c]

end TableInv

/-- The current call is known. -/
def CallTable.CurrentKnown (t : CallTable) : Prop :=
  ∀ callid, t.callid = some callid → t.keys callid = true

/-- An event keeps the current call known, if it is not that an unknown call is resumed. -/
theorem CallTable.CurrentKnown.step {t : CallTable} {ev : PageEvent} (h : t.CurrentKnown)
    (hres : ∀ callid reason, ev = .onCallResumed callid reason → t.keys callid = true) :
    (t.step ev).CurrentKnown := by
  intro c hc
  rw [keys_step_iff]
  rcases callid_step_iff.mp hc with (hopen | ⟨reason, heq⟩) | ⟨hcur, hnot⟩
  · exact .inl hopen
  · cases heq
    exact .inr ⟨hres c reason rfl, by simp [PageAction.Releases]⟩
  · exact .inr ⟨h c hcur, fun hrel => hnot (.inr hrel)⟩

/-- **The table after any history**, of calls and events that throw or not. -/
theorem calls_history {as : List PageAction} {b : Browser} (h : Browser.system.Run as b) :
    TableInv b.page.calls as := by
  induction h with
  | nil => exact .nil
  | @snoc as b b' a hrun hal hst ih =>
      cases hst
      by_cases ha : ∃ ev, a = .message ev
      · obtain ⟨ev, rfl⟩ := ha
        rw [Browser.step_message]
        exact ih.message ev
      · have ha : ∀ ev, a ≠ .message ev := fun ev hev => ha ⟨ev, hev⟩
        rw [Browser.step_calls ha]
        exact ih.other ha

/-- **The session table is its event history.** After any calls of the page and any events,
as long as no event handler threw: a call is a key of `SessionS` exactly when it has
alerted, been answered or come in since it was last released; it is `callid` exactly when
it was the last to alert, be answered, come in or be resumed, and has not been released
since. So `callid` is null or a key. -/
theorem session_table_history {as : List PageAction} {b : Browser}
    (h : Browser.system.Run as b)
    (hok : ∀ e ∈ b.log, ∀ ev, e.action = .message ev → ∃ r, e.result = .ok r) :
    (∀ callid, (b.page.SessionS callid).isSome = true ↔
        Since (PageAction.Opens callid) (PageAction.Releases callid) as) ∧
      (∀ callid, b.page.callid = some callid ↔
        Since (PageAction.Selects callid)
          (fun a => (∃ other, a.Selects other) ∨ a.Releases callid) as) ∧
      ∀ callid, b.page.callid = some callid → (b.page.SessionS callid).isSome = true := by
  refine ⟨(calls_history h).keys, (calls_history h).callid, ?_⟩
  have hknown : b.page.calls.CurrentKnown := by
    induction h with
    | nil => exact fun _ hc => by cases hc
    | @snoc as b b' a hrun hal hst ih =>
        cases hst
        have hbefore := ih fun e he => hok e (List.mem_append_left _ he)
        by_cases ha : ∃ ev, a = .message ev
        · obtain ⟨ev, rfl⟩ := ha
          obtain ⟨r, hr⟩ := hok _ (List.mem_append_right _ List.mem_cons_self) ev rfl
          rw [Browser.step_message]
          refine hbefore.step ?_
          rintro callid reason rfl
          exact Browser.known_of_handled hr
        · have ha : ∀ ev, a ≠ .message ev := fun ev hev => ha ⟨ev, hev⟩
          rw [Browser.step_calls ha]
          exact hbefore
  exact hknown

/-- A call comes in and is held for a consultation, which ends: the call is known and none
is current. -/
theorem session_table_history_twoCalls :
    ∃ as b, Browser.system.Run as b ∧ b.page.callid = none ∧
      (b.page.SessionS [49]).isSome = true ∧
      Since (PageAction.Opens [49]) (PageAction.Releases [49]) as := by
  obtain ⟨b, hrun, hb⟩ := StepSystem.run_of_check_map (S := Browser.system)
    (f := fun b => (b.page.callid, (b.page.SessionS [49]).isSome, b.log.all fun e => e.result.isOk))
    (b := (none, true, true))
    [.Connect (.string [119]), .socket .OPEN, .message (.onIncomingCallReceived [49]),
      .message (.onCallAnswered [49]), .ConsultationCall (.string [49]) (.string [50]) .null,
      .message (.onCallPaused [49] 200), .message (.onCallAlerting [51]),
      .message (.onCallReleased [51] 200)] (by decide)
  obtain ⟨hcallid, hkey, hall⟩ : _ ∧ _ ∧ _ := by simpa using hb
  have hok : ∀ e ∈ b.log, ∀ ev, e.action = .message ev → ∃ r, e.result = .ok r := by
    intro e he ev _
    have hisOk := hall e he
    cases hr : e.result with
    | ok r => exact ⟨r, rfl⟩
    | error x => simp [hr, Except.isOk, Except.toBool] at hisOk
  exact ⟨_, b, hrun, hcallid, hkey, ((session_table_history hrun hok).1 [49]).mp hkey⟩

end UCClient
