import UCClient.CallStatuses

/-!
# The State of the Script, by the Calls and Events Before

What the script does with an event is decided by its state, and its state by the calls and
events before. `SessionTable` says so of the calls it knows and of the current one; this module
says it of the socket and of the marks.

Four functions of the script mark the calls they are given, by a status. A function marks a call
only if it is known, and it may throw when the socket takes no command; then a second call that
it was given is not marked. All this can be read off the history, so there is a function
`marks` that tells which mark a call gets by an action, from the actions before. The mark of a
call is the last one, as long as the call is not released (`mark_history`).

## Main results

* `socket_history`: the socket after any history.
* `mark_history`: the mark of a call after any history.
-/

namespace UCClient

open Page

/-! ### What is decided by the history -/

namespace PageAction

/-- The call that an event releases. -/
def released : PageAction → Option Bytes
  | .message (.onCallReleased callid _) => some callid
  | _ => none

/-- The call that an event selects. -/
def selected : PageAction → Option Bytes
  | .message (.onCallAlerting callid) | .message (.onCallAnswered callid)
  | .message (.onIncomingCallReceived callid) | .message (.onCallResumed callid _) => some callid
  | _ => none

variable {a : PageAction} {callid : Bytes}

theorem releases_iff : a.Releases callid ↔ a.released = some callid := by
  cases a with
  | message ev => cases ev <;> simp [Releases, released]
  | _ => simp [Releases, released]

theorem selects_iff : a.Selects callid ↔ a.selected = some callid := by
  cases a with
  | message ev => cases ev <;> simp [Selects, Opens, selected]
  | _ => simp [Selects, Opens, selected]

instance : DecidablePred (Releases callid) := fun _ => decidable_of_iff _ releases_iff.symm

instance : DecidablePred (Opens callid) := fun _ => inferInstanceAs (Decidable (_ ∨ _ ∨ _))

instance : DecidablePred (Selects callid) := fun _ => decidable_of_iff _ selects_iff.symm

instance : DecidablePred fun a : PageAction => ∃ other, a.Selects other := fun a =>
  decidable_of_iff (a.selected.isSome = true) (by simp [Option.isSome_iff_exists, selects_iff])

end PageAction

instance (callid : Bytes) (as : List PageAction) : Decidable (Known callid as) :=
  inferInstanceAs (Decidable (Since _ _ as))

instance (callid : Bytes) (as : List PageAction) : Decidable (Current callid as) :=
  inferInstanceAs (Decidable (Since _ _ as))

/-! ### The socket -/

/-- What an action does to the socket. -/
def PageAction.socketAfter : PageAction → Option ReadyState → Option ReadyState
  | .Connect websocketurl accepted, websocket =>
      if websocketurl ≠ .undefined ∧ accepted = true then some .CONNECTING else websocket
  | .socket state, websocket => websocket.map fun _ => state
  | .message _, websocket | .plain _, websocket | .ConsultationCall .., websocket
  | .ReconnectCall .., websocket | .AlternateCall .., websocket | .transferMeeting .., websocket =>
      websocket

/-- The socket after a history. -/
def socketOf (as : List PageAction) : Option ReadyState :=
  as.foldl (fun websocket a => a.socketAfter websocket) none

/-- After the history, the socket takes what is sent. -/
def takesSends (as : List PageAction) : Bool := Page.canSend { websocket := socketOf as }

/-- The socket is not changed. -/
def SameSocket (s s' : Page) : Prop := s'.websocket = s.websocket

instance : Std.Refl SameSocket := ⟨fun _ => rfl⟩

instance : IsTrans Page SameSocket := ⟨fun _ _ _ h h' => h'.trans h⟩

theorem program_socket {a : PageAction} (ha : a.setsSocket = false) :
    Frame SameSocket a.program := by
  by_cases hmsg : ∃ ev, a = .message ev
  · obtain ⟨ev, rfl⟩ := hmsg
    have hev : Frame SameSocket (wsonMessage ev) :=
      wsonMessage_frame (fun _ _ _ hw => hw) (fun _ _ => rfl) (fun _ _ _ _ => rfl)
        (fun _ _ _ => rfl) fun _ _ _ _ => rfl
    exact hev.bind fun _ => .pure none
  · refine program_frame (fun ev hev => hmsg ⟨ev, hev⟩) (fun _ _ _ _ hw => ?_) fun _ _ _ _ _ => rfl
    exact hw.resolve_left (by simp [ha])

theorem Browser.websocket_step (b : Browser) (a : PageAction) :
    (b.step a).page.websocket = a.socketAfter b.page.websocket := by
  cases a with
  | Connect websocketurl accepted =>
      rw [PageAction.socketAfter]
      split_ifs with h
      · simp only [step, outcome, PageAction.program, h.1, h.2, ne_eq, not_false_eq_true, if_true]
        rfl
      · by_cases hurl : websocketurl = .undefined
        · simp only [step, outcome, PageAction.program, hurl, ne_eq, not_true, if_false]
          rfl
        · have hacc : accepted = false := by simpa [hurl] using h
          simp only [step, outcome, PageAction.program, hurl, hacc, ne_eq, not_false_eq_true,
            if_true, Bool.false_eq_true, if_false]
          rfl
  | socket state => rfl
  | message | plain | ConsultationCall | ReconnectCall | AlternateCall | transferMeeting =>
      exact program_socket rfl { b.page with trace := [] }

section Histories

variable {as : List PageAction} {b : Browser}

theorem socket_history (h : Browser.system.Run as b) : b.page.websocket = socketOf as := by
  induction h with
  | nil => rfl
  | @snoc as b b' a _ _ hst ih =>
      cases hst
      rw [Browser.websocket_step, ih, socketOf, socketOf, List.foldl_append]
      rfl

theorem canSend_history (h : Browser.system.Run as b) : b.page.canSend = takesSends as := by
  rw [takesSends, canSend, socket_history h, canSend]

theorem log_history (h : Browser.system.Run as b) : b.log.map Entry.action = as := by
  induction h with
  | nil => rfl
  | snoc _ _ hst ih =>
      cases hst
      rw [Browser.step, List.map_append, ih]
      rfl

end Histories

/-! ### Marks -/

/-- What a function of the script notes on a call. -/
inductive Mark
  | consultation (called : JsValue)
  | reconnection
  | alternation
  | conference
  deriving DecidableEq, Repr

/-- The mark of a session, by its status. -/
def Session.mark (session : Session) : Option Mark :=
  match session._status with
  | some .STATUS_CONSULTATIONING => some (.consultation session._consultNumber)
  | some .STATUS_RECONNECTING => some .reconnection
  | some .STATUS_ALTERNATEING => some .alternation
  | some .STATUS_CONFERENCEING => some .conference
  | some .STATUS_NULL | some .STATUS_CONNECTED | some .STATUS_SINGLESTEPCONFERENCEING | none => none

/-- The mark of a call. -/
def Page.mark (s : Page) (callid : Bytes) : Option Mark := (s.SessionS callid).bind Session.mark

/-- `x && UCClient.SessionS[x]`, by the calls that are known. -/
def JsValue.finds (keys : Bytes → Bool) (x : JsValue) : Bool := x.truthy && keys x.key

/-- The mark that a function leaves on a call, by the calls that are known and by whether the
socket takes what is sent. -/
def PageAction.mark (keys : Bytes → Bool) (sends : Bool) (callid : Bytes) :
    PageAction → Option Mark
  | .ConsultationCall x called _ =>
      if x.finds keys ∧ x.key = callid then some (.consultation called) else none
  | .ReconnectCall x y =>
      if x.finds keys ∧ x.key = callid ∨ (y.finds keys ∧ y.key = callid) ∧ (x.finds keys → sends)
      then some .reconnection else none
  | .AlternateCall x y =>
      if x.finds keys ∧ x.key = callid ∨ (y.finds keys ∧ y.key = callid) ∧ (x.finds keys → sends)
      then some .alternation else none
  | .transferMeeting _ y x _ =>
      if x.finds keys ∧ x.key = callid ∨ y.finds keys ∧ y.key = callid
      then some .conference else none
  | .Connect .. | .socket _ | .message _ | .plain _ => none

/-- The mark that an action leaves on a call, after a history. -/
def marks (as : List PageAction) (a : PageAction) (callid : Bytes) : Option Mark :=
  a.mark (fun c => decide (Known c as)) (takesSends as) callid

/-- The call is resumed. -/
def PageAction.Resumes (callid : Bytes) (a : PageAction) : Prop :=
  ∃ reason, a = .message (.onCallResumed callid reason)

instance (callid : Bytes) : DecidablePred (PageAction.Resumes callid) := fun a =>
  decidable_of_iff (a.selected = some callid ∧ ¬ a.Opens callid) (by
    cases a with
    | message ev => cases ev <;> simp [PageAction.Resumes, PageAction.selected, PageAction.Opens]
    | _ => simp [PageAction.Resumes, PageAction.selected, PageAction.Opens])

/-- The mark was left on the call. Since then no other was and the call was not released; nor was
it resumed, if it is to be reconnected. -/
def Marked (callid : Bytes) (m : Mark) (as : List PageAction) : Prop :=
  SinceAt (fun past a => marks past a callid = some m)
    (fun past a => marks past a callid ≠ none ∨ a.Releases callid ∨
      m = .reconnection ∧ a.Resumes callid) as

instance (callid : Bytes) (m : Mark) (as : List PageAction) : Decidable (Marked callid m as) :=
  inferInstanceAs (Decidable (SinceAt _ _ as))

theorem marked_snoc {callid : Bytes} {m : Mark} {as : List PageAction} {a : PageAction} :
    Marked callid m (as ++ [a]) ↔ marks as a callid = some m ∨ Marked callid m as ∧
      ¬ (marks as a callid ≠ none ∨ a.Releases callid ∨
        m = .reconnection ∧ a.Resumes callid) := sinceAt_snoc

/-! ### What the functions store -/

section Functions

variable {s : Page} {callid : Bytes} {x y : JsValue} {m : Mark} {f : Session → Session}

/-- A store into the session of a call, if it exists. -/
def Page.stored (s : Page) (x : JsValue) (f : Session → Session) : Page :=
  { s with SessionS := Function.update s.SessionS x.key ((s.SessionS x.key).map f) }

theorem stored_keys : (s.stored x f).calls.keys = s.calls.keys :=
  congrArg CallTable.keys (SameCalls.setSession x.key f s)

/-- The common part of the functions about a call, as it is run. -/
theorem ifKnown_run {β : Type} (k n : PageM β) :
    (do
      if ← known x then
        setSession x.key f
        k
      else n) s = if x.finds s.calls.keys then k (s.stored x f) else n s := by
  have hknown : known x s = .ok (x.finds s.calls.keys) s := rfl
  rw [EStateM.bind_ok hknown]
  split_ifs
  · rfl
  · rfl

/-- The mark of a call after a store that marks. -/
theorem stored_mark (hf : ∀ session, (f session).mark = some m) :
    (s.stored x f).mark callid =
      if s.calls.keys x.key = true ∧ x.key = callid then some m else s.mark callid := by
  by_cases hkey : x.key = callid
  · subst hkey
    cases hs : s.SessionS x.key with
    | none => simp [mark, stored, calls, hs]
    | some session => simp [mark, stored, calls, hs, hf]
  · rw [if_neg fun h => hkey h.2]
    exact SameStored.setSession_of_ne hkey f s

theorem doSend_mark (cmd : Cmd) : (doSend cmd s).state.mark callid = s.mark callid :=
  doSend_frame (R := SameStored Session.mark callid)
    (fun _ _ h _ _ => SameStored.of_sessions h) cmd s

/-- A call is marked if it is found, and a command is sent or not. -/
theorem markSend_mark (hf : ∀ session, (f session).mark = some m) (cmd : Cmd) {n : PageM Unit}
    (hn : (n s).state.mark callid = s.mark callid) :
    ((do
      if ← known x then
        setSession x.key f
        doSend cmd
      else n) s).state.mark callid =
      if x.finds s.calls.keys ∧ x.key = callid then some m else s.mark callid := by
  rw [ifKnown_run]
  cases hx : x.finds s.calls.keys with
  | true =>
      rw [JsValue.finds, Bool.and_eq_true] at hx
      rw [if_pos rfl, doSend_mark, stored_mark hf]
      simp [hx.2]
  | false => simpa using hn

/-- Two calls are marked, each before its command is sent; if the first command throws, the
second call is left alone. -/
theorem markBoth_mark (hf : ∀ session, (f session).mark = some m) (cmd : Cmd)
    {second : PageM Unit} (hsecond : ∀ s, (second s).state.mark callid =
      if y.finds s.calls.keys ∧ y.key = callid then some m else s.mark callid) :
    ((do
      if ← known x then
        setSession x.key f
        doSend cmd
        second
      else second) s).state.mark callid =
      if x.finds s.calls.keys ∧ x.key = callid ∨
          (y.finds s.calls.keys ∧ y.key = callid) ∧ (x.finds s.calls.keys → s.canSend)
        then some m else s.mark callid := by
  rw [ifKnown_run]
  cases hx : x.finds s.calls.keys with
  | false =>
      rw [if_neg Bool.false_ne_true]
      simpa using hsecond s
  | true =>
      have hfirst : (s.stored x f).mark callid =
          if x.key = callid then some m else s.mark callid := by
        rw [JsValue.finds, Bool.and_eq_true] at hx
        simp [stored_mark hf, hx.2]
      rw [if_pos rfl]
      cases hsend : s.canSend with
      | true =>
          rw [EStateM.bind_ok (doSend_ok (s := s.stored x f) hsend cmd)]
          refine (hsecond _).trans ?_
          have hsame : ((s.stored x f).observed [.send cmd]).mark callid =
            (s.stored x f).mark callid := rfl
          have hkeys : ((s.stored x f).observed [.send cmd]).calls.keys = s.calls.keys :=
            stored_keys
          rw [hsame, hkeys, hfirst]
          by_cases hkey : x.key = callid <;> simp [hkey]
      | false =>
          obtain ⟨e, he⟩ := doSend_error (s := s.stored x f) hsend cmd
          rw [EStateM.bind_error he]
          refine hfirst.trans ?_
          simp

/-- **What a function of the script does to the mark of a call.** -/
theorem program_mark {a : PageAction} (ha : ∀ ev, a ≠ .message ev) :
    (a.program s).state.mark callid =
      (a.mark s.calls.keys s.canSend callid).or (s.mark callid) := by
  have hor : ∀ {c : Prop} [Decidable c] {m : Mark}, (if c then some m else s.mark callid) =
      (if c then some m else none).or (s.mark callid) := by
    intro c _ m
    split_ifs <;> rfl
  have hnone : a.named = [] → (a.program s).state.mark callid = s.mark callid := fun hnil =>
    program_frame (R := SameStored Session.mark callid) ha
      (fun _ _ h _ _ => SameStored.of_sessions h) (by simp [hnil]) s
  cases a with
  | Connect | socket | plain => exact hnone rfl
  | message ev => exact absurd rfl (ha ev)
  | ConsultationCall x called userdata =>
      rw [PageAction.program, EStateM.state_map, PageAction.mark, ← hor, Page.ConsultationCall,
        ifKnown_run]
      cases hx : x.finds s.calls.keys with
      | false => simp [EStateM.Result.state, pure, EStateM.pure]
      | true =>
          rw [JsValue.finds, Bool.and_eq_true] at hx
          rw [if_pos rfl, EStateM.state_bind_pure, pauseCall, doSend_mark,
            stored_mark (m := .consultation called) fun _ => rfl]
          simp [hx.2]
  | ReconnectCall activeCall heldCall =>
      rw [PageAction.program, EStateM.state_bind_pure, PageAction.mark, ← hor]
      exact markBoth_mark (fun _ => rfl) _ fun s => markSend_mark (fun _ => rfl) _ rfl
  | AlternateCall activeCall otherCall =>
      rw [PageAction.program, EStateM.state_bind_pure, PageAction.mark, ← hor]
      exact markBoth_mark (fun _ => rfl) _ fun s => markSend_mark (fun _ => rfl) _ rfl
  | transferMeeting type y x consultedUser =>
      have hrest := fun (s : Page) cmd => @markSend_mark s callid y .conference
        (fun session => { session with _status := some .STATUS_CONFERENCEING })
        (fun _ => rfl) cmd _ (doSend_mark cmd)
      rw [PageAction.program, EStateM.state_bind_pure, PageAction.mark, ← hor]
      refine (congrArg (fun r => Page.mark (EStateM.Result.state r) callid)
        (ifKnown_run _ _)).trans ?_
      cases hx : x.finds s.calls.keys with
      | false => exact (hrest s _).trans (by simp)
      | true =>
          rw [JsValue.finds, Bool.and_eq_true] at hx
          refine (hrest _ _).trans ?_
          rw [stored_keys, stored_mark (m := .conference) fun _ => rfl]
          by_cases hkey : x.key = callid
          · subst hkey
            simp [hx.2]
          · simp [hkey]

end Functions

/-! ### What the events store -/

section Events

variable {s : Page} {callid : Bytes}

/-- An event that neither releases nor resumes the call leaves its mark alone. -/
theorem wsonMessage_mark {ev : PageEvent} (hrel : ∀ reason, ev ≠ .onCallReleased callid reason)
    (hres : ∀ reason, ev ≠ .onCallResumed callid reason) :
    (wsonMessage ev s).state.mark callid = s.mark callid := by
  refine SameStored.wsonMessage (π := Session.mark) rfl hrel ?_ ?_ s
  · exact fun c _ => SameStored.setSession_of_eq fun _ => rfl
  · rintro c reason rfl
    refine SameStored.setSession_of_ne ?_ _
    rintro rfl
    exact hres reason rfl

theorem onCallReleased_mark (reason : ℤ) :
    (wsonMessage (.onCallReleased callid reason) s).state.mark callid = none := by
  simp [onCallReleased_run, EStateM.Result.state, mark]

/-- A call that is resumed is not to be reconnected any more. -/
theorem onCallResumed_mark (reason : ℤ) :
    (wsonMessage (.onCallResumed callid reason) s).state.mark callid =
      if s.mark callid = some .reconnection then none else s.mark callid := by
  cases hs : s.SessionS callid with
  | none => simp [onCallResumed_unknown hs, EStateM.Result.state, mark, hs]
  | some session =>
      simp only [onCallResumed_run hs, EStateM.Result.state, mark, hs, Function.update_self,
        Option.bind_some]
      by_cases hst : session._status = some .STATUS_RECONNECTING
      · simp [hst, Session.mark]
      · rw [if_neg hst, if_neg]
        rw [Session.mark]
        split <;> simp_all

end Events

/-- **One action on the mark of a call.** -/
theorem Browser.mark_step_iff {b : Browser} {a : PageAction} {callid : Bytes} {m : Mark} :
    (b.step a).page.mark callid = some m ↔
      a.mark b.page.calls.keys b.page.canSend callid = some m ∨ b.page.mark callid = some m ∧
        ¬ (a.mark b.page.calls.keys b.page.canSend callid ≠ none ∨ a.Releases callid ∨
          m = .reconnection ∧ a.Resumes callid) := by
  by_cases hmsg : ∃ ev, a = .message ev
  · obtain ⟨ev, rfl⟩ := hmsg
    have hnone : (PageAction.message ev).mark b.page.calls.keys b.page.canSend callid = none := rfl
    rw [page_step_message, hnone]
    by_cases hrel : ∃ reason, ev = .onCallReleased callid reason
    · obtain ⟨reason, rfl⟩ := hrel
      rw [onCallReleased_mark]
      simp [PageAction.Releases]
    by_cases hres : ∃ reason, ev = .onCallResumed callid reason
    · obtain ⟨reason, rfl⟩ := hres
      rw [onCallResumed_mark]
      have hmark : Page.mark { b.page with trace := [] } callid = b.page.mark callid := rfl
      rw [hmark]
      by_cases hm : b.page.mark callid = some .reconnection
      · simp [hm, PageAction.Releases, PageAction.Resumes, eq_comm]
      · by_cases heq : m = .reconnection
        · subst heq
          simp [hm]
        · simp [hm, heq, PageAction.Releases]
    · simp only [not_exists] at hrel hres
      rw [wsonMessage_mark hrel hres]
      have hmark : Page.mark { b.page with trace := [] } callid = b.page.mark callid := rfl
      simp [hmark, PageAction.Releases, PageAction.Resumes, hrel, hres]
  · have ha : ∀ ev, a ≠ .message ev := fun ev hev => hmsg ⟨ev, hev⟩
    have hstep : (b.step a).page.mark callid =
        (a.mark b.page.calls.keys b.page.canSend callid).or (b.page.mark callid) :=
      @program_mark { b.page with trace := [] } callid a ha
    have hrel : ¬ a.Releases callid := by
      rintro ⟨reason, h⟩
      exact ha _ h
    have hres : ¬ a.Resumes callid := by
      rintro ⟨reason, h⟩
      exact ha _ h
    rw [hstep]
    cases a.mark b.page.calls.keys b.page.canSend callid with
    | none => simp [hrel, hres]
    | some m' => simp

/-- What a function marks can be read off the history. -/
theorem marks_history {as : List PageAction} {b : Browser} (h : Browser.system.Run as b)
    (a : PageAction) (callid : Bytes) :
    a.mark b.page.calls.keys b.page.canSend callid = marks as a callid := by
  have hkeys : b.page.calls.keys = fun c => decide (Known c as) := by
    funext c
    rw [← Bool.coe_iff_coe, (calls_history h).keys, decide_eq_true_iff]
  rw [marks, hkeys, canSend_history h]

/-- **The mark of a call is its history.** -/
theorem mark_history {as : List PageAction} {b : Browser} (h : Browser.system.Run as b)
    (callid : Bytes) (m : Mark) : b.page.mark callid = some m ↔ Marked callid m as := by
  induction h with
  | nil => exact iff_of_false (by simp [Browser.system, mark]) not_sinceAt_nil
  | @snoc as b b' a hrun _ hst ih =>
      cases hst
      rw [Browser.mark_step_iff, marks_history hrun, ih, marked_snoc]

end UCClient
