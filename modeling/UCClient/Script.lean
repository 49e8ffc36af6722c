import Mathlib.Logic.Function.Basic
import UCClient.Basic
import UCClient.Runs
import UCClient.Triples

/-!
# UCClient.js

The script a page uses to talk to the client program: it sends commands over a WebSocket
and keeps, from the events that come back, a table `SessionS` of the calls and the call
`callid` that is current.

A JavaScript function that throws keeps what it did before, so the functions are programs
over the state of the script that end in a value or in an exception, and in a state either
way. Sending throws while there is no socket (`TypeError`) or while it is connecting
(`InvalidStateError`); on a closing or closed socket it does nothing more.

Call ids are strings. `SessionS` is an array that is used as a map, and under the names of
the properties that arrays have (`arrayNames`) it is never empty; `Ordinary` excludes these as
call ids, and the model is that of the script for ordinary ones. `Browser.ordinary` is the
system of the calls and events that keep to them.

The handlers a page installs are the last thing an event does; they are observed and not run,
for what they call is a call of the page like any other. The functions that only send a
command are one action, `plain`.
-/

namespace UCClient

/-- The primitive values a page can pass. -/
inductive JsValue
  | undefined
  | null
  | bool (b : Bool)
  | number (n : ℤ)
  | string (s : Bytes)
  deriving DecidableEq, Repr

namespace JsValue

/-- The value as a condition. -/
def truthy : JsValue → Bool
  | undefined | null => false
  | bool b => b
  | number n => n != 0
  | string s => s != []

/-- The value as the name of a property. -/
def key : JsValue → Bytes
  | undefined => bytes "undefined"
  | null => bytes "null"
  | bool b => bytes (toString b)
  | number n => bytes (toString n)
  | string s => s

end JsValue

/-- `UCClient.STATUS`. -/
inductive CallStatus
  | STATUS_NULL | STATUS_CONSULTATIONING | STATUS_RECONNECTING | STATUS_CONNECTED
  | STATUS_ALTERNATEING | STATUS_CONFERENCEING | STATUS_SINGLESTEPCONFERENCEING
  deriving DecidableEq, Repr

/-- `UCClient.Cause`. -/
inductive Cause
  | Alternate | CallCancelled | CallNotAnswered | Consultation | Reconnection | MakeCall
  | NewCall | NormalClearing | SingleStepConference | Conference | SingleStepTransfer
  | Transfer
  deriving DecidableEq, Repr

/-- An entry of `UCClient.SessionS`; a property that is not set is `undefined`. -/
structure Session where
  _status : Option CallStatus := none
  _cause : Option Cause := none
  _consultNumber : JsValue := .undefined
  _userdata : JsValue := .undefined
  deriving DecidableEq, Repr

/-- A command object; its `type` is always `cmd`. -/
structure Cmd where
  cmd : String
  param : Option (List (String × JsValue))
  deriving DecidableEq, Repr

/-- `readyState` of a WebSocket. -/
inductive ReadyState
  | CONNECTING | OPEN | CLOSING | CLOSED
  deriving DecidableEq, Repr

/-- The exceptions the script can raise. -/
inductive PageError
  | TypeError | InvalidStateError | SyntaxError
  deriving DecidableEq, Repr

/-- An event message, by its name and what of its `param` the script knows. The events it
has no use for itself are `other`. -/
inductive PageEvent
  | onCallReleased (callid : Bytes) (reason : ℤ)
  | onCallAnswered (callid : Bytes)
  | onCallAlerting (callid : Bytes)
  | onIncomingCallReceived (callid : Bytes)
  | onCallPaused (callid : Bytes) (reason : ℤ)
  | onCallResumed (callid : Bytes) (reason : ℤ)
  | other (event : String)
  deriving DecidableEq, Repr

/-- The call an event is about. -/
def PageEvent.call : PageEvent → Option Bytes
  | .onCallReleased callid _ | .onCallAnswered callid | .onCallAlerting callid
  | .onIncomingCallReceived callid | .onCallPaused callid _ | .onCallResumed callid _ => some callid
  | .other _ => none

/-- The names of the properties that every array has: its own, and those of the prototypes of
arrays and objects. -/
def arrayNames : List String :=
  ["length", "__proto__", "constructor", "at", "concat", "copyWithin", "entries", "every", "fill",
    "filter", "find", "findIndex", "findLast", "findLastIndex", "flat", "flatMap", "forEach",
    "includes", "indexOf", "join", "keys", "lastIndexOf", "map", "pop", "push", "reduce",
    "reduceRight", "reverse", "shift", "slice", "some", "sort", "splice", "toLocaleString",
    "toReversed", "toSorted", "toSpliced", "toString", "unshift", "values", "with",
    "__defineGetter__", "__defineSetter__", "__lookupGetter__", "__lookupSetter__",
    "hasOwnProperty", "isPrototypeOf", "propertyIsEnumerable", "valueOf"]

/-- The call id is not the name of a property that arrays have. -/
def Ordinary (callid : Bytes) : Prop := ∀ name ∈ arrayNames, bytes name ≠ callid

instance (callid : Bytes) : Decidable (Ordinary callid) :=
  inferInstanceAs (Decidable (∀ name ∈ arrayNames, _))

/-- What the outside sees of the script: commands given to the socket, and the handlers of
the page, called with the event and the `cause` the script adds to it. -/
inductive PageObs
  | send (cmd : Cmd)
  | callback (ev : PageEvent) (cause : Option Cause)
  deriving DecidableEq, Repr

/-- The state of the script. -/
structure Page where
  callid : Option Bytes := none
  SessionS : Bytes → Option Session := fun _ => none
  websocket : Option ReadyState := none
  trace : List PageObs := []

/-- Functions of the script. -/
abbrev PageM := EStateM PageError Page

namespace Page

/-- `UCClient.SessionS[callid]`, with a property read from it. -/
def session (callid : Bytes) : PageM Session := do
  match (← get).SessionS callid with
  | some session => pure session
  | none => throw .TypeError

/-- A store into properties of a session that exists. -/
def setSession (callid : Bytes) (f : Session → Session) : PageM Unit := modify fun s =>
  { s with SessionS := Function.update s.SessionS callid ((s.SessionS callid).map f) }

/-- `UCClient.SessionS[callid] = UCClient.SessionS[callid] || {}`. -/
def addSession (callid : Bytes) : PageM Unit := modify fun s =>
  { s with SessionS := Function.update s.SessionS callid ((s.SessionS callid).or (some {})) }

/-- The handler the page installed for the event is called. -/
def callback (ev : PageEvent) (cause : Option Cause) : PageM Unit := modify fun s =>
  { s with trace := s.trace ++ [.callback ev cause] }

/-- `callid && UCClient.SessionS[callid]`. -/
def known (callid : JsValue) : PageM Bool := do
  pure (callid.truthy && ((← get).SessionS callid.key).isSome)

/-! ### Commands -/

def doSend (cmd : Cmd) : PageM Unit := do
  match (← get).websocket with
  | none => throw .TypeError
  | some .CONNECTING => throw .InvalidStateError
  | some _ => modify fun s => { s with trace := s.trace ++ [.send cmd] }

def setUserData (type data : JsValue) : PageM Unit :=
  doSend ⟨"setUserData", some [("type", type), ("data", data)]⟩

def makeCall (called : JsValue) : PageM Unit :=
  doSend ⟨"makeCall", some [("called", called)]⟩

def releaseCall (callid reason : JsValue) : PageM Unit :=
  doSend ⟨"releaseCall", some [("callid", callid), ("reason", reason)]⟩

def pauseCall (callid : JsValue) : PageM Unit :=
  doSend ⟨"pauseCall", some [("callid", callid)]⟩

def resumeCall (callid : JsValue) : PageM Unit :=
  doSend ⟨"resumeCall", some [("callid", callid)]⟩

def ConsultationCall (callid called userdata : JsValue) : PageM ℕ := do
  if ← known callid then
    setSession callid.key fun session =>
      { session with
        _status := some .STATUS_CONSULTATIONING
        _consultNumber := called
        _userdata := userdata }
    pauseCall callid
    pure 0
  else pure 3

def ReconnectCall (activeCall heldCall : JsValue) : PageM Unit := do
  if ← known activeCall then
    setSession activeCall.key fun session =>
      { session with _status := some .STATUS_RECONNECTING }
    releaseCall activeCall .undefined
  if ← known heldCall then
    setSession heldCall.key fun session =>
      { session with _status := some .STATUS_RECONNECTING }
    resumeCall heldCall

def AlternateCall (activeCall otherCall : JsValue) : PageM Unit := do
  if ← known activeCall then
    setSession activeCall.key fun session =>
      { session with _status := some .STATUS_ALTERNATEING }
    pauseCall activeCall
  if ← known otherCall then
    setSession otherCall.key fun session =>
      { session with _status := some .STATUS_ALTERNATEING }
    resumeCall otherCall

def transferMeeting (type otherCall activeCall consultedUser : JsValue) : PageM Unit := do
  if ← known activeCall then
    setSession activeCall.key fun session =>
      { session with _status := some .STATUS_CONFERENCEING }
  if ← known otherCall then
    setSession otherCall.key fun session =>
      { session with _status := some .STATUS_CONFERENCEING }
  doSend ⟨"transferMeeting", some
    [("callid", if otherCall.truthy then otherCall else activeCall),
      ("consultCallid", activeCall), ("consultedUser", consultedUser), ("type", type)]⟩

/-! ### Events -/

/-- `UCClient.callid && UCClient.callid != callid`. -/
def anotherCall (callid : Bytes) : PageM Bool := do
  match (← get).callid with
  | none => pure false
  | some current => pure (current != [] && current != callid)

def setCallid (callid : Option Bytes) : PageM Unit := modify fun s => { s with callid := callid }

/-- The events that are only passed on to the page. -/
def passedOn : List String :=
  ["onSipConnect", "onSipLogOut", "onCallTransfered", "onDtmfReceived", "onMeetingTransfered"]

/-- `wsonMessage`, on an event. -/
def wsonMessage (ev : PageEvent) : PageM Unit := do
  match ev with
  | .onCallReleased callid _ =>
      let status := ((← get).SessionS callid).bind Session._status
      modify fun s => { s with SessionS := Function.update s.SessionS callid none }
      if (← get).callid = some callid then setCallid none
      callback ev (if status = some .STATUS_RECONNECTING then some .Reconnection else none)
  | .onCallAnswered callid =>
      addSession callid
      if ← anotherCall callid then
        setSession callid fun session => { session with _cause := some .Consultation }
      let cause := (← session callid)._cause
      setCallid (some callid)
      callback ev cause
  | .onCallAlerting callid =>
      addSession callid
      let another ← anotherCall callid
      if another then
        setSession callid fun session => { session with _cause := some .Consultation }
      setCallid (some callid)
      callback ev (if another then some .Consultation else none)
  | .onIncomingCallReceived callid =>
      setCallid (some callid)
      addSession callid
      callback ev none
  | .onCallPaused callid _ =>
      let session ← session callid
      if session._status = some .STATUS_CONSULTATIONING then
        setUserData (.number 2) session._userdata
        makeCall session._consultNumber
      callback ev (match session._status with
        | some .STATUS_CONSULTATIONING => some .Consultation
        | some .STATUS_ALTERNATEING => some .Alternate
        | _ => none)
  | .onCallResumed callid _ =>
      setCallid (some callid)
      let session ← session callid
      if session._status = some .STATUS_RECONNECTING then
        setSession callid fun session => { session with _status := some .STATUS_CONNECTED }
      callback ev (if session._status = some .STATUS_ALTERNATEING then some .Alternate else none)
  | .other event => if event ∈ passedOn then callback ev none

/-! ### What the handlers do

One equation for each event, with the state it ends in written out. -/

section Handlers

variable {s : Page} {α : Type} {callid : Bytes} {reason : ℤ}

/-- The socket takes what is sent. -/
def canSend (s : Page) : Bool :=
  match s.websocket with
  | none | some .CONNECTING => false
  | some .OPEN | some .CLOSING | some .CLOSED => true

/-- More was observed. -/
def observed (s : Page) (obs : List PageObs) : Page := { s with trace := s.trace ++ obs }

/-- Another call is the current one. -/
def another (s : Page) (callid : Bytes) : Bool :=
  match s.callid with
  | none => false
  | some current => current != [] && current != callid

/-- The session of a call that alerts or is answered: a call beside the current one is a
consultation. -/
def classified (s : Page) (callid : Bytes) : Session :=
  if s.another callid then { (s.SessionS callid).getD {} with _cause := some .Consultation }
  else (s.SessionS callid).getD {}

theorem session_bind (f : Session → PageM α) : (session callid >>= f) s =
    match s.SessionS callid with
    | some session => f session s
    | none => .error .TypeError s := by
  cases h : s.SessionS callid with
  | none => exact EStateM.bind_error (by rw [session, EStateM.get_bind, h]; rfl)
  | some x => exact EStateM.bind_ok (by rw [session, EStateM.get_bind, h]; rfl)

theorem addSession_bind (f : Unit → PageM α) : (addSession callid >>= f) s =
    f () { s with
      SessionS := Function.update s.SessionS callid (some ((s.SessionS callid).getD {})) } := by
  have hadd : (s.SessionS callid).or (some {}) = some ((s.SessionS callid).getD {}) := by
    cases s.SessionS callid <;> rfl
  rw [← hadd]
  rfl

theorem anotherCall_bind (f : Bool → PageM α) :
    (anotherCall callid >>= f) s = f (s.another callid) s := by
  refine EStateM.bind_ok ?_
  rw [anotherCall, another, EStateM.get_bind]
  cases s.callid <;> rfl

theorem callback_ok (ev : PageEvent) (cause : Option Cause) :
    callback ev cause s = .ok () (s.observed [.callback ev cause]) := rfl

/-- Sending, on a socket that takes it and on one that does not. -/
theorem doSend_ok (h : s.canSend = true) (cmd : Cmd) :
    doSend cmd s = .ok () (s.observed [.send cmd]) := by
  rw [doSend, EStateM.get_bind]
  cases hs : s.websocket with
  | none => simp [canSend, hs] at h
  | some state => cases state <;> first | rfl | simp [canSend, hs] at h

theorem doSend_error (h : s.canSend = false) (cmd : Cmd) : ∃ e, doSend cmd s = .error e s := by
  rw [doSend, EStateM.get_bind]
  cases hs : s.websocket with
  | none => exact ⟨_, rfl⟩
  | some state => cases state <;> first | exact ⟨_, rfl⟩ | simp [canSend, hs] at h

theorem onCallReleased_run : wsonMessage (.onCallReleased callid reason) s = .ok ()
    { s with
      callid := if s.callid = some callid then none else s.callid
      SessionS := Function.update s.SessionS callid none
      trace := s.trace ++ [.callback (.onCallReleased callid reason)
        (if (s.SessionS callid).bind Session._status = some .STATUS_RECONNECTING
          then some .Reconnection else none)] } := by
  by_cases hc : s.callid = some callid
  · simp only [wsonMessage, EStateM.get_bind, EStateM.modify_bind, hc, if_true]
    rfl
  · simp only [wsonMessage, EStateM.get_bind, EStateM.modify_bind, hc, if_false]
    rfl

theorem onCallAnswered_run : wsonMessage (.onCallAnswered callid) s = .ok ()
    { s with
      callid := some callid
      SessionS := Function.update s.SessionS callid (some (s.classified callid))
      trace := s.trace ++
        [.callback (.onCallAnswered callid) (s.classified callid)._cause] } := by
  have hanother : ∀ SessionS, { s with SessionS := SessionS }.another callid =
    s.another callid := fun _ => rfl
  by_cases ha : s.another callid = true
  · simp only [wsonMessage, addSession_bind, anotherCall_bind, hanother, ha, if_true, setSession,
      EStateM.modify_bind, session_bind, Function.update_self, Option.map_some,
      Function.update_idem, classified]
    rfl
  · simp only [wsonMessage, addSession_bind, anotherCall_bind, hanother, ha, Bool.false_eq_true,
      if_false, session_bind, Function.update_self, classified]
    rfl

theorem onCallAlerting_run : wsonMessage (.onCallAlerting callid) s = .ok ()
    { s with
      callid := some callid
      SessionS := Function.update s.SessionS callid (some (s.classified callid))
      trace := s.trace ++ [.callback (.onCallAlerting callid)
        (if s.another callid then some .Consultation else none)] } := by
  have hanother : ∀ SessionS, { s with SessionS := SessionS }.another callid =
    s.another callid := fun _ => rfl
  by_cases ha : s.another callid = true
  · simp only [wsonMessage, addSession_bind, anotherCall_bind, hanother, ha, if_true, setSession,
      EStateM.modify_bind, Function.update_self, Option.map_some, Function.update_idem, classified]
    rfl
  · simp only [wsonMessage, addSession_bind, anotherCall_bind, hanother, ha, Bool.false_eq_true,
      if_false, classified]
    rfl

theorem onIncomingCallReceived_run : wsonMessage (.onIncomingCallReceived callid) s = .ok ()
    { s with
      callid := some callid
      SessionS := Function.update s.SessionS callid (some ((s.SessionS callid).getD {}))
      trace := s.trace ++ [.callback (.onIncomingCallReceived callid) none] } := by
  simp only [wsonMessage, setCallid, EStateM.modify_bind, addSession_bind]
  rfl

/-- A call that is held: if a consultation was asked for, its number is dialled. -/
theorem onCallPaused_run {session : Session} (hs : s.SessionS callid = some session) :
    wsonMessage (.onCallPaused callid reason) s =
      if session._status = some .STATUS_CONSULTATIONING then
        (do
          setUserData (.number 2) session._userdata
          makeCall session._consultNumber
          callback (.onCallPaused callid reason) (some .Consultation)) s
      else .ok () (s.observed [.callback (.onCallPaused callid reason)
        (if session._status = some .STATUS_ALTERNATEING then some .Alternate else none)]) := by
  simp only [wsonMessage, session_bind, hs]
  by_cases hc : session._status = some .STATUS_CONSULTATIONING
  · simp only [hc, if_true]
  · simp only [hc, if_false]
    cases hst : session._status with
    | none => rfl
    | some status => cases status <;> first | rfl | exact absurd hst hc

theorem onCallResumed_run {session : Session} (hs : s.SessionS callid = some session) :
    wsonMessage (.onCallResumed callid reason) s = .ok ()
      { s with
        callid := some callid
        SessionS := Function.update s.SessionS callid
          (some (if session._status = some .STATUS_RECONNECTING
            then { session with _status := some .STATUS_CONNECTED } else session))
        trace := s.trace ++ [.callback (.onCallResumed callid reason)
          (if session._status = some .STATUS_ALTERNATEING then some .Alternate else none)] } := by
  simp only [wsonMessage, setCallid, EStateM.modify_bind, session_bind, hs]
  by_cases hc : session._status = some .STATUS_RECONNECTING
  · simp only [hc, if_true, setSession, EStateM.modify_bind, hs, Option.map_some]
    rfl
  · have hsame : Function.update s.SessionS callid (some session) = s.SessionS := by
      rw [← hs, Function.update_eq_self]
    simp only [hc, if_false, hsame]
    rfl

/-- The events about a call that is not known: the one throws before it has done anything, the
other when the call is already current. -/
theorem onCallPaused_unknown (h : s.SessionS callid = none) :
    wsonMessage (.onCallPaused callid reason) s = .error .TypeError s := by
  simp only [wsonMessage, session_bind, h]

theorem onCallResumed_unknown (h : s.SessionS callid = none) :
    wsonMessage (.onCallResumed callid reason) s =
      .error .TypeError { s with callid := some callid } := by
  simp only [wsonMessage, setCallid, EStateM.modify_bind, session_bind, h]

end Handlers

end Page

/-! ### The script in a browser -/

/-- A call into the script: of a function by the page, or of a handler by its socket.
`socket` is the socket changing its state, which the script does not act on. Whether the
constructor of the socket takes the URL is up to the browser. -/
inductive PageAction
  | Connect (websocketurl : JsValue) (accepted : Bool := true)
  | socket (state : ReadyState)
  | message (ev : PageEvent)
  | plain (cmd : Cmd)
  | ConsultationCall (callid called userdata : JsValue)
  | ReconnectCall (activeCall heldCall : JsValue)
  | AlternateCall (activeCall otherCall : JsValue)
  | transferMeeting (type otherCall activeCall consultedUser : JsValue)
  deriving DecidableEq, Repr

/-- The function an action calls; the value is what it returns, if anything. -/
def PageAction.program : PageAction → PageM (Option ℕ)
  | .Connect websocketurl accepted => do
      if websocketurl ≠ .undefined then
        -- a constructor that throws leaves the old socket in place
        if accepted then modify fun s => { s with websocket := some .CONNECTING }
        else throw .SyntaxError
      pure none
  | .socket state => do
      modify fun s => { s with websocket := s.websocket.map fun _ => state }
      pure none
  | .message ev => do Page.wsonMessage ev; pure none
  | .plain cmd => do Page.doSend cmd; pure none
  | .ConsultationCall callid called userdata =>
      some <$> Page.ConsultationCall callid called userdata
  | .ReconnectCall activeCall heldCall => do Page.ReconnectCall activeCall heldCall; pure none
  | .AlternateCall activeCall otherCall => do Page.AlternateCall activeCall otherCall; pure none
  | .transferMeeting type otherCall activeCall consultedUser => do
      Page.transferMeeting type otherCall activeCall consultedUser
      pure none

/-- The calls a function of the script may store a status for. -/
def PageAction.named : PageAction → List JsValue
  | .ConsultationCall callid _ _ => [callid]
  | .ReconnectCall activeCall heldCall => [activeCall, heldCall]
  | .AlternateCall activeCall otherCall => [activeCall, otherCall]
  | .transferMeeting _ otherCall activeCall _ => [otherCall, activeCall]
  | .Connect .. | .socket _ | .message _ | .plain _ => []

/-- The names under which an action looks into `SessionS`. -/
def PageAction.calls : PageAction → List Bytes
  | .message ev => ev.call.toList
  | a => a.named.map JsValue.key

/-- All these are ordinary call ids. -/
def PageAction.Ordinary (a : PageAction) : Prop := ∀ callid ∈ a.calls, UCClient.Ordinary callid

instance (a : PageAction) : Decidable a.Ordinary :=
  inferInstanceAs (Decidable (∀ callid ∈ a.calls, _))

/-- An entry of the history: an action, how it ended, and what was seen of it. -/
structure Entry where
  action : PageAction
  result : Except PageError (Option ℕ)
  obs : List PageObs

/-- The script and the history of the calls into it. -/
structure Browser where
  page : Page := {}
  log : List Entry := []

namespace Browser

/-- The outcome of an action. -/
def outcome (b : Browser) (a : PageAction) : EStateM.Result PageError Page (Option ℕ) :=
  a.program { b.page with trace := [] }

/-- What is remembered of an action. -/
def entry (b : Browser) (a : PageAction) : Entry where
  action := a
  result := (b.outcome a).value
  obs := (b.outcome a).state.trace

/-- An action is taken; if it throws, the state it threw in stays. -/
def step (b : Browser) (a : PageAction) : Browser where
  page := (b.outcome a).state
  log := b.log ++ [b.entry a]

/-- A page may call what it likes, and every event may come at any time. -/
def system : StepSystem Browser PageAction Empty where
  init := {}
  allowed := fun _ _ => True
  step := fun b a => .ok (b.step a)

instance (b : Browser) (a : PageAction) : Decidable (system.allowed b a) :=
  inferInstanceAs (Decidable True)

/-- The calls and events with ordinary call ids. -/
def ordinary : StepSystem Browser PageAction Empty := system.restrict fun _ a => a.Ordinary

instance (b : Browser) (a : PageAction) : Decidable (ordinary.allowed b a) :=
  inferInstanceAs (Decidable (True ∧ a.Ordinary))

end Browser

end UCClient
