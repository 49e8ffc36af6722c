import UCClient.Events
import UCClient.Messages
import UCClient.PageMessages
import UCClient.SessionTable

/-!
# Events on a Page

Every event the SDK reports is sent to every connected page, so a page hears of calls it was
never told about: it may have been loaded, or loaded again, while they were going on. Can
the script of the page take any sequence of events?

The messages in question are those the handlers of the events emit (`SdkEvent.Emits`). Each
of them is parsed by the page as what was put in it, and so the script handles it as the
event it is about (`Script.wsonMessage_emitted`). What remains is the script on sequences of
events, with nothing asked of it in between. The branches for calls that are held and
resumed read the session of the call without a test, and the second one makes the call the
current one before that.

## Main results

* `Listener.events_handled_iff`: the sequences of messages that raise no exception, and those
  whose exceptions leave `callid` and `SessionS` alone.
* `Listener.events_resume_unknown`: a call the page does not know is resumed.
-/

namespace UCClient

open ServerM WebSocketClient UCClientWSclient

/-! ### The messages the handlers emit -/

/-- The handler of an event. -/
def UCClientWSclient.handler (this : ℕ) : SdkEvent → ServerM Unit
  | .onLogInfo loginfo => onLogInfo this loginfo
  | .onConnect tcpMsgIdOut reason jsonString autoReconnect =>
      onConnect this tcpMsgIdOut reason jsonString autoReconnect
  | .onLogOut tcpMsgIdOut reason => onLogOut this tcpMsgIdOut reason
  | .onWillCloseTcp => onWillCloseTcp this
  | .onIncomingCallReceived callType confType callid caller =>
      onIncomingCallReceived this callType confType callid caller
  | .onCallProceeding callid => onCallProceeding this callid
  | .onCallAlerting callid => onCallAlerting this callid
  | .onCallAnswered callid => onCallAnswered this callid
  | .onCallReleased callid reason state callEvent =>
      onCallReleased this callid reason state callEvent
  | .onDtmfReceived callid dtmf => onDtmfReceived this callid dtmf
  | .onCallPaused callid type reason => onCallPaused this callid type reason
  | .onCallResumed callid type reason => onCallResumed this callid type reason
  | .onSwitchCallMediaTypeRequest callid video reason =>
      onSwitchCallMediaTypeRequest this callid video reason
  | .onSwitchCallMediaTypeResponse callid video reason =>
      onSwitchCallMediaTypeResponse this callid video reason
  | .onRemoteVideoRatio callidOrConferenceId width height type member ip port =>
      onRemoteVideoRatio this callidOrConferenceId width height type member ip port
  | .onAudioData callid inData outData outLen send =>
      onAudioData this callid inData outData outLen send
  | .onVideoData callid inData outData outLen send =>
      onVideoData this callid inData outData outLen send
  | .onAudioCaptureData callid data samples sampleRate numChannels =>
      onAudioCaptureData this callid data samples sampleRate numChannels
  | .onVideoCaptureData callid data width height yStride uvStride =>
      onVideoCaptureData this callid data width height yStride uvStride
  | .onMediaDestinationChanged callid mediaType ip port type =>
      onMediaDestinationChanged this callid mediaType ip port type
  | .onNoCamera callid => onNoCamera this callid
  | .onNoMicRecording callid reason => onNoMicRecording this callid reason
  | .onCallTransfered callid destionation reason =>
      onCallTransfered this callid destionation reason
  | .onMeetingTransfered callid reason => onMeetingTransfered this callid reason
  | .onAudioEnergyFeedback averageEnergy => onAudioEnergyFeedback this averageEnergy
  | .onSipConnect reason => onSipConnect this reason
  | .onSipLogOut reason => onSipLogOut this reason

/-- The message is sent to some page by the handler of the event, on some client and in
some state of the program. -/
def SdkEvent.Emits (ev : SdkEvent) (data : Bytes) : Prop :=
  ∃ this s s' obs p, handler this ev s = .ok () s' ∧ s'.trace = s.trace ++ obs ∧
    .Send p data ∈ obs

/-- The event as the script knows it. -/
def SdkEvent.page : SdkEvent → PageEvent
  | .onCallReleased callid reason _ _ => .onCallReleased (cstr callid) reason.toInt
  | .onCallAnswered callid => .onCallAnswered (cstr callid)
  | .onCallAlerting callid => .onCallAlerting (cstr callid)
  | .onIncomingCallReceived _ _ callid _ => .onIncomingCallReceived (cstr callid)
  | .onCallPaused callid _ reason => .onCallPaused (cstr callid) reason.toInt
  | .onCallResumed callid _ reason => .onCallResumed (cstr callid) reason.toInt
  | ev => .other ev.name

/-- The members of `param` in the message of an event, stored one after another. -/
def paramObject (param : List (String × Value)) : List (Bytes × Value) :=
  param.foldl (fun ms kx => Value.insertMember ms (bytes kx.1) kx.2) []

theorem paramObject_snoc (param : List (String × Value)) (kx : String × Value) :
    paramObject (param ++ [kx]) = Value.insertMember (paramObject param) (bytes kx.1) kx.2 := by
  rw [paramObject, List.foldl_append]
  rfl

/-- The message of an event, member by member. -/
theorem eventValue_eq (name : String) (param : List (String × Value)) :
    eventValue name param =
      .ok (.object (messageMembers .event (.ofLiteral name) (paramObject param))) := by
  show param.foldlM _ (Value.object (messageMembers .event (.ofLiteral name) [])) = _
  induction param using List.reverseRecOn with
  | nil => rfl
  | append_singleton param kx ih =>
      rw [List.foldlM_append, ih, paramObject_snoc, ← setMember₂_messageMembers]
      exact bind_pure (m := Except Fault) _

/-! ### The messages as a page reads them -/

/-- The values stored in `param`. -/
theorem of_mem_paramObject {param : List (String × Value)} {m : Bytes × Value}
    (h : m ∈ paramObject param) : ∃ kx ∈ param, m.2 = kx.2 := by
  induction param using List.reverseRecOn with
  | nil => exact absurd h List.not_mem_nil
  | append_singleton param kx ih =>
      rw [paramObject_snoc] at h
      rcases Value.of_mem_insertMember h with rfl | hm
      · exact ⟨kx, List.mem_append_right _ List.mem_cons_self, rfl⟩
      · obtain ⟨kx', hkx', heq⟩ := ih hm
        exact ⟨kx', List.mem_append_left _ hkx', heq⟩

theorem paramObject_ne_nil {param : List (String × Value)} (h : param ≠ []) :
    paramObject param ≠ [] := by
  induction param using List.reverseRecOn with
  | nil => exact absurd rfl h
  | append_singleton param kx =>
      rw [paramObject_snoc]
      exact Value.insertMember_ne_nil _ _ _

/-- A member nothing was stored under. -/
theorem get_paramObject_of_ne {k : Bytes} {param : List (String × Value)}
    (h : ∀ kx ∈ param, cstr (bytes kx.1) ≠ k) :
    Json.get ((paramObject param).map fun m => (cstr m.1, m.2.json)) k = none := by
  induction param using List.reverseRecOn with
  | nil => rfl
  | append_singleton param kx ih =>
      rw [List.forall_mem_append] at h
      rw [paramObject_snoc, Value.get_insertMember_of_ne (h.2 kx List.mem_cons_self), ih h.1]

/-- The members of `param` are read as they were stored. -/
theorem get_paramObject {k : String} (pre post : List (String × Value)) (x : Value)
    (h : (pre ++ post).all (fun kx => cstr (bytes kx.1) ≠ cstr (bytes k)) = true) :
    Json.get ((paramObject (pre ++ (k, x) :: post)).map fun m => (cstr m.1, m.2.json))
      (cstr (bytes k)) = some x.json := by
  simp only [List.all_eq_true, decide_eq_true_eq, List.forall_mem_append] at h
  obtain ⟨hpre, hpost⟩ := h
  induction post using List.reverseRecOn with
  | nil =>
      rw [paramObject_snoc]
      exact Value.get_insertMember (get_paramObject_of_ne hpre) x
  | append_singleton post kx ih =>
      rw [List.forall_mem_append] at hpost
      rw [← List.cons_append, ← List.append_assoc, paramObject_snoc,
        Value.get_insertMember_of_ne (hpost.2 kx List.mem_cons_self), ih hpost.1]

/-- What a page reads of an event's message. -/
def eventJson (name : String) (param : List (String × Value)) : List (Bytes × Json) :=
  messageJson .event (.ofLiteral name) (paramObject param)

theorem parse_event {name : String} {param : List (String × Value)} {v : Value}
    (hv : eventValue name param = .ok v) (h : ∀ kx ∈ param, kx.2.noReal = true) :
    Json.parse v.writeValue = some (.object (eventJson name param)) := by
  rw [eventValue_eq] at hv
  cases hv
  refine parse_message .event rfl fun m hm => ?_
  obtain ⟨kx, hkx, heq⟩ := of_mem_paramObject hm
  rw [heq]
  exact h kx hkx

theorem get_event (name : String) (param : List (String × Value)) :
    Json.get (eventJson name param) (bytes "event") = some (.string (cstr (bytes name))) :=
  (get_name .event _ _).trans (congrArg some (Value.json_string _))

namespace Script

variable {ms pj : List (Bytes × Json)} {name : Bytes} {s : Script}

/-- An event the script acts on. -/
theorem onEvent_call {page : Bytes → ℤ → PageEvent} {literal : String}
    (hname : Json.get ms (bytes "event") = some (.string name))
    (hev : callEvents.find? (fun c => isCase (some (.string name)) c.1) = some (literal, page))
    (hparam : Json.get ms (bytes "param") = some (.object pj)) :
    onEvent (.object ms) s = liftPage (Page.wsonMessage (page
      (callidOf (Json.get pj (bytes "callid"))) (reasonOf (Json.get pj (bytes "reason"))))) s := by
  rw [onEvent, property_bind, hname]
  simp only [hev]
  rw [property_bind, hparam, property_bind, property_bind]

/-- Any other event. -/
theorem onEvent_other {literal : String}
    (hname : Json.get ms (bytes "event") = some (.string name))
    (hev : callEvents.find? (fun c => isCase (some (.string name)) c.1) = none)
    (hother : Page.passedOn.find? (isCase (some (.string name))) =
      if literal ∈ Page.passedOn then some literal else none) :
    onEvent (.object ms) s = liftPage (Page.wsonMessage (.other literal)) s := by
  rw [onEvent, property_bind, hname]
  simp only [hev, hother]
  by_cases hmem : literal ∈ Page.passedOn
  · simp only [hmem, if_true]
  · simp only [hmem, if_false, Page.wsonMessage]
    rfl

end Script

/-- The events the script does not act on itself: it passes them on or ignores them. -/
theorem find_other : ∀ name ∈ ["onLogInfo", "onConnect", "onLogOut", "onWillCloseTcp",
    "onCallProceeding", "onDtmfReceived", "onSwitchCallMediaTypeRequest",
    "onSwitchCallMediaTypeResponse", "onRemoteVideoRatio", "onAudioData", "onVideoData",
    "onAudioCaptureData", "onVideoCaptureData", "onMediaDestinationChanged", "onNoCamera",
    "onNoMicRecording", "onCallTransfered", "onMeetingTransfered", "onAudioEnergyFeedback",
    "onSipConnect", "onSipLogOut"],
    (Script.callEvents.find? fun c =>
        Script.isCase (some (.string (cstr (bytes name)))) c.1).isNone = true ∧
      Page.passedOn.find? (Script.isCase (some (.string (cstr (bytes name))))) =
        if name ∈ Page.passedOn then some name else none := by
  decide +kernel

/-- An event about a call. -/
theorem onEvent_callid {page : Bytes → ℤ → PageEvent} (name : String)
    (hev : Script.callEvents.find? (fun c =>
      Script.isCase (some (.string (cstr (bytes name)))) c.1) = some (name, page))
    (callid : Bytes) (pre post : List (String × Value))
    (h : (pre ++ post).all (fun kx => cstr (bytes kx.1) ≠ cstr (bytes "callid")) = true)
    (s : Script) :
    Script.onEvent (.object (eventJson name (pre ++ ("callid", .ofCString callid) :: post))) s =
      Script.liftPage (Page.wsonMessage (page (cstr callid) (Script.reasonOf (Json.get
        ((paramObject (pre ++ ("callid", .ofCString callid) :: post)).map fun m =>
          (cstr m.1, m.2.json)) (bytes "reason"))))) s := by
  have hne : paramObject (pre ++ ("callid", .ofCString callid) :: post) ≠ [] :=
    paramObject_ne_nil (by simp)
  have hcallid := get_paramObject pre post (.ofCString callid) h
  rw [Value.ofCString, Value.json_string, cstr_cstr] at hcallid
  rw [Script.onEvent_call (get_event name _) hev (get_param .event _ hne)]
  exact congrArg (fun x => Script.liftPage (Page.wsonMessage (page (Script.callidOf x) _)) s)
    hcallid

/-- The reason of an event. -/
theorem reasonOf_paramObject (reason : Int32) (pre post : List (String × Value))
    (h : (pre ++ post).all (fun kx => cstr (bytes kx.1) ≠ cstr (bytes "reason")) = true) :
    Script.reasonOf (Json.get ((paramObject (pre ++ ("reason", .int reason) :: post)).map fun m =>
      (cstr m.1, m.2.json)) (bytes "reason")) = reason.toInt := by
  have hreason := get_paramObject pre post (.int reason) h
  exact (congrArg Script.reasonOf hreason).trans (Value.intOf_valueToStringInt reason)

/-- **A handler is `handle` on its event**, and what a page does with the message is what it
does with the event. -/
theorem handler_spec (ev : SdkEvent) : ∃ param : List (String × Value),
    (∀ this, handler this ev = handle this ev ev.name param) ∧
      (∀ kx ∈ param, kx.2.noReal = true) ∧
      ∀ s, Script.onEvent (.object (eventJson ev.name param)) s =
        Script.liftPage (Page.wsonMessage ev.page) s := by
  cases ev with
  | onIncomingCallReceived callType confType callid caller =>
      refine ⟨_, fun _ => rfl, by simp [Value.noReal, Value.ofCString], fun s => ?_⟩
      exact onEvent_callid "onIncomingCallReceived" rfl callid [("caller", _)] _ (by simp +decide) s
  | onCallAlerting callid =>
      refine ⟨_, fun _ => rfl, by simp [Value.noReal, Value.ofCString], fun s => ?_⟩
      exact onEvent_callid "onCallAlerting" rfl callid [] _ (by simp +decide) s
  | onCallAnswered callid =>
      refine ⟨_, fun _ => rfl, by simp [Value.noReal, Value.ofCString], fun s => ?_⟩
      exact onEvent_callid "onCallAnswered" rfl callid [] _ (by simp +decide) s
  | onCallReleased callid reason state callEvent =>
      refine ⟨_, fun _ => rfl, by simp [Value.noReal, Value.ofCString], fun s => ?_⟩
      refine (onEvent_callid "onCallReleased" rfl callid [] _ (by simp +decide) s).trans ?_
      exact congrArg (fun reason => Script.liftPage (Page.wsonMessage (.onCallReleased _ reason)) s)
        (reasonOf_paramObject reason [("callid", _)] _ (by simp +decide))
  | onCallPaused callid type reason =>
      refine ⟨_, fun _ => rfl, by simp [Value.noReal, Value.ofCString], fun s => ?_⟩
      refine (onEvent_callid "onCallPaused" rfl callid [] _ (by simp +decide) s).trans ?_
      exact congrArg (fun reason => Script.liftPage (Page.wsonMessage (.onCallPaused _ reason)) s)
        (reasonOf_paramObject reason [("callid", _), ("type", _)] _ (by simp +decide))
  | onCallResumed callid type reason =>
      refine ⟨_, fun _ => rfl, by simp [Value.noReal, Value.ofCString], fun s => ?_⟩
      refine (onEvent_callid "onCallResumed" rfl callid [] _ (by simp +decide) s).trans ?_
      exact congrArg (fun reason => Script.liftPage (Page.wsonMessage (.onCallResumed _ reason)) s)
        (reasonOf_paramObject reason [("callid", _), ("type", _)] _ (by simp +decide))
  | _ =>
      refine ⟨_, fun _ => rfl, by simp [Value.noReal, Value.ofCString], fun s => ?_⟩
      refine Script.onEvent_other (get_event _ _)
        (Option.isNone_iff_eq_none.mp (find_other _ ?_).1) (find_other _ ?_).2 <;>
      simp [SdkEvent.name]

/-- A message that was emitted is the rendering of the event. -/
theorem SdkEvent.Emits.message {ev : SdkEvent} {data : Bytes} (h : ev.Emits data)
    {param : List (String × Value)}
    (hparam : ∀ this, handler this ev = handle this ev ev.name param) :
    ∃ v, eventValue ev.name param = .ok v ∧ data = v.writeValue := by
  obtain ⟨this, s, s', obs, p, hrun, htrace, hmem⟩ := h
  refine ⟨_, eventValue_eq ev.name param, ?_⟩
  rw [hparam] at hrun
  cases hc : s.heap.cell this with
  | none => simp [handle, client_bind, hc] at hrun
  | some c =>
      rw [handle_run (Heap.live_of_cell hc) ev (eventValue_eq ev.name param)] at hrun
      obtain ⟨t, ht, hall⟩ := forM_Send _ s.g_WSClientSet _ (live_of_forM_Send hrun)
      rw [ht] at hrun
      cases hrun
      rw [hall.trace, Server.observed, List.append_assoc, List.append_cancel_left_eq] at htrace
      rw [← htrace] at hmem
      rcases List.mem_append.mp hmem with hmem | hmem
      · simp at hmem
      · obtain ⟨q, -, hq⟩ := List.mem_map.mp hmem
        cases hq
        rfl

/-- Every event has a message. -/
theorem SdkEvent.exists_emits (ev : SdkEvent) : ∃ data, ev.Emits data := by
  obtain ⟨param, hparam, -⟩ := handler_spec ev
  have hlive : ∀ p ∈ onePage.g_WSClientSet, onePage.heap.Live p := by decide
  obtain ⟨v, hv⟩ : ∃ v, eventValue ev.name param = .ok v := ⟨_, eventValue_eq _ _⟩
  obtain ⟨s', hs', hall⟩ := forM_Send v.writeValue onePage.g_WSClientSet
    (onePage.observed [.handler 0 ev]) hlive
  refine ⟨v.writeValue, 0, onePage, s', _, 0, ?_, hall.trace.trans (List.append_assoc ..), ?_⟩
  · rw [hparam, handle_run (by decide) ev hv]
    exact hs'
  · simp [onePage]

/-- **The script handles the message of an event as the event.** -/
theorem Script.wsonMessage_emitted {ev : SdkEvent} {data : Bytes} (h : ev.Emits data)
    (s : Script) : wsonMessage data s = liftPage (Page.wsonMessage ev.page) s := by
  obtain ⟨param, hparam, hreal, hevent⟩ := handler_spec ev
  obtain ⟨v, hv, rfl⟩ := h.message hparam
  rw [wsonMessage_event (parse_event hv hreal) (get_type _ _ _), hevent]

/-! ### Events on a page that nothing was asked of -/

namespace Page

variable {s : Page} {callid : Bytes} {reason : ℤ}

/-- No function of the script has marked a call. -/
def Unmarked (s : Page) : Prop := ∀ callid session, s.SessionS callid = some session →
  session._status = none

namespace Unmarked

/-- Storing a session that is not marked. -/
theorem update (h : s.Unmarked) {entry : Option Session}
    (hentry : ∀ session, entry = some session → session._status = none) (current : Option Bytes)
    (trace : List PageObs) :
    Unmarked { s with
      callid := current
      SessionS := Function.update s.SessionS callid entry
      trace := trace } := by
  intro c session hc
  by_cases heq : c = callid
  · subst heq
    exact hentry session ((Function.update_self c entry s.SessionS).symm.trans hc)
  · exact h c session ((Function.update_of_ne heq entry s.SessionS).symm.trans hc)

theorem getD (h : s.Unmarked) (callid : Bytes) : ((s.SessionS callid).getD {})._status = none := by
  cases hs : s.SessionS callid with
  | none => rfl
  | some session => exact h callid session hs

theorem classified (h : s.Unmarked) (callid : Bytes) :
    (s.classified callid)._status = none := by
  rw [Page.classified]
  split <;> exact h.getD callid

/-- **On calls that are known every event is handled**, and marks none. -/
theorem wsonMessage (h : s.Unmarked) (ev : PageEvent)
    (hknown : ∀ callid reason,
      ev = .onCallPaused callid reason ∨ ev = .onCallResumed callid reason →
        s.calls.keys callid = true) :
    ∃ s', Page.wsonMessage ev s = .ok () s' ∧ s'.Unmarked := by
  cases ev with
  | onCallReleased c reason => exact ⟨_, onCallReleased_run, h.update (by simp) _ _⟩
  | onCallAnswered c =>
      refine ⟨_, onCallAnswered_run, h.update ?_ _ _⟩
      rintro _ ⟨⟩
      exact h.classified c
  | onCallAlerting c =>
      refine ⟨_, onCallAlerting_run, h.update ?_ _ _⟩
      rintro _ ⟨⟩
      exact h.classified c
  | onIncomingCallReceived c =>
      refine ⟨_, onIncomingCallReceived_run, h.update ?_ _ _⟩
      rintro _ ⟨⟩
      exact h.getD c
  | onCallPaused c reason =>
      obtain ⟨session, hs⟩ := Option.isSome_iff_exists.mp (hknown c reason (.inl rfl))
      rw [onCallPaused_run hs, if_neg (by simp [h c session hs])]
      exact ⟨_, rfl, h⟩
  | onCallResumed c reason =>
      obtain ⟨session, hs⟩ := Option.isSome_iff_exists.mp (hknown c reason (.inr rfl))
      refine ⟨_, onCallResumed_run hs, h.update ?_ _ _⟩
      rintro _ ⟨⟩
      rw [if_neg (by simp [h c session hs])]
      exact h c session hs
  | other event =>
      rw [Page.wsonMessage]
      split
      · exact ⟨_, rfl, h⟩
      · exact ⟨_, rfl, h⟩

end Unmarked

end Page

/-! ### Sequences of messages -/

/-- A message with the event whose handler emitted it. The event is about a call with an ordinary
call id, if it is about a call. -/
structure EventMessage where
  ev : SdkEvent
  data : Bytes
  emitted : ev.Emits data
  ordinary : ∀ callid ∈ ev.page.call, Ordinary callid

/-- A page that is sent messages: the script, and the events so far. -/
structure Listener where
  script : Script
  events : List PageAction

namespace Listener

/-- The page has the script just loaded, with any socket; any message may come at any time. If
the script throws, the state it threw in stays. -/
def system (websocket : Option ReadyState) : StepSystem Listener EventMessage Empty where
  init := ⟨{ page := { websocket := websocket } }, []⟩
  allowed := fun _ _ => True
  step := fun l m => .ok
    ⟨(Script.wsonMessage m.data l.script).state, l.events ++ [.message m.ev.page]⟩

/-- The message is handled without an exception. -/
def Handled (l : Listener) (m : EventMessage) : Prop :=
  ∃ s, Script.wsonMessage m.data l.script = .ok () s

/-- If the message raises an exception, the calls are left as they were. -/
def Untouched (l : Listener) (m : EventMessage) : Prop :=
  ∀ e s, Script.wsonMessage m.data l.script = .error e s →
    s.page.callid = l.script.page.callid ∧ s.page.SessionS = l.script.page.SessionS

/-- The call has alerted, been answered or come in since it was last released. -/
def Knows (l : Listener) (callid : Bytes) : Prop :=
  Since (PageAction.Opens callid) (PageAction.Releases callid) l.events

/-- A call that is resumed is known. -/
def ResumesKnown (l : Listener) (m : EventMessage) : Prop :=
  ∀ callid reason, m.ev.page = .onCallResumed callid reason → l.Knows callid

/-- A call that is held is known. -/
def PausesKnown (l : Listener) (m : EventMessage) : Prop :=
  ∀ callid reason, m.ev.page = .onCallPaused callid reason → l.Knows callid

/-- As long as only known calls were resumed: the table is what the events say, and no call
is marked. -/
structure Inv (l : Listener) : Prop where
  table : TableInv l.script.page.calls l.events
  known : l.script.page.calls.CurrentKnown
  unmarked : l.script.page.Unmarked

variable {websocket : Option ReadyState} {l : Listener} {m : EventMessage}

theorem inv_init : Inv (system websocket).init where
  table := TableInv.nil
  known := by
    rintro _ ⟨⟩
  unmarked := by
    rintro _ _ ⟨⟩

theorem Inv.keys (h : l.Inv) (callid : Bytes) :
    l.script.page.calls.keys callid = true ↔ l.Knows callid := h.table.keys callid

/-- A message about calls that are known. -/
theorem Inv.wsonMessage_known (h : l.Inv) (hp : l.PausesKnown m) (hr : l.ResumesKnown m) :
    ∃ p, Script.wsonMessage m.data l.script = .ok () { l.script with page := p } ∧
      p.calls = l.script.page.calls.step m.ev.page ∧ p.Unmarked := by
  obtain ⟨p, hrun, hmarks⟩ := h.unmarked.wsonMessage m.ev.page (by
    rintro callid reason (heq | heq)
    · exact (h.keys callid).mpr (hp callid reason heq)
    · exact (h.keys callid).mpr (hr callid reason heq))
  have hcalls := wsonMessage_calls m.ev.page l.script.page
  rw [hrun] at hcalls
  refine ⟨p, ?_, hcalls, hmarks⟩
  rw [Script.wsonMessage_emitted m.emitted, Script.liftPage, hrun]

/-- A message that a call is held that is not known. -/
theorem Inv.wsonMessage_paused (h : l.Inv) {callid : Bytes} {reason : ℤ}
    (hev : m.ev.page = .onCallPaused callid reason) (hk : ¬ l.Knows callid) :
    Script.wsonMessage m.data l.script = .error (.script .TypeError) l.script := by
  have hnone : l.script.page.SessionS callid = none := by
    simpa [Page.calls] using mt (h.keys callid).mp hk
  rw [Script.wsonMessage_emitted m.emitted, Script.liftPage, hev, Page.onCallPaused_unknown hnone]

/-- A message that a call is resumed that is not known. -/
theorem Inv.wsonMessage_resumed (h : l.Inv) {callid : Bytes} {reason : ℤ}
    (hev : m.ev.page = .onCallResumed callid reason) (hk : ¬ l.Knows callid) :
    Script.wsonMessage m.data l.script = .error (.script .TypeError)
      { l.script with page := { l.script.page with callid := some callid } } := by
  have hnone : l.script.page.SessionS callid = none := by
    simpa [Page.calls] using mt (h.keys callid).mp hk
  rw [Script.wsonMessage_emitted m.emitted, Script.liftPage, hev,
    Page.onCallResumed_unknown hnone]

/-- The invariant is kept as long as only known calls are resumed. -/
theorem Inv.step {l' : Listener} (h : l.Inv) (hst : (system websocket).step l m = .ok l')
    (hr : l.ResumesKnown m) : l'.Inv := by
  cases hst
  have hres : ∀ callid reason, m.ev.page = .onCallResumed callid reason →
      l.script.page.calls.keys callid = true :=
    fun callid reason heq => (h.keys callid).mpr (hr callid reason heq)
  have htable := h.table.message m.ev.page
  have hcurrent := h.known.step hres
  by_cases hp : l.PausesKnown m
  · obtain ⟨p, hrun, hcalls, hmarks⟩ := h.wsonMessage_known hp hr
    rw [hrun]
    exact ⟨hcalls ▸ htable, hcalls ▸ hcurrent, hmarks⟩
  · simp only [PausesKnown, not_forall] at hp
    obtain ⟨callid, reason, hev, hk⟩ := hp
    rw [hev] at htable hcurrent ⊢
    rw [h.wsonMessage_paused hev hk]
    exact ⟨htable, hcurrent, h.unmarked⟩

/-- **A message is handled exactly when the call it holds or resumes is known.** -/
theorem Inv.handled_iff (h : l.Inv) : l.Handled m ↔ l.PausesKnown m ∧ l.ResumesKnown m := by
  constructor
  · rintro ⟨s, hs⟩
    constructor
    · intro callid reason hev
      by_contra hk
      rw [h.wsonMessage_paused hev hk] at hs
      cases hs
    · intro callid reason hev
      by_contra hk
      rw [h.wsonMessage_resumed hev hk] at hs
      cases hs
  · rintro ⟨hp, hr⟩
    obtain ⟨p, hrun, -⟩ := h.wsonMessage_known hp hr
    exact ⟨_, hrun⟩

/-- **An exception leaves the calls alone exactly when it is not from a resumed call.** -/
theorem Inv.untouched_iff (h : l.Inv) : l.Untouched m ↔ l.ResumesKnown m := by
  constructor
  · intro hu callid reason hev
    by_contra hk
    obtain ⟨hcallid, -⟩ := hu _ _ (h.wsonMessage_resumed hev hk)
    -- the current call is known, and this one is not
    exact hk ((h.keys callid).mp (h.known callid hcallid.symm))
  · intro hr e s hs
    by_cases hp : l.PausesKnown m
    · obtain ⟨p, hrun, -⟩ := h.wsonMessage_known hp hr
      rw [hrun] at hs
      cases hs
    · simp only [PausesKnown, not_forall] at hp
      obtain ⟨callid, reason, hev, hk⟩ := hp
      rw [h.wsonMessage_paused hev hk] at hs
      cases hs
      exact ⟨rfl, rfl⟩

/-- Every sequence of messages is a run. -/
theorem exists_run (websocket : Option ReadyState) (ms : List EventMessage) :
    ∃ l, (system websocket).Run ms l := by
  induction ms using List.reverseRecOn with
  | nil => exact ⟨_, .nil⟩
  | append_singleton ms m ih =>
      obtain ⟨l, hrun⟩ := ih
      exact ⟨_, hrun.snoc trivial rfl⟩

/-- **When the event handler is total.** A page with the script just loaded is sent any
messages of the event handlers of the program, about any calls with ordinary call ids. None of
them raises an exception exactly when each call that is held or resumed is known to the page,
that is, has alerted, been answered or come in since it was last released. All exceptions leave
`callid` and `SessionS` as they were exactly when each call that is resumed is known. -/
theorem events_handled_iff (websocket : Option ReadyState) (ms : List EventMessage) :
    (∃ l, (system websocket).Run ms l) ∧
      ((system websocket).AllSteps ms Handled ↔
        (system websocket).AllSteps ms fun l m => l.PausesKnown m ∧ l.ResumesKnown m) ∧
      ((system websocket).AllSteps ms Untouched ↔
        (system websocket).AllSteps ms ResumesKnown) := by
  obtain ⟨l, hrun⟩ := exists_run websocket ms
  refine ⟨⟨l, hrun⟩, ?_, ?_⟩
  · refine (StepSystem.allSteps_iff_allSteps (I := Inv) inv_init ?_ ?_ hrun).1
    · exact fun _ _ _ _ h _ _ => h.handled_iff
    · exact fun _ _ _ _ h _ hst hC => h.step hst hC.2
  · refine (StepSystem.allSteps_iff_allSteps (I := Inv) inv_init ?_ ?_ hrun).1
    · exact fun _ _ _ _ h _ _ => h.untouched_iff
    · exact fun _ _ _ _ h _ hst hC => h.step hst hC

/-- A page is loaded while call 7 is on hold. That the call is resumed raises an exception,
and call 7 is the current one from then on. -/
theorem events_resume_unknown : ∃ m : EventMessage,
    m.ev = .onCallResumed (bytes "7") 0 200 ∧
      Script.wsonMessage m.data {} =
        .error (.script .TypeError) { page := { callid := some (bytes "7") } } := by
  obtain ⟨data, hdata⟩ := SdkEvent.exists_emits (.onCallResumed (bytes "7") 0 200)
  refine ⟨⟨_, data, hdata, by decide⟩, rfl, ?_⟩
  rw [Script.wsonMessage_emitted hdata]
  rfl

end Listener

end UCClient
