import UCClient.Callback

/-!
# SDK Events

An SDK callback reaches the program through the table `CB` that `CWinSDKBase::initialize`
fills in: a static function `son<Event>` forwards it to the handler `on<Event>` of the
instance, which renders it as a message and puts that on the queue of every client in the
broadcast list.

All handlers are `handle` with their own event name and members; all dispatchers are
`toInstance` with their own handler, except for three: `sonLogInfo` does nothing,
`sonIncomingCallReceived` alerts the call first, and `sonSwitchCallMediaTypeRequest` calls
not the handler but itself.
-/

namespace UCClient

open ServerM WebSocketClient

/-- The message of an event: `out["type"] = "event"; out["event"] = name;` and then one
`out["param"][key] = x` for each member. -/
def eventValue (name : String) (param : List (String × Value)) : Except Fault Value := do
  let out ← Value.null.setMember (bytes "type") (.ofLiteral "event")
  let out ← out.setMember (bytes "event") (.ofLiteral name)
  param.foldlM (fun out kx => out.setMember₂ (bytes "param") (bytes kx.1) kx.2) out

/-- `for (auto & it : g_WSClientSet) it->Send(strout.c_str(), strout.length());` -/
def broadcast (strout : Bytes) : ServerM Unit := do
  (← get).g_WSClientSet.forM fun it => Send it strout

/-- A handler of an event on the client `this`. -/
def handle (this : ℕ) (ev : SdkEvent) (name : String) (param : List (String × Value)) :
    ServerM Unit := do
  let _ ← client this
  observe (.handler this ev)
  let out ← liftFault (eventValue name param)
  broadcast out.writeValue

/-! ### The handlers -/

namespace UCClientWSclient

def onConnect (this : ℕ) (tcpMsgIdOut : UInt32) (reason : Int32) (jsonString : Bytes)
    (autoReconnect : Int32) : ServerM Unit :=
  handle this (.onConnect tcpMsgIdOut reason jsonString autoReconnect) "onConnect"
    [("tcpMsgIdOut", .uint tcpMsgIdOut), ("reason", .int reason),
      ("jsonString", .ofCString jsonString), ("autoReconnect", .int autoReconnect)]

def onIncomingCallReceived (this : ℕ) (callType confType : Int32) (callid caller : Bytes) :
    ServerM Unit :=
  handle this (.onIncomingCallReceived callType confType callid caller)
    "onIncomingCallReceived"
    [("caller", .ofCString caller), ("callid", .ofCString callid),
      ("callType", .int callType), ("confType", .int confType)]

def onCallProceeding (this : ℕ) (callid : Bytes) : ServerM Unit :=
  handle this (.onCallProceeding callid) "onCallProceeding" [("callid", .ofCString callid)]

def onCallAlerting (this : ℕ) (callid : Bytes) : ServerM Unit :=
  handle this (.onCallAlerting callid) "onCallAlerting" [("callid", .ofCString callid)]

def onCallAnswered (this : ℕ) (callid : Bytes) : ServerM Unit :=
  handle this (.onCallAnswered callid) "onCallAnswered" [("callid", .ofCString callid)]

def onCallReleased (this : ℕ) (callid : Bytes) (reason state callEvent : Int32) :
    ServerM Unit :=
  handle this (.onCallReleased callid reason state callEvent) "onCallReleased"
    [("callid", .ofCString callid), ("reason", .int reason), ("state", .int state),
      ("CallEvent", .int callEvent)]

def onCallPaused (this : ℕ) (callid : Bytes) (type reason : Int32) : ServerM Unit :=
  handle this (.onCallPaused callid type reason) "onCallPaused"
    [("callid", .ofCString callid), ("type", .int type), ("reason", .int reason)]

def onCallResumed (this : ℕ) (callid : Bytes) (type reason : Int32) : ServerM Unit :=
  handle this (.onCallResumed callid type reason) "onCallResumed"
    [("callid", .ofCString callid), ("type", .int type), ("reason", .int reason)]

def onSwitchCallMediaTypeRequest (this : ℕ) (callid : Bytes) (video reason : Int32) :
    ServerM Unit :=
  handle this (.onSwitchCallMediaTypeRequest callid video reason)
    "onSwitchCallMediaTypeRequest"
    [("callid", .ofCString callid), ("video", .int video), ("reason", .int reason)]

def onSwitchCallMediaTypeResponse (this : ℕ) (callid : Bytes) (video reason : Int32) :
    ServerM Unit :=
  handle this (.onSwitchCallMediaTypeResponse callid video reason)
    "onSwitchCallMediaTypeResponse"
    [("callid", .ofCString callid), ("video", .int video), ("reason", .int reason)]

def onRemoteVideoRatio (this : ℕ) (callidOrConferenceId : Bytes)
    (width height type : Int32) (member ip : Bytes) (port : Int32) : ServerM Unit :=
  handle this (.onRemoteVideoRatio callidOrConferenceId width height type member ip port)
    "onRemoteVideoRatio"
    [("callid", .ofCString callidOrConferenceId), ("width", .int width),
      ("height", .int height), ("type", .int type), ("member", .ofCString member),
      ("ip", .ofCString ip), ("port", .int port)]

def onAudioData (this : ℕ) (callid inData : Bytes) (outData outLen : ℕ) (send : Bool) :
    ServerM Unit :=
  handle this (.onAudioData callid inData outData outLen send) "onAudioData"
    [("callid", .ofCString callid), ("inData", .string inData), ("send", .bool send)]

def onVideoData (this : ℕ) (callid inData : Bytes) (outData outLen : ℕ) (send : Bool) :
    ServerM Unit :=
  handle this (.onVideoData callid inData outData outLen send) "onVideoData"
    [("callid", .ofCString callid), ("inData", .string inData), ("send", .bool send)]

def onAudioCaptureData (this : ℕ) (callid data : Bytes)
    (samples sampleRate numChannels : Int32) : ServerM Unit :=
  handle this (.onAudioCaptureData callid data samples sampleRate numChannels)
    "onAudioCaptureData"
    [("callid", .ofCString callid), ("data", .string data), ("samples", .int samples),
      ("sampleRate", .int sampleRate), ("numChannels", .int numChannels)]

def onVideoCaptureData (this : ℕ) (callid data : Bytes)
    (width height yStride uvStride : Int32) : ServerM Unit :=
  handle this (.onVideoCaptureData callid data width height yStride uvStride)
    "onVideoCaptureData"
    [("callid", .ofCString callid), ("data", .string data), ("width", .int width),
      ("height", .int height), ("y_stride", .int yStride), ("uv_stride", .int uvStride)]

def onMediaDestinationChanged (this : ℕ) (callid : Bytes) (mediaType : Int32) (ip : Bytes)
    (port type : Int32) : ServerM Unit :=
  handle this (.onMediaDestinationChanged callid mediaType ip port type)
    "onMediaDestinationChanged"
    [("callid", .ofCString callid), ("mediaType", .int mediaType), ("ip", .ofCString ip),
      ("port", .int port), ("type", .int type)]

def onNoCamera (this : ℕ) (callid : Bytes) : ServerM Unit :=
  handle this (.onNoCamera callid) "onNoCamera" [("callid", .ofCString callid)]

def onNoMicRecording (this : ℕ) (callid : Bytes) (reason : Int32) : ServerM Unit :=
  handle this (.onNoMicRecording callid reason) "onNoMicRecording"
    [("callid", .ofCString callid), ("reason", .int reason)]

def onCallTransfered (this : ℕ) (callid destionation : Bytes) (reason : Int32) :
    ServerM Unit :=
  handle this (.onCallTransfered callid destionation reason) "onCallTransfered"
    [("callid", .ofCString callid), ("destionation", .ofCString destionation),
      ("reason", .int reason)]

def onMeetingTransfered (this : ℕ) (callid : Bytes) (reason : Int32) : ServerM Unit :=
  handle this (.onMeetingTransfered callid reason) "onMeetingTransfered"
    [("callid", .ofCString callid), ("reason", .int reason)]

def onAudioEnergyFeedback (this : ℕ) (averageEnergy : Int32) : ServerM Unit :=
  handle this (.onAudioEnergyFeedback averageEnergy) "onAudioEnergyFeedback"
    [("averageEnergy", .int averageEnergy)]

def onSipConnect (this : ℕ) (reason : Int32) : ServerM Unit :=
  handle this (.onSipConnect reason) "onSipConnect" [("reason", .int reason)]

def onSipLogOut (this : ℕ) (reason : Int32) : ServerM Unit :=
  handle this (.onSipLogOut reason) "onSipLogOut" [("reason", .int reason)]

def onDtmfReceived (this : ℕ) (callid : Bytes) (dtmf : UInt8) : ServerM Unit :=
  handle this (.onDtmfReceived callid dtmf) "onDtmfReceived"
    [("callid", .ofCString callid), ("dtmf", .string [dtmf])]

def onLogInfo (this : ℕ) (loginfo : Bytes) : ServerM Unit :=
  handle this (.onLogInfo loginfo) "onLogInfo" [("loginfo", .ofCString loginfo)]

def onLogOut (this : ℕ) (tcpMsgIdOut : UInt32) (reason : Int32) : ServerM Unit :=
  handle this (.onLogOut tcpMsgIdOut reason) "onLogOut"
    [("tcpMsgIdOut", .uint tcpMsgIdOut), ("reason", .int reason)]

def onWillCloseTcp (this : ℕ) : ServerM Unit :=
  handle this .onWillCloseTcp "onWillCloseTcp" []

end UCClientWSclient

open UCClientWSclient

/-! ### The dispatchers -/

namespace CWinSDKBase

/-- `if (g_Instance) g_Instance->...`. -/
def toInstance (handler : ℕ → ServerM Unit) : ServerM Unit := do
  match (← get).g_Instance with
  | some this => handler this
  | none => pure ()

/-- `CWinSDKBase::sonLogInfo`, whose body is commented out. -/
def sonLogInfo (_loginfo : Bytes) : ServerM Unit := pure ()

def sonConnect (tcpMsgIdOut : UInt32) (reason : Int32) (jsonString : Bytes)
    (autoReconnect : Int32) : ServerM Unit :=
  toInstance fun this => onConnect this tcpMsgIdOut reason jsonString autoReconnect

def sonLogOut (tcpMsgIdOut : UInt32) (reason : Int32) : ServerM Unit :=
  toInstance fun this => onLogOut this tcpMsgIdOut reason

def sonWillCloseTcp : ServerM Unit :=
  toInstance fun this => onWillCloseTcp this

def sonIncomingCallReceived (callType confType : Int32) (callid caller : Bytes) :
    ServerM Unit := do
  observe (.call (.alertingCall callid))
  toInstance fun this => onIncomingCallReceived this callType confType callid caller

def sonCallProceeding (callied : Bytes) : ServerM Unit :=
  toInstance fun this => onCallProceeding this callied

def sonCallAlerting (callid : Bytes) : ServerM Unit :=
  toInstance fun this => onCallAlerting this callid

def sonCallAnswered (callid : Bytes) : ServerM Unit :=
  toInstance fun this => onCallAnswered this callid

def sonCallReleased (callid : Bytes) (reason state callEvent : Int32) : ServerM Unit :=
  toInstance fun this => onCallReleased this callid reason state callEvent

def sonDtmfReceived (callid : Bytes) (dtmf : UInt8) : ServerM Unit :=
  toInstance fun this => onDtmfReceived this callid dtmf

def sonCallPaused (callid : Bytes) (type reason : Int32) : ServerM Unit :=
  toInstance fun this => onCallPaused this callid type reason

def sonCallResumed (callid : Bytes) (type reason : Int32) : ServerM Unit :=
  toInstance fun this => onCallResumed this callid type reason

/-- `CWinSDKBase::sonSwitchCallMediaTypeRequest`, which calls itself on the instance; the
stack has room for `depth` calls. -/
def sonSwitchCallMediaTypeRequest (callid : Bytes) (video reason : Int32) : ℕ → ServerM Unit
  | 0 => throw .stackOverflow
  | depth + 1 => toInstance fun _ => sonSwitchCallMediaTypeRequest callid video reason depth

def sonSwitchCallMediaTypeResponse (callid : Bytes) (video reason : Int32) : ServerM Unit :=
  toInstance fun this => onSwitchCallMediaTypeResponse this callid video reason

def sonRemoteVideoRatio (callidOrConferenceId : Bytes) (width height type : Int32)
    (member ip : Bytes) (port : Int32) : ServerM Unit :=
  toInstance fun this =>
    onRemoteVideoRatio this callidOrConferenceId width height type member ip port

def sonAudioData (callid inData : Bytes) (outData outLen : ℕ) (send : Bool) :
    ServerM Unit :=
  toInstance fun this => onAudioData this callid inData outData outLen send

def sonVideoData (callid inData : Bytes) (outData outLen : ℕ) (send : Bool) :
    ServerM Unit :=
  toInstance fun this => onVideoData this callid inData outData outLen send

def sonAudioCaptureData (callid data : Bytes) (samples sampleRate numChannels : Int32) :
    ServerM Unit :=
  toInstance fun this => onAudioCaptureData this callid data samples sampleRate numChannels

def sonVideoCaptureData (callid data : Bytes) (width height yStride uvStride : Int32) :
    ServerM Unit :=
  toInstance fun this => onVideoCaptureData this callid data width height yStride uvStride

def sonMediaDestinationChanged (callid : Bytes) (mediaType : Int32) (ip : Bytes)
    (port type : Int32) : ServerM Unit :=
  toInstance fun this => onMediaDestinationChanged this callid mediaType ip port type

def sonNoCamera (callid : Bytes) : ServerM Unit :=
  toInstance fun this => onNoCamera this callid

def sonNoMicRecording (callid : Bytes) (reason : Int32) : ServerM Unit :=
  toInstance fun this => onNoMicRecording this callid reason

def sonCallTransfered (callid destionation : Bytes) (reason : Int32) : ServerM Unit :=
  toInstance fun this => onCallTransfered this callid destionation reason

def sonMeetingTransfered (callid : Bytes) (reason : Int32) : ServerM Unit :=
  toInstance fun this => onMeetingTransfered this callid reason

def sonAudioEnergyFeedback (averageEnergy : Int32) : ServerM Unit :=
  toInstance fun this => onAudioEnergyFeedback this averageEnergy

def sonSipConnect (reason : Int32) : ServerM Unit :=
  toInstance fun this => onSipConnect this reason

def sonSipLogOut (reason : Int32) : ServerM Unit :=
  toInstance fun this => onSipLogOut this reason

end CWinSDKBase

open CWinSDKBase

/-- A callback of the SDK, through the function `CWinSDKBase::initialize` installs for it,
with room for `depth` calls on the stack. -/
def CB (depth : ℕ) : SdkEvent → ServerM Unit
  | .onLogInfo loginfo => sonLogInfo loginfo
  | .onConnect tcpMsgIdOut reason jsonString autoReconnect =>
      sonConnect tcpMsgIdOut reason jsonString autoReconnect
  | .onLogOut tcpMsgIdOut reason => sonLogOut tcpMsgIdOut reason
  | .onWillCloseTcp => sonWillCloseTcp
  | .onIncomingCallReceived callType confType callid caller =>
      sonIncomingCallReceived callType confType callid caller
  | .onCallProceeding callid => sonCallProceeding callid
  | .onCallAlerting callid => sonCallAlerting callid
  | .onCallAnswered callid => sonCallAnswered callid
  | .onCallReleased callid reason state callEvent =>
      sonCallReleased callid reason state callEvent
  | .onDtmfReceived callid dtmf => sonDtmfReceived callid dtmf
  | .onCallPaused callid type reason => sonCallPaused callid type reason
  | .onCallResumed callid type reason => sonCallResumed callid type reason
  | .onSwitchCallMediaTypeRequest callid video reason =>
      sonSwitchCallMediaTypeRequest callid video reason depth
  | .onSwitchCallMediaTypeResponse callid video reason =>
      sonSwitchCallMediaTypeResponse callid video reason
  | .onRemoteVideoRatio callidOrConferenceId width height type member ip port =>
      sonRemoteVideoRatio callidOrConferenceId width height type member ip port
  | .onAudioData callid inData outData outLen send =>
      sonAudioData callid inData outData outLen send
  | .onVideoData callid inData outData outLen send =>
      sonVideoData callid inData outData outLen send
  | .onAudioCaptureData callid data samples sampleRate numChannels =>
      sonAudioCaptureData callid data samples sampleRate numChannels
  | .onVideoCaptureData callid data width height yStride uvStride =>
      sonVideoCaptureData callid data width height yStride uvStride
  | .onMediaDestinationChanged callid mediaType ip port type =>
      sonMediaDestinationChanged callid mediaType ip port type
  | .onNoCamera callid => sonNoCamera callid
  | .onNoMicRecording callid reason => sonNoMicRecording callid reason
  | .onCallTransfered callid destionation reason =>
      sonCallTransfered callid destionation reason
  | .onMeetingTransfered callid reason => sonMeetingTransfered callid reason
  | .onAudioEnergyFeedback averageEnergy => sonAudioEnergyFeedback averageEnergy
  | .onSipConnect reason => sonSipConnect reason
  | .onSipLogOut reason => sonSipLogOut reason

/-! ### What an event does -/

/-- A message under construction: its `type` and `event` are set, and members can be
stored under its `param`. -/
structure EventValue (name : String) (v : Value) : Prop where
  object : v.indexable = true
  param : (v.member (bytes "param")).indexable = true
  type : v.member (bytes "type") = .ofLiteral "event"
  event : v.member (bytes "event") = .ofLiteral name

/-- Storing the members of `param` one after another. -/
theorem foldlM_setMember₂ {name : String} (param : List (String × Value)) :
    ∀ {v : Value}, EventValue name v → ∃ v',
      param.foldlM (fun out kx => out.setMember₂ (bytes "param") (bytes kx.1) kx.2) v = .ok v' ∧
        EventValue name v' := by
  induction param with
  | nil => exact fun {v} hv => ⟨v, rfl, hv⟩
  | cons kx param ih =>
      intro v hv
      obtain ⟨v₁, hv₁, hi, hp, -, hm⟩ :=
        Value.setMember₂_spec hv.object hv.param (bytes kx.1) kx.2
      have hev : EventValue name v₁ :=
        ⟨hi, hp, (hm _ (by decide)).trans hv.type, (hm _ (by decide)).trans hv.event⟩
      obtain ⟨v', hv', hev'⟩ := ih hev
      refine ⟨v', ?_, hev'⟩
      rw [List.foldlM_cons, hv₁]
      exact hv'

/-- The message of an event can always be built, and says which event it is. -/
theorem eventValue_spec (name : String) (param : List (String × Value)) :
    ∃ v, eventValue name param = .ok v ∧ EventValue name v := by
  obtain ⟨v₁, hv₁, hi₁, hm₁⟩ :=
    Value.setMember_spec (v := .null) rfl (bytes "type") (.ofLiteral "event")
  obtain ⟨v₂, hv₂, hi₂, hm₂⟩ := Value.setMember_spec hi₁ (bytes "event") (.ofLiteral name)
  have hev : EventValue name v₂ := by
    refine ⟨hi₂, ?_, ?_, ?_⟩
    · rw [hm₂, if_neg (by decide), hm₁, if_neg (by decide)]
      rfl
    · rw [hm₂, if_neg (by decide), hm₁, if_pos rfl]
    · rw [hm₂, if_pos rfl]
  obtain ⟨v, hv, hev'⟩ := foldlM_setMember₂ param hev
  refine ⟨v, ?_, hev'⟩
  rw [eventValue, hv₁]
  simp only [bind, Except.bind]
  rw [hv₂]
  exact hv

/-- After the clients `ps` have all been sent `buf`: an entry for each time a client is
listed is at the end of its queue, and nothing else of the clients and registries has
changed. -/
structure SentAll (ps : List ℕ) (buf : Bytes) (s s' : Server) : Prop where
  cell : ∀ q, s'.heap.cell q = (s.heap.cell q).map fun c =>
    { c with m_sendBuf := c.m_sendBuf ++ List.replicate (ps.count q) (entry buf) }
  next : s'.heap.next = s.heap.next
  WSClientSet : s'.WSClientSet = s.WSClientSet
  g_WSClientSet : s'.g_WSClientSet = s.g_WSClientSet
  g_Instance : s'.g_Instance = s.g_Instance
  trace : s'.trace = s.trace ++ ps.map fun p => .Send p buf
  wake : ∀ p ∈ ps, ∀ c, s.heap.cell p = some c → s.canWrite c = true → s'.writable c.wsi = true
  writable : ∀ w, s.writable w = true → s'.writable w = true

/-- The loop of a broadcast. -/
theorem forM_Send (buf : Bytes) :
    ∀ (ps : List ℕ) (s : Server), (∀ p ∈ ps, s.heap.Live p) →
      ∃ s', ps.forM (fun it => Send it buf) s = .ok () s' ∧ SentAll ps buf s s'
  | [], s, _ => by
      refine ⟨s, rfl, ⟨fun q => ?_, rfl, rfl, rfl, rfl, by simp, nofun, fun _ h => h⟩⟩
      cases s.heap.cell q <;> simp
  | p :: ps, s, hlive => by
      obtain ⟨c, hc⟩ := Heap.live_iff.mp (hlive p List.mem_cons_self)
      have hlive' : ∀ q ∈ ps, (s.sent p c buf).heap.Live q := by
        intro q hq
        simpa [Server.sent] using hlive q (List.mem_cons_of_mem p hq)
      obtain ⟨s', hs', h⟩ := forM_Send buf ps (s.sent p c buf) hlive'
      refine ⟨s', ?_, ⟨fun q => ?_, h.next, h.WSClientSet, h.g_WSClientSet, h.g_Instance, ?_,
        fun q hq d hd hw => ?_, fun w hw => h.writable w (s.writable_wake c w hw)⟩⟩
      · show (Send p buf >>= fun _ => ps.forM fun it => Send it buf) s = .ok () s'
        rw [EStateM.bind_ok (Send_spec hc buf), hs']
      · rw [h.cell, Server.sent, Heap.cell_modify]
        by_cases hq : q = p
        · subst hq
          simp [hc, List.replicate_succ]
        · simp [hq, Ne.symm hq]
      · simp [h.trace, Server.sent]
      · -- the first client asked when it was sent to, the others will
        by_cases hp : q = p
        · subst hp
          obtain rfl : c = d := Option.some.inj (hc.symm.trans hd)
          exact h.writable _ (Server.wake_self hw)
        · have hd' : (s.sent p c buf).heap.cell q = some d := by
            rw [Server.sent, Heap.cell_modify, if_neg hp, hd]
          exact h.wake q ((List.mem_cons.mp hq).resolve_left hp) d hd' hw

/-- A broadcast that ends found all its clients. -/
theorem live_of_forM_Send {buf : Bytes} :
    ∀ {ps : List ℕ} {s s' : Server}, ps.forM (fun it => Send it buf) s = .ok () s' →
      ∀ p ∈ ps, s.heap.Live p
  | [], _, _, _ => nofun
  | p :: ps, s, s', h => by
      have h' : (Send p buf >>= fun _ => ps.forM fun it => Send it buf) s = .ok () s' := h
      obtain ⟨_, t, ht, hps⟩ := EStateM.bind_ok_inv h'
      cases hc : s.heap.cell p with
      | none => simp [Send, observe_bind, setClient_bind, hc] at ht
      | some c =>
          rw [Send_spec hc buf] at ht
          cases ht
          intro q hq
          rcases List.mem_cons.mp hq with rfl | hq
          · exact Heap.live_of_cell hc
          · simpa [Server.sent] using live_of_forM_Send hps q hq

/-- A handler renders its event once and sends that to every client of the list. -/
theorem handle_run {this : ℕ} {s : Server} (hthis : s.heap.Live this) (ev : SdkEvent)
    {name : String} {param : List (String × Value)} {v : Value}
    (hv : eventValue name param = .ok v) :
    handle this ev name param s =
      s.g_WSClientSet.forM (fun it => Send it v.writeValue) (s.observed [.handler this ev]) := by
  obtain ⟨c, hc⟩ := Heap.live_iff.mp hthis
  simp only [handle, client_bind, observe_bind, hc, hv]
  rfl

/-- The events whose dispatcher calls their handler. -/
def SdkEvent.forwarded : SdkEvent → Bool
  | .onLogInfo _ => false
  | .onSwitchCallMediaTypeRequest _ _ _ => false
  | _ => true

/-- What a dispatcher does before it looks for the instance. -/
def SdkEvent.alerted : SdkEvent → List Obs
  | .onIncomingCallReceived _ _ callid _ => [.call (.alertingCall callid)]
  | _ => []

/-- The event with the same input arguments and other output buffers. -/
def SdkEvent.withOut (outData outLen : ℕ) : SdkEvent → SdkEvent
  | .onAudioData callid inData _ _ send => .onAudioData callid inData outData outLen send
  | .onVideoData callid inData _ _ send => .onVideoData callid inData outData outLen send
  | ev => ev

theorem SdkEvent.withOut_self (ev : SdkEvent) :
    ∃ outData outLen, ev.withOut outData outLen = ev := by
  cases ev
  case onAudioData callid inData outData outLen send => exact ⟨outData, outLen, rfl⟩
  case onVideoData callid inData outData outLen send => exact ⟨outData, outLen, rfl⟩
  all_goals exact ⟨0, 0, rfl⟩

theorem SdkEvent.name_withOut (ev : SdkEvent) (outData outLen : ℕ) :
    (ev.withOut outData outLen).name = ev.name := by cases ev <;> rfl

/-- **Every dispatcher of a forwarded event calls the handler of that event**, with the
arguments it was given, and renders its input arguments. -/
theorem CB_withOut {ev : SdkEvent} (h : ev.forwarded = true) :
    ∃ param, ∀ outData outLen depth s, CB depth (ev.withOut outData outLen) s =
      (toInstance fun this => handle this (ev.withOut outData outLen)
        (ev.withOut outData outLen).name param)
        (s.observed (ev.withOut outData outLen).alerted) := by
  have hnil : ∀ s : Server, s.observed [] = s := fun s => by simp [Server.observed]
  cases ev
  case onLogInfo => cases h
  case onSwitchCallMediaTypeRequest => cases h
  case onIncomingCallReceived => exact ⟨_, fun _ _ depth s => rfl⟩
  all_goals
    exact ⟨_, fun _ _ depth s => by simp only [SdkEvent.withOut, SdkEvent.alerted, hnil]; rfl⟩

theorem CB_forwarded {ev : SdkEvent} (h : ev.forwarded = true) :
    ∃ param, ∀ depth s, CB depth ev s =
      (toInstance fun this => handle this ev ev.name param) (s.observed ev.alerted) := by
  obtain ⟨param, hparam⟩ := CB_withOut h
  obtain ⟨outData, outLen, hself⟩ := ev.withOut_self
  refine ⟨param, fun depth s => ?_⟩
  have hrun := hparam outData outLen depth s
  rwa [hself] at hrun

/-- **The switch request never returns**: on a stack of any depth it overflows. -/
theorem sonSwitchCallMediaTypeRequest_overflows {s : Server} {this : ℕ}
    (hi : s.g_Instance = some this) (callid : Bytes) (video reason : Int32) (depth : ℕ) :
    sonSwitchCallMediaTypeRequest callid video reason depth s = .error .stackOverflow s := by
  induction depth with
  | zero => rfl
  | succ depth ih =>
      rw [sonSwitchCallMediaTypeRequest, toInstance, EStateM.get_bind]
      simp only [hi]
      exact ih

/-- Before an event is sent nothing else is. -/
theorem dataOf_alerted (ev : SdkEvent) (this : ℕ) :
    ∀ o ∈ ev.alerted ++ [.handler this ev], o.dataOf = none := by
  intro o ho
  rcases List.mem_append.mp ho with ho | ho
  · cases ev
    case onIncomingCallReceived =>
      obtain rfl := List.mem_singleton.mp ho
      rfl
    all_goals cases ho
  · obtain rfl := List.mem_singleton.mp ho
    rfl

/-- **Every way an event can end**: nothing is sent, or one message is sent to every listed
client, or the stack overflows, or the instance is gone. -/
theorem CB_run (s : Server) (depth : ℕ) (ev : SdkEvent) :
    (∃ obs, (∀ o ∈ obs, o.dataOf = none) ∧ CB depth ev s = .ok () (s.observed obs)) ∨
      (∃ this buf, CB depth ev s = s.g_WSClientSet.forM (fun it => Send it buf)
        (s.observed (ev.alerted ++ [.handler this ev]))) ∨
      CB depth ev s = .error .stackOverflow s ∨
      ∃ this s', s.g_Instance = some this ∧ ¬ s.heap.Live this ∧
        CB depth ev s = .error (.dangling this) s' := by
  have hnil : s.observed [] = s := by simp [Server.observed]
  by_cases hfwd : ev.forwarded = true
  · obtain ⟨param, hparam⟩ := CB_forwarded hfwd
    obtain ⟨v, hv, -⟩ := eventValue_spec ev.name param
    rw [hparam, toInstance, EStateM.get_bind]
    cases hi : (s.observed ev.alerted).g_Instance with
    | none => exact .inl ⟨ev.alerted, fun o ho => dataOf_alerted ev 0 o (by simp [ho]), rfl⟩
    | some this =>
        by_cases hlive : (s.observed ev.alerted).heap.Live this
        · refine .inr (.inl ⟨this, v.writeValue, ?_⟩)
          refine (handle_run hlive ev hv).trans ?_
          simp only [Server.observed, List.append_assoc]
        · refine .inr (.inr (.inr ⟨this, s.observed ev.alerted, hi, hlive, ?_⟩))
          have hnone : (s.observed ev.alerted).heap.cell this = none := by
            simpa [Heap.Live] using hlive
          simp only [handle, client_bind, hnone]
  · cases ev
    case onLogInfo => exact .inl ⟨[], List.forall_mem_nil _, by rw [hnil]; rfl⟩
    case onSwitchCallMediaTypeRequest callid video reason =>
      cases hi : s.g_Instance with
      | some this =>
          exact .inr (.inr (.inl
            (sonSwitchCallMediaTypeRequest_overflows hi callid video reason depth)))
      | none =>
          cases depth with
          | zero => exact .inr (.inr (.inl rfl))
          | succ depth =>
              refine .inl ⟨[], List.forall_mem_nil _, ?_⟩
              simp only [hnil, CB, sonSwitchCallMediaTypeRequest, toInstance, EStateM.get_bind, hi]
              rfl
    all_goals exact absurd rfl hfwd

end UCClient
