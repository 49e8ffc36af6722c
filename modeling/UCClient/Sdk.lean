import UCClient.JsonValue

/-!
# The SDK Boundary

The telephony SDK is a binary: the program calls its functions (`SdkCall`) and is called
back by it (`SdkEvent`). What a function returns is not the program's choice, so the
model takes it from an environment `Sdk`, which may answer each call differently and
with regard to everything that happened before.

What a program does to the outside is recorded in a trace of observations (`Obs`): SDK
and registry calls, data handed to lws, and the member functions a client is entered
through. What is said about "exactly one call" is read from the trace.
-/

namespace UCClient

/-- A call of a function of the SDK, with its arguments. Pointers to text are the text;
`none` is the null pointer. -/
inductive SdkCall
  | alertingCall (callid : Bytes)
  | connectToCCPServer (addr : Bytes) (port : Int32) (voipid voippwd : Bytes)
  | makeCall (callType : Int32) (called : Bytes)
  | acceptCall (callid : Bytes) (type : Int32)
  | pauseCall (callid : Bytes)
  | resumeCall (callid : Bytes)
  | transferCall (callid destination : Bytes) (type : Int32)
  | sendDTMF (callid : Bytes) (dtmf : UInt8)
  | releaseCall (callid : Option Bytes) (reason : Int32)
  | getCurrentCall
  | disConnectToCCP
  | setTraceFlag (enable : Bool) (logFileName : Bytes) (level : Int32)
  | setCodecEnabled (codecid enabled : Int32)
  | getCodecEnabled (codecid : Int32)
  | setMute (on : Bool)
  | getMicroPhoneInfo
  | selectMicroPhone (index : Int32)
  | getSpeakerInfo
  | selectSpeaker (index : Int32)
  | setUserData (type : Int32) (data : Bytes)
  | consultTransferCall (callid consultCallid destination : Bytes)
  | transferMeeting (type : Int32) (callid consultCallid consultedUser : Bytes)
  | setSipTransportType (transType : Int32)
  | setSrtpEnabled (transportType cryptoType : Int32)
  | getVersion
  deriving DecidableEq, Repr

/-- A callback of the SDK, with its arguments, under the name of the field of
`CCallbackInterface` it is made through. A pointer to text is the text, and the SDK passes no
null pointer for one; the handlers, which make strings of them, do not test for it. A data buffer
is its bytes, an output buffer the address it was given. -/
inductive SdkEvent
  | onLogInfo (loginfo : Bytes)
  | onConnect (tcpMsgIdOut : UInt32) (reason : Int32) (jsonString : Bytes)
      (autoReconnect : Int32)
  | onLogOut (tcpMsgIdOut : UInt32) (reason : Int32)
  | onWillCloseTcp
  | onIncomingCallReceived (callType confType : Int32) (callid caller : Bytes)
  | onCallProceeding (callid : Bytes)
  | onCallAlerting (callid : Bytes)
  | onCallAnswered (callid : Bytes)
  | onCallReleased (callid : Bytes) (reason state callEvent : Int32)
  | onDtmfReceived (callid : Bytes) (dtmf : UInt8)
  | onCallPaused (callid : Bytes) (type reason : Int32)
  | onCallResumed (callid : Bytes) (type reason : Int32)
  | onSwitchCallMediaTypeRequest (callid : Bytes) (video reason : Int32)
  | onSwitchCallMediaTypeResponse (callid : Bytes) (video reason : Int32)
  | onRemoteVideoRatio (callidOrConferenceId : Bytes) (width height type : Int32)
      (member ip : Bytes) (port : Int32)
  | onAudioData (callid inData : Bytes) (outData outLen : ℕ) (send : Bool)
  | onVideoData (callid inData : Bytes) (outData outLen : ℕ) (send : Bool)
  | onAudioCaptureData (callid data : Bytes) (samples sampleRate numChannels : Int32)
  | onVideoCaptureData (callid data : Bytes) (width height yStride uvStride : Int32)
  | onMediaDestinationChanged (callid : Bytes) (mediaType : Int32) (ip : Bytes)
      (port type : Int32)
  | onNoCamera (callid : Bytes)
  | onNoMicRecording (callid : Bytes) (reason : Int32)
  | onCallTransfered (callid destionation : Bytes) (reason : Int32)
  | onMeetingTransfered (callid : Bytes) (reason : Int32)
  | onAudioEnergyFeedback (averageEnergy : Int32)
  | onSipConnect (reason : Int32)
  | onSipLogOut (reason : Int32)
  deriving DecidableEq, Repr

/-- The name of the member function an SDK callback is handled by. -/
def SdkEvent.name : SdkEvent → String
  | onLogInfo .. => "onLogInfo"
  | onConnect .. => "onConnect"
  | onLogOut .. => "onLogOut"
  | onWillCloseTcp => "onWillCloseTcp"
  | onIncomingCallReceived .. => "onIncomingCallReceived"
  | onCallProceeding .. => "onCallProceeding"
  | onCallAlerting .. => "onCallAlerting"
  | onCallAnswered .. => "onCallAnswered"
  | onCallReleased .. => "onCallReleased"
  | onDtmfReceived .. => "onDtmfReceived"
  | onCallPaused .. => "onCallPaused"
  | onCallResumed .. => "onCallResumed"
  | onSwitchCallMediaTypeRequest .. => "onSwitchCallMediaTypeRequest"
  | onSwitchCallMediaTypeResponse .. => "onSwitchCallMediaTypeResponse"
  | onRemoteVideoRatio .. => "onRemoteVideoRatio"
  | onAudioData .. => "onAudioData"
  | onVideoData .. => "onVideoData"
  | onAudioCaptureData .. => "onAudioCaptureData"
  | onVideoCaptureData .. => "onVideoCaptureData"
  | onMediaDestinationChanged .. => "onMediaDestinationChanged"
  | onNoCamera .. => "onNoCamera"
  | onNoMicRecording .. => "onNoMicRecording"
  | onCallTransfered .. => "onCallTransfered"
  | onMeetingTransfered .. => "onMeetingTransfered"
  | onAudioEnergyFeedback .. => "onAudioEnergyFeedback"
  | onSipConnect .. => "onSipConnect"
  | onSipLogOut .. => "onSipLogOut"

/-- What the program does to the outside, and the member functions of a client `p` it
enters. -/
inductive Obs
  | call (c : SdkCall)
  | SetRegKeyString (name value : Bytes)
  | SetRegKeyDWORD (name : Bytes) (value : UInt32)
  | Send (p : ℕ) (buf : Bytes)
  | lws_write (p : ℕ) (buf : Bytes) (res : ℤ)
  | OnOpen (p : ℕ)
  | OnMessage (p : ℕ) (message : Bytes)
  | OnError (p : ℕ) (errorCode : Bytes)
  | OnClose (p : ℕ) (errorCode : Bytes)
  | OnSend (p : ℕ)
  | handler (p : ℕ) (ev : SdkEvent)
  deriving DecidableEq, Repr

/-- The client whose data an observation shows on its way: onto the queue, or from the
queue to lws. -/
def Obs.dataOf : Obs → Option ℕ
  | .Send p _ | .lws_write p _ _ => some p
  | _ => none

/-- An audio device as the SDK lists it. -/
structure Device where
  index : Int32
  name : Bytes
  guid : Bytes
  deriving DecidableEq, Repr

/-- The answers of the SDK to the calls made to it, given everything observed before:
result codes, texts (`none` is the null pointer), flags and device lists. `uninit` is
what an uninitialised local variable of the program happens to hold. -/
structure Sdk where
  ret : List Obs → SdkCall → Int32
  text : List Obs → SdkCall → Option Bytes
  flag : List Obs → SdkCall → Bool
  devices : List Obs → SdkCall → List Device
  uninit : List Obs → UInt32

/-- An SDK that answers every call with success and with nothing. -/
def silentSdk : Sdk where
  ret := fun _ _ => 0
  text := fun _ _ => none
  flag := fun _ _ => false
  devices := fun _ _ => []
  uninit := fun _ => 0

end UCClient
