import UCClient.JsonReader
import UCClient.JsonWriter
import UCClient.Sdk
import UCClient.Triples

/-!
# Commands of a Page

`UCClientWSclient::OnMessage`: a message is parsed, a command is recognised by its name,
its branch reads typed members of `param`, calls the SDK or the registry, fills in the
result, and the result is sent back.

A command runs on its own state (`CmdState`): the two `Json::Value` locals of
`OnMessage`, the version string `CWinSDKBase::getVersion` keeps, and the trace of calls.
The `if`-chain over command names is the table `Command.name`; `Command.ofName` finds the
branch, and `runCommand` has one case per branch. The name of the second branch ends in a
blank, as it does in the source.

The member reads `if (jsonEvent["param"][key].isString()) x = ...asString()` are the two
programs `paramString` and `paramInt`, which take the value `x` has before.
-/

namespace UCClient

/-- The state a command runs on. -/
structure CmdState where
  jsonEvent : Value := .null
  cmdresult : Value := .null
  version : Bytes := []
  trace : List Obs := []

/-- Programs that handle a command. -/
abbrev CmdM := EStateM Fault CmdState

namespace Value

/-- `Value::asString`. Numbers, arrays and objects throw there; every use is behind an
`isString` test. -/
def asString : Value → Bytes
  | .string s => s
  | .bool b => valueToStringBool b
  | _ => []

/-- `Value::asInt`. Strings, arrays and objects throw there; every use is behind an
`isInt` test. -/
def asInt : Value → Int32
  | .int i => i
  | .uint u => u.toInt32
  | .bool b => if b then 1 else 0
  | _ => 0

end Value

namespace CmdM

/-- A `Json::Value` operation inside a command. -/
def liftJson {α : Type} (e : Except Fault α) : CmdM α := fun s =>
  match e with
  | .ok a => .ok a s
  | .error f => .error f s

/-- `jsonEvent[key]`. -/
def field (key : String) : CmdM Value := do
  let s ← get
  let (root, x) ← liftJson (s.jsonEvent.index (bytes key))
  set { s with jsonEvent := root }
  pure x

/-- `jsonEvent["param"][key]`. -/
def param (key : Bytes) : CmdM Value := do
  let s ← get
  let (root, p) ← liftJson (s.jsonEvent.index (bytes "param"))
  let (p, x) ← liftJson (p.index key)
  let root ← liftJson (root.setMember (bytes "param") p)
  set { s with jsonEvent := root }
  pure x

/-- `if (jsonEvent["param"][key].isString()) x = jsonEvent["param"][key].asString();` -/
def paramString (key : String) (x : Bytes) : CmdM Bytes := do
  if (← param (bytes key)).isString then
    pure (← param (bytes key)).asString
  else pure x

/-- `if (jsonEvent["param"][key].isInt()) x = jsonEvent["param"][key].asInt();` for a
`uint32_t x`. -/
def paramInt (key : String) (x : UInt32) : CmdM UInt32 := do
  if (← param (bytes key)).isInt then
    pure (← param (bytes key)).asInt.toUInt32
  else pure x

/-- `cmdresult[key] = x`. -/
def setResult (key : String) (x : Value) : CmdM Unit := do
  let s ← get
  let v ← liftJson (s.cmdresult.setMember (bytes key) x)
  set { s with cmdresult := v }

/-- `cmdresult["param"][key] = x`. -/
def setParam (key : String) (x : Value) : CmdM Unit := do
  let s ← get
  let v ← liftJson (s.cmdresult.setMember₂ (bytes "param") (bytes key) x)
  set { s with cmdresult := v }

/-- Something the outside sees. -/
def record (o : Obs) : CmdM Unit := fun s => .ok () { s with trace := s.trace ++ [o] }

/-- A call of the SDK whose answer is read by `answer`. -/
def call {α : Type} (answer : List Obs → SdkCall → α) (c : SdkCall) : CmdM α := fun s =>
  .ok (answer s.trace c) { s with trace := s.trace ++ [.call c] }

/-- A `Json::Value` operation that succeeds inside a command. -/
theorem liftJson_bind_ok {α β : Type} {e : Except Fault α} {f : α → CmdM β} {s : CmdState}
    {a : α} (h : e = .ok a) : (liftJson e >>= f) s = f a s := by
  rw [h]
  rfl

/-- A `Json::Value` operation that trips its assertion inside a command. -/
theorem liftJson_bind_error {α β : Type} {e : Except Fault α} {f : α → CmdM β}
    {s : CmdState} {x : Fault} (h : e = .error x) : (liftJson e >>= f) s = .error x s := by
  rw [h]
  rfl

end CmdM

open CmdM

/-! ### The SDK wrappers -/

namespace CWinSDKBase

variable (sdk : Sdk)

/-- `CWinSDKBase::connectToCCPServer`: the result of the SDK is logged, not returned. -/
def connectToCCPServer (addr : Bytes) (port : Int32) (voipId voipPwd : Bytes) :
    CmdM Int32 := do
  let _ ← call sdk.ret (.connectToCCPServer addr port voipId voipPwd)
  pure 0

def makeCall (called : Bytes) : CmdM Int32 := call sdk.ret (.makeCall 0 called)

def acceptCall (callid : Bytes) : CmdM Int32 := call sdk.ret (.acceptCall callid 0)

def pauseCall (callid : Bytes) : CmdM Int32 := call sdk.ret (.pauseCall callid)

def resumeCall (callid : Bytes) : CmdM Int32 := call sdk.ret (.resumeCall callid)

def transferCall (callid destination : Bytes) (type : Int32) : CmdM Int32 :=
  call sdk.ret (.transferCall callid destination type)

def sendDTMF (callid : Bytes) (dtmf : UInt8) : CmdM Int32 :=
  call sdk.ret (.sendDTMF callid dtmf)

def releaseCall (callid : Option Bytes) (reason : Int32) : CmdM Int32 :=
  call sdk.ret (.releaseCall callid reason)

def getCurrentCall : CmdM (Option Bytes) := call sdk.text .getCurrentCall

def disConnectToCCP : CmdM Int32 := call sdk.ret .disConnectToCCP

/-- `CWinSDKBase::setTraceFlag`, which returns nothing. -/
def setTraceFlag (enable : Bool) (logFileName : Bytes) (level : Int32) : CmdM Unit :=
  record (.call (.setTraceFlag enable logFileName level))

def setCodecEnabled (codecid enabled : Int32) : CmdM Int32 :=
  call sdk.ret (.setCodecEnabled codecid enabled)

def getCodecEnabled (codecid : Int32) : CmdM Bool := call sdk.flag (.getCodecEnabled codecid)

def setMute (on : Bool) : CmdM Int32 := call sdk.ret (.setMute on)

/-- The entry of a device in the lists sent to a page. -/
def deviceInfo (d : Device) : Value :=
  .object [(bytes "guid", .ofCString d.guid), (bytes "index", .int d.index),
    (bytes "name", .ofCString d.name)]

def getMicroPhoneInfo : CmdM Value := do
  let info ← call sdk.devices .getMicroPhoneInfo
  pure (.array (info.map deviceInfo))

def selectMicroPhone (index : Int32) : CmdM Int32 := call sdk.ret (.selectMicroPhone index)

def getSpeakerInfo : CmdM Value := do
  let info ← call sdk.devices .getSpeakerInfo
  pure (.array (info.map deviceInfo))

def selectSpeaker (index : Int32) : CmdM Int32 := call sdk.ret (.selectSpeaker index)

def setUserData (type : Int32) (data : Bytes) : CmdM Int32 :=
  call sdk.ret (.setUserData type data)

def consultTransferCall (callid consultCallid destination : Bytes) : CmdM Int32 :=
  call sdk.ret (.consultTransferCall callid consultCallid destination)

def transferMeeting (type : Int32) (callid consultCallid consultedUser : Bytes) :
    CmdM Int32 :=
  call sdk.ret (.transferMeeting type callid consultCallid consultedUser)

def setSipTransportType (transType : Int32) : CmdM Int32 :=
  call sdk.ret (.setSipTransportType transType)

/-- `CWinSDKBase::setSrtpEnabled`, which returns nothing. -/
def setSrtpEnabled (transportType cryptoType : Int32) : CmdM Unit :=
  record (.call (.setSrtpEnabled transportType cryptoType))

/-- `CWinSDKBase::getVersion`: the SDK is asked while its answer so far was empty. -/
def getVersion : CmdM Bytes := do
  let s ← get
  if s.version = [] then
    let version := cstr ((← call sdk.text .getVersion).getD [])
    modify fun s => { s with version := version }
    pure version
  else pure s.version

end CWinSDKBase

open CWinSDKBase

/-! ### The branches -/

/-- The commands `OnMessage` has a branch for, in the order of their tests. -/
inductive Command
  | Initialize | unInitialize | connectToCCPServer | disConnectToCCP | getCurrentCall
  | setTraceFlag | makeCall | acceptCall | pauseCall | resumeCall | releaseCall | sendDTMF
  | setMute | transferCall | consultTransferCall | transferMeeting | setUserData
  | setSipTransportType | setSrtpEnabled | setCodecEnabled | getCodecEnabled
  | getMicroPhoneInfo | selectMicroPhone | getSpeakerInfo | selectSpeaker
  | setAudioRecordStatus | getAudioRecordDeviceList | getAudioPlayoutDeviceList
  | selectAudioRecordDevice | selectAudioPlayoutDevice | setAudioPlayoutVolume
  | startMicrophoneTest | stopMicrophoneTest | startPlayoutTest | stopPlayoutTest
  | enableGlobalAudioInDevice | getVersion | version | setRegConfig
  deriving DecidableEq, Repr

namespace Command

/-- The literal a command's branch compares with. -/
def name : Command → String
  | Initialize => "initialize"
  | unInitialize => "unInitialize "
  | connectToCCPServer => "connectToCCPServer"
  | disConnectToCCP => "disConnectToCCP"
  | getCurrentCall => "getCurrentCall"
  | setTraceFlag => "setTraceFlag"
  | makeCall => "makeCall"
  | acceptCall => "acceptCall"
  | pauseCall => "pauseCall"
  | resumeCall => "resumeCall"
  | releaseCall => "releaseCall"
  | sendDTMF => "sendDTMF"
  | setMute => "setMute"
  | transferCall => "transferCall"
  | consultTransferCall => "consultTransferCall"
  | transferMeeting => "transferMeeting"
  | setUserData => "setUserData"
  | setSipTransportType => "setSipTransportType"
  | setSrtpEnabled => "setSrtpEnabled"
  | setCodecEnabled => "setCodecEnabled"
  | getCodecEnabled => "getCodecEnabled"
  | getMicroPhoneInfo => "getMicroPhoneInfo"
  | selectMicroPhone => "selectMicroPhone"
  | getSpeakerInfo => "getSpeakerInfo"
  | selectSpeaker => "selectSpeaker"
  | setAudioRecordStatus => "setAudioRecordStatus"
  | getAudioRecordDeviceList => "getAudioRecordDeviceList"
  | getAudioPlayoutDeviceList => "getAudioPlayoutDeviceList"
  | selectAudioRecordDevice => "selectAudioRecordDevice"
  | selectAudioPlayoutDevice => "selectAudioPlayoutDevice"
  | setAudioPlayoutVolume => "setAudioPlayoutVolume"
  | startMicrophoneTest => "startMicrophoneTest"
  | stopMicrophoneTest => "stopMicrophoneTest"
  | startPlayoutTest => "startPlayoutTest"
  | stopPlayoutTest => "stopPlayoutTest"
  | enableGlobalAudioInDevice => "enableGlobalAudioInDevice"
  | getVersion => "getVersion"
  | version => "version"
  | setRegConfig => "setRegConfig"

/-- All commands, in the order of their tests. -/
def all : List Command :=
  [Initialize, unInitialize, connectToCCPServer, disConnectToCCP, getCurrentCall,
    setTraceFlag, makeCall, acceptCall, pauseCall, resumeCall, releaseCall, sendDTMF,
    setMute, transferCall, consultTransferCall, transferMeeting, setUserData,
    setSipTransportType, setSrtpEnabled, setCodecEnabled, getCodecEnabled,
    getMicroPhoneInfo, selectMicroPhone, getSpeakerInfo, selectSpeaker,
    setAudioRecordStatus, getAudioRecordDeviceList, getAudioPlayoutDeviceList,
    selectAudioRecordDevice, selectAudioPlayoutDevice, setAudioPlayoutVolume,
    startMicrophoneTest, stopMicrophoneTest, startPlayoutTest, stopPlayoutTest,
    enableGlobalAudioInDevice, getVersion, version, setRegConfig]

/-- The branch taken for a command name: the first whose test succeeds. -/
def ofName (cmd : Bytes) : Option Command := all.find? fun c => cmd = bytes c.name

end Command

/-- The body of the loop over the members of `param` in `setRegConfig`. -/
def setRegMember (it : Bytes) : CmdM Unit := do
  if (← param it).isInt then
    record (.SetRegKeyDWORD it (← param it).asInt.toUInt32)
  else if (← param it).isString then
    record (.SetRegKeyString it (← param it).asString)
  else pure ()

/-- The branch of a command. -/
def runCommand (sdk : Sdk) : Command → CmdM Unit
  | .Initialize => setParam "return" (.int 0)
  | .unInitialize => setParam "return" (.int 0)
  | .connectToCCPServer => do
      let serverAddr ← paramString "serverAddr" []
      let port ← paramInt "serverPort" 0
      let voipId ← paramString "voipId" []
      let voipPwd ← paramString "voipPwd" []
      setParam "return" (.int (← connectToCCPServer sdk serverAddr port.toInt32 voipId voipPwd))
  | .disConnectToCCP => do setParam "return" (.int (← disConnectToCCP sdk))
  | .getCurrentCall => do
      if (← getCurrentCall sdk).isSome then
        setParam "callid" (.ofCString ((← getCurrentCall sdk).getD []))
      else setParam "callid" (.ofLiteral "")
  | .setTraceFlag => do
      -- the flag is set from the type test, not from the value
      let enable ← do
        if (← param (bytes "enable")).isInt then pure (← param (bytes "enable")).isInt
        else pure true
      let fileName ← paramString "logFileName" []
      let logLevel ← paramInt "logLevel" 23
      setTraceFlag enable fileName logLevel.toInt32
      setParam "return" (.int 0)
  | .makeCall => do
      let _caller ← paramString "caller" []
      let called ← paramString "called" []
      let ret ← makeCall sdk called
      setParam "return" (.int ret)
      if (← getCurrentCall sdk).isSome then
        setParam "callid" (.ofCString ((← getCurrentCall sdk).getD []))
      else pure ()
  | .acceptCall => do
      let callid ← paramString "callid" []
      setParam "return" (.int (← acceptCall sdk callid))
      setParam "callid" (.string callid)
  | .pauseCall => do
      let callid ← paramString "callid" []
      setParam "return" (.int (← pauseCall sdk callid))
      setParam "callid" (.string callid)
  | .resumeCall => do
      let callid ← paramString "callid" []
      setParam "return" (.int (← resumeCall sdk callid))
      setParam "callid" (.string callid)
  | .releaseCall => do
      let callid ← do
        if (← param (bytes "callid")).isString then
          pure (some (← param (bytes "callid")).asString)
        else pure none
      let reason ← paramInt "reason" 0
      setParam "return" (.int (← releaseCall sdk callid reason.toInt32))
      match callid with
      | some callid => setParam "callid" (.ofCString callid)
      | none => pure ()
  | .sendDTMF => do
      let callid ← paramString "callid" []
      let dtmf ← paramString "dtmf" []
      dtmf.forM fun it => do setParam "return" (.int (← sendDTMF sdk callid it))
      setParam "callid" (.string callid)
      setParam "dtmf" (.string dtmf)
  | .setMute => do
      let on ← paramInt "on" 0
      setParam "return" (.int (← setMute sdk (on != 0)))
  | .transferCall => do
      let callid ← paramString "callid" []
      let dest ← paramString "dest" []
      let type ← paramInt "type" 0
      setParam "return" (.int (← transferCall sdk callid dest type.toInt32))
      setParam "callid" (.string callid)
  | .consultTransferCall => do
      let callid ← paramString "callid" []
      let dest ← paramString "dest" []
      let consultCallid ← paramString "consultCallid" []
      setParam "return" (.int (← consultTransferCall sdk callid consultCallid dest))
      setParam "callid" (.string callid)
  | .transferMeeting => do
      let type ← paramInt "type" 0
      let callid ← paramString "callid" []
      let consultedUser ← paramString "consultedUser" []
      let consultCallid ← paramString "consultCallid" []
      setParam "return"
        (.int (← transferMeeting sdk type.toInt32 callid consultCallid consultedUser))
      setParam "callid" (.string callid)
  | .setUserData => do
      let type ← paramInt "type" 0
      let data ← paramString "data" []
      setParam "return" (.int (← setUserData sdk type.toInt32 data))
  | .setSipTransportType => do
      let type ← paramInt "transType" 0
      setParam "return" (.int (← setSipTransportType sdk type.toInt32))
  | .setSrtpEnabled => do
      let type ← paramInt "TransportType" 0
      let cryptoType ← paramInt "cryptoType" 0
      setSrtpEnabled type.toInt32 cryptoType.toInt32
  | .setCodecEnabled => do
      let type ← paramInt "type" 0
      let enable ← paramInt "enable" 0
      setParam "return"
        (.int (← setCodecEnabled sdk type.toInt32 (if enable = 0 then 0 else 1)))
      setParam "type" (.uint type)
      setParam "enable" (.uint enable)
  | .getCodecEnabled => do
      let type ← paramInt "type" 0
      setParam "return" (.bool (← getCodecEnabled sdk type.toInt32))
      setParam "type" (.uint type)
  | .getMicroPhoneInfo => do setParam "return" (← getMicroPhoneInfo sdk)
  | .selectMicroPhone => do
      let index ← paramInt "index" 0
      setParam "return" (.int (← selectMicroPhone sdk index.toInt32))
  | .getSpeakerInfo => do setParam "return" (← getSpeakerInfo sdk)
  | .selectSpeaker => do
      let index ← paramInt "index" 0
      setParam "return" (.int (← selectSpeaker sdk index.toInt32))
  | .setAudioRecordStatus => do
      let _path ← paramString "path" []
      let _status ← paramInt "enable" (sdk.uninit (← get).trace)
      setParam "return" (.int 0)
  | .getAudioRecordDeviceList => pure ()
  | .getAudioPlayoutDeviceList => pure ()
  | .selectAudioRecordDevice => do
      let index ← paramInt "index" (sdk.uninit (← get).trace)
      record (.SetRegKeyDWORD (bytes "MicroPhone") index)
  | .selectAudioPlayoutDevice => do
      let index ← paramInt "index" (sdk.uninit (← get).trace)
      record (.SetRegKeyDWORD (bytes "Speaker") index)
  | .setAudioPlayoutVolume => do
      let volume ← paramInt "volume" 0
      record (.SetRegKeyDWORD (bytes "SpeakerVolume") volume)
  | .startMicrophoneTest => pure ()
  | .stopMicrophoneTest => pure ()
  | .startPlayoutTest => pure ()
  | .stopPlayoutTest => pure ()
  | .enableGlobalAudioInDevice => do
      let _enable ← paramInt "enable" 0
      pure ()
  | .getVersion => do setParam "return" (.ofCString (← getVersion sdk))
  | .version => do setParam "return" (.ofCString (← getVersion sdk))
  | .setRegConfig => do
      setParam "return" (.int 0)
      let p ← field "param"
      let names ← liftJson p.getMemberNames
      names.forM setRegMember

/-- The test `OnMessage` makes on a parsed message:
`jsonEvent.isObject() && jsonEvent["type"].isString() && jsonEvent["type"].asString() ==
"cmd"`. -/
def isCmd : CmdM Bool := do
  if (← get).jsonEvent.isObject then
    if (← field "type").isString then pure ((← field "type").asString = bytes "cmd")
    else pure false
  else pure false

/-- `std::string cmd; if (jsonEvent["cmd"].isString()) cmd = jsonEvent["cmd"].asString();` -/
def readCmd : CmdM Bytes := do
  if (← field "cmd").isString then pure (← field "cmd").asString else pure []

/-- The members every result has. -/
def startResult (cmd : Bytes) : CmdM Unit := do
  setResult "type" (.ofLiteral "cmdresult")
  setResult "cmdresult" (.string cmd)

/-- The chain of branches; an unknown command has none. -/
def runBranch (sdk : Sdk) (cmd : Bytes) : CmdM Unit :=
  match Command.ofName cmd with
  | some c => runCommand sdk c
  | none => pure ()

/-- `UCClientWSclient::OnMessage` up to the call of `Send`: the reply, if there is one. -/
def OnMessage (sdk : Sdk) (message : Bytes) : CmdM (Option Bytes) := do
  match Reader.parse message with
  | none => pure none
  | some root =>
      modify fun s => { s with jsonEvent := root, cmdresult := .null }
      if ← isCmd then
        let cmd ← readCmd
        startResult cmd
        runBranch sdk cmd
        pure (some (← get).cmdresult.writeValue)
      else pure none

end UCClient
