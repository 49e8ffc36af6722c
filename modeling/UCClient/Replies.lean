import UCClient.JsonRoundTrip
import UCClient.Results

/-!
# Commands and Their Replies

The script of a page sends commands, and the program replies to them. Each side has a table
of its own: `OnMessage` compares the name of a command with the names of its branches, and
`wsonMessage` compares the name in a reply with the names of its cases, most of which pass
on `event.param.return` without a test. Do the two tables agree?

A call of a function of the script is an `ApiCall`. What it sends is written by
`JSON.stringify`, where members that are undefined are left out; of an argument the script
only looks at whether it counts as true and what `parseInt` makes of it. A function whose
argument cannot be written sends nothing.

## Main results

* `replies_agree_iff`: the functions whose replies the script can handle.
* `replies_disagree`: the reply to `unInitialize` raises an exception.
-/

namespace UCClient

/-! ### The commands of the script -/

/-- An argument of a function, as far as the script looks at it: whether it counts as true,
what `parseInt` makes of it, if not `NaN`, and how `JSON.stringify` writes it, if it does. -/
structure Argument where
  truthy : Bool
  parseInt : Option Numeral
  json : Option JsonText

namespace Argument

/-- `parseInt(a)` as it is written. -/
def integer (a : Argument) : Option JsonText :=
  match a.parseInt with
  | some n => some (.number n)
  | none => some .null

/-- `a || b`. -/
def or (a b : Argument) : Argument := if a.truthy then a else b

end Argument

/-- A call of a function of the script that sends a command. -/
inductive ApiCall
  | setTraceFlag (enable logFileName level : Argument)
  | setSipTransportType (type : Argument)
  | setSrtpEnabled (TransportType cryptoType : Argument)
  | Initialize
  | unInitialize
  | connectToCCPServer (server port sipid pwd : Argument)
  | disConnectToCCP
  | getVersion
  | setUserData (type data : Argument)
  | makeCall (called : Argument)
  | acceptCall (callid : Argument)
  | releaseCall (callid reason : Argument)
  | sendDTMF (callid c : Argument)
  | transferCall (callid s_destination : Argument)
  | pauseCall (callid : Argument)
  | resumeCall (callid : Argument)
  | consultTransferCall (callid consultCallid destination : Argument)
  | transferMeeting (type otherCall activeCall consultedUser : Argument)
  | getMicroPhoneInfo
  | selectMicroPhone (microId : Argument)
  | getSpeakerInfo
  | selectSpeaker (speakerId : Argument)

/-- `JSON.stringify` of an object. -/
def stringify (members : List (String × Option JsonText)) : JsonText :=
  .object (members.filterMap fun m => m.2.map fun x => (Value.pieces (bytes m.1), x))

namespace ApiCall

/-- `cmd.cmd`. -/
def name : ApiCall → String
  | setTraceFlag .. => "setTraceFlag"
  | setSipTransportType .. => "setSipTransportType"
  | setSrtpEnabled .. => "setSrtpEnabled"
  | Initialize => "initialize"
  | unInitialize => "unInitialize"
  | connectToCCPServer .. => "connectToCCPServer"
  | disConnectToCCP => "disConnectToCCP"
  | getVersion => "getVersion"
  | setUserData .. => "setUserData"
  | makeCall .. => "makeCall"
  | acceptCall .. => "acceptCall"
  | releaseCall .. => "releaseCall"
  | sendDTMF .. => "sendDTMF"
  | transferCall .. => "transferCall"
  | pauseCall .. => "pauseCall"
  | resumeCall .. => "resumeCall"
  | consultTransferCall .. => "consultTransferCall"
  | transferMeeting .. => "transferMeeting"
  | getMicroPhoneInfo => "getMicroPhoneInfo"
  | selectMicroPhone .. => "selectMicroPhone"
  | getSpeakerInfo => "getSpeakerInfo"
  | selectSpeaker .. => "selectSpeaker"

/-- The number 0. -/
def zero : JsonText := .number ⟨[48], rfl⟩

/-- `cmd.param`. -/
def param : ApiCall → Option (List (String × Option JsonText))
  | setTraceFlag enable logFileName level =>
      some [("enable", enable.json), ("logFileName", logFileName.json), ("logLevel", level.json)]
  | setSipTransportType type => some [("transType", type.json)]
  | setSrtpEnabled TransportType cryptoType =>
      some [("TransportType", TransportType.json), ("cryptoType", cryptoType.json)]
  | Initialize | unInitialize | disConnectToCCP | getVersion | getMicroPhoneInfo
  | getSpeakerInfo => none
  | connectToCCPServer server port sipid pwd =>
      some [("serverAddr", server.json), ("serverPort", port.integer), ("voipId", sipid.json),
        ("voipPwd", pwd.json)]
  | setUserData type data => some [("type", type.json), ("data", data.json)]
  | makeCall called => some [("called", called.json)]
  | acceptCall callid | pauseCall callid | resumeCall callid => some [("callid", callid.json)]
  | releaseCall callid reason => some [("callid", callid.json), ("reason", reason.json)]
  | sendDTMF callid c => some [("callid", callid.json), ("dtmf", c.json)]
  | transferCall callid s_destination =>
      some [("callid", callid.json), ("dest", s_destination.json), ("type", some zero)]
  | consultTransferCall callid consultCallid destination =>
      some [("callid", callid.json), ("consultCallid", consultCallid.json),
        ("dest", destination.json), ("type", some zero)]
  | transferMeeting type otherCall activeCall consultedUser =>
      some [("callid", (otherCall.or activeCall).json), ("consultCallid", activeCall.json),
        ("consultedUser", consultedUser.json), ("type", type.json)]
  | selectMicroPhone microId => some [("index", microId.integer)]
  | selectSpeaker speakerId => some [("index", speakerId.integer)]

/-- The message that is sent. -/
def text (f : ApiCall) : Bytes :=
  (stringify [("type", some (.string (Value.pieces (bytes "cmd")))),
    ("cmd", some (.string (Value.pieces (bytes f.name)))),
    ("param", f.param.map stringify)]).render

end ApiCall

/-! ### The command as the program reads it -/

namespace ApiCall

/-- The script has a case for the reply. -/
theorem exists_case (f : ApiCall) : ∃ report, (f.name, report) ∈ Script.replyCases := by
  have hname : f.name ∈ Script.replyCases.map Prod.fst := by
    cases f <;> simp [name, Script.replyCases]
  obtain ⟨⟨_, report⟩, hmem, rfl⟩ := List.mem_map.mp hname
  exact ⟨report, hmem⟩

theorem cstr_replyCases : ∀ c ∈ Script.replyCases, cstr (bytes c.1) = bytes c.1 := by
  decide +kernel

theorem cstr_name (f : ApiCall) : cstr (bytes f.name) = bytes f.name := by
  obtain ⟨report, hmem⟩ := f.exists_case
  exact cstr_replyCases (f.name, report) hmem

/-- The members of a command on the program's side. -/
def members (f : ApiCall) (param : Option Value) : List (Bytes × Value) :=
  (bytes "cmd", .string (bytes f.name)) ::
    ((param.map fun v => (bytes "param", v)).toList ++ [(bytes "type", .ofLiteral "cmd")])

theorem parse_text (f : ApiCall) : Reader.parse f.text =
    match f.param with
    | none => some (.object (f.members none))
    | some ps => (Reader.ofText (stringify ps)).map fun v => .object (f.members (some v)) := by
  rw [text, Reader.parse_render, stringify, Reader.ofText]
  have hcmd : Reader.ofText (.string (Value.pieces (bytes f.name))) =
      some (.string (bytes f.name)) := by
    rw [Reader.ofText, Reader.ofPieces_pieces, f.cstr_name, Option.map_some, f.cstr_name]
  have htype : Reader.ofText (.string (Value.pieces (bytes "cmd"))) =
      some (.ofLiteral "cmd") := by
    rw [Reader.ofText, Reader.ofPieces_pieces]
    rfl
  cases hparam : f.param with
  | none =>
      simp only [List.filterMap_cons, List.filterMap_nil, Option.map_some, Option.map_none,
        Reader.ofMembers, Reader.ofPieces_pieces, hcmd, htype, Option.bind_eq_bind,
        Option.bind_some]
      rfl
  | some ps =>
      simp only [List.filterMap_cons, List.filterMap_nil, Option.map_some,
        Reader.ofMembers, Reader.ofPieces_pieces, hcmd, htype, Option.bind_eq_bind,
        Option.bind_some]
      cases Reader.ofText (stringify ps) <;> rfl

theorem member_members (f : ApiCall) (v : Option Value) :
    (Value.object (f.members v)).member (bytes "type") = .ofLiteral "cmd" ∧
      (Value.object (f.members v)).member (bytes "cmd") = .string (bytes f.name) ∧
      (Value.object (f.members v)).member (bytes "param") = v.getD .null := by
  have htype : bytes "cmd" ≠ bytes "type" ∧ bytes "param" ≠ bytes "type" := by decide +kernel
  have hparam : bytes "cmd" ≠ bytes "param" ∧ bytes "type" ≠ bytes "param" := by decide +kernel
  cases v <;> simp [members, Value.find, htype, hparam]

/-- What is sent is a command of that name, and its `param` can be read from. -/
theorem isCommand_of_parse {f : ApiCall} {root : Value} (h : Reader.parse f.text = some root) :
    isCommand root = true ∧ commandName root = bytes f.name ∧
      (root.member (bytes "param")).indexable = true := by
  have hmembers : ∃ v : Option Value, root = .object (f.members v) ∧
      (v.getD .null).indexable = true := by
    rw [parse_text] at h
    cases hparam : f.param with
    | none =>
        simp only [hparam] at h
        cases h
        exact ⟨none, rfl, rfl⟩
    | some ps =>
        simp only [hparam] at h
        obtain ⟨v, hv, rfl⟩ := Option.map_eq_some_iff.mp h
        rw [stringify, Reader.ofText] at hv
        obtain ⟨ms, -, rfl⟩ := Option.map_eq_some_iff.mp hv
        exact ⟨_, rfl, rfl⟩
  obtain ⟨v, rfl, hv⟩ := hmembers
  obtain ⟨htype, hcmd, hparam⟩ := f.member_members v
  refine ⟨?_, ?_, by rw [hparam, hv]⟩
  · rw [isCommand, htype]
    simp [Value.isObject, Value.ofLiteral, Value.isString, Value.asString]
  · rw [commandName, hcmd]
    rfl

/-- The strings in the arguments are well formed. -/
def wellFormed (f : ApiCall) : Bool := f.param.all fun ps => Reader.noHalves (stringify ps)

theorem parse_isSome {f : ApiCall} (h : f.wellFormed = true) :
    (Reader.parse f.text).isSome = true := by
  rw [parse_text]
  cases hparam : f.param with
  | none => rfl
  | some ps =>
      rw [wellFormed, hparam] at h
      simp only [Option.isSome_map]
      exact Reader.ofText_isSome h

/-! ### The reply -/

/-- The reply is the result the branch leaves. -/
theorem OnMessage_reply {f : ApiCall} {root : Value} (hp : Reader.parse f.text = some root)
    (sdk : Sdk) {I I' : List (Bytes × Value) → Prop}
    (hfill : Fills (root.member (bytes "param")).member (bytes f.name) I
      (runBranch sdk (bytes f.name)) I') (hI : I []) (s : CmdState) :
    ∃ ms s', I' ms ∧ OnMessage sdk f.text s = .ok
      (some (Value.object (messageMembers .cmdresult (.string (bytes f.name)) ms)).writeValue)
      s' := by
  obtain ⟨hcmd, hname, hparam⟩ := isCommand_of_parse hp
  obtain ⟨t, ht, -, hres, hrun⟩ := OnMessage_of_command hp hcmd sdk s
  rw [hname] at hres hrun
  obtain ⟨_, s', hs', hfilled⟩ := hfill t ⟨(ht.params hparam).event, [], hres, hI⟩
  obtain ⟨ms, hms, hI'⟩ := hfilled.result
  refine ⟨ms, s', hI', ?_⟩
  rw [hrun, EStateM.bind_ok hs', ← hms]
  rfl

/-- The functions whose branch stores `return` on all its paths. -/
theorem ofName_returns : ∀ name ∈ ["setTraceFlag", "setSipTransportType", "initialize",
    "connectToCCPServer", "disConnectToCCP", "getVersion", "setUserData", "makeCall",
    "acceptCall", "releaseCall", "transferCall", "pauseCall", "resumeCall",
    "consultTransferCall", "transferMeeting", "getMicroPhoneInfo", "selectMicroPhone",
    "getSpeakerInfo", "selectSpeaker"],
    (Command.ofName (bytes name)).any Command.returns = true := by
  decide +kernel

/-- The other three: one has no branch, and two store `return` on some of their paths or on
none. -/
theorem command_cases (f : ApiCall) : f = .unInitialize ∨
    (∃ TransportType cryptoType, f = .setSrtpEnabled TransportType cryptoType) ∨
    (∃ callid c, f = .sendDTMF callid c) ∨
    f ≠ .unInitialize ∧ (∀ callid c, f ≠ .sendDTMF callid c) ∧
      (Command.ofName (bytes f.name)).any Command.returns = true := by
  cases f with
  | unInitialize => exact .inl rfl
  | setSrtpEnabled TransportType cryptoType => exact .inr (.inl ⟨_, _, rfl⟩)
  | sendDTMF callid c => exact .inr (.inr (.inl ⟨_, _, rfl⟩))
  | _ =>
      refine .inr (.inr (.inr ⟨by simp, by simp, ofName_returns _ ?_⟩))
      simp [name]

end ApiCall

/-! ### The reply on the page -/

namespace Script

theorem find_replyCases : ∀ c ∈ replyCases,
    replyCases.find? (fun d => isCase (some (.string (bytes c.1))) d.1) = some c := by
  decide +kernel

variable {name : String} {report : Report} {ms : List (Bytes × Value)}

/-- The reply to a command. -/
theorem wsonMessage_result (hcase : (name, report) ∈ replyCases)
    (hreal : ∀ m ∈ ms, m.2.noReal = true) (s : Script) :
    wsonMessage (Value.object (messageMembers .cmdresult (.string (bytes name)) ms)).writeValue s =
      reply (.object (messageJson .cmdresult (.string (bytes name)) ms)) name report s := by
  have hname : (Value.string (bytes name)).json = .string (bytes name) := by
    rw [Value.json_string, ApiCall.cstr_replyCases (name, report) hcase]
  rw [wsonMessage_reply (parse_message .cmdresult rfl hreal) (get_type _ _ _), onReply,
    property_bind, show bytes "cmdresult" = bytes MessageKind.cmdresult.text from rfl,
    get_name, hname]
  simp only [find_replyCases _ hcase]

/-- **A result with a `param` is handled without an exception.** -/
theorem wsonMessage_result_ok (hcase : (name, report) ∈ replyCases)
    (hs : ∀ m ∈ ms, m.2.Sendable) (hms : report = .unread ∨ ms ≠ []) (s : Script) :
    ∃ s', wsonMessage
      (Value.object (messageMembers .cmdresult (.string (bytes name)) ms)).writeValue s =
        .ok () s' := by
  rw [wsonMessage_result hcase fun m hm => (hs m hm).noReal]
  cases report with
  | unread => exact ⟨_, rfl⟩
  | stringified =>
      have hne := hms.resolve_left Report.noConfusion
      rw [reply, property_bind, get_param _ _ hne, property_bind]
      exact ⟨_, rfl⟩
  | concatenated =>
      have hne := hms.resolve_left Report.noConfusion
      rw [reply, property_bind, get_param _ _ hne, property_bind]
      have hall : (Json.get (ms.map fun m => (cstr m.1, m.2.json)) (bytes "return")).all
          stringable = true := by
        cases hget : Json.get (ms.map fun m => (cstr m.1, m.2.json)) (bytes "return") with
        | none => rfl
        | some x =>
            obtain ⟨_, hmem, rfl⟩ := Json.mem_of_get hget
            obtain ⟨m, hm, rfl⟩ := List.mem_map.mp hmem
            exact (hs m hm).stringable
      rw [concatenate, if_pos hall]
      exact ⟨_, rfl⟩

end Script

/-! ### Agreement -/

/-- The message has a `param` object with a member `return`. -/
def HasReturn (data : Bytes) : Prop :=
  ∃ ms pj, Json.parse data = some (.object ms) ∧ Json.get ms (bytes "param") = some (.object pj) ∧
    (Json.get pj (bytes "return")).isSome = true

theorem hasReturn_iff {cmd : Bytes} {ms : List (Bytes × Value)} (hs : ∀ m ∈ ms, m.2.Sendable)
    (hms : ms ≠ []) :
    HasReturn (Value.object (messageMembers .cmdresult (.string cmd) ms)).writeValue ↔
      (Json.get (ms.map fun m => (cstr m.1, m.2.json)) (bytes "return")).isSome = true := by
  have hparse : Json.parse (Value.object (messageMembers .cmdresult (.string cmd) ms)).writeValue =
      some (.object (messageJson .cmdresult (.string cmd) ms)) :=
    parse_message .cmdresult rfl fun m hm => (hs m hm).noReal
  have hparam := get_param .cmdresult (.string cmd) hms
  constructor
  · rintro ⟨ms', pj, hms', hpj, hret⟩
    rw [hparse] at hms'
    cases hms'
    rw [hparam] at hpj
    cases hpj
    exact hret
  · exact fun hret => ⟨_, _, hparse, hparam, hret⟩

namespace ApiCall

/-- The case for the reply passes on `event.param.return`; for `sendDTMF` a string that is
not empty is sent. -/
def Forwards (f : ApiCall) : Prop :=
  (∃ report, (f.name, report) ∈ Script.replyCases ∧ report ≠ .unread) ∧
    ∀ callid c, f = .sendDTMF callid c → ∃ s, c.json = some (.string s) ∧ s ≠ []

/-- The script handles the reply without an exception, and finds what it passes on. -/
def Agrees (f : ApiCall) (data : Bytes) : Prop :=
  (∀ s, ∃ s', Script.wsonMessage data s = .ok () s') ∧ (f.Forwards → HasReturn data)

/-- The function is not `unInitialize`; and if digits are sent, the program reads some of
them, since it takes a string to end at its first NUL. -/
def Answered (f : ApiCall) : Prop :=
  f ≠ .unInitialize ∧ (f.Forwards → ∀ callid c, f = .sendDTMF callid c →
    ∀ root, Reader.parse f.text = some root →
      textArg (root.member (bytes "param")).member "dtmf" [] ≠ [])

variable {f : ApiCall} {root : Value} (sdk : Sdk) (s : CmdState)

/-- A branch that stores `return` in any case. -/
theorem agrees_of_returns (hp : Reader.parse f.text = some root)
    (hc : (Command.ofName (bytes f.name)).any Command.returns = true) :
    ∃ data s', OnMessage sdk f.text s = .ok (some data) s' ∧ f.Agrees data := by
  obtain ⟨c, hname, hc⟩ := (Option.any_eq_true _ _).mp hc
  have hfill : Fills (root.member (bytes "param")).member (bytes f.name) (Stored "return" false)
      (runBranch sdk (bytes f.name)) (Stored "return" true) := by
    simp only [runBranch, hname]
    exact runCommand_returns sdk hc
  obtain ⟨ms, s', hms, hrun⟩ := OnMessage_reply hp sdk hfill (.nil "return") s
  obtain ⟨report, hcase⟩ := f.exists_case
  refine ⟨_, s', hrun, fun s => ?_, fun _ => ?_⟩
  · exact Script.wsonMessage_result_ok hcase hms.sendable (.inr hms.ne_nil) s
  · exact (hasReturn_iff hms.sendable hms.ne_nil).mpr (hms.isSome rfl)

/-- The reply to `setSrtpEnabled` is not looked into. -/
theorem agrees_setSrtpEnabled {TransportType cryptoType : Argument}
    (hp : Reader.parse (setSrtpEnabled TransportType cryptoType).text = some root) :
    ∃ data s', OnMessage sdk (setSrtpEnabled TransportType cryptoType).text s =
      .ok (some data) s' ∧ (setSrtpEnabled TransportType cryptoType).Agrees data := by
  have hname : Command.ofName (bytes "setSrtpEnabled") = some .setSrtpEnabled := by decide +kernel
  have hcase : ("setSrtpEnabled", .unread) ∈ Script.replyCases := by simp [Script.replyCases]
  have hfill : Fills (root.member (bytes "param")).member (bytes "setSrtpEnabled")
      (Stored "return" false) (runBranch sdk (bytes "setSrtpEnabled")) (Stored "return" false) := by
    simp only [runBranch, hname]
    exact setSrtpEnabled_fills sdk
  obtain ⟨ms, s', hms, hrun⟩ := OnMessage_reply hp sdk hfill (.nil "return") s
  refine ⟨_, s', hrun, fun s => ?_, fun hf => ?_⟩
  · exact Script.wsonMessage_result_ok hcase hms.sendable (.inl rfl) s
  · obtain ⟨⟨report, hmem, hread⟩, -⟩ := hf
    have honly : ∀ c ∈ Script.replyCases, c.1 = "setSrtpEnabled" → c.2 = .unread := by decide
    exact absurd (honly _ hmem rfl) hread

/-- The reply to `sendDTMF` has `return` if the program read digits. -/
theorem agrees_sendDTMF {callid c : Argument}
    (hp : Reader.parse (sendDTMF callid c).text = some root) :
    ∃ data s', OnMessage sdk (sendDTMF callid c).text s = .ok (some data) s' ∧
      ((sendDTMF callid c).Agrees data ↔ ((sendDTMF callid c).Forwards →
        textArg (root.member (bytes "param")).member "dtmf" [] ≠ [])) := by
  have hname : Command.ofName (bytes "sendDTMF") = some .sendDTMF := by decide +kernel
  have hcase : ("sendDTMF", .concatenated) ∈ Script.replyCases := by simp [Script.replyCases]
  have hbranch : runBranch sdk (bytes (sendDTMF callid c).name) = runCommand sdk .sendDTMF := by
    simp only [runBranch, name, hname]
  by_cases hdtmf : textArg (root.member (bytes "param")).member "dtmf" [] = []
  · have hnil : Unreturned [] := ⟨List.forall_mem_nil _, rfl⟩
    obtain ⟨ms, s', ⟨hms, hne⟩, hrun⟩ :=
      OnMessage_reply hp sdk (hbranch ▸ sendDTMF_empty sdk hdtmf) hnil s
    refine ⟨_, s', hrun, fun h hf => ?_, fun h => ⟨fun s => ?_, fun hf => absurd hdtmf (h hf)⟩⟩
    · have hret := (hasReturn_iff hms.sendable hne).mp (h.2 hf)
      rw [hms.get] at hret
      exact absurd hret Bool.false_ne_true
    · exact Script.wsonMessage_result_ok hcase hms.sendable (.inr hne) s
  · obtain ⟨ms, s', hms, hrun⟩ := OnMessage_reply hp sdk
      (hbranch ▸ sendDTMF_returns sdk hdtmf) (.nil "return") s
    refine ⟨_, s', hrun, fun _ _ => hdtmf, fun _ => ⟨fun s => ?_, fun _ => ?_⟩⟩
    · exact Script.wsonMessage_result_ok hcase hms.sendable (.inr hms.ne_nil) s
    · exact (hasReturn_iff hms.sendable hms.ne_nil).mpr (hms.isSome rfl)

/-- The name of `unInitialize` is not the name of a branch, so the reply has no `param`. -/
theorem disagrees_unInitialize :
    ∃ data s', OnMessage sdk unInitialize.text s = .ok (some data) s' ∧
      ∀ s, ∃ s', Script.wsonMessage data s = .error (.script .TypeError) s' := by
  have hname : Command.ofName (bytes "unInitialize") = none := by decide +kernel
  have hcase : ("unInitialize", .concatenated) ∈ Script.replyCases := by simp [Script.replyCases]
  have hp : Reader.parse unInitialize.text = some (.object (members unInitialize none)) :=
    parse_text unInitialize
  have hfill : Fills (Value.member (.object (members unInitialize none)) (bytes "param")).member
      (bytes "unInitialize") (· = []) (runBranch sdk (bytes "unInitialize")) (· = []) := by
    simp only [runBranch, hname]
    exact Fills.ret ()
  obtain ⟨ms, s', rfl, hrun⟩ := OnMessage_reply hp sdk hfill rfl s
  refine ⟨_, s', hrun, fun s => ⟨s, ?_⟩⟩
  exact Script.wsonMessage_result hcase (List.forall_mem_nil _) s

/-- A command that is read is answered, and the script agrees with the reply to all of them
but two. -/
theorem agrees_iff (hp : Reader.parse f.text = some root) :
    ∃ data s', OnMessage sdk f.text s = .ok (some data) s' ∧
      (f.Agrees data ↔ f ≠ .unInitialize ∧ (f.Forwards → ∀ callid c, f = .sendDTMF callid c →
        textArg (root.member (bytes "param")).member "dtmf" [] ≠ [])) := by
  obtain rfl | ⟨TransportType, cryptoType, rfl⟩ | ⟨callid, c, rfl⟩ | ⟨hne, hdtmf, hc⟩ :=
    f.command_cases
  · obtain ⟨data, s', hrun, hthrows⟩ := disagrees_unInitialize sdk s
    refine ⟨data, s', hrun, iff_of_false (fun h => ?_) fun h => h.1 rfl⟩
    obtain ⟨t, ht⟩ := hthrows {}
    obtain ⟨t', ht'⟩ := h.1 {}
    rw [ht] at ht'
    cases ht'
  · obtain ⟨data, s', hrun, hagrees⟩ := agrees_setSrtpEnabled sdk s hp
    exact ⟨data, s', hrun, iff_of_true hagrees ⟨by simp, by simp⟩⟩
  · obtain ⟨data, s', hrun, hiff⟩ := agrees_sendDTMF sdk s hp
    refine ⟨data, s', hrun, hiff.trans ⟨fun h => ⟨by simp, fun hf _ _ _ => h hf⟩, ?_⟩⟩
    exact fun h hf => h.2 hf callid c rfl
  · obtain ⟨data, s', hrun, hagrees⟩ := agrees_of_returns sdk s hp hc
    refine ⟨data, s', hrun, iff_of_true hagrees ⟨hne, fun _ callid c heq => ?_⟩⟩
    exact absurd heq (hdtmf callid c)

/-- A command that is not read is not answered. -/
theorem OnMessage_unread (hp : Reader.parse f.text = none) :
    ∃ s', OnMessage sdk f.text s = .ok none s' := by
  have hnot : ∀ root, Reader.parse f.text = some root → isCommand root = false := by
    intro root h
    rw [hp] at h
    cases h
  obtain ⟨s', hrun, -⟩ := OnMessage_of_not_command hnot sdk s
  exact ⟨s', hrun⟩

end ApiCall

end UCClient
