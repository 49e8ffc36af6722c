import UCClient.Results

/-!
# Result Codes Reach the Page

Seventeen commands are passed on to functions of the SDK that answer with a result code, 0
for success. The code goes through a wrapper of `CWinSDKBase` and is stored by the branch as
the member `return` of the reply, and a page that reads 0 there takes the command for done.

The codes the SDK answered with are read off the trace (`Sdk.codes`), and what a page reads
off the reply (`replyReturn`). The branches are followed with both at once (`Coded`): most
make one call and store its code. The wrapper of `connectToCCPServer` returns 0 whatever the
SDK answered, and `sendDTMF` makes a call for each digit and stores each code over the one
before.

## Main results

* `failures_reported_iff`: failures show in the reply exactly when they are not those of a
  connection attempt, nor those of digits before a last one that went through.
* `failures_not_reported`: a refused connection and a lost digit are reported as 0.
-/

namespace UCClient

open CmdM CWinSDKBase

/-! ### Result codes -/

/-- The functions of the SDK that answer with a result code. -/
def SdkCall.hasCode : SdkCall → Bool
  | .getCurrentCall | .setTraceFlag .. | .getCodecEnabled _ | .getMicroPhoneInfo
  | .getSpeakerInfo | .setSrtpEnabled .. | .getVersion => false
  | _ => true

/-- The commands that are passed on through a wrapper with a result code. -/
def Command.hasCode : Command → Bool
  | connectToCCPServer | disConnectToCCP | makeCall | acceptCall | pauseCall | resumeCall
  | releaseCall | sendDTMF | setMute | transferCall | consultTransferCall | transferMeeting
  | setUserData | setSipTransportType | setCodecEnabled | selectMicroPhone
  | selectSpeaker => true
  | _ => false

/-- The result code an observation made behind `before` is answered with, if any. -/
def Sdk.code (sdk : Sdk) (before : List Obs) : Obs → List Int32
  | .call c => if c.hasCode then [sdk.ret before c] else []
  | _ => []

/-- The result codes of the calls among the observations made behind `before`. -/
def Sdk.codes (sdk : Sdk) : List Obs → List Obs → List Int32
  | _, [] => []
  | before, o :: obs => sdk.code before o ++ sdk.codes (before ++ [o]) obs

/-- The number a page reads as `param.return`. -/
def replyReturn (reply : Bytes) : Option ℤ :=
  match Json.parse reply with
  | some (.object ms) =>
      match Json.get ms (bytes "param") with
      | some (.object ps) =>
          match Json.get ps (bytes "return") with
          | some (.number text) => some (Json.intOf text)
          | _ => none
      | _ => none
  | _ => none

/-- What a page reads is 0 only if all calls succeeded, and of a single call it is the
code. -/
structure Reports (ret : Option ℤ) (codes : List Int32) : Prop where
  zero : ret = some 0 → ∀ code ∈ codes, code = 0
  single : ∀ code, codes = [code] → ret = some code.toInt

theorem Sdk.codes_snoc (sdk : Sdk) (o : Obs) : ∀ (obs before : List Obs),
    sdk.codes before (obs ++ [o]) = sdk.codes before obs ++ sdk.code (before ++ obs) o := by
  intro obs
  induction obs with
  | nil =>
      intro before
      simp [Sdk.codes]
  | cons o' obs ih =>
      intro before
      rw [List.cons_append, Sdk.codes, ih, Sdk.codes, List.append_assoc, List.append_assoc]
      rfl

/-! ### Programs and the codes they store -/

/-- The result's `param` when nothing but `return` was stored in it, if at all. -/
def returned : Option Int32 → List (Bytes × Value)
  | none => []
  | some code => [(bytes "return", .int code)]

/-- What a page reads as `return`. -/
def Returned (ret : Option Int32) (ms : List (Bytes × Value)) : Prop :=
  Json.get (ms.map fun m => (cstr m.1, m.2.json)) (bytes "return") =
    ret.map fun code => (Value.int code).json

theorem returned_returned (ret : Option Int32) : Returned ret (returned ret) := by
  cases ret <;> rfl

/-- While a command is handled: the SDK answered with `codes` since `before`, and the
members of the result's `param` have `I`. -/
structure Coded (E : Value → Prop) (sdk : Sdk) (cmd : Bytes) (before : List Obs)
    (codes : List Int32) (I : List (Bytes × Value) → Prop) (s : CmdState) : Prop where
  event : E s.jsonEvent
  trace : ∃ obs, s.trace = before ++ obs ∧ sdk.codes before obs = codes
  result : ∃ ms, s.cmdresult = .object (messageMembers .cmdresult (.string cmd) ms) ∧
    (∀ m ∈ ms, m.2.noReal = true) ∧ I ms

variable {E : Value → Prop} {p : Bytes → Value} {sdk : Sdk} {cmd : Bytes} {before : List Obs}
  {codes : List Int32} {stored : Option Int32} {I : List (Bytes × Value) → Prop}
  {α β : Type} {m m' : CmdM α} {f : α → CmdM β} {g : Int32 → Int32}

namespace Coded

variable {s : CmdState}

theorem cmdInv (h : Coded E sdk cmd before codes I s) : CmdInv E s := by
  obtain ⟨ms, hms, -, -⟩ := h.result
  refine ⟨h.event, by rw [hms]; rfl, ?_⟩
  rw [hms]
  cases ms <;> rfl

theorem imp {I' : List (Bytes × Value) → Prop} (h : Coded E sdk cmd before codes I s)
    (hI : ∀ ms, I ms → I' ms) : Coded E sdk cmd before codes I' s := by
  obtain ⟨ms, hms, hreal, hms'⟩ := h.result
  exact ⟨h.event, h.trace, ms, hms, hreal, hI ms hms'⟩

/-- A call of the SDK. -/
theorem call (h : Coded E sdk cmd before codes I s) (c : SdkCall) :
    ∃ obs, s.trace = before ++ obs ∧
      Coded E sdk cmd before (codes ++ sdk.code (before ++ obs) (.call c)) I
        { s with trace := s.trace ++ [.call c] } := by
  obtain ⟨obs, htrace, hcodes⟩ := h.trace
  refine ⟨obs, htrace, h.event, ⟨obs ++ [.call c], ?_, ?_⟩, h.result⟩
  · rw [htrace, List.append_assoc]
  · rw [Sdk.codes_snoc, hcodes]

/-- A member of the result's `param` is stored. -/
theorem setParam {key : String} {x : Value} (h : Coded E sdk cmd before codes I s)
    (I' : List (Bytes × Value) → Prop) (hx : x.noReal = true)
    (hI : ∀ ms, I ms → I' (Value.insertMember ms (bytes key) x)) :
    ∃ s', setParam key x s = .ok () s' ∧ Coded E sdk cmd before codes I' s' := by
  obtain ⟨ms, hms, hreal, hms'⟩ := h.result
  refine ⟨_, setParam_run hms key x, h.event, h.trace, ⟨_, rfl, fun m hm => ?_, hI ms hms'⟩⟩
  rcases Value.of_mem_insertMember hm with rfl | hm
  · exact hx
  · exact hreal m hm

end Coded

/-- The program ends without a fault, the SDK answers with no code, and the members of the
result's `param` keep `I`. -/
def Uncoded (E : Value → Prop) (sdk : Sdk) (cmd : Bytes) (before : List Obs)
    (codes : List Int32) (I : List (Bytes × Value) → Prop) (m : CmdM α) : Prop :=
  Triple (Coded E sdk cmd before codes I) m fun _ => Coded E sdk cmd before codes I

namespace Uncoded

theorem ret (a : α) : Uncoded E sdk cmd before codes I (pure a : CmdM α) :=
  Triple.pure fun _ h => h

theorem bind (hm : Uncoded E sdk cmd before codes I m)
    (hf : ∀ a, Uncoded E sdk cmd before codes I (f a)) :
    Uncoded E sdk cmd before codes I (m >>= f) := Triple.bind hm hf

theorem ite {c : Prop} [Decidable c] (hm : Uncoded E sdk cmd before codes I m)
    (hm' : Uncoded E sdk cmd before codes I m') :
    Uncoded E sdk cmd before codes I (if c then m else m') :=
  Triple.ite (fun _ => hm) fun _ => hm'

theorem param (key : Bytes) : Uncoded (Params p) sdk cmd before codes I (CmdM.param key) := by
  intro s hs
  obtain ⟨root, hroot, hs'⟩ := param_spec hs.cmdInv key
  exact ⟨_, _, hroot, hs'.event, hs.trace, hs.result⟩

theorem paramString (key : String) (x : Bytes) :
    Uncoded (Params p) sdk cmd before codes I (paramString key x) :=
  (param _).bind fun _ => .ite ((param _).bind fun _ => .ret _) (.ret _)

theorem paramInt (key : String) (x : UInt32) :
    Uncoded (Params p) sdk cmd before codes I (paramInt key x) :=
  (param _).bind fun _ => .ite ((param _).bind fun _ => .ret _) (.ret _)

/-- A call that is answered otherwise. -/
theorem query (answer : List Obs → SdkCall → α) {c : SdkCall} (hc : c.hasCode = false) :
    Uncoded E sdk cmd before codes I (call answer c) := by
  intro s hs
  obtain ⟨obs, -, hs'⟩ := hs.call c
  rw [Sdk.code, hc, if_neg Bool.false_ne_true, List.append_nil] at hs'
  exact ⟨_, _, rfl, hs'⟩

/-- A member other than `return` is stored. -/
theorem setParam {key : String} {x : Value} {ret : Option Int32}
    (hkey : cstr (bytes key) ≠ bytes "return") (hx : x.noReal = true) :
    Uncoded E sdk cmd before codes (Returned ret) (setParam key x) := by
  intro s hs
  have hkeep : ∀ ms, Returned ret ms → Returned ret (Value.insertMember ms (bytes key) x) :=
    fun ms hms => (Value.get_insertMember_of_ne hkey x ms).trans hms
  obtain ⟨s', hrun, hs'⟩ := hs.setParam _ hx hkeep
  exact ⟨(), s', hrun, hs'⟩

end Uncoded

/-- The program ends without a fault, the SDK answers with one code more, and what is stored
as `return` is `g` of it. -/
def Stores (E : Value → Prop) (sdk : Sdk) (cmd : Bytes) (before : List Obs)
    (codes : List Int32) (stored : Option Int32) (g : Int32 → Int32) (m : CmdM α) : Prop :=
  Triple (Coded E sdk cmd before codes (· = returned stored)) m fun _ s =>
    ∃ code, Coded E sdk cmd before (codes ++ [code]) (Returned (some (g code))) s

/-- A call whose code is stored, over one that may be there. -/
theorem Coded.setReturn {s : CmdState}
    (hs : Coded E sdk cmd before codes (· = returned stored) s) {c : SdkCall}
    (hc : c.hasCode = true) (g : Int32 → Int32) :
    ∃ code s', (do CmdM.setParam "return" (.int (g (← CmdM.call sdk.ret c)))) s = .ok () s' ∧
      Coded E sdk cmd before (codes ++ [code]) (· = returned (some (g code))) s' := by
  obtain ⟨obs, htrace, hs'⟩ := hs.call c
  rw [Sdk.code, hc, if_pos rfl, ← htrace] at hs'
  have hstore : ∀ ms, ms = returned stored →
      Value.insertMember ms (bytes "return") (.int (g (sdk.ret s.trace c))) =
        returned (some (g (sdk.ret s.trace c))) := by
    rintro ms rfl
    cases stored <;> rfl
  obtain ⟨s'', hrun, hs''⟩ :=
    hs'.setParam (· = returned (some (g (sdk.ret s.trace c)))) rfl hstore
  exact ⟨_, s'', hrun, hs''⟩

namespace Stores

/-- What is done before the call. -/
theorem skip (hm : Uncoded E sdk cmd before codes (· = returned stored) m)
    (hf : ∀ a, Stores E sdk cmd before codes stored g (f a)) :
    Stores E sdk cmd before codes stored g (m >>= f) := Triple.bind hm hf

theorem ite {c : Prop} [Decidable c] (hm : Stores E sdk cmd before codes stored g m)
    (hm' : Stores E sdk cmd before codes stored g m') :
    Stores E sdk cmd before codes stored g (if c then m else m') :=
  Triple.ite (fun _ => hm) fun _ => hm'

/-- The call, and what is done after its code is stored. -/
theorem call_bind {c : SdkCall} {m : CmdM α} (hc : c.hasCode = true)
    (hm : ∀ code, Uncoded E sdk cmd before (codes ++ [code]) (Returned (some (g code))) m) :
    Stores E sdk cmd before codes stored g
      (CmdM.call sdk.ret c >>= fun r => setParam "return" (.int (g r)) >>= fun _ => m) := by
  intro s hs
  obtain ⟨code, s', hrun, hs'⟩ := hs.setReturn hc g
  obtain ⟨a, s'', hrun', hs''⟩ := hm code s' (hs'.imp fun ms hms => hms ▸ returned_returned _)
  exact ⟨a, s'', by rw [← bind_assoc, EStateM.bind_ok hrun, hrun'], code, hs''⟩

/-- A branch that ends with the call. -/
theorem call {c : SdkCall} (hc : c.hasCode = true) :
    Stores E sdk cmd before codes stored g
      (CmdM.call sdk.ret c >>= fun r => setParam "return" (.int (g r))) := by
  intro s hs
  obtain ⟨code, s', hrun, hs'⟩ := hs.setReturn hc g
  exact ⟨(), s', hrun, code, hs'.imp fun ms hms => hms ▸ returned_returned _⟩

end Stores

/-! ### The branches -/

variable (sdk)

/-- **Most branches make one call and store its code**; that of `connectToCCPServer` stores
0. -/
theorem runCommand_stores {c : Command} (hc : c.hasCode = true) (hd : c ≠ .sendDTMF) :
    Stores (Params p) sdk cmd before [] none
      (if c = .connectToCCPServer then fun _ => 0 else fun code => code) (runCommand sdk c) := by
  cases c <;> simp only [Command.hasCode, Bool.false_eq_true, ne_eq, not_true_eq_false] at hc hd
  all_goals
    simp only [runCommand, connectToCCPServer, disConnectToCCP, makeCall, getCurrentCall,
      acceptCall, pauseCall, resumeCall, releaseCall, setMute, transferCall,
      consultTransferCall, transferMeeting, setUserData, setSipTransportType, setCodecEnabled,
      selectMicroPhone, selectSpeaker, bind_assoc, pure_bind, reduceCtorEq, if_false, if_true]
    repeat' first
      | with_reducible exact Uncoded.ret _
      | with_reducible exact Uncoded.paramString _ _
      | with_reducible exact Uncoded.paramInt _ _
      | with_reducible exact Uncoded.param _
      | with_reducible refine Stores.call_bind rfl fun _ => ?_
      | with_reducible exact Stores.call rfl
      | with_reducible refine Stores.skip ?_ fun _ => ?_
      | with_reducible refine Stores.ite ?_ ?_
      | with_reducible refine Uncoded.bind ?_ fun _ => ?_
      | with_reducible refine Uncoded.ite ?_ ?_
      | with_reducible exact Uncoded.query _ rfl
      | exact Uncoded.setParam (by decide) rfl

/-- The digits are sent one by one, and the code of each is stored over the one before. -/
theorem sendDTMF_stores : Triple (Coded (Params p) sdk cmd before [] (· = returned none))
    (runCommand sdk .sendDTMF) fun _ s =>
      ∃ codes, Coded (Params p) sdk cmd before codes (Returned codes.getLast?) s := by
  -- between two digits, what is stored is the code of the last call
  have hloop : ∀ (callid dtmf : Bytes), Triple
      (fun s => ∃ codes, Coded (Params p) sdk cmd before codes (· = returned codes.getLast?) s)
      (dtmf.forM fun it => do setParam "return" (.int (← sendDTMF sdk callid it)))
      fun _ s => ∃ codes, Coded (Params p) sdk cmd before codes
        (· = returned codes.getLast?) s := by
    refine fun callid dtmf => Triple.forM dtmf fun it _ s hs => ?_
    obtain ⟨codes, hs⟩ := hs
    obtain ⟨code, s', hrun, hs'⟩ := hs.setReturn (c := .sendDTMF callid it) rfl id
    exact ⟨(), s', hrun, _, by rw [List.getLast?_concat]; exact hs'⟩
  rw [runCommand]
  refine Triple.bind (Uncoded.paramString _ _) fun callid => ?_
  refine Triple.bind (Uncoded.paramString _ _) fun dtmf s hs => ?_
  obtain ⟨_, s₁, hrun, codes, hs₁⟩ := hloop callid dtmf s ⟨[], hs⟩
  have hstored : Coded (Params p) sdk cmd before codes (Returned codes.getLast?) s₁ :=
    hs₁.imp fun ms hms => hms ▸ returned_returned _
  have hrest : Uncoded (Params p) sdk cmd before codes (Returned codes.getLast?) (do
      setParam "callid" (.string callid)
      setParam "dtmf" (.string dtmf)) :=
    (Uncoded.setParam (by decide) rfl).bind fun _ => Uncoded.setParam (by decide) rfl
  obtain ⟨a, s₂, hrun', hs₂⟩ := hrest s₁ hstored
  exact ⟨a, s₂, by rw [EStateM.bind_ok hrun, hrun'], codes, hs₂⟩

/-! ### The reply -/

/-- What is stored as `return`, given the codes the SDK answered with. -/
def Command.storedCode (codes : List Int32) : Command → Option Int32
  | .connectToCCPServer => some 0
  | _ => codes.getLast?

/-- What a branch leaves: one code was answered with, unless digits were sent. -/
def Answers (E : Value → Prop) (sdk : Sdk) (cmd : Bytes) (before : List Obs) (c : Command) :
    Prop :=
  Triple (Coded E sdk cmd before [] (· = returned none)) (runCommand sdk c) fun _ s =>
    ∃ codes, (c ≠ .sendDTMF → codes.length = 1) ∧
      Coded E sdk cmd before codes (Returned (c.storedCode codes)) s

theorem Stores.answers {c : Command}
    (h : Stores E sdk cmd before [] none
      (if c = .connectToCCPServer then fun _ => 0 else fun code => code) (runCommand sdk c)) :
    Answers E sdk cmd before c := by
  intro s hs
  obtain ⟨a, s', hrun, code, hs'⟩ := h s hs
  refine ⟨a, s', hrun, [code], fun _ => rfl, ?_⟩
  by_cases hc : c = .connectToCCPServer
  · subst hc
    exact hs'
  · rw [if_neg hc] at hs'
    cases c <;> first | exact hs' | exact absurd rfl hc

theorem runCommand_answers {c : Command} (hc : c.hasCode = true) :
    Answers (Params p) sdk cmd before c := by
  by_cases hd : c = .sendDTMF
  · subst hd
    intro s hs
    obtain ⟨a, s', hrun, codes, hs'⟩ := sendDTMF_stores sdk s hs
    exact ⟨a, s', hrun, codes, fun h => absurd rfl h, hs'⟩
  · exact Stores.answers sdk (runCommand_stores sdk hc hd)

/-- One of these commands reads no parameter, so it does not matter what `param` is. -/
theorem runCommand_answers_of_not_readsParam {c : Command} (hc : c.hasCode = true)
    (hp : c.readsParam = false) : Answers E sdk cmd before c := by
  have hdis : c = .disConnectToCCP := by
    cases c <;> simp_all [Command.hasCode, Command.readsParam]
  subst hdis
  exact Stores.answers sdk (Stores.call rfl)

/-- What a page reads off a reply. -/
theorem replyReturn_message {ms : List (Bytes × Value)} {ret : Option Int32}
    (hreal : ∀ m ∈ ms, m.2.noReal = true) (hret : Returned ret ms) :
    replyReturn (Value.object (messageMembers .cmdresult (.string cmd) ms)).writeValue =
      ret.map Int32.toInt := by
  rw [replyReturn, parse_message .cmdresult rfl hreal]
  cases ms with
  | nil =>
      cases ret with
      | none => rfl
      | some code => cases hret
  | cons m ms =>
      simp only [get_param .cmdresult _ (List.cons_ne_nil m ms)]
      rw [Returned] at hret
      rw [hret]
      cases ret with
      | none => rfl
      | some code => exact congrArg some (Value.intOf_valueToStringInt code)

/-- Failures are none, or they show in what is stored. -/
def Command.Reported (codes : List Int32) : Command → Prop
  | .connectToCCPServer => ∀ code ∈ codes, code = 0
  | .sendDTMF => codes.getLast? = some 0 → ∀ code ∈ codes, code = 0
  | _ => True

/-- If the code of the last call is stored, it has to tell of the others. -/
theorem reports_getLast_iff (codes : List Int32) :
    Reports (codes.getLast?.map Int32.toInt) codes ↔
      (codes.getLast? = some 0 → ∀ code ∈ codes, code = 0) := by
  constructor
  · intro h hlast
    exact h.zero (by rw [hlast]; rfl)
  · refine fun h => ⟨fun hzero => ?_, ?_⟩
    · obtain ⟨code, hlast, hcode⟩ := Option.map_eq_some_iff.mp hzero
      have hcode : code = 0 := Int32.toInt_inj.mp hcode
      exact h (by rw [hlast, hcode])
    · rintro code rfl
      rfl

theorem Command.reports_iff {c : Command} {codes : List Int32}
    (hlen : c ≠ .sendDTMF → codes.length = 1) :
    Reports ((c.storedCode codes).map Int32.toInt) codes ↔ c.Reported codes := by
  cases c with
  | sendDTMF => exact reports_getLast_iff codes
  | connectToCCPServer =>
      obtain ⟨code, rfl⟩ := List.length_eq_one_iff.mp (hlen (by simp))
      refine ⟨fun h => h.zero rfl, fun h => ⟨fun _ => h, fun code' hcode => ?_⟩⟩
      cases hcode
      rw [h code (List.mem_singleton_self code)]
      rfl
  | _ =>
      obtain ⟨code, rfl⟩ := List.length_eq_one_iff.mp (hlen (by simp))
      refine (reports_getLast_iff [code]).trans (iff_true_intro fun hlast => ?_)
      rw [List.forall_mem_singleton]
      exact Option.some.inj hlast

/-- **Failures are reported.** A command message that is passed on to a function of the SDK
with a result code, and whose `param` can be read where it is read, is replied to. The
`return` of the reply is 0 only if all codes are 0, and it is the code of a single call,
exactly when the command is no connection attempt that failed and no sequence of digits
whose last one went through while another did not. -/
theorem failures_reported_iff (sdk : Sdk) (s : CmdState) {message : Bytes} {root : Value}
    {c : Command} (hp : Reader.parse message = some root) (hcmd : isCommand root = true)
    (hname : Command.ofName (commandName root) = some c) (hc : c.hasCode = true)
    (hparam : c.readsParam = true → (root.member (bytes "param")).indexable = true) :
    ∃ reply s' obs, OnMessage sdk message s = .ok (some reply) s' ∧
      s'.trace = s.trace ++ obs ∧
      (Reports (replyReturn reply) (sdk.codes s.trace obs) ↔
        c.Reported (sdk.codes s.trace obs)) := by
  obtain ⟨t, ht, htrace, hres, hrun⟩ := OnMessage_of_command hp hcmd sdk s
  have hanswers : ∃ E : Value → Prop, E t.jsonEvent ∧
      Answers E sdk (commandName root) s.trace c := by
    cases hreads : c.readsParam with
    | true => exact ⟨_, (ht.params (hparam hreads)).event, runCommand_answers sdk hc⟩
    | false =>
        exact ⟨fun _ => True, trivial, runCommand_answers_of_not_readsParam sdk hc hreads⟩
  obtain ⟨E, hE, hanswers⟩ := hanswers
  obtain ⟨_, s', hbranch, codes, hlen, hs'⟩ :=
    hanswers t ⟨hE, ⟨[], by rw [htrace, List.append_nil], rfl⟩, [], hres, by simp, rfl⟩
  obtain ⟨obs, htrace', rfl⟩ := hs'.trace
  obtain ⟨ms, hms, hreal, hret⟩ := hs'.result
  refine ⟨s'.cmdresult.writeValue, s', obs, ?_, htrace', ?_⟩
  · have hb : runBranch sdk (commandName root) t = .ok () s' := by
      simp only [runBranch, hname]
      exact hbranch
    rw [hrun, EStateM.bind_ok hb]
    rfl
  · rw [hms, replyReturn_message hreal hret]
    exact Command.reports_iff hlen

/-- An SDK that answers 5 to the first call and 0 to all others. -/
def failingSdk : Sdk := { silentSdk with ret := fun before _ => if before = [] then 5 else 0 }

theorem failures_reported_setMute : ∃ reply s' obs,
    OnMessage failingSdk (bytes "\x7b\"type\":\"cmd\",\"cmd\":\"setMute\"\x7d") {} =
      .ok (some reply) s' ∧ s'.trace = [] ++ obs ∧
      Reports (replyReturn reply) (failingSdk.codes [] obs) := by
  generalize hm : bytes "\x7b\"type\":\"cmd\",\"cmd\":\"setMute\"\x7d" = message
  have hread : ((Reader.parse message).all fun root => isCommand root &&
      Command.ofName (commandName root) = some .setMute &&
      (root.member (bytes "param")).indexable) = true := by
    rw [← hm]
    decide +kernel
  obtain ⟨root, hroot⟩ := Option.isSome_iff_exists.mp
    (show (Reader.parse message).isSome = true by rw [← hm]; decide +kernel)
  simp only [hroot, Option.all_some, Bool.and_eq_true, decide_eq_true_eq] at hread
  obtain ⟨⟨hcmd, hname⟩, hparam⟩ := hread
  obtain ⟨reply, s', obs, hrun, htrace, hiff⟩ :=
    failures_reported_iff failingSdk {} hroot hcmd hname rfl fun _ => hparam
  exact ⟨reply, s', obs, hrun, htrace, hiff.mpr trivial⟩

/-- A refused connection is reported as 0, and so is a digit that was lost if the one behind
it went through. -/
theorem failures_not_reported :
    (∃ reply, (OnMessage failingSdk
        (bytes "\x7b\"type\":\"cmd\",\"cmd\":\"connectToCCPServer\"\x7d") {}).value =
          .ok (some reply) ∧ replyReturn reply = some 0) ∧
    failingSdk.codes [] (OnMessage failingSdk
        (bytes "\x7b\"type\":\"cmd\",\"cmd\":\"connectToCCPServer\"\x7d") {}).state.trace =
          [5] ∧
    (∃ reply, (OnMessage failingSdk (bytes
        "\x7b\"type\":\"cmd\",\"cmd\":\"sendDTMF\",\"param\":\x7b\"dtmf\":\"12\"\x7d\x7d")
        {}).value = .ok (some reply) ∧ replyReturn reply = some 0) ∧
    failingSdk.codes [] (OnMessage failingSdk (bytes
        "\x7b\"type\":\"cmd\",\"cmd\":\"sendDTMF\",\"param\":\x7b\"dtmf\":\"12\"\x7d\x7d")
        {}).state.trace = [5, 0] := by
  refine ⟨⟨bytes ("\x7b\"cmdresult\":\"connectToCCPServer\",\"param\":\x7b\"return\":0\x7d," ++
      "\"type\":\"cmdresult\"\x7d"), ?_, ?_⟩, ?_,
    ⟨bytes ("\x7b\"cmdresult\":\"sendDTMF\",\"param\":\x7b\"callid\":\"\",\"dtmf\":\"12\"," ++
      "\"return\":0\x7d,\"type\":\"cmdresult\"\x7d"), ?_, ?_⟩, ?_⟩
  all_goals decide +kernel

end UCClient
