import Mathlib.Logic.Basic
import Mathlib.Tactic.ByContra
import UCClient.Command

/-!
# Type Safety of Command Parsing

jsoncpp demands of `operator[](key)` and `getMemberNames` that the value is null or an
object, and checks it by an assertion only. This module settles when `OnMessage` keeps
to that.

The result `cmdresult` is built from a null value and always passes; the root of the
message is tested by `isObject` before it is indexed. What is not tested is the member
`param`: a branch that reads a parameter indexes whatever stands there. The invariant
`CmdInv` holds while a command runs on a message whose `param` is null or an object, and
says what can be read from it; every branch keeps it (`runCommand_keeps`). On any other
`param` every branch that reads a parameter faults at its first read
(`runCommand_faults`).

## Main results

* `OnMessage_typeSafe_iff`: no assertion is tripped exactly when a command that reads
  parameters comes with a `param` that is absent, null or an object.
* `OnMessage_not_typeSafe`: a call command whose `param` is a string trips it.
-/

namespace UCClient

open CmdM CWinSDKBase

/-! ### What a command keeps -/

/-- The message is an object whose `param` is null or an object, with the members `p`. -/
structure Params (p : Bytes → Value) (v : Value) : Prop where
  event : v.indexable = true
  param : (v.member (bytes "param")).indexable = true
  members : ∀ k, (v.member (bytes "param")).member k = p k

/-- While a command runs: `E` holds of the message, the result is null or an object, and
so is the result's `param`. -/
structure CmdInv (E : Value → Prop) (s : CmdState) : Prop where
  event : E s.jsonEvent
  result : s.cmdresult.indexable = true
  resultParam : (s.cmdresult.member (bytes "param")).indexable = true

/-- The program ends without a fault and keeps the command invariant. -/
def Keeps {α : Type} (E : Value → Prop) (m : CmdM α) : Prop :=
  Triple (CmdInv E) m fun _ => CmdInv E

variable {α β : Type} {E : Value → Prop} {p : Bytes → Value} (sdk : Sdk)

theorem Keeps.pure (a : α) : Keeps E (pure a : CmdM α) := Triple.pure fun _ h => h

theorem Keeps.bind {m : CmdM α} {f : α → CmdM β} (hm : Keeps E m)
    (hf : ∀ a, Keeps E (f a)) : Keeps E (m >>= f) := Triple.bind hm hf

theorem Keeps.ite {c : Prop} [Decidable c] {m m' : CmdM α} (hm : Keeps E m)
    (hm' : Keeps E m') : Keeps E (if c then m else m') :=
  Triple.ite (fun _ => hm) fun _ => hm'

theorem Keeps.forM {body : β → CmdM Unit} (xs : List β) (h : ∀ x, Keeps E (body x)) :
    Keeps E (xs.forM body) := Triple.forM xs fun x _ => h x

theorem Keeps.get : Keeps E (get : CmdM CmdState) := fun s hs => ⟨s, s, rfl, hs⟩

theorem Keeps.record (o : Obs) : Keeps E (record o) :=
  fun _ hs => ⟨(), _, rfl, ⟨hs.event, hs.result, hs.resultParam⟩⟩

theorem Keeps.call (answer : List Obs → SdkCall → α) (c : SdkCall) :
    Keeps E (call answer c) :=
  fun _ hs => ⟨_, _, rfl, ⟨hs.event, hs.result, hs.resultParam⟩⟩

/-- Filling in a member of the result's `param` changes the result only. -/
theorem setParam_spec {s : CmdState} (hs : CmdInv E s) (key : String) (x : Value) :
    ∃ v, setParam key x s = .ok () { s with cmdresult := v } ∧
      CmdInv E { s with cmdresult := v } := by
  obtain ⟨v, hv, hvi, hvp, -, -⟩ :=
    Value.setMember₂_spec hs.result hs.resultParam (bytes key) x
  refine ⟨v, ?_, hs.event, hvi, hvp⟩
  rw [CmdM.setParam, EStateM.get_bind, liftJson_bind_ok hv]
  rfl

theorem Keeps.setParam (key : String) (x : Value) : Keeps E (setParam key x) := by
  intro s hs
  obtain ⟨v, hv, hs'⟩ := setParam_spec hs key x
  exact ⟨(), _, hv, hs'⟩

theorem Keeps.getVersion : Keeps E (getVersion sdk) := by
  refine Keeps.get.bind fun s => .ite ?_ (.pure _)
  refine (Keeps.call _ _).bind fun version => Keeps.bind ?_ fun _ => .pure _
  exact fun _ hs => ⟨(), _, rfl, ⟨hs.event, hs.result, hs.resultParam⟩⟩

/-- Reading a parameter returns it and changes the message only. -/
theorem param_spec {s : CmdState} (hs : CmdInv (Params p) s) (key : Bytes) :
    ∃ root, CmdM.param key s = .ok (p key) { s with jsonEvent := root } ∧
      CmdInv (Params p) { s with jsonEvent := root } := by
  obtain ⟨root, hroot, hrooti, hrootm⟩ := Value.index_spec hs.event.event (bytes "param")
  obtain ⟨q, hq, hqi, hqm⟩ := Value.index_spec hs.event.param key
  obtain ⟨root', hroot', hroot'i, hroot'm⟩ := Value.setMember_spec hrooti (bytes "param") q
  have hparam : root'.member (bytes "param") = q := by rw [hroot'm, if_pos rfl]
  refine ⟨root', ?_, ⟨hroot'i, ?_, ?_⟩, hs.result, hs.resultParam⟩
  · simp only [CmdM.param, EStateM.get_bind, liftJson_bind_ok hroot, liftJson_bind_ok hq,
      liftJson_bind_ok hroot', hs.event.members]
    rfl
  · show (root'.member (bytes "param")).indexable = true
    rw [hparam]
    exact hqi
  · intro k
    show (root'.member (bytes "param")).member k = p k
    rw [hparam, hqm, hs.event.members]

theorem Keeps.param (key : Bytes) : Keeps (Params p) (CmdM.param key) := by
  intro s hs
  obtain ⟨root, hroot, hs'⟩ := param_spec hs key
  exact ⟨_, _, hroot, hs'⟩

theorem Keeps.paramString (key : String) (x : Bytes) :
    Keeps (Params p) (paramString key x) :=
  (Keeps.param _).bind fun _ => .ite ((Keeps.param _).bind fun _ => .pure _) (.pure _)

theorem Keeps.paramInt (key : String) (x : UInt32) : Keeps (Params p) (paramInt key x) :=
  (Keeps.param _).bind fun _ => .ite ((Keeps.param _).bind fun _ => .pure _) (.pure _)

theorem Keeps.setRegMember (it : Bytes) : Keeps (Params p) (setRegMember it) := by
  refine (Keeps.param _).bind fun _ => .ite ?_ ?_
  · exact (Keeps.param _).bind fun _ => .record _
  · refine (Keeps.param _).bind fun _ => .ite ?_ (.pure _)
    exact (Keeps.param _).bind fun _ => .record _

/-- Reading a member of the message returns it and leaves the same message behind. -/
theorem field_spec {s : CmdState} (hs : s.jsonEvent.indexable = true) (key : String) :
    ∃ root, field key s = .ok (s.jsonEvent.member (bytes key)) { s with jsonEvent := root } ∧
      root.indexable = true ∧ ∀ k, root.member k = s.jsonEvent.member k := by
  obtain ⟨root, hroot, hrooti, hrootm⟩ := Value.index_spec hs (bytes key)
  refine ⟨root, ?_, hrooti, hrootm⟩
  simp only [field, EStateM.get_bind, liftJson_bind_ok hroot]
  rfl

/-- The names of the members of a null or object value can be listed. -/
theorem getMemberNames_spec {v : Value} (hv : v.indexable = true) :
    ∃ names, v.getMemberNames = .ok names := by
  cases v with
  | null => exact ⟨[], rfl⟩
  | object ms => exact ⟨_, rfl⟩
  | int | uint | real | string | bool | array => simp [Value.indexable] at hv

/-- The loop of `setRegConfig` over whatever members `param` has. -/
theorem Keeps.setRegMembers :
    Keeps (Params p) (do
      let q ← field "param"
      let names ← liftJson q.getMemberNames
      names.forM UCClient.setRegMember) := by
  intro s hs
  obtain ⟨root, hroot, hrooti, hrootm⟩ := field_spec hs.event.event "param"
  obtain ⟨names, hnames⟩ := getMemberNames_spec hs.event.param
  have hs' : CmdInv (Params p) { s with jsonEvent := root } := by
    refine ⟨⟨hrooti, ?_, ?_⟩, hs.result, hs.resultParam⟩
    · rw [hrootm]
      exact hs.event.param
    · intro k
      rw [hrootm]
      exact hs.event.members k
  obtain ⟨_, s', hloop, hs''⟩ := Keeps.forM names Keeps.setRegMember _ hs'
  refine ⟨(), s', ?_, hs''⟩
  rw [EStateM.bind_ok hroot, liftJson_bind_ok hnames]
  exact hloop

/-- **Every branch keeps the invariant**: on a message whose `param` is null or an object
no branch faults. -/
theorem runCommand_keeps (c : Command) : Keeps (Params p) (runCommand sdk c) := by
  cases c <;> simp only [runCommand, connectToCCPServer, getMicroPhoneInfo, getSpeakerInfo]
  case setRegConfig => exact (Keeps.setParam _ _).bind fun _ => Keeps.setRegMembers
  case sendDTMF =>
    refine (Keeps.paramString _ _).bind fun callid => ?_
    refine (Keeps.paramString _ _).bind fun dtmf => ?_
    have hloop := Keeps.forM (E := Params p) dtmf fun it =>
      (Keeps.call sdk.ret (.sendDTMF callid it)).bind fun r => Keeps.setParam "return" (.int r)
    exact hloop.bind fun _ => (Keeps.setParam _ _).bind fun _ => Keeps.setParam _ _
  -- the other branches are straight lines of reads, calls and stores
  all_goals
    repeat' first
      | with_reducible refine Keeps.bind ?_ fun _ => ?_
      | with_reducible refine Keeps.ite ?_ ?_
      | with_reducible exact Keeps.setParam _ _
      | with_reducible exact Keeps.paramString _ _
      | with_reducible exact Keeps.paramInt _ _
      | with_reducible exact Keeps.param _
      | with_reducible exact Keeps.record _
      | with_reducible exact Keeps.getVersion _
      | with_reducible exact Keeps.get
      | with_reducible exact Keeps.pure _
      | exact Keeps.call _ _
      | exact Keeps.record _
      | split

/-- The commands whose branch reads `param`. -/
def Command.readsParam : Command → Bool
  | Initialize | unInitialize | disConnectToCCP | getCurrentCall | getMicroPhoneInfo
  | getSpeakerInfo | getAudioRecordDeviceList | getAudioPlayoutDeviceList
  | startMicrophoneTest | stopMicrophoneTest | startPlayoutTest | stopPlayoutTest
  | getVersion | version => false
  | _ => true

/-- A branch that reads no parameter does not fault on any message. -/
theorem runCommand_keeps_of_not_readsParam {c : Command} (hc : c.readsParam = false) :
    Keeps E (runCommand sdk c) := by
  cases c <;> simp only [Command.readsParam, Bool.true_eq_false] at hc <;>
    simp only [runCommand, getMicroPhoneInfo, getSpeakerInfo]
  all_goals
    repeat' first
      | with_reducible refine Keeps.bind ?_ fun _ => ?_
      | with_reducible refine Keeps.ite ?_ ?_
      | with_reducible exact Keeps.setParam _ _
      | with_reducible exact Keeps.getVersion _
      | with_reducible exact Keeps.pure _
      | exact Keeps.call _ _

/-! ### Where a command faults -/

/-- The program trips a jsoncpp assertion. -/
def Faults (m : CmdM α) (s : CmdState) : Prop := ∃ s', m s = .error .jsonAssert s'

instance (m : CmdM α) (s : CmdState) : Decidable (Faults m s) :=
  match h : m s with
  | .error .jsonAssert s' => isTrue ⟨s', h⟩
  | .error (.dangling _) _ | .error (.doubleDelete _) _ | .error .vectorRange _
  | .error .stackOverflow _ | .ok _ _ =>
      isFalse (by rintro ⟨t, ht⟩; rw [h] at ht; cases ht)

theorem Faults.bind {m : CmdM α} {s : CmdState} (hm : Faults m s) (f : α → CmdM β) :
    Faults (m >>= f) s := by
  obtain ⟨s', hs'⟩ := hm
  exact ⟨s', EStateM.bind_error hs'⟩

/-- The message is an object whose `param` is neither null nor an object. -/
structure BadParam (v : Value) : Prop where
  event : v.indexable = true
  param : (v.member (bytes "param")).indexable = false

variable {s : CmdState}

/-- Reading any parameter then faults. -/
theorem param_faults (hs : BadParam s.jsonEvent) (key : Bytes) :
    Faults (CmdM.param key) s := by
  obtain ⟨root, hroot, -, -⟩ := Value.index_spec hs.event (bytes "param")
  refine ⟨s, ?_⟩
  simp only [CmdM.param, EStateM.get_bind, liftJson_bind_ok hroot,
    liftJson_bind_error (Value.index_error hs.param key)]

theorem paramString_faults (hs : BadParam s.jsonEvent) (key : String) (x : Bytes) :
    Faults (paramString key x) s := (param_faults hs _).bind _

theorem paramInt_faults (hs : BadParam s.jsonEvent) (key : String) (x : UInt32) :
    Faults (paramInt key x) s := (param_faults hs _).bind _

/-- So does listing the parameters, behind the store that precedes it. -/
theorem setRegConfig_faults (hs : CmdInv BadParam s) :
    Faults (runCommand sdk .setRegConfig) s := by
  obtain ⟨_, s', hset, hs'⟩ := Keeps.setParam "return" (.int 0) s hs
  obtain ⟨root, hroot, -, -⟩ := field_spec hs'.event.event "param"
  have hnames : (s'.jsonEvent.member (bytes "param")).getMemberNames = .error .jsonAssert := by
    have hp := hs'.event.param
    cases hq : s'.jsonEvent.member (bytes "param") with
    | null | object => simp [hq, Value.indexable] at hp
    | int | uint | real | string | bool | array => rfl
  refine ⟨{ s' with jsonEvent := root }, ?_⟩
  rw [runCommand, EStateM.bind_ok hset, EStateM.bind_ok hroot, liftJson_bind_error hnames]

/-- **Every branch that reads `param` faults** when it is neither null nor an object. -/
theorem runCommand_faults {c : Command} (hc : c.readsParam = true) (hs : CmdInv BadParam s) :
    Faults (runCommand sdk c) s := by
  cases c <;> simp only [Command.readsParam, Bool.false_eq_true] at hc <;>
    first
      | exact setRegConfig_faults sdk hs
      | exact (paramString_faults hs.event _ _).bind _
      | exact (paramInt_faults hs.event _ _).bind _
      | exact (param_faults hs.event _).bind _

/-! ### The message around the command -/

/-- A parsed message is a command. -/
def isCommand (root : Value) : Bool :=
  root.isObject && (root.member (bytes "type")).isString &&
    (root.member (bytes "type")).asString = bytes "cmd"

/-- The command name of a message: empty when `cmd` is not a string. -/
def commandName (root : Value) : Bytes :=
  if (root.member (bytes "cmd")).isString then (root.member (bytes "cmd")).asString else []

/-- The same message, read from since, and nothing else changed. -/
structure SameMessage (s s' : CmdState) : Prop where
  event : s'.jsonEvent.indexable = s.jsonEvent.indexable
  members : ∀ k, s'.jsonEvent.member k = s.jsonEvent.member k
  result : s'.cmdresult = s.cmdresult
  version : s'.version = s.version
  trace : s'.trace = s.trace

theorem SameMessage.refl (s : CmdState) : SameMessage s s := ⟨rfl, fun _ => rfl, rfl, rfl, rfl⟩

theorem SameMessage.trans {s s' s'' : CmdState} (h : SameMessage s s')
    (h' : SameMessage s' s'') : SameMessage s s'' :=
  ⟨h'.event.trans h.event, fun k => (h'.members k).trans (h.members k),
    h'.result.trans h.result, h'.version.trans h.version, h'.trace.trans h.trace⟩

/-- A member of an object message that is read twice, as `x[k].isT() ... x[k].asT()`. -/
theorem field_twice {s : CmdState} (hs : s.jsonEvent.indexable = true) (key : String)
    (test : Value → Bool) (f : Value → α) (d : α) :
    ∃ s', (do if test (← field key) then pure (f (← field key)) else pure d : CmdM α) s =
        .ok (if test (s.jsonEvent.member (bytes key)) then f (s.jsonEvent.member (bytes key))
          else d) s' ∧ SameMessage s s' := by
  obtain ⟨root, hroot, hrooti, hrootm⟩ := field_spec hs key
  have h₁ : SameMessage s { s with jsonEvent := root } :=
    ⟨hrooti.trans hs.symm, hrootm, rfl, rfl, rfl⟩
  rw [EStateM.bind_ok hroot]
  by_cases ht : test (s.jsonEvent.member (bytes key)) = true
  · obtain ⟨root', hroot', hrooti', hrootm'⟩ :=
      field_spec (s := { s with jsonEvent := root }) hrooti key
    refine ⟨{ s with jsonEvent := root' }, ?_, ?_⟩
    · rw [if_pos ht, if_pos ht, EStateM.bind_ok hroot', hrootm]
      rfl
    · exact h₁.trans ⟨hrooti'.trans hrooti.symm, hrootm', rfl, rfl, rfl⟩
  · refine ⟨{ s with jsonEvent := root }, ?_, h₁⟩
    rw [if_neg ht, if_neg ht]
    rfl

theorem isCmd_spec (s : CmdState) :
    ∃ s', isCmd s = .ok (isCommand s.jsonEvent) s' ∧ SameMessage s s' := by
  by_cases ho : s.jsonEvent.isObject = true
  · have hi : s.jsonEvent.indexable = true := by
      cases hj : s.jsonEvent <;> simp_all [Value.isObject, Value.indexable]
    obtain ⟨s', hs', hsame⟩ :=
      field_twice hi "type" Value.isString (fun v => decide (v.asString = bytes "cmd")) false
    refine ⟨s', ?_, hsame⟩
    rw [isCmd, EStateM.get_bind, if_pos ho, hs', isCommand, ho]
    by_cases ht : (s.jsonEvent.member (bytes "type")).isString = true <;> simp [ht]
  · refine ⟨s, ?_, .refl s⟩
    rw [isCmd, EStateM.get_bind, if_neg ho, isCommand]
    simp [ho]
    rfl

theorem readCmd_spec {s : CmdState} (hs : s.jsonEvent.indexable = true) :
    ∃ s', readCmd s = .ok (commandName s.jsonEvent) s' ∧ SameMessage s s' :=
  field_twice hs "cmd" Value.isString Value.asString []

/-- The result every branch starts from. -/
theorem startResult_run {s : CmdState} (hs : s.cmdresult = .null) (cmd : Bytes) :
    startResult cmd s = .ok () { s with
      cmdresult := .object [(bytes "cmdresult", .string cmd),
        (bytes "type", .ofLiteral "cmdresult")] } := by
  obtain ⟨event, result, version, trace⟩ := s
  cases hs
  rfl

/-- What the branch of a command message starts from: the message is an object with the
members of `root`, and the result has no `param` yet. -/
structure AtBranch (root : Value) (s : CmdState) : Prop where
  event : s.jsonEvent.indexable = true
  members : ∀ k, s.jsonEvent.member k = root.member k
  result : s.cmdresult.indexable = true
  resultParam : s.cmdresult.member (bytes "param") = .null

/-- A message that does not parse, or is no command, is dropped. -/
theorem OnMessage_of_not_command {message : Bytes}
    (h : ∀ root, Reader.parse message = some root → isCommand root = false) (sdk : Sdk)
    (s : CmdState) : ∃ s', OnMessage sdk message s = .ok none s' ∧ s'.version = s.version ∧
      s'.trace = s.trace := by
  cases hp : Reader.parse message with
  | none => exact ⟨s, by simp only [OnMessage, hp]; rfl, rfl, rfl⟩
  | some root =>
      obtain ⟨s', hs', hsame⟩ := isCmd_spec { s with jsonEvent := root, cmdresult := .null }
      refine ⟨s', ?_, hsame.version, hsame.trace⟩
      simp only [OnMessage, hp]
      rw [EStateM.modify_bind, EStateM.bind_ok hs']
      simp only [h root hp, Bool.false_eq_true, if_false]
      rfl

/-- A command message runs its branch and then replies. -/
theorem OnMessage_of_command {message : Bytes} {root : Value}
    (hp : Reader.parse message = some root) (hc : isCommand root = true) (sdk : Sdk)
    (s : CmdState) :
    ∃ t, AtBranch root t ∧ t.trace = s.trace ∧
      t.cmdresult = .object [(bytes "cmdresult", .string (commandName root)),
        (bytes "type", .ofLiteral "cmdresult")] ∧
      OnMessage sdk message s =
        (do runBranch sdk (commandName root); pure (some (← get).cmdresult.writeValue)) t := by
  obtain ⟨s₁, hs₁, hsame₁⟩ := isCmd_spec { s with jsonEvent := root, cmdresult := .null }
  have hi : root.indexable = true := by
    cases root <;> simp_all [isCommand, Value.isObject, Value.indexable]
  obtain ⟨s₂, hs₂, hsame₂⟩ := readCmd_spec (s := s₁) (hsame₁.event.trans hi)
  have hsame := hsame₁.trans hsame₂
  have hv := startResult_run (s := s₂) hsame.result (commandName root)
  refine ⟨{ s₂ with
      cmdresult := .object [(bytes "cmdresult", .string (commandName root)),
        (bytes "type", .ofLiteral "cmdresult")] },
    ⟨hsame.event.trans hi, hsame.members, rfl, rfl⟩, hsame.trace, rfl, ?_⟩
  have hname : commandName s₁.jsonEvent = commandName root := by
    simp only [commandName, hsame₁.members]
  simp only [OnMessage, hp]
  rw [EStateM.modify_bind, EStateM.bind_ok hs₁]
  simp only [hc, if_true]
  rw [EStateM.bind_ok hs₂, hname, EStateM.bind_ok hv]

/-! ### When no assertion is tripped -/

/-- If the message is a command whose branch reads parameters, its `param` is absent,
null or an object. -/
def ParamIsObject (message : Bytes) : Prop :=
  ∀ root c, Reader.parse message = some root → isCommand root = true →
    Command.ofName (commandName root) = some c → c.readsParam = true →
    (root.member (bytes "param")).indexable = true

namespace AtBranch

variable {root : Value}

theorem cmdInv (hs : AtBranch root s) (hE : E s.jsonEvent) : CmdInv E s :=
  ⟨hE, hs.result, by rw [hs.resultParam]; rfl⟩

/-- A command that does not read a bad `param` ends without a fault. -/
theorem runCommand_ok (hs : AtBranch root s) {c : Command}
    (hp : c.readsParam = true → (root.member (bytes "param")).indexable = true) :
    ∃ s', runCommand sdk c s = .ok () s' := by
  cases hc : c.readsParam with
  | true =>
      have hparams : Params (root.member (bytes "param")).member s.jsonEvent := by
        refine ⟨hs.event, ?_, fun k => ?_⟩
        · rw [hs.members]
          exact hp hc
        · rw [hs.members]
      obtain ⟨_, s', hs', -⟩ := runCommand_keeps sdk c s (hs.cmdInv hparams)
      exact ⟨s', hs'⟩
  | false =>
      obtain ⟨_, s', hs', -⟩ := runCommand_keeps_of_not_readsParam sdk hc s
        (hs.cmdInv (E := fun _ => True) trivial)
      exact ⟨s', hs'⟩

/-- A command that reads a bad `param` faults. -/
theorem runCommand_bad (hs : AtBranch root s) {c : Command} (hc : c.readsParam = true)
    (hp : (root.member (bytes "param")).indexable = false) :
    Faults (runCommand sdk c) s := by
  have hbad : BadParam s.jsonEvent := ⟨hs.event, by rw [hs.members]; exact hp⟩
  exact runCommand_faults sdk hc (hs.cmdInv hbad)

end AtBranch

/-- On a good message `OnMessage` ends without a fault. -/
theorem OnMessage_ok {message : Bytes} (h : ParamIsObject message) :
    ∃ r s', OnMessage sdk message s = .ok r s' := by
  by_cases hcmd : ∃ root, Reader.parse message = some root ∧ isCommand root = true
  · obtain ⟨root, hp, hc⟩ := hcmd
    obtain ⟨t, ht, -, -, hrun⟩ := OnMessage_of_command hp hc sdk s
    have hbranch : ∃ t', runBranch sdk (commandName root) t = .ok () t' := by
      cases hname : Command.ofName (commandName root) with
      | none => exact ⟨t, by simp only [runBranch, hname]; rfl⟩
      | some c =>
          simp only [runBranch, hname]
          exact ht.runCommand_ok sdk (h root c hp hc hname)
    obtain ⟨t', ht'⟩ := hbranch
    exact ⟨_, _, by rw [hrun, EStateM.bind_ok ht']; rfl⟩
  · have hnot : ∀ root, Reader.parse message = some root → isCommand root = false :=
      fun root hp => Bool.eq_false_iff.mpr fun hc => hcmd ⟨root, hp, hc⟩
    obtain ⟨t, ht, -⟩ := OnMessage_of_not_command hnot sdk s
    exact ⟨none, t, ht⟩

/-- On any other message it trips an assertion. -/
theorem OnMessage_faults {message : Bytes} (h : ¬ ParamIsObject message) :
    Faults (OnMessage sdk message) s := by
  simp only [ParamIsObject, not_forall] at h
  obtain ⟨root, c, hp, hc, hname, hreads, hbad⟩ := h
  obtain ⟨t, ht, -, -, hrun⟩ := OnMessage_of_command hp hc sdk s
  obtain ⟨t', ht'⟩ := ht.runCommand_bad sdk hreads (Bool.eq_false_iff.mpr hbad)
  have hbranch : runBranch sdk (commandName root) t = .error .jsonAssert t' := by
    simp only [runBranch, hname, ht']
  exact ⟨t', by rw [hrun, EStateM.bind_error hbranch]⟩

/-- **Type safety of command parsing.** `OnMessage` applies `operator[]` and
`getMemberNames` to null values and objects only, exactly when a message that is a command
reading parameters comes with a `param` that is absent, null or an object. -/
theorem OnMessage_typeSafe_iff (sdk : Sdk) (message : Bytes) (s : CmdState) :
    ¬ Faults (OnMessage sdk message) s ↔ ParamIsObject message := by
  constructor
  · intro hsafe
    by_contra hbad
    exact hsafe (OnMessage_faults sdk hbad)
  · rintro hok ⟨s', hs'⟩
    obtain ⟨r, t, ht⟩ := OnMessage_ok sdk (s := s) hok
    rw [ht] at hs'
    cases hs'

/-- A page that sends a string for `param` makes `OnMessage` index a string. -/
theorem OnMessage_not_typeSafe :
    Faults (OnMessage silentSdk
      (bytes "\x7b\"type\":\"cmd\",\"cmd\":\"makeCall\",\"param\":\"x\"\x7d")) {} := by
  decide +kernel

end UCClient
