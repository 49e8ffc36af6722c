import UCClient.CommandSafety

/-!
# What a Command Passes On

Each branch of `OnMessage` copies members of `param` into locals and passes these to the
SDK or to the registry. What it should pass on is said by `Command.forwarded`, in terms of
the members alone: a member of the type the branch tests for is its argument, anything
else leaves the default, and where a flag is wanted an integer means whether it is not 0.

The branches are followed by `Passes`: which value a program returns, and which calls with
arguments it makes, from every state of a command whose `param` has the members `p`. The
calls without arguments (`getCurrentCall`, `getVersion`) are made or not made depending on
answers of the SDK and are left aside.

Three branches do not pass on what they read. `setTraceFlag` sets its flag from the type
test instead of the value, so it is always set; the two that select an audio device start
from a local without an initialiser.

## Main results

* `arguments_forwarded_iff`: a command passes on its arguments exactly when its flag is
  meant to be set, or its index is given, where these are read.
* `arguments_not_forwarded`: tracing is switched off and stays on, and the device that is
  stored for a message without an index depends on the memory.
-/

namespace UCClient

open CmdM CWinSDKBase

/-! ### The arguments of a command -/

/-- A text member, or the default. -/
def textArg (p : Bytes → Value) (key : String) (d : Bytes) : Bytes :=
  match p (bytes key) with
  | .string s => s
  | _ => d

/-- An integer member, or the default. -/
def intArg (p : Bytes → Value) (key : String) (d : Int32) : Int32 :=
  match p (bytes key) with
  | .int i => i
  | _ => d

/-- An integer member read as a flag, or the default. -/
def flagArg (p : Bytes → Value) (key : String) (d : Bool) : Bool :=
  match p (bytes key) with
  | .int i => i != 0
  | _ => d

/-- A text member, or no text. -/
def pointerArg (p : Bytes → Value) (key : String) : Option Bytes :=
  match p (bytes key) with
  | .string s => some s
  | _ => none

/-- What `setRegConfig` stores for a member. -/
def regArg (p : Bytes → Value) (name : Bytes) : List Obs :=
  match p name with
  | .int i => [.SetRegKeyDWORD name i.toUInt32]
  | .string s => [.SetRegKeyString name s]
  | _ => []

/-- The defaults the source leaves open: of the flag of `setTraceFlag`, and of the indices
of the two commands that store a device. -/
structure Defaults where
  enable : Bool
  microPhone : Int32
  speaker : Int32

/-- The calls with arguments a command should make for a `param` with the members `p`,
which are `names`. -/
def Command.forwarded (d : Defaults) (p : Bytes → Value) (names : List Bytes) :
    Command → List Obs
  | .connectToCCPServer =>
      [.call (.connectToCCPServer (textArg p "serverAddr" []) (intArg p "serverPort" 0)
        (textArg p "voipId" []) (textArg p "voipPwd" []))]
  | .disConnectToCCP => [.call .disConnectToCCP]
  | .setTraceFlag =>
      [.call (.setTraceFlag (flagArg p "enable" d.enable) (textArg p "logFileName" [])
        (intArg p "logLevel" 23))]
  | .makeCall => [.call (.makeCall 0 (textArg p "called" []))]
  | .acceptCall => [.call (.acceptCall (textArg p "callid" []) 0)]
  | .pauseCall => [.call (.pauseCall (textArg p "callid" []))]
  | .resumeCall => [.call (.resumeCall (textArg p "callid" []))]
  | .releaseCall => [.call (.releaseCall (pointerArg p "callid") (intArg p "reason" 0))]
  | .sendDTMF =>
      (textArg p "dtmf" []).map fun it => .call (.sendDTMF (textArg p "callid" []) it)
  | .setMute => [.call (.setMute (flagArg p "on" false))]
  | .transferCall =>
      [.call (.transferCall (textArg p "callid" []) (textArg p "dest" []) (intArg p "type" 0))]
  | .consultTransferCall =>
      [.call (.consultTransferCall (textArg p "callid" []) (textArg p "consultCallid" [])
        (textArg p "dest" []))]
  | .transferMeeting =>
      [.call (.transferMeeting (intArg p "type" 0) (textArg p "callid" [])
        (textArg p "consultCallid" []) (textArg p "consultedUser" []))]
  | .setUserData => [.call (.setUserData (intArg p "type" 0) (textArg p "data" []))]
  | .setSipTransportType => [.call (.setSipTransportType (intArg p "transType" 0))]
  | .setSrtpEnabled =>
      [.call (.setSrtpEnabled (intArg p "TransportType" 0) (intArg p "cryptoType" 0))]
  | .setCodecEnabled =>
      [.call (.setCodecEnabled (intArg p "type" 0) (if flagArg p "enable" false then 1 else 0))]
  | .getCodecEnabled => [.call (.getCodecEnabled (intArg p "type" 0))]
  | .getMicroPhoneInfo => [.call .getMicroPhoneInfo]
  | .selectMicroPhone => [.call (.selectMicroPhone (intArg p "index" 0))]
  | .getSpeakerInfo => [.call .getSpeakerInfo]
  | .selectSpeaker => [.call (.selectSpeaker (intArg p "index" 0))]
  | .selectAudioRecordDevice =>
      [.SetRegKeyDWORD (bytes "MicroPhone") (intArg p "index" d.microPhone).toUInt32]
  | .selectAudioPlayoutDevice =>
      [.SetRegKeyDWORD (bytes "Speaker") (intArg p "index" d.speaker).toUInt32]
  | .setAudioPlayoutVolume =>
      [.SetRegKeyDWORD (bytes "SpeakerVolume") (intArg p "volume" 0).toUInt32]
  | .setRegConfig => names.flatMap (regArg p)
  | .Initialize | .unInitialize | .getCurrentCall | .setAudioRecordStatus
  | .getAudioRecordDeviceList | .getAudioPlayoutDeviceList | .startMicrophoneTest
  | .stopMicrophoneTest | .startPlayoutTest | .stopPlayoutTest | .enableGlobalAudioInDevice
  | .getVersion | .version => []

/-- The calls whose arguments come from a message. -/
def Obs.isForward : Obs → Bool
  | .call .getCurrentCall | .call .getVersion => false
  | .call _ | .SetRegKeyString _ _ | .SetRegKeyDWORD _ _ => true
  | _ => false

/-- The names of the members of a value. -/
def Value.names (v : Value) : List Bytes :=
  match v.getMemberNames with
  | .ok names => names
  | .error _ => []

/-! ### Reads -/

section Reads

variable (p : Bytes → Value) (key : String)

theorem toUInt32_inj {i j : Int32} : i.toUInt32 = j.toUInt32 ↔ i = j :=
  ⟨fun h => by simpa using congrArg UInt32.toInt32 h, fun h => by rw [h]⟩

theorem textArg_eq (d : Bytes) :
    textArg p key d = if (p (bytes key)).isString then (p (bytes key)).asString else d := by
  cases h : p (bytes key) <;> simp [textArg, h, Value.isString, Value.asString]

theorem intArg_eq (d : UInt32) :
    (intArg p key d.toInt32).toUInt32 =
      if (p (bytes key)).isInt then (p (bytes key)).asInt.toUInt32 else d := by
  cases h : p (bytes key) <;> simp [intArg, h, Value.isInt, Value.asInt]

/-- The default counts where there is no integer. -/
theorem intArg_eq_iff (d d' : Int32) :
    intArg p key d = intArg p key d' ↔ (p (bytes key)).isInt = true ∨ d = d' := by
  cases h : p (bytes key) <;> simp [intArg, h, Value.isInt]

theorem pointerArg_eq : pointerArg p key =
    if (p (bytes key)).isString then some (p (bytes key)).asString else none := by
  cases h : p (bytes key) <;> simp [pointerArg, h, Value.isString, Value.asString]

/-- A flag is an integer that is not 0. -/
theorem flagArg_eq : flagArg p key false = ((intArg p key 0).toUInt32 != 0) := by
  have hzero : ∀ i : Int32, (i != 0) = (i.toUInt32 != 0) := by
    intro i
    rw [Bool.eq_iff_iff, bne_iff_ne, bne_iff_ne, ne_eq, ne_eq, not_iff_not]
    exact (toUInt32_inj (j := 0)).symm
  cases h : p (bytes key) <;> simp only [flagArg, intArg, h, ← hzero] <;> rfl

end Reads

/-! ### Programs and the calls they make -/

variable {α β : Type} {p : Bytes → Value}

/-- From every state of a command with the parameters `p` the program ends without a fault
in a value with `A`, and the calls with arguments it makes are `calls`. -/
def Passes (p : Bytes → Value) (m : CmdM α) (A : α → Prop) (calls : List Obs) : Prop :=
  ∀ s, CmdInv (Params p) s → ∃ a s' obs, m s = .ok a s' ∧ A a ∧ CmdInv (Params p) s' ∧
    s'.trace = s.trace ++ obs ∧ obs.filter Obs.isForward = calls

variable {m : CmdM α} {f : α → CmdM β} {A : α → Prop} {B : β → Prop} {calls calls' : List Obs}

theorem Passes.ret {a : α} (h : A a) : Passes p (pure a : CmdM α) A [] :=
  fun s hs => ⟨a, s, [], rfl, h, hs, by simp, rfl⟩

theorem Passes.bind (hm : Passes p m A calls) (hf : ∀ a, A a → Passes p (f a) B calls') :
    Passes p (m >>= f) B (calls ++ calls') := by
  intro s hs
  obtain ⟨a, s₁, obs₁, hm₁, ha, hs₁, ht₁, hc₁⟩ := hm s hs
  obtain ⟨b, s₂, obs₂, hm₂, hb, hs₂, ht₂, hc₂⟩ := hf a ha s₁ hs₁
  refine ⟨b, s₂, obs₁ ++ obs₂, by rw [EStateM.bind_ok hm₁, hm₂], hb, hs₂, ?_, ?_⟩
  · rw [ht₂, ht₁, List.append_assoc]
  · rw [List.filter_append, hc₁, hc₂]

/-- A program that is read from and then continues. -/
theorem Passes.read {v : α} (hm : Passes p m (· = v) []) (hf : Passes p (f v) B calls) :
    Passes p (m >>= f) B calls := by
  refine hm.bind fun a ha => ?_
  subst ha
  exact hf

/-- A program that makes no call and continues. -/
theorem Passes.skip (hm : Passes p m (fun _ => True) []) (hf : ∀ a, Passes p (f a) B calls) :
    Passes p (m >>= f) B calls := hm.bind fun a _ => hf a

/-- A program that makes one call and continues. -/
theorem Passes.pass {o : Obs} (hm : Passes p m (fun _ => True) [o])
    (hf : ∀ a, Passes p (f a) B calls) :
    Passes p (m >>= f) B (o :: calls) := hm.bind fun a _ => hf a

theorem Passes.ite {c : Prop} [Decidable c] {m' : CmdM α} (hm : Passes p m A calls)
    (hm' : Passes p m' A calls) : Passes p (if c then m else m') A calls := by
  by_cases hc : c
  · simpa only [if_pos hc] using hm
  · simpa only [if_neg hc] using hm'

/-- A loop makes the calls of its body. -/
theorem Passes.forM {body : β → CmdM Unit} {g : β → List Obs} :
    ∀ (xs : List β), (∀ x, Passes p (body x) (fun _ => True) (g x)) →
      Passes p (xs.forM body) (fun _ => True) (xs.flatMap g)
  | [], _ => .ret trivial
  | x :: xs, h => by
      show Passes p (body x >>= fun _ => xs.forM body) (fun _ => True) _
      rw [List.flatMap_cons]
      exact (h x).bind fun _ _ => Passes.forM xs h

/-! The primitives of the branches. -/

theorem Passes.get : Passes p (get : CmdM CmdState) (fun _ => True) [] :=
  fun s hs => ⟨s, s, [], rfl, trivial, hs, by simp, rfl⟩

theorem Passes.record {o : Obs} (ho : o.isForward = true) :
    Passes p (CmdM.record o) (fun _ => True) [o] :=
  fun _ hs => ⟨(), _, [o], rfl, trivial, ⟨hs.event, hs.result, hs.resultParam⟩, rfl, by simp [ho]⟩

theorem Passes.call (answer : List Obs → SdkCall → α) {c : SdkCall}
    (hc : (Obs.call c).isForward = true) :
    Passes p (CmdM.call answer c) (fun _ => True) [.call c] :=
  fun _ hs => ⟨_, _, [.call c], rfl, trivial, ⟨hs.event, hs.result, hs.resultParam⟩, rfl,
    by simp [hc]⟩

/-- A call without arguments. -/
theorem Passes.query (answer : List Obs → SdkCall → α) {c : SdkCall}
    (hc : (Obs.call c).isForward = false) :
    Passes p (CmdM.call answer c) (fun _ => True) [] :=
  fun _ hs => ⟨_, _, [.call c], rfl, trivial, ⟨hs.event, hs.result, hs.resultParam⟩, rfl,
    by simp [hc]⟩

theorem Passes.setParam (key : String) (x : Value) :
    Passes p (setParam key x) (fun _ => True) [] := by
  intro s hs
  obtain ⟨v, hv, hs'⟩ := setParam_spec hs key x
  exact ⟨(), _, [], hv, trivial, hs', by simp, rfl⟩

theorem Passes.param (key : Bytes) : Passes p (CmdM.param key) (· = p key) [] := by
  intro s hs
  obtain ⟨root, hroot, hs'⟩ := param_spec hs key
  exact ⟨_, _, [], hroot, rfl, hs', by simp, rfl⟩

/-- A parameter that is tested and then read again. -/
theorem Passes.param_twice (key : Bytes) (test : Value → Bool) (f : Value → α) (d : α) :
    Passes p (do if test (← CmdM.param key) then pure (f (← CmdM.param key)) else pure d)
      (· = if test (p key) then f (p key) else d) [] := by
  refine (Passes.param key).read ?_
  by_cases ht : test (p key) = true
  · simp only [ht, if_true]
    exact (Passes.param key).read (.ret rfl)
  · simp only [ht, Bool.false_eq_true, if_false]
    exact .ret rfl

theorem Passes.paramString (key : String) (d : Bytes) :
    Passes p (paramString key d) (· = textArg p key d) [] := by
  rw [textArg_eq]
  exact Passes.param_twice _ _ _ _

theorem Passes.paramInt (key : String) (d : UInt32) :
    Passes p (paramInt key d) (· = (intArg p key d.toInt32).toUInt32) [] := by
  rw [intArg_eq]
  exact Passes.param_twice _ _ (fun v => v.asInt.toUInt32) _

theorem Passes.getVersion (sdk : Sdk) :
    Passes p (CWinSDKBase.getVersion sdk) (fun _ => True) [] := by
  intro s hs
  rw [CWinSDKBase.getVersion, EStateM.get_bind]
  by_cases hv : s.version = []
  · rw [if_pos hv]
    exact ⟨_, _, [.call .getVersion], rfl, trivial, ⟨hs.event, hs.result, hs.resultParam⟩, rfl,
      rfl⟩
  · rw [if_neg hv]
    exact ⟨_, s, [], rfl, trivial, hs, by simp, rfl⟩

theorem Passes.setRegMember (it : Bytes) :
    Passes p (setRegMember it) (fun _ => True) (regArg p it) := by
  refine (Passes.param it).read ?_
  cases hit : p it with
  | int i =>
      simp only [regArg, hit]
      exact (Passes.param it).read (by rw [hit]; exact .record rfl)
  | string b =>
      simp only [regArg, hit]
      refine (Passes.param it).read ?_
      rw [hit]
      exact (Passes.param it).read (by rw [hit]; exact .record rfl)
  | null | uint | real | bool | array | object =>
      simp only [regArg, hit]
      refine (Passes.param it).read ?_
      rw [hit]
      exact .ret trivial

/-! ### The branches -/

variable (sdk : Sdk)

/-- What a branch passes on when its uninitialised local happens to hold `u`. -/
def Command.passed (u : UInt32) (p : Bytes → Value) (names : List Bytes) : Command → List Obs
  | .setTraceFlag =>
      [.call (.setTraceFlag true (textArg p "logFileName" []) (intArg p "logLevel" 23))]
  | c => c.forwarded ⟨true, u.toInt32, u.toInt32⟩ p names

theorem setTraceFlag_passes : Passes p (runCommand sdk .setTraceFlag) (fun _ => True)
    [.call (.setTraceFlag true (textArg p "logFileName" []) (intArg p "logLevel" 23))] := by
  have hrest : Passes p (do
      let fileName ← paramString "logFileName" []
      let logLevel ← paramInt "logLevel" 23
      setTraceFlag true fileName logLevel.toInt32
      setParam "return" (.int 0)) (fun _ => True)
      [.call (.setTraceFlag true (textArg p "logFileName" []) (intArg p "logLevel" 23))] := by
    refine (Passes.paramString _ _).read ((Passes.paramInt _ _).read ?_)
    exact (Passes.record rfl).pass fun _ => .setParam _ _
  -- the flag is the result of the test, or the constant it starts from
  simp only [runCommand]
  refine (Passes.param _).read ?_
  by_cases hint : (p (bytes "enable")).isInt = true
  · rw [if_pos hint]
    refine (Passes.param _).read ?_
    rw [hint]
    exact hrest
  · rw [if_neg hint]
    exact hrest

theorem releaseCall_passes : Passes p (runCommand sdk .releaseCall) (fun _ => True)
    [.call (.releaseCall (pointerArg p "callid") (intArg p "reason" 0))] := by
  rw [pointerArg_eq]
  simp only [runCommand]
  refine (Passes.param _).read ?_
  by_cases hstr : (p (bytes "callid")).isString = true
  · rw [if_pos hstr, if_pos hstr]
    refine (Passes.param _).read ((Passes.paramInt _ _).read ?_)
    exact (Passes.call _ rfl).pass fun _ => (Passes.setParam _ _).skip fun _ => .setParam _ _
  · rw [if_neg hstr, if_neg hstr]
    refine (Passes.paramInt _ _).read ?_
    exact (Passes.call _ rfl).pass fun _ => (Passes.setParam _ _).skip fun _ => .ret trivial

theorem sendDTMF_passes : Passes p (runCommand sdk .sendDTMF) (fun _ => True)
    ((textArg p "dtmf" []).map fun it => .call (.sendDTMF (textArg p "callid" []) it)) := by
  refine (Passes.paramString _ _).read ((Passes.paramString _ _).read ?_)
  rw [List.map_eq_flatMap, ← List.append_nil (List.flatMap _ _)]
  refine (Passes.forM _ fun it => ?_).bind fun _ _ => ?_
  · exact (Passes.call _ rfl).pass fun _ => .setParam _ _
  · exact (Passes.setParam _ _).skip fun _ => .setParam _ _

theorem setMute_passes : Passes p (runCommand sdk .setMute) (fun _ => True)
    [.call (.setMute (flagArg p "on" false))] := by
  rw [flagArg_eq]
  exact (Passes.paramInt _ _).read ((Passes.call _ rfl).pass fun _ => .setParam _ _)

theorem setCodecEnabled_passes : Passes p (runCommand sdk .setCodecEnabled) (fun _ => True)
    [.call (.setCodecEnabled (intArg p "type" 0)
      (if flagArg p "enable" false then 1 else 0))] := by
  have hflag : (if flagArg p "enable" false then 1 else 0 : Int32) =
      if (intArg p "enable" 0).toUInt32 = 0 then 0 else 1 := by
    rw [flagArg_eq]
    by_cases h0 : (intArg p "enable" 0).toUInt32 = 0 <;> simp [h0]
  rw [hflag]
  refine (Passes.paramInt _ _).read ((Passes.paramInt _ _).read ?_)
  refine (Passes.call _ rfl).pass fun _ => ?_
  exact (Passes.setParam _ _).skip fun _ => (Passes.setParam _ _).skip fun _ => .setParam _ _

/-- The branches that neither start from an uninitialised local nor loop over the members. -/
theorem runCommand_passes {c : Command} (hr : c ≠ .selectAudioRecordDevice)
    (hl : c ≠ .selectAudioPlayoutDevice) (hg : c ≠ .setRegConfig) (u : UInt32)
    (names : List Bytes) :
    Passes p (runCommand sdk c) (fun _ => True) (c.passed u p names) := by
  cases c <;> try contradiction
  case setTraceFlag => exact setTraceFlag_passes sdk
  case releaseCall => exact releaseCall_passes sdk
  case sendDTMF => exact sendDTMF_passes sdk
  case setMute => exact setMute_passes sdk
  case setCodecEnabled => exact setCodecEnabled_passes sdk
  -- the other branches are straight lines of reads, one call and stores
  all_goals
    simp only [runCommand, connectToCCPServer, getMicroPhoneInfo, getSpeakerInfo, bind_assoc,
      pure_bind, Command.passed, Command.forwarded]
    repeat' first
      | with_reducible exact Passes.setParam _ _
      | with_reducible exact Passes.ret trivial
      | with_reducible refine Passes.read (Passes.paramString _ _) ?_
      | with_reducible refine Passes.read (Passes.paramInt _ _) ?_
      | with_reducible refine Passes.skip (Passes.setParam _ _) fun _ => ?_
      | with_reducible refine Passes.skip (Passes.getVersion _) fun _ => ?_
      | with_reducible refine Passes.skip Passes.get fun _ => ?_
      | with_reducible refine Passes.ite ?_ ?_
      | exact Passes.record rfl
      | refine Passes.pass (Passes.call _ rfl) fun _ => ?_
      | refine Passes.pass (Passes.record rfl) fun _ => ?_
      | refine Passes.skip (Passes.query _ rfl) fun _ => ?_

/-- From the state `s` the program ends without a fault, and the calls with arguments it
makes are `calls`. -/
def PassesFrom (s : CmdState) (m : CmdM α) (calls : List Obs) : Prop :=
  ∃ a s' obs, m s = .ok a s' ∧ s'.trace = s.trace ++ obs ∧ obs.filter Obs.isForward = calls

theorem Passes.from {m : CmdM α} {A : α → Prop} {calls : List Obs} (hm : Passes p m A calls)
    {s : CmdState} (hs : CmdInv (Params p) s) : PassesFrom s m calls := by
  obtain ⟨a, s', obs, hrun, -, -, htrace, hobs⟩ := hm s hs
  exact ⟨a, s', obs, hrun, htrace, hobs⟩

section Branch

variable {root : Value} {s : CmdState}

theorem AtBranch.params (hs : AtBranch root s)
    (hparam : (root.member (bytes "param")).indexable = true) :
    CmdInv (Params (root.member (bytes "param")).member) s := by
  refine hs.cmdInv ⟨hs.event, ?_, fun k => by rw [hs.members]⟩
  rw [hs.members]
  exact hparam

/-- The branch of `setRegConfig` stores every member `param` has. -/
theorem AtBranch.setRegConfig_passes (hs : AtBranch root s)
    (hparam : (root.member (bytes "param")).indexable = true) :
    PassesFrom s (runCommand sdk .setRegConfig)
      ((root.member (bytes "param")).names.flatMap
        (regArg (root.member (bytes "param")).member)) := by
  obtain ⟨v, hv, hs₁⟩ := setParam_spec (hs.params hparam) "return" (.int 0)
  obtain ⟨names, hnames⟩ := getMemberNames_spec hparam
  obtain ⟨root', hroot, hrooti, hrootm⟩ := field_spec hs₁.event.event "param"
  have hvalue : s.jsonEvent.member (bytes "param") = root.member (bytes "param") := hs.members _
  have hs₂ : CmdInv (Params (root.member (bytes "param")).member)
      { s with cmdresult := v, jsonEvent := root' } := by
    refine ⟨⟨hrooti, ?_, fun k => ?_⟩, hs₁.result, hs₁.resultParam⟩
    · rw [hrootm]
      exact hs₁.event.param
    · rw [hrootm]
      exact hs₁.event.members k
  obtain ⟨a, s', obs, hrun, htrace, hobs⟩ := (Passes.forM names Passes.setRegMember).from hs₂
  refine ⟨a, s', obs, ?_, htrace, ?_⟩
  · rw [runCommand, EStateM.bind_ok hv, EStateM.bind_ok hroot]
    simp only [hvalue]
    rw [liftJson_bind_ok hnames]
    exact hrun
  · rw [hobs, Value.names, hnames]

/-- **What every branch passes on**, from the state a command message starts it in. -/
theorem AtBranch.runCommand_passes (hs : AtBranch root s)
    (hparam : (root.member (bytes "param")).indexable = true) (c : Command) :
    PassesFrom s (runCommand sdk c) (c.passed (sdk.uninit s.trace)
      (root.member (bytes "param")).member (root.member (bytes "param")).names) := by
  have hinv := hs.params hparam
  by_cases hr : c = .selectAudioRecordDevice
  · subst hr
    exact ((Passes.paramInt "index" (sdk.uninit s.trace)).read (.record rfl)).from hinv
  by_cases hl : c = .selectAudioPlayoutDevice
  · subst hl
    exact ((Passes.paramInt "index" (sdk.uninit s.trace)).read (.record rfl)).from hinv
  by_cases hg : c = .setRegConfig
  · subst hg
    exact hs.setRegConfig_passes sdk hparam
  exact (UCClient.runCommand_passes sdk hr hl hg _ _).from hinv

/-- A command message is answered, and passes on what its branch does. -/
theorem OnMessage_passes (s : CmdState) {message : Bytes} {c : Command}
    (hp : Reader.parse message = some root) (hc : isCommand root = true)
    (hname : Command.ofName (commandName root) = some c)
    (hparam : (root.member (bytes "param")).indexable = true) :
    ∃ reply s' obs, OnMessage sdk message s = .ok reply s' ∧ s'.trace = s.trace ++ obs ∧
      obs.filter Obs.isForward = c.passed (sdk.uninit s.trace)
        (root.member (bytes "param")).member (root.member (bytes "param")).names := by
  obtain ⟨t, ht, htrace, -, hrun⟩ := OnMessage_of_command hp hc sdk s
  obtain ⟨a, s', obs, hbranch, hs', hobs⟩ := ht.runCommand_passes sdk hparam c
  rw [htrace] at hs' hobs
  refine ⟨some s'.cmdresult.writeValue, s', obs, ?_, hs', hobs⟩
  have hb : runBranch sdk (commandName root) t = .ok () s' := by
    simp only [runBranch, hname]
    exact hbranch
  rw [hrun, EStateM.bind_ok hb]
  rfl

end Branch

/-! ### When the arguments are passed on -/

/-- The flag that is read is meant to be set, and the index that is stored is given, or the
uninitialised local `u` happens to hold the default. -/
def Command.argumentsKept (u : UInt32) (d : Defaults) (p : Bytes → Value) : Command → Prop
  | .setTraceFlag => flagArg p "enable" d.enable = true
  | .selectAudioRecordDevice => (p (bytes "index")).isInt = true ∨ u.toInt32 = d.microPhone
  | .selectAudioPlayoutDevice => (p (bytes "index")).isInt = true ∨ u.toInt32 = d.speaker
  | _ => True

theorem Command.passed_eq_forwarded_iff (u : UInt32) (d : Defaults) (p : Bytes → Value)
    (names : List Bytes) (c : Command) :
    c.passed u p names = c.forwarded d p names ↔ c.argumentsKept u d p := by
  cases c with
  | setTraceFlag =>
      simp only [passed, forwarded, argumentsKept, List.cons.injEq, Obs.call.injEq,
        SdkCall.setTraceFlag.injEq, and_true]
      exact eq_comm
  | selectAudioRecordDevice | selectAudioPlayoutDevice =>
      simp only [passed, forwarded, argumentsKept, List.cons.injEq, Obs.SetRegKeyDWORD.injEq,
        and_true, true_and, ← intArg_eq_iff]
      exact toUInt32_inj
  | _ => exact iff_true_intro rfl

/-- **Arguments are forwarded.** On a command message whose `param` is absent, null or an
object, `OnMessage` ends, and the calls with arguments it makes are those of the members of
`param` and of the defaults `d`, exactly when a flag of `setTraceFlag` is meant to be set and
an index of a device to store is given, or its default is what the memory happens to hold. -/
theorem arguments_forwarded_iff (sdk : Sdk) (s : CmdState) {message : Bytes} {root : Value}
    {c : Command} (hp : Reader.parse message = some root) (hc : isCommand root = true)
    (hname : Command.ofName (commandName root) = some c)
    (hparam : (root.member (bytes "param")).indexable = true) (d : Defaults) :
    ∃ reply s' obs, OnMessage sdk message s = .ok reply s' ∧ s'.trace = s.trace ++ obs ∧
      (obs.filter Obs.isForward = c.forwarded d (root.member (bytes "param")).member
          (root.member (bytes "param")).names ↔
        c.argumentsKept (sdk.uninit s.trace) d (root.member (bytes "param")).member) := by
  obtain ⟨reply, s', obs, hrun, htrace, hobs⟩ := OnMessage_passes sdk s hp hc hname hparam
  refine ⟨reply, s', obs, hrun, htrace, ?_⟩
  rw [hobs]
  exact c.passed_eq_forwarded_iff _ _ _ _

theorem arguments_forwarded_makeCall :
    ∃ reply s' obs, OnMessage silentSdk (bytes
        "\x7b\"type\":\"cmd\",\"cmd\":\"makeCall\",\"param\":\x7b\"called\":\"1\"\x7d\x7d") {} =
          .ok reply s' ∧ s'.trace = [] ++ obs ∧
      obs.filter Obs.isForward = [.call (.makeCall 0 (bytes "1"))] := by
  generalize hm : bytes
    "\x7b\"type\":\"cmd\",\"cmd\":\"makeCall\",\"param\":\x7b\"called\":\"1\"\x7d\x7d" = message
  have hread : ((Reader.parse message).all fun root => isCommand root &&
      Command.ofName (commandName root) = some .makeCall &&
      (root.member (bytes "param")).indexable &&
      textArg (root.member (bytes "param")).member "called" [] = bytes "1") = true := by
    rw [← hm]
    decide +kernel
  obtain ⟨root, hroot⟩ := Option.isSome_iff_exists.mp
    (show (Reader.parse message).isSome = true by rw [← hm]; decide +kernel)
  simp only [hroot, Option.all_some, Bool.and_eq_true, decide_eq_true_eq] at hread
  obtain ⟨⟨⟨hcmd, hname⟩, hparam⟩, hcalled⟩ := hread
  obtain ⟨reply, s', obs, hrun, htrace, hiff⟩ :=
    arguments_forwarded_iff silentSdk {} hroot hcmd hname hparam ⟨true, 0, 0⟩
  refine ⟨reply, s', obs, hrun, htrace, (hiff.mpr trivial).trans ?_⟩
  rw [Command.forwarded, hcalled]

/-- Tracing is switched off by a page and stays on, whatever the default is meant to be, and
the device stored for a message without an index is what the memory happened to hold. -/
theorem arguments_not_forwarded :
    (OnMessage silentSdk (bytes
        "\x7b\"type\":\"cmd\",\"cmd\":\"setTraceFlag\",\"param\":\x7b\"enable\":0\x7d\x7d")
        {}).state.trace = [.call (.setTraceFlag true [] 23)] ∧
    (∀ d : Defaults, Command.setTraceFlag.forwarded d
      (Value.object [(bytes "enable", .int 0)]).member [bytes "enable"] =
        [.call (.setTraceFlag false [] 23)]) ∧
    (∀ u ∈ [0, 1], (OnMessage { silentSdk with uninit := fun _ => u } (bytes
        "\x7b\"type\":\"cmd\",\"cmd\":\"selectAudioRecordDevice\"\x7d") {}).state.trace =
      [.SetRegKeyDWORD (bytes "MicroPhone") u]) := by
  refine ⟨by decide +kernel, fun d => rfl, ?_⟩
  rw [List.forall_mem_cons, List.forall_mem_singleton]
  exact ⟨by decide +kernel, by decide +kernel⟩

end UCClient
