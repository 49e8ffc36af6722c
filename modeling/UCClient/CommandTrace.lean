import UCClient.Command

/-!
# What a Command Does to the Outside

A command calls the SDK and writes the registry, and that is all the outside sees of it
until its reply is sent: no data is handed to a connection and no member of a client is
entered. This holds of every message and of every outcome, a tripped assertion included
(`OnMessage_frame`). The branch of a command makes calls of its own only
(`Observes.runCommand`).
-/

namespace UCClient

open CmdM CWinSDKBase

/-- The observations a command can make. -/
def Obs.isCommand : Obs → Bool
  | .call _ | .SetRegKeyString _ _ | .SetRegKeyDWORD _ _ => true
  | _ => false

/-- The second trace continues the first by SDK and registry calls. -/
def Calls (s s' : CmdState) : Prop :=
  ∃ obs, s'.trace = s.trace ++ obs ∧ ∀ o ∈ obs, o.isCommand = true

/-! ### The calls of each branch -/

/-- The commands whose branch makes a call of the SDK. -/
def SdkCall.commands : SdkCall → List Command
  | .connectToCCPServer .. => [.connectToCCPServer]
  | .makeCall .. => [.makeCall]
  | .acceptCall .. => [.acceptCall]
  | .pauseCall _ => [.pauseCall]
  | .resumeCall _ => [.resumeCall]
  | .transferCall .. => [.transferCall]
  | .sendDTMF .. => [.sendDTMF]
  | .releaseCall .. => [.releaseCall]
  | .getCurrentCall => [.getCurrentCall, .makeCall]
  | .disConnectToCCP => [.disConnectToCCP]
  | .setTraceFlag .. => [.setTraceFlag]
  | .setCodecEnabled .. => [.setCodecEnabled]
  | .getCodecEnabled _ => [.getCodecEnabled]
  | .setMute _ => [.setMute]
  | .getMicroPhoneInfo => [.getMicroPhoneInfo]
  | .selectMicroPhone _ => [.selectMicroPhone]
  | .getSpeakerInfo => [.getSpeakerInfo]
  | .selectSpeaker _ => [.selectSpeaker]
  | .setUserData .. => [.setUserData]
  | .consultTransferCall .. => [.consultTransferCall]
  | .transferMeeting .. => [.transferMeeting]
  | .setSipTransportType _ => [.setSipTransportType]
  | .setSrtpEnabled .. => [.setSrtpEnabled]
  | .getVersion => [.getVersion, .version]
  | .alertingCall _ => []

/-- What the outside sees of the branch of a command. -/
def Command.calls (c : Command) : Obs → Bool
  | .call call => c ∈ call.commands
  | .SetRegKeyString _ _ => c = .setRegConfig
  | .SetRegKeyDWORD name _ =>
      c = .setRegConfig || c = .selectAudioRecordDevice && name = bytes "MicroPhone" ||
        c = .selectAudioPlayoutDevice && name = bytes "Speaker" ||
        c = .setAudioPlayoutVolume && name = bytes "SpeakerVolume"
  | _ => false

theorem Command.isCommand_of_calls {c : Command} {o : Obs} (h : c.calls o = true) :
    o.isCommand = true := by
  cases o <;> first | rfl | cases h

/-- The second trace continues the first by observations with `P`. -/
def Observes (P : Obs → Bool) (s s' : CmdState) : Prop :=
  ∃ obs, s'.trace = s.trace ++ obs ∧ ∀ o ∈ obs, P o = true

variable {P : Obs → Bool}

instance : Std.Refl (Observes P) := ⟨fun s => ⟨[], by simp, by simp⟩⟩

instance : IsTrans CmdState (Observes P) where
  trans := by
    rintro s t u ⟨obs, hst, hobs⟩ ⟨obs', htu, hobs'⟩
    refine ⟨obs ++ obs', by rw [htu, hst, List.append_assoc], fun o ho => ?_⟩
    rcases List.mem_append.mp ho with ho | ho
    · exact hobs o ho
    · exact hobs' o ho

namespace Observes

variable {α : Type} {sdk : Sdk}

/-- Steps that leave the trace alone. -/
theorem of_trace_eq {s s' : CmdState} (h : s'.trace = s.trace) : Observes P s s' :=
  ⟨[], by simp [h], by simp⟩

/-- A `Json::Value` operation, whether it trips its assertion or not. -/
theorem liftJson_bind {β : Type} {e : Except Fault α} {f : α → CmdM β} {s : CmdState}
    (h : ∀ a, Observes P s (f a s).state) : Observes P s ((CmdM.liftJson e >>= f) s).state := by
  cases e with
  | ok a =>
      rw [liftJson_bind_ok rfl]
      exact h a
  | error x =>
      rw [liftJson_bind_error rfl]
      exact of_trace_eq rfl

theorem field (key : String) : Frame (Observes P) (field key) := by
  intro s
  rw [CmdM.field, EStateM.get_bind]
  exact liftJson_bind fun _ => of_trace_eq rfl

theorem param (key : Bytes) : Frame (Observes P) (param key) := by
  intro s
  rw [CmdM.param, EStateM.get_bind]
  refine liftJson_bind fun r => ?_
  obtain ⟨root, p⟩ := r
  refine liftJson_bind fun r => ?_
  obtain ⟨p', x⟩ := r
  exact liftJson_bind fun _ => of_trace_eq rfl

theorem setResult (key : String) (x : Value) : Frame (Observes P) (setResult key x) := by
  intro s
  rw [CmdM.setResult, EStateM.get_bind]
  exact liftJson_bind fun _ => of_trace_eq rfl

theorem setParam (key : String) (x : Value) : Frame (Observes P) (setParam key x) := by
  intro s
  rw [CmdM.setParam, EStateM.get_bind]
  exact liftJson_bind fun _ => of_trace_eq rfl

theorem liftJson (e : Except Fault α) : Frame (Observes P) (liftJson e) := by
  intro s
  cases e <;> exact of_trace_eq rfl

theorem record {o : Obs} (ho : P o = true) : Frame (Observes P) (record o) :=
  fun s => ⟨[o], rfl, by simpa using ho⟩

theorem call (answer : List Obs → SdkCall → α) {c : SdkCall} (hc : P (.call c) = true) :
    Frame (Observes P) (call answer c) := fun s => ⟨[.call c], rfl, by simpa using hc⟩

theorem paramString (key : String) (x : Bytes) : Frame (Observes P) (paramString key x) :=
  (param _).bind fun _ => .ite ((param _).bind fun _ => .pure _) (.pure _)

theorem paramInt (key : String) (x : UInt32) : Frame (Observes P) (paramInt key x) :=
  (param _).bind fun _ => .ite ((param _).bind fun _ => .pure _) (.pure _)

theorem getVersion (hc : P (.call .getVersion) = true) :
    Frame (Observes P) (getVersion sdk) := by
  refine Frame.get.bind fun s => .ite ?_ (.pure _)
  refine (call _ hc).bind fun version => Frame.bind ?_ fun _ => .pure _
  exact fun _ => of_trace_eq rfl

theorem setRegMember (it : Bytes) :
    Frame (Observes Command.setRegConfig.calls) (setRegMember it) := by
  refine (param _).bind fun _ => .ite ?_ ?_
  · exact (param _).bind fun _ => record rfl
  · refine (param _).bind fun _ => .ite ?_ (.pure _)
    exact (param _).bind fun _ => record rfl

/-- **A branch makes its own calls only.** -/
theorem runCommand (c : Command) : Frame (Observes c.calls) (runCommand sdk c) := by
  cases c <;>
    simp only [UCClient.runCommand, connectToCCPServer, getMicroPhoneInfo, getSpeakerInfo]
  case setRegConfig =>
    refine (setParam _ _).bind fun _ => (field _).bind fun q => ?_
    exact (liftJson _).bind fun names => Frame.forM setRegMember names
  case sendDTMF =>
    refine (paramString _ _).bind fun callid => (paramString _ _).bind fun dtmf => ?_
    refine Frame.bind (Frame.forM (fun it => ?_) dtmf) fun _ => ?_
    · exact (call _ rfl).bind fun _ => setParam _ _
    · exact (setParam _ _).bind fun _ => setParam _ _
  -- the other branches are straight lines of reads, calls and stores
  all_goals
    repeat' first
      | with_reducible refine Frame.bind ?_ fun _ => ?_
      | with_reducible refine Frame.ite ?_ ?_
      | with_reducible exact setParam _ _
      | with_reducible exact paramString _ _
      | with_reducible exact paramInt _ _
      | with_reducible exact param _
      | with_reducible exact Frame.get
      | with_reducible exact Frame.pure _
      | exact getVersion rfl
      | exact call _ rfl
      | exact record rfl
      | split

/-- The chain of branches, of which at most the one that is named is taken. -/
theorem runBranch (cmd : Bytes) : Frame
    (Observes fun o => (Command.ofName cmd).any (Command.calls · o)) (runBranch sdk cmd) := by
  rw [UCClient.runBranch]
  cases hname : Command.ofName cmd with
  | none => exact .pure _
  | some c => exact runCommand c

end Observes

/-- **A command only calls the SDK and the registry**, whatever the message and the
outcome. -/
theorem OnMessage_frame (sdk : Sdk) (message : Bytes) : Frame Calls (OnMessage sdk message) := by
  suffices h : Frame (Observes Obs.isCommand) (OnMessage sdk message) from h
  rw [OnMessage]
  split
  · exact .pure _
  · refine Frame.bind (fun _ => Observes.of_trace_eq rfl) fun _ => Frame.bind ?_ fun isCmd => ?_
    · refine Frame.get.bind fun _ => .ite ?_ (.pure _)
      refine (Observes.field _).bind fun _ => .ite ?_ (.pure _)
      exact (Observes.field _).bind fun _ => .pure _
    · refine .ite ?_ (.pure _)
      refine Frame.bind ?_ fun cmd => Frame.bind ?_ fun _ => Frame.bind ?_ fun _ => ?_
      · refine (Observes.field _).bind fun _ => .ite ?_ (.pure _)
        exact (Observes.field _).bind fun _ => .pure _
      · exact (Observes.setResult _ _).bind fun _ => Observes.setResult _ _
      · intro s
        obtain ⟨obs, htrace, hobs⟩ := Observes.runBranch cmd s
        refine ⟨obs, htrace, fun o ho => ?_⟩
        obtain ⟨c, -, hc⟩ := (Option.any_eq_true _ _).mp (hobs o ho)
        exact Command.isCommand_of_calls hc
      · exact Frame.get.bind fun _ => .pure _

end UCClient
