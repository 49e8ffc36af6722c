import UCClient.Forwarding
import UCClient.Histories
import UCClient.Runs
import UCClient.SettingsDialog

/-!
# Settings That Are Read Back

Two writers share the settings: the pages, by four commands, and the settings dialog. Nothing
but the names connects them with the readers, and a reader finds a value only under the type
it asks for.

The commands that select a device store its index, a number, under names that are read as
texts. Every other write has the type its readers ask for, if the members of `setRegConfig`
have. So a setting is lost by a command that selects a device, and stays lost until a text is
written there.

The steps are the messages of the pages and the exits of the dialog, in any state the user may
have brought it into; the log keeps what each of them called.

## Main results

* `settings_read_back_iff`: all settings are read back **exactly when no device is selected by
  a command after the last text was stored for it**.
* `settings_lost`: the microphone selected by a page is no microphone to the dialog.
-/

namespace UCClient

/-- The writers of the settings. -/
inductive SettingsAction
  | message (m : Bytes)
  | exit (w : CSettingsWnd)

/-- The command in a message, and its `param`. -/
def commandOf (message : Bytes) : Option (Command × Value) :=
  match Reader.parse message with
  | some root =>
      if isCommand root then
        (Command.ofName (commandName root)).map fun c => (c, root.member (bytes "param"))
      else none
  | none => none

/-- The command that is run. -/
def SettingsAction.command : SettingsAction → Option Command
  | .message m => (commandOf m).map Prod.fst
  | .exit _ => none

/-- A member of `setRegConfig` has the type its readers ask for, or is not stored at all. -/
def Setting.Accepts (x : Setting) : Value → Prop
  | .int _ => x.isText = false
  | .string _ => x.isText = true
  | _ => True

instance (x : Setting) : ∀ v, Decidable (x.Accepts v)
  | .int _ | .string _ => inferInstanceAs (Decidable (_ = _))
  | .null | .uint _ | .real _ | .bool _ | .array _ | .object _ => inferInstanceAs (Decidable True)

/-- The members of `setRegConfig` are fit to be read. -/
def Command.Typed (param : Value) : Command → Prop
  | .setRegConfig => ∀ name ∈ param.names, ∀ x : Setting, regName name = regName x.name →
      x.Accepts (param.member name)
  | _ => True

instance (param : Value) (c : Command) : Decidable (c.Typed param) :=
  if h : c = .setRegConfig then
    decidable_of_iff (∀ name ∈ param.names, ∀ x : Setting, regName name = regName x.name →
      x.Accepts (param.member name)) (by rw [h]; exact Iff.rfl)
  else .isTrue (by cases c <;> trivial)

/-- What an action of the log called. -/
abbrev SettingsEntry := SettingsAction × List Obs

/-- The program as far as the settings go: the state of its commands, the registry, and what
was called by whom. -/
structure SettingsState where
  cmd : CmdState := {}
  registry : Registry
  log : List SettingsEntry := []

namespace SettingsState

/-- The calls of an action take effect. -/
def enter (s : SettingsState) (a : SettingsAction) (cmd : CmdState) (obs : List Obs) :
    SettingsState :=
  { cmd, registry := s.registry.after obs, log := s.log ++ [(a, obs)] }

/-- A step. -/
def step (sdk : Sdk) (s : SettingsState) : SettingsAction → Except Fault SettingsState
  | .message m =>
      match OnMessage sdk m s.cmd with
      | .ok _ t => .ok (s.enter (.message m) t (t.trace.drop s.cmd.trace.length))
      | .error fault _ => .error fault
  | .exit w => .ok (s.enter (.exit w) s.cmd w.OnExit)

/-- The pages send commands whose members have the types that are read. -/
def allowed : SettingsAction → Prop
  | .message m =>
      match commandOf m with
      | some (c, param) => param.indexable = true ∧ c.Typed param
      | none => False
  | .exit _ => True

instance : ∀ a, Decidable (allowed a)
  | .message m =>
      match h : commandOf m with
      | some (c, param) =>
          decidable_of_iff (param.indexable = true ∧ c.Typed param) (by simp only [allowed, h])
      | none => .isFalse (by simp only [allowed, h, not_false_eq_true])
  | .exit _ => .isTrue trivial

/-- The writers, from an empty key of the current user. -/
def system (sdk : Sdk) (users : RegKey) : StepSystem SettingsState SettingsAction Fault where
  init := { registry := { Registry.empty with HKEY_USERS := users } }
  allowed := fun _ a => allowed a
  step := fun s a => s.step sdk a

instance (sdk : Sdk) (users : RegKey) (s : SettingsState) (a : SettingsAction) :
    Decidable ((system sdk users).allowed s a) :=
  inferInstanceAs (Decidable (allowed a))

end SettingsState

/-! ### What an action writes -/

/-- The command that stores a number under the name of the setting. -/
def Setting.misstoredBy : Setting → Option Command
  | .MicroPhone => some .selectAudioRecordDevice
  | .Speaker => some .selectAudioPlayoutDevice
  | _ => none

namespace SettingsEntry

/-- What an action leaves under the name of a setting. -/
def last (e : SettingsEntry) (x : Setting) : Option RegValue :=
  Store.last (regWrites e.2) (regName x.name)

/-- The action is the command that stores a number where a text is read. -/
def Misstores (x : Setting) (e : SettingsEntry) : Prop :=
  e.1.command ≠ none ∧ e.1.command = x.misstoredBy

/-- The action leaves a value of the type that is read. -/
def Stores (x : Setting) (e : SettingsEntry) : Prop :=
  (e.last x).map RegValue.isText = some x.isText

instance (x : Setting) (e : SettingsEntry) : Decidable (e.Misstores x) :=
  inferInstanceAs (Decidable (_ ∧ _))

instance (x : Setting) (e : SettingsEntry) : Decidable (e.Stores x) :=
  inferInstanceAs (Decidable (_ = _))

end SettingsEntry

/-- Only a command that selects a device writes another type than is read. -/
structure SettingsEntry.Sound (e : SettingsEntry) : Prop where
  wrong : ∀ x, e.Misstores x → ∃ v ∈ e.last x, v.isText ≠ x.isText
  right : ∀ x, ¬ e.Misstores x → ∀ v ∈ e.last x, v.isText = x.isText

/-- What is not passed on is not stored. -/
theorem regWrites_filter (obs : List Obs) :
    regWrites (obs.filter Obs.isForward) = regWrites obs := by
  have hnone : ∀ o : Obs, o.isForward ≠ true → o.regWrite = none := by
    intro o ho
    cases o <;> first | rfl | exact absurd rfl ho
  rw [regWrites, List.filterMap_filter]
  refine List.filterMap_congr fun o _ => ?_
  by_cases ho : o.isForward = true
  · rw [if_pos ho]
  · rw [if_neg ho, hnone o ho]

/-- The other commands store nothing. -/
theorem regWrites_passed {c : Command} (hr : c ≠ .selectAudioRecordDevice)
    (hl : c ≠ .selectAudioPlayoutDevice) (hv : c ≠ .setAudioPlayoutVolume) (hg : c ≠ .setRegConfig)
    (u : UInt32) (p : Bytes → Value) (names : List Bytes) :
    regWrites (c.passed u p names) = [] := by
  cases c <;> try contradiction
  case sendDTMF =>
    rw [regWrites, List.filterMap_eq_nil_iff]
    intro o ho
    obtain ⟨it, -, rfl⟩ := List.mem_map.mp ho
    rfl
  all_goals rfl

/-- The members of `setRegConfig` are stored as what they are. -/
theorem mem_regWrites_regArg {p : Bytes → Value} {names : List Bytes} {w : Bytes × RegValue}
    (h : w ∈ regWrites (names.flatMap (regArg p))) :
    ∃ name ∈ names, regName name = w.1 ∧
      ∀ x : Setting, x.Accepts (p name) → w.2.isText = x.isText := by
  obtain ⟨o, ho, hw⟩ := List.mem_filterMap.mp h
  obtain ⟨name, hname, ho⟩ := List.mem_flatMap.mp ho
  refine ⟨name, hname, ?_⟩
  rw [regArg] at ho
  cases hp : p name with
  | int i =>
      rw [hp, List.mem_singleton] at ho
      subst ho
      cases hw
      exact ⟨rfl, fun x hx => hx.symm⟩
  | string b =>
      rw [hp, List.mem_singleton] at ho
      subst ho
      cases hw
      exact ⟨rfl, fun x hx => hx.symm⟩
  | null | uint | real | bool | array | object =>
      rw [hp] at ho
      exact absurd ho List.not_mem_nil

/-- A number that is stored alone is under its own name. -/
theorem last_SetRegKeyDWORD (x y : Setting) (v : UInt32) :
    Store.last (regWrites [.SetRegKeyDWORD y.name v]) (regName x.name) =
      if y = x then some (.dword v) else none := by
  simp only [regWrites, List.filterMap_cons, List.filterMap_nil, Obs.regWrite,
    Store.last_singleton, Setting.regName_name]

/-- What a command leaves under the name of a setting has the type that is read, unless the
command selects the device. -/
theorem last_passed {c : Command} {param : Value} (ht : c.Typed param) (u : UInt32) (x : Setting)
    {last : Option RegValue}
    (hlast : last = Store.last (regWrites (c.passed u param.member param.names)) (regName x.name)) :
    (x.misstoredBy = some c → ∃ v ∈ last, v.isText ≠ x.isText) ∧
      (x.misstoredBy ≠ some c → ∀ v ∈ last, v.isText = x.isText) := by
  by_cases hr : c = .selectAudioRecordDevice
  · subst hr
    rw [hlast.trans (last_SetRegKeyDWORD x .MicroPhone _)]
    cases x <;> simp [Setting.misstoredBy, Setting.isText, RegValue.isText]
  by_cases hl : c = .selectAudioPlayoutDevice
  · subst hl
    rw [hlast.trans (last_SetRegKeyDWORD x .Speaker _)]
    cases x <;> simp [Setting.misstoredBy, Setting.isText, RegValue.isText]
  have hmis : x.misstoredBy ≠ some c := by
    cases x <;> simp [Setting.misstoredBy, Ne.symm hr, Ne.symm hl]
  refine ⟨fun h => absurd h hmis, fun _ v hv => ?_⟩
  by_cases hvol : c = .setAudioPlayoutVolume
  · subst hvol
    rw [hlast.trans (last_SetRegKeyDWORD x .SpeakerVolume _)] at hv
    by_cases hx : Setting.SpeakerVolume = x
    · subst hx
      cases hv
      rfl
    · rw [if_neg hx] at hv
      cases hv
  by_cases hg : c = .setRegConfig
  · subst hg
    have hmem := Store.mem_of_last (hlast.symm.trans hv)
    obtain ⟨name, hname, hreg, htype⟩ := mem_regWrites_regArg hmem
    exact htype x (ht name hname x hreg)
  · rw [hlast, regWrites_passed hr hl hvol hg, Store.last_nil] at hv
    cases hv

/-- What leaving the dialog writes has the type that is read. -/
theorem last_OnExit_isText {w : CSettingsWnd} {x : Setting} {v : RegValue}
    (h : Store.last (regWrites w.OnExit) (regName x.name) = some v) : v.isText = x.isText := by
  rw [w.last_OnExit] at h
  cases x <;> rw [CSettingsWnd.exitValue] at h <;> split_ifs at h <;> cases h <;> rfl

/-! ### Runs -/

theorem commandOf_eq_some {m : Bytes} {c : Command} {param : Value}
    (h : commandOf m = some (c, param)) :
    ∃ root, Reader.parse m = some root ∧ isCommand root = true ∧
      Command.ofName (commandName root) = some c ∧ root.member (bytes "param") = param := by
  rw [commandOf] at h
  cases hp : Reader.parse m with
  | none => simp [hp] at h
  | some root =>
      simp only [hp] at h
      split_ifs at h with hc
      obtain ⟨c', hname, hpair⟩ := Option.map_eq_some_iff.mp h
      obtain ⟨rfl, rfl⟩ := Prod.mk.inj hpair
      exact ⟨root, rfl, hc, hname, rfl⟩

/-- A command message ends, and what it called is sound. -/
theorem OnMessage_sound {m : Bytes} {c : Command} {param : Value}
    (hm : commandOf m = some (c, param)) (hparam : param.indexable = true) (ht : c.Typed param)
    (sdk : Sdk) (s : CmdState) :
    ∃ reply s' obs, OnMessage sdk m s = .ok reply s' ∧ s'.trace = s.trace ++ obs ∧
      SettingsEntry.Sound (.message m, obs) := by
  have hcommand : (SettingsAction.message m).command = some c := by
    rw [SettingsAction.command, hm, Option.map_some]
  obtain ⟨root, hp, hc, hname, rfl⟩ := commandOf_eq_some hm
  obtain ⟨reply, s', obs, hrun, htrace, hobs⟩ := OnMessage_passes sdk s hp hc hname hparam
  have hwrites : regWrites obs = regWrites (c.passed (sdk.uninit s.trace)
      (root.member (bytes "param")).member (root.member (bytes "param")).names) := by
    rw [← hobs, regWrites_filter]
  have hlast := fun x => last_passed ht (sdk.uninit s.trace) x
    (congrArg (Store.last · (regName x.name)) hwrites)
  refine ⟨reply, s', obs, hrun, htrace, fun x hmis => ?_, fun x hmis => ?_⟩
  · exact (hlast x).1 (hmis.2.symm.trans hcommand)
  · refine (hlast x).2 fun hx => hmis ⟨?_, hcommand.trans hx.symm⟩
    rw [hcommand]
    exact Option.some_ne_none c

namespace SettingsState

/-- A step enters what its action called, and that is sound. -/
theorem step_cases {sdk : Sdk} {s s' : SettingsState} {a : SettingsAction} (ha : allowed a)
    (h : s.step sdk a = .ok s') :
    ∃ cmd obs, s' = s.enter a cmd obs ∧ SettingsEntry.Sound (a, obs) := by
  cases a with
  | message m =>
      cases hm : commandOf m with
      | none => simp [allowed, hm] at ha
      | some cp =>
          simp only [allowed, hm] at ha
          obtain ⟨reply, t, obs, hrun, htrace, hsound⟩ := OnMessage_sound hm ha.1 ha.2 sdk s.cmd
          simp only [step, hrun, htrace, List.drop_left] at h
          exact ⟨t, obs, (Except.ok.inj h).symm, hsound⟩
  | exit w =>
      cases h
      refine ⟨_, _, rfl, fun x hmis => absurd rfl hmis.1, fun x _ v hv => ?_⟩
      exact last_OnExit_isText hv

/-- All calls that were made. -/
def calls (s : SettingsState) : List Obs := s.log.flatMap Prod.snd

theorem calls_enter (s : SettingsState) (a : SettingsAction) (cmd : CmdState) (obs : List Obs) :
    (s.enter a cmd obs).calls = s.calls ++ obs := by
  rw [calls, enter, List.flatMap_append, List.flatMap_singleton]
  rfl

/-- The registry is what the calls made of it, and these are sound. -/
structure Kept (users : RegKey) (s : SettingsState) : Prop where
  registry : s.registry = Registry.after { Registry.empty with HKEY_USERS := users } s.calls
  sound : ∀ e ∈ s.log, e.Sound

theorem kept_of_run {sdk : Sdk} {users : RegKey} {as : List SettingsAction} {s : SettingsState}
    (h : (system sdk users).Run as s) : s.Kept users := by
  refine h.invariant ⟨rfl, by simp [system]⟩ fun s a s' _ hkept hal hst => ?_
  obtain ⟨cmd, obs, rfl, hsound⟩ := step_cases hal hst
  refine ⟨?_, fun e he => ?_⟩
  · rw [calls_enter, Registry.after_append, ← hkept.registry]
    rfl
  · rcases List.mem_append.mp he with he | he
    · exact hkept.sound e he
    · rw [List.mem_singleton.mp he]
      exact hsound

end SettingsState

/-- **The last write of a setting has the wrong type** exactly when the device was selected by
a command and no value of the right type was stored since. -/
theorem last_isText_ne_iff (x : Setting) {log : List SettingsEntry} (h : ∀ e ∈ log, e.Sound) :
    (∃ v ∈ Store.last (regWrites (log.flatMap Prod.snd)) (regName x.name), v.isText ≠ x.isText) ↔
      Since (SettingsEntry.Misstores x) (SettingsEntry.Stores x) log := by
  induction log using List.reverseRecOn with
  | nil => simp [not_since_nil, regWrites, Store.last_nil]
  | append_singleton log e ih =>
      obtain ⟨hlog, he⟩ : (∀ e' ∈ log, e'.Sound) ∧ e.Sound :=
        ⟨fun e' he' => h e' (List.mem_append_left _ he'), h e (by simp)⟩
      have hsplit : Store.last (regWrites ((log ++ [e]).flatMap Prod.snd)) (regName x.name) =
          (e.last x).or (Store.last (regWrites (log.flatMap Prod.snd)) (regName x.name)) := by
        rw [List.flatMap_append, List.flatMap_singleton, regWrites_append, Store.last_append]
        rfl
      rw [since_snoc, hsplit, ← ih hlog]
      by_cases hmis : e.Misstores x
      · obtain ⟨v, hv, hne⟩ := he.wrong x hmis
        rw [Option.mem_def.mp hv, Option.some_or]
        exact iff_of_true ⟨v, rfl, hne⟩ (.inl hmis)
      · have hright := he.right x hmis
        cases hv : e.last x with
        | none =>
            simp [hmis, SettingsEntry.Stores, hv]
        | some v =>
            simp [hmis, SettingsEntry.Stores, hv, hright v hv]

/-! ### Reading back -/

/-- A text that fits into the buffer of the readers. -/
def Obs.Short : Obs → Prop
  | .SetRegKeyString _ value => (cstr value).length < MAX_PATH
  | _ => True

instance : ∀ o : Obs, Decidable o.Short
  | .SetRegKeyString _ _ => inferInstanceAs (Decidable (_ < _))
  | .call _ | .SetRegKeyDWORD _ _ | .Send _ _ | .lws_write _ _ _ | .OnOpen _ | .OnMessage _ _
  | .OnError _ _ | .OnClose _ _ | .OnSend _ | .handler _ _ => .isTrue trivial

theorem short_of_last {obs : List Obs} {name : Bytes} {s : Bytes} (h : ∀ o ∈ obs, o.Short)
    (hlast : Store.last (regWrites obs) name = some (.sz s)) :
    cstr s = s ∧ s.length < MAX_PATH := by
  obtain ⟨o, ho, hw⟩ := List.mem_filterMap.mp (Store.mem_of_last hlast)
  cases o <;> try contradiction
  case SetRegKeyString n value =>
    cases hw
    exact ⟨cstr_cstr value, h _ ho⟩
  case SetRegKeyDWORD => cases hw

/-- **A stored setting can be read back.** After any sequence of commands, whose members have
the types that are read, and of exits of the dialog, from an empty key: each setting that was
written is read, over every default, as the last value written — exactly when no device was
selected by a command after the last text that was stored for it. -/
theorem settings_read_back_iff (sdk : Sdk) (users : RegKey) (left : Leftovers)
    {as : List SettingsAction} {s : SettingsState} (h : (SettingsState.system sdk users).Run as s)
    (hshort : ∀ o ∈ s.calls, o.Short) :
    (∀ (x : Setting) (v : RegValue), Store.last (regWrites s.calls) (regName x.name) = some v →
        ∀ text number, x.read left s.registry text number = v) ↔
      ∀ x, ¬ Since (SettingsEntry.Misstores x) (SettingsEntry.Stores x) s.log := by
  obtain ⟨hregistry, hsound⟩ := SettingsState.kept_of_run h
  refine forall_congr' fun x => ?_
  rw [← last_isText_ne_iff x hsound, not_exists]
  refine forall_congr' fun v => ?_
  rw [not_and, not_ne_iff]
  refine forall_congr' fun hlast => ?_
  have hv : s.registry.HKEY_CURRENT_USER (regName x.name) = some v := by
    rw [hregistry, Registry.after_currentUser, hlast, Option.some_or]
  refine Setting.read_eq_iff hv fun t ht => ?_
  subst ht
  exact short_of_last hshort hlast

/-- A command message of a page, by the command and the text of its `param`. -/
def SettingsAction.send (cmd param : String) : SettingsAction :=
  .message (bytes "\x7b\"type\":\"cmd\",\"cmd\":\"" ++ bytes cmd ++ bytes "\",\"param\":" ++
    bytes param ++ bytes "\x7d")

/-- A port and a volume from a page, and then a path from the dialog. -/
theorem settings_read_back_three : ∃ s,
    (SettingsState.system silentSdk fun _ => none).Run
      [.send "setRegConfig" "\x7b\"WebSocketPort\":80\x7d",
        .send "setAudioPlayoutVolume" "\x7b\"volume\":7\x7d",
        .exit { m_pPort := bytes "80", m_wsPort := 80, m_pLogPath := bytes "log" }] s ∧
      s.calls = [.SetRegKeyDWORD (bytes "WebSocketPort") 80,
        .SetRegKeyDWORD (bytes "SpeakerVolume") 7,
        .SetRegKeyString (bytes "LogPath") (bytes "log")] ∧
      ∀ (x : Setting) (v : RegValue), Store.last (regWrites s.calls) (regName x.name) = some v →
        ∀ text number, x.read .untouched s.registry text number = v := by
  obtain ⟨s, hrun, hs⟩ := StepSystem.run_of_check_map
    (S := SettingsState.system silentSdk fun _ => none)
    (f := fun s => (s.calls, decide (∀ x, ¬ Since (SettingsEntry.Misstores x)
      (SettingsEntry.Stores x) s.log)))
    (b := ([.SetRegKeyDWORD (bytes "WebSocketPort") 80, .SetRegKeyDWORD (bytes "SpeakerVolume") 7,
      .SetRegKeyString (bytes "LogPath") (bytes "log")], true))
    [.send "setRegConfig" "\x7b\"WebSocketPort\":80\x7d",
      .send "setAudioPlayoutVolume" "\x7b\"volume\":7\x7d",
      .exit { m_pPort := bytes "80", m_wsPort := 80, m_pLogPath := bytes "log" }]
    (by decide +kernel)
  obtain ⟨hcalls, hsince⟩ := Prod.mk.inj hs
  have hshort : ∀ o ∈ s.calls, o.Short := by
    rw [hcalls]
    decide +kernel
  exact ⟨s, hrun, hcalls,
    (settings_read_back_iff silentSdk _ .untouched hrun hshort).mpr (of_decide_eq_true hsince)⟩

/-- The index of the microphone a page selected is not found by the dialog, which reads a
name: the query fails, and the default is still in the buffer. -/
theorem settings_lost : ∃ s,
    (SettingsState.system silentSdk fun _ => none).Run
      [.send "selectAudioRecordDevice" "\x7b\"index\":1\x7d"] s ∧
      Store.last (regWrites s.calls) (regName Setting.MicroPhone.name) = some (.dword 1) ∧
      ReadRegKeyString .untouched s.registry Setting.MicroPhone.name [] = [] := by
  obtain ⟨s, hrun, hs⟩ := StepSystem.run_of_check_map
    (S := SettingsState.system silentSdk fun _ => none)
    (f := fun s => (Store.last (regWrites s.calls) (regName Setting.MicroPhone.name),
      ReadRegKeyString .untouched s.registry Setting.MicroPhone.name []))
    (b := (some (.dword 1), [])) [.send "selectAudioRecordDevice" "\x7b\"index\":1\x7d"]
    (by decide +kernel)
  exact ⟨s, hrun, Prod.mk.inj hs⟩

end UCClient
