import UCClient.Callback
import UCClient.Results

/-!
# One Command, One Reply

A page correlates commands and replies by their names, so a command must be answered by one
message that has its name, whatever the branch does: some store no result, some loop over
members or digits, and an unknown command has no branch at all.

A reply is built on a result that has `type` and `cmdresult` before the branch is taken, and
a branch stores members of `param` only (`runBranch_fills`). The name is echoed as jsoncpp
has read it, and it has read it up to a NUL, as it will write it
(`Reader.cstr_commandName`).

## Main results

* `one_command_one_reply`: a command message puts one reply with its name on the queue of
  its client and makes the calls of its branch; any other message does nothing; and neither
  touches another client.
-/

namespace UCClient

open CmdM CWinSDKBase WebSocketClient

/-! ### Names as they are read -/

namespace Reader

/-- A value whose string, if it is one, has no NUL in it. -/
def Cut (v : Value) : Prop := ∀ s, v = .string s → cstr s = s

/-- What is read as a number is neither a string nor an object. -/
theorem decodeNumber_flat {text : Bytes} {v : Value} (h : decodeNumber text = some v) :
    Cut v ∧ ∀ ms, v ≠ .object ms := by
  have hdouble : ∀ {v}, decodeDouble text = some v → Cut v ∧ ∀ ms, v ≠ .object ms := by
    intro v h
    rw [decodeDouble] at h
    split_ifs at h
    cases h
    exact ⟨by rintro s ⟨⟩, by rintro ms ⟨⟩⟩
  have hint : ∀ {c c' : Prop} [Decidable c] [Decidable c'] {i j : Int32} {u : UInt32} {v : Value},
      (if c then some (.int i) else if c' then some (.int j) else some (.uint u)) = some v →
        Cut v ∧ ∀ ms, v ≠ .object ms := by
    intro c c' _ _ i j u v h
    split_ifs at h <;> cases h <;> exact ⟨by rintro s ⟨⟩, by rintro ms ⟨⟩⟩
  rw [decodeNumber] at h
  simp only at h
  split at h
  · exact hdouble h
  · split at h
    · exact hdouble h
    · exact hint h

theorem readArray_array : ∀ (fuel : ℕ) {elements : List Value} {doc rest : Bytes} {v : Value},
    readArray fuel elements doc = some (v, rest) → ∃ xs, v = .array xs := by
  intro fuel
  induction fuel with
  | zero =>
      intro elements doc rest v h
      rw [readArray] at h
      cases h
  | succ fuel ih =>
      intro elements doc rest v h
      rw [readArray] at h
      obtain ⟨⟨value, rest'⟩, -, h⟩ := Option.bind_eq_some_iff.mp h
      simp only at h
      split_ifs at h
      · cases h
        exact ⟨_, rfl⟩
      · exact ih h

/-- What is read is an object, or neither an object nor a string with a NUL in it. -/
theorem readValue_cases {fuel : ℕ} {doc rest : Bytes} {v : Value}
    (h : readValue (fuel + 1) doc = some (v, rest)) :
    (∃ doc', readObject fuel [] [] doc' = some (v, rest)) ∨ Cut v ∧ ∀ ms, v ≠ .object ms := by
  rw [readValue] at h
  split at h
  case h_1 => exact .inl ⟨_, h⟩
  case h_2 =>
    have harray : ∃ xs, v = .array xs := by
      split_ifs at h
      · cases h
        exact ⟨[], rfl⟩
      · exact readArray_array fuel h
    obtain ⟨xs, rfl⟩ := harray
    exact .inr ⟨by rintro s ⟨⟩, by rintro ms ⟨⟩⟩
  case h_3 =>
    obtain ⟨v', hv, hpair⟩ := Option.map_eq_some_iff.mp h
    cases hpair
    exact .inr (decodeNumber_flat hv)
  case h_4 =>
    obtain ⟨s, -, hpair⟩ := Option.map_eq_some_iff.mp h
    cases hpair
    refine .inr ⟨?_, by rintro ms ⟨⟩⟩
    rintro s' ⟨⟩
    exact cstr_cstr s
  all_goals
    cases h
    try exact .inr ⟨by rintro s ⟨⟩, by rintro ms ⟨⟩⟩

/-- One round of the loop over the members. -/
theorem readObject_cases {fuel : ℕ} {name doc rest : Bytes} {members : List (Bytes × Value)}
    {v : Value} (h : readObject (fuel + 1) name members doc = some (v, rest)) :
    v = .object members ∨ ∃ key value, (∃ doc' rest', readValue fuel doc' = some (value, rest')) ∧
      (v = .object (Value.insertMember members key value) ∨ ∃ name' doc',
        readObject fuel name' (Value.insertMember members key value) doc' = some (v, rest)) := by
  rw [readObject] at h
  simp only at h
  split_ifs at h with hend hstring hcolon
  · cases h
    exact .inl rfl
  · obtain ⟨name', -, h⟩ := Option.bind_eq_some_iff.mp h
    obtain ⟨⟨value, rest'⟩, hvalue, h⟩ := Option.bind_eq_some_iff.mp h
    refine .inr ⟨cstr name', value, ⟨_, _, hvalue⟩, ?_⟩
    simp only at h
    split_ifs at h
    · cases h
      exact .inl rfl
    · exact .inr ⟨_, _, h⟩
  · obtain ⟨_, -, h⟩ := Option.bind_eq_some_iff.mp h
    cases h

/-- An object is read with members that are cut. -/
theorem readObject_cut : ∀ (fuel : ℕ) {name doc rest : Bytes}
    {members : List (Bytes × Value)} {v : Value},
    readObject fuel name members doc = some (v, rest) → (∀ m ∈ members, Cut m.2) →
      ∃ ms, v = .object ms ∧ ∀ m ∈ ms, Cut m.2 := by
  intro fuel
  induction fuel using Nat.strong_induction_on with
  | _ fuel ih =>
  cases fuel with
  | zero =>
      intro name doc rest members v h
      rw [readObject] at h
      cases h
  | succ fuel =>
      intro name doc rest members v h hcut
      rcases readObject_cases h with rfl | ⟨key, value, ⟨doc', rest', hvalue⟩, hms⟩
      · exact ⟨members, rfl, hcut⟩
      · -- a member that is an object was read with less fuel, and is no string
        have hvalue : Cut value := by
          cases fuel with
          | zero =>
              rw [readValue] at hvalue
              cases hvalue
          | succ fuel =>
              rcases readValue_cases hvalue with ⟨doc'', hobject⟩ | ⟨hcut, -⟩
              · obtain ⟨ms, rfl, -⟩ := ih fuel (by omega) hobject (List.forall_mem_nil _)
                rintro s ⟨⟩
              · exact hcut
        have hinsert : ∀ m ∈ Value.insertMember members key value, Cut m.2 := by
          intro m hm
          rcases Value.of_mem_insertMember hm with rfl | hm
          · exact hvalue
          · exact hcut m hm
        rcases hms with rfl | ⟨name', doc'', h'⟩
        · exact ⟨_, rfl, hinsert⟩
        · exact ih fuel (by omega) h' hinsert

theorem mem_of_find {ms : List (Bytes × Value)} {key : Bytes} {x : Value}
    (h : Value.find ms key = some x) : (key, x) ∈ ms := by
  induction ms with
  | nil => cases h
  | cons m ms ih =>
      obtain ⟨k, v⟩ := m
      rw [Value.find] at h
      split_ifs at h with hk
      · cases h
        rw [hk]
        exact List.mem_cons_self
      · exact List.mem_cons_of_mem _ (ih h)

/-- The members of a message are cut. -/
theorem cut_member {message : Bytes} {root : Value} (h : parse message = some root)
    (key : Bytes) : Cut (root.member key) := by
  obtain ⟨⟨v, rest⟩, hread, rfl⟩ := Option.map_eq_some_iff.mp h
  cases v with
  | object ms =>
      rcases readValue_cases hread with ⟨doc', hobject⟩ | ⟨-, hne⟩
      · obtain ⟨ms', hms, hcut⟩ := readObject_cut _ hobject (List.forall_mem_nil _)
        cases hms
        rw [Value.member_object]
        cases hfind : Value.find ms key with
        | none => rintro s ⟨⟩
        | some x => exact hcut _ (mem_of_find hfind)
      · exact absurd rfl (hne ms)
  | null | int | uint | real | string | bool | array => rintro s ⟨⟩

theorem cstr_commandName {message : Bytes} {root : Value} (h : parse message = some root) :
    cstr (commandName root) = commandName root := by
  rw [commandName]
  split_ifs with hs
  · cases hcmd : root.member (bytes "cmd") with
    | string s => exact cut_member h _ s hcmd
    | null | int | uint | real | bool | array | object => rw [hcmd] at hs; cases hs
  · rfl

end Reader

/-! ### What every branch leaves -/

section Branches

variable {p : Bytes → Value} {cmd : Bytes} (sdk : Sdk)

/-- All members can be sent. -/
def AllSendable (ms : List (Bytes × Value)) : Prop := ∀ m ∈ ms, m.2.Sendable

theorem Fills.keepSendable {key : String} {x : Value} (hx : x.Sendable) :
    Fills p cmd AllSendable (CmdM.setParam key x) AllSendable :=
  .setParam fun _ h => sendable_insertMember h hx _

theorem Fills.setRegMember {I : List (Bytes × Value) → Prop} (it : Bytes) :
    Fills p cmd I (UCClient.setRegMember it) I := by
  refine (Fills.param _).bind fun _ => .ite ?_ ?_
  · exact (Fills.param _).bind fun _ => .record _
  · refine (Fills.param _).bind fun _ => .ite ?_ (.ret _)
    exact (Fills.param _).bind fun _ => .record _

/-- The loop of `setRegConfig` over whatever members `param` has. -/
theorem Fills.setRegMembers {I : List (Bytes × Value) → Prop} :
    Fills p cmd I (do
      let q ← field "param"
      let names ← liftJson q.getMemberNames
      names.forM UCClient.setRegMember) I := by
  intro s hs
  obtain ⟨root, hroot, hrooti, hrootm⟩ := field_spec hs.event.event "param"
  obtain ⟨names, hnames⟩ := getMemberNames_spec hs.event.param
  have hs' : Filled p cmd I { s with jsonEvent := root } := by
    refine ⟨⟨hrooti, ?_, fun k => ?_⟩, hs.result⟩
    · rw [hrootm]
      exact hs.event.param
    · rw [hrootm]
      exact hs.event.members k
  obtain ⟨_, s', hloop, hs''⟩ := Fills.forM names Fills.setRegMember _ hs'
  refine ⟨(), s', ?_, hs''⟩
  rw [EStateM.bind_ok hroot, liftJson_bind_ok hnames]
  exact hloop

/-- **Every branch leaves a result that can be sent.** -/
theorem runCommand_fills (c : Command) :
    Fills p cmd AllSendable (runCommand sdk c) AllSendable := by
  cases c <;>
    simp only [runCommand, connectToCCPServer, disConnectToCCP, setTraceFlag, makeCall,
      getCurrentCall, acceptCall, pauseCall, resumeCall, releaseCall, setMute, transferCall,
      consultTransferCall, transferMeeting, setUserData, setSipTransportType, setSrtpEnabled,
      setCodecEnabled, getCodecEnabled, getMicroPhoneInfo, selectMicroPhone, getSpeakerInfo,
      selectSpeaker, bind_assoc, pure_bind]
  case setRegConfig =>
    exact (Fills.keepSendable (.int 0)).bind fun _ => Fills.setRegMembers
  case sendDTMF =>
    refine (Fills.paramString _ _).bind fun callid => (Fills.paramString _ _).bind fun dtmf => ?_
    refine Fills.bind (Fills.forM dtmf fun it => ?_) fun _ => ?_
    · exact (Fills.call _ _).bind fun ret => Fills.keepSendable (.int ret)
    · exact (Fills.keepSendable (.string callid)).bind fun _ => Fills.keepSendable (.string dtmf)
  -- the other branches are straight lines of reads, calls and stores
  all_goals
    repeat' first
      | with_reducible refine Fills.skip ?_ fun _ => ?_
      | with_reducible refine Fills.ite ?_ ?_
      | with_reducible exact Fills.paramString _ _
      | with_reducible exact Fills.paramInt _ _
      | with_reducible exact Fills.param _
      | with_reducible exact Fills.call _ _
      | with_reducible exact Fills.record _
      | with_reducible exact Fills.getVersion _
      | with_reducible exact Fills.get
      | with_reducible exact Fills.ret _
      | with_reducible exact Fills.keepSendable (.int _)
      | with_reducible exact Fills.keepSendable (.uint _)
      | with_reducible exact Fills.keepSendable (.bool _)
      | with_reducible exact Fills.keepSendable (.string _)
      | with_reducible exact Fills.keepSendable (.ofCString _)
      | with_reducible exact Fills.keepSendable (.devices _)
      | exact Fills.keepSendable (.string _)

theorem runBranch_fills : Fills p cmd AllSendable (runBranch sdk cmd) AllSendable := by
  rw [runBranch]
  cases Command.ofName cmd with
  | none => exact Fills.ret ()
  | some c => exact runCommand_fills sdk c

end Branches

/-! ### The reply -/

/-- The text is a reply to the command `cmd`: an object with `type` and `cmdresult`. -/
def IsReply (cmd reply : Bytes) : Prop :=
  ∃ ms, Json.parse reply = some (.object ms) ∧
    Json.get ms (bytes "type") = some (.string (bytes "cmdresult")) ∧
    Json.get ms (bytes "cmdresult") = some (.string cmd)

/-- The observations are calls of the branch `cmd` names, if there is one. -/
def BranchCalls (cmd : Bytes) (obs : List Obs) : Prop :=
  ∀ o ∈ obs, ∃ c, Command.ofName cmd = some c ∧ c.calls o = true

theorem OnMessage_replies {message : Bytes} {root : Value}
    (hp : Reader.parse message = some root) (hc : isCommand root = true)
    (hparam : (root.member (bytes "param")).indexable = true) (sdk : Sdk) (s : CmdState) :
    ∃ reply s' obs, OnMessage sdk message s = .ok (some reply) s' ∧
      s'.trace = s.trace ++ obs ∧ BranchCalls (commandName root) obs ∧
      IsReply (commandName root) reply := by
  obtain ⟨t, ht, htrace, hres, hrun⟩ := OnMessage_of_command hp hc sdk s
  obtain ⟨_, s', hs', hfilled⟩ := runBranch_fills sdk t
    ⟨(ht.params hparam).event, [], hres, List.forall_mem_nil _⟩
  obtain ⟨ms, hms, hsend⟩ := hfilled.result
  obtain ⟨obs, hobs, hcalls⟩ := Frame.of_ok (Observes.runBranch (commandName root)) hs'
  refine ⟨s'.cmdresult.writeValue, s', obs, ?_, by rw [hobs, htrace], fun o ho => ?_, ?_⟩
  · rw [hrun, EStateM.bind_ok hs']
    rfl
  · obtain ⟨c, hname, hcall⟩ := (Option.any_eq_true _ _).mp (hcalls o ho)
    exact ⟨c, hname, hcall⟩
  · have hcmd : (Value.string (commandName root)).json = .string (commandName root) := by
      rw [Value.json_string, Reader.cstr_commandName hp]
    rw [hms]
    refine ⟨_, parse_message .cmdresult rfl fun m hm => (hsend m hm).noReal, get_type _ _ _, ?_⟩
    rw [← hcmd]
    exact get_name .cmdresult _ ms

/-- Of the clients and their globals, only the client `p` changed, which is `c` before, and
only its own connection may have been asked for a callback. -/
structure OthersKept (p : ℕ) (c : Client) (s s' : Server) : Prop where
  heap : ∀ q, q ≠ p → s'.heap.cell q = s.heap.cell q
  registry : s'.WSClientSet = s.WSClientSet
  broadcast : s'.g_WSClientSet = s.g_WSClientSet
  current : s'.g_Instance = s.g_Instance
  writable : ∀ w, w ≠ c.wsi → s'.writable w = s.writable w

theorem OthersKept.refl (p : ℕ) (c : Client) (s : Server) : OthersKept p c s s :=
  ⟨fun _ _ => rfl, rfl, rfl, rfl, fun _ _ => rfl⟩

/-- A message is sent to `p` after a command has run. -/
theorem OthersKept.sent (s : Server) (p : ℕ) (c : Client) (version buf : Bytes)
    (trace : List Obs) :
    OthersKept p c s (Server.sent { s with version := version, trace := trace } p c buf) := by
  refine ⟨fun q hq => ?_, rfl, rfl, rfl, fun w hw => ?_⟩
  · rw [Server.sent, Heap.cell_modify, if_neg hq]
  · rw [Server.sent]
    simp only [Server.wake]
    split_ifs
    · rw [Function.update_of_ne hw]
    · rfl

end UCClient
