import UCClient.Forwarding
import UCClient.Messages
import UCClient.PageMessages

/-!
# The Result of a Command

A branch of `OnMessage` fills in the result: it stores members of its `param`, among them
most often `return`. The branches are followed once more, now by what they leave in the
result (`Fills`): from every state of a command whose result has a `param` with `I`, the
branch ends in one whose `param` has `I'`.

What matters to the script of a page is that it can read what is stored and make it part of
a text (`Value.Sendable`), and that the member it passes on is there (`Stored`).

## Main results

* `runCommand_returns`: the branches that store `return` on all their paths.
* `sendDTMF_returns`, `sendDTMF_empty`: the branch that stores it once for each digit.
-/

namespace UCClient

open CmdM CWinSDKBase

/-! ### What can be sent -/

/-- A page can read the value and make it part of a text. -/
structure Value.Sendable (x : Value) : Prop where
  noReal : x.noReal = true
  stringable : stringable x.json = true

namespace Value.Sendable

theorem int (i : Int32) : (Value.int i).Sendable := ⟨rfl, rfl⟩

theorem uint (u : UInt32) : (Value.uint u).Sendable := ⟨rfl, rfl⟩

theorem bool (b : Bool) : (Value.bool b).Sendable := ⟨rfl, rfl⟩

theorem string (s : Bytes) : (Value.string s).Sendable := ⟨rfl, rfl⟩

theorem ofCString (s : Bytes) : (Value.ofCString s).Sendable := ⟨rfl, rfl⟩

/-- The list of devices. -/
theorem devices (info : List Device) : (Value.array (info.map deviceInfo)).Sendable := by
  have hreal : Value.noReals (info.map deviceInfo) = true := by
    induction info with
    | nil => rfl
    | cons d info ih =>
        rw [List.map_cons, Value.noReals, ih]
        rfl
  have hstring : stringables ((info.map deviceInfo).map Value.json) = true := by
    clear hreal
    induction info with
    | nil => rfl
    | cons d info ih =>
        rw [List.map_cons, List.map_cons, stringables, ih, deviceInfo, Value.json_object]
        rfl
  exact ⟨hreal, by rw [Value.json_array, UCClient.stringable, hstring]⟩

end Value.Sendable

/-! ### Filling in the result -/

/-- While a command is handled whose parameters are `p`: the result is that of `cmd`, and
the members of its `param` have `I`. -/
structure Filled (p : Bytes → Value) (cmd : Bytes) (I : List (Bytes × Value) → Prop)
    (s : CmdState) : Prop where
  event : Params p s.jsonEvent
  result : ∃ ms, s.cmdresult = .object (messageMembers .cmdresult (.string cmd) ms) ∧ I ms

/-- The program ends without a fault and takes results with `I` to results with `I'`. -/
def Fills {α : Type} (p : Bytes → Value) (cmd : Bytes) (I : List (Bytes × Value) → Prop)
    (m : CmdM α) (I' : List (Bytes × Value) → Prop) : Prop :=
  Triple (Filled p cmd I) m fun _ => Filled p cmd I'

variable {α β : Type} {p : Bytes → Value} {cmd : Bytes} {I I' I'' : List (Bytes × Value) → Prop}
  {m m' : CmdM α} {f : α → CmdM β}

theorem Filled.cmdInv {s : CmdState} (h : Filled p cmd I s) : CmdInv (Params p) s := by
  obtain ⟨ms, hms, -⟩ := h.result
  refine ⟨h.event, by rw [hms]; rfl, ?_⟩
  rw [hms]
  cases ms <;> rfl

/-- Storing a member of the result's `param`. -/
theorem setParam_run {s : CmdState} {name : Value} {ms : List (Bytes × Value)}
    (hms : s.cmdresult = .object (messageMembers .cmdresult name ms)) (key : String) (x : Value) :
    setParam key x s = .ok () { s with
      cmdresult := .object (messageMembers .cmdresult name
        (Value.insertMember ms (bytes key) x)) } := by
  rw [CmdM.setParam, EStateM.get_bind, hms, liftJson_bind_ok (setMember₂_messageMembers _ _)]
  rfl

namespace Fills

theorem ret (a : α) : Fills p cmd I (pure a : CmdM α) I := Triple.pure fun _ h => h

theorem bind (hm : Fills p cmd I m I') (hf : ∀ a, Fills p cmd I' (f a) I'') :
    Fills p cmd I (m >>= f) I'' := Triple.bind hm hf

/-- A program that leaves the result alone and continues. -/
theorem skip (hm : Fills p cmd I m I) (hf : ∀ a, Fills p cmd I (f a) I') :
    Fills p cmd I (m >>= f) I' := hm.bind hf

theorem ite {c : Prop} [Decidable c] (hm : Fills p cmd I m I') (hm' : Fills p cmd I m' I') :
    Fills p cmd I (if c then m else m') I' := Triple.ite (fun _ => hm) fun _ => hm'

/-- A program that is read from, with the value it returns. -/
theorem read {v : α} {calls : List Obs} (hm : Fills p cmd I m I')
    (hv : Passes p m (· = v) calls) (hf : Fills p cmd I' (f v) I'') :
    Fills p cmd I (m >>= f) I'' := by
  intro s hs
  obtain ⟨a, s', hrun, hs'⟩ := hm s hs
  obtain ⟨b, t, obs, hrun', rfl, -⟩ := hv s hs.cmdInv
  rw [hrun'] at hrun
  cases hrun
  obtain ⟨b', s'', hrun'', hs''⟩ := hf s' hs'
  exact ⟨b', s'', by rw [EStateM.bind_ok hrun', hrun''], hs''⟩

theorem forM {body : β → CmdM Unit} (xs : List β) (h : ∀ x, Fills p cmd I (body x) I) :
    Fills p cmd I (xs.forM body) I := Triple.forM xs fun x _ => h x

/-! The primitives of the branches. -/

theorem get : Fills p cmd I (get : CmdM CmdState) I := fun s hs => ⟨s, s, rfl, hs⟩

theorem record (o : Obs) : Fills p cmd I (record o) I :=
  fun _ hs => ⟨(), _, rfl, ⟨hs.event, hs.result⟩⟩

theorem call (answer : List Obs → SdkCall → α) (c : SdkCall) : Fills p cmd I (call answer c) I :=
  fun _ hs => ⟨_, _, rfl, ⟨hs.event, hs.result⟩⟩

theorem param (key : Bytes) : Fills p cmd I (CmdM.param key) I := by
  intro s hs
  obtain ⟨root, hroot, hs'⟩ := param_spec hs.cmdInv key
  exact ⟨_, _, hroot, hs'.event, hs.result⟩

theorem paramString (key : String) (x : Bytes) : Fills p cmd I (paramString key x) I :=
  (param _).bind fun _ => .ite ((param _).bind fun _ => .ret _) (.ret _)

theorem paramInt (key : String) (x : UInt32) : Fills p cmd I (paramInt key x) I :=
  (param _).bind fun _ => .ite ((param _).bind fun _ => .ret _) (.ret _)

theorem getVersion (sdk : Sdk) : Fills p cmd I (getVersion sdk) I := by
  refine get.bind fun s => .ite ?_ (.ret _)
  refine (call _ _).bind fun version => Fills.bind ?_ fun _ => .ret _
  exact fun _ hs => ⟨(), _, rfl, ⟨hs.event, hs.result⟩⟩

/-- A member of `param` is stored. -/
theorem setParam {key : String} {x : Value}
    (h : ∀ ms, I ms → I' (Value.insertMember ms (bytes key) x)) :
    Fills p cmd I (setParam key x) I' := by
  intro s hs
  obtain ⟨ms, hms, hI⟩ := hs.result
  exact ⟨(), _, setParam_run hms key x, hs.event, ⟨_, rfl, h ms hI⟩⟩

end Fills

/-! ### Members that are there -/

/-- All members of `param` can be sent, and if `stored`, one of them is `key`. -/
structure Stored (key : String) (stored : Bool) (ms : List (Bytes × Value)) : Prop where
  sendable : ∀ m ∈ ms, m.2.Sendable
  isSome : stored = true →
    (Json.get (ms.map fun m => (cstr m.1, m.2.json)) (cstr (bytes key))).isSome = true

section Stored

variable {key k : String} {stored : Bool} {x : Value} {ms : List (Bytes × Value)}

theorem Stored.nil (key : String) : Stored key false [] :=
  ⟨List.forall_mem_nil _, fun h => absurd h Bool.false_ne_true⟩

theorem Stored.ne_nil (h : Stored key true ms) : ms ≠ [] := by
  rintro rfl
  exact absurd (h.isSome rfl) Bool.false_ne_true

theorem sendable_insertMember (h : ∀ m ∈ ms, m.2.Sendable) (hx : x.Sendable) (k : Bytes) :
    ∀ m ∈ Value.insertMember ms k x, m.2.Sendable := by
  intro m hm
  rcases Value.of_mem_insertMember hm with rfl | hm
  · exact hx
  · exact h m hm

theorem Stored.insertMember (h : Stored key stored ms) (hx : x.Sendable) (k : Bytes) :
    Stored key stored (Value.insertMember ms k x) := by
  refine ⟨sendable_insertMember h.sendable hx k, fun hs => ?_⟩
  by_cases hk : cstr k = cstr (bytes key)
  · rw [← hk]
    exact Value.isSome_get_insertMember ms k x
  · rw [Value.get_insertMember_of_ne hk]
    exact h.isSome hs

theorem Fills.keep (hx : x.Sendable) :
    Fills p cmd (Stored key stored) (CmdM.setParam k x) (Stored key stored) :=
  .setParam fun _ h => h.insertMember hx _

theorem Fills.store (hx : x.Sendable) :
    Fills p cmd (Stored key stored) (CmdM.setParam key x) (Stored key true) :=
  .setParam fun ms h => ⟨sendable_insertMember h.sendable hx _,
    fun _ => Value.isSome_get_insertMember ms _ x⟩

/-- A loop that is entered and stores a member each time. -/
theorem Fills.forM_store {body : β → CmdM Unit} {xs : List β} (hxs : xs ≠ [])
    (h : ∀ x stored, Fills p cmd (Stored key stored) (body x) (Stored key true)) :
    Fills p cmd (Stored key stored) (xs.forM body) (Stored key true) := by
  cases xs with
  | nil => exact absurd rfl hxs
  | cons x xs => exact (h x stored).bind fun _ => Fills.forM xs fun y => h y true

end Stored

/-! ### The branches -/

/-- The commands of the script whose branch stores `return` on all its paths. -/
def Command.returns : Command → Bool
  | Initialize | connectToCCPServer | disConnectToCCP | setTraceFlag | makeCall | acceptCall
  | pauseCall | resumeCall | releaseCall | transferCall | consultTransferCall
  | transferMeeting | setUserData | setSipTransportType | getMicroPhoneInfo
  | selectMicroPhone | getSpeakerInfo | selectSpeaker | getVersion => true
  | _ => false

variable (sdk : Sdk)

/-- **Most branches store `return`.** -/
theorem runCommand_returns {c : Command} (hc : c.returns = true) :
    Fills p cmd (Stored "return" false) (runCommand sdk c) (Stored "return" true) := by
  cases c <;> simp only [Command.returns, Bool.false_eq_true] at hc <;>
    simp only [runCommand, connectToCCPServer, disConnectToCCP, setTraceFlag, makeCall,
      getCurrentCall, acceptCall, pauseCall, resumeCall, releaseCall, transferCall,
      consultTransferCall, transferMeeting, setUserData, setSipTransportType, getMicroPhoneInfo,
      selectMicroPhone, getSpeakerInfo, selectSpeaker, bind_assoc, pure_bind]
  all_goals
    repeat' first
      | with_reducible refine Fills.bind (Fills.store (.int _)) fun _ => ?_
      | with_reducible refine Fills.skip ?_ fun _ => ?_
      | with_reducible refine Fills.ite ?_ ?_
      | with_reducible exact Fills.paramString _ _
      | with_reducible exact Fills.paramInt _ _
      | with_reducible exact Fills.param _
      | with_reducible exact Fills.call _ _
      | with_reducible exact Fills.record _
      | with_reducible exact Fills.getVersion _
      | with_reducible exact Fills.ret _
      | with_reducible exact Fills.store (.int _)
      | with_reducible exact Fills.store (.ofCString _)
      | with_reducible exact Fills.store (.devices _)
      | with_reducible exact Fills.keep (.string _)
      | with_reducible exact Fills.keep (.ofCString _)

theorem setSrtpEnabled_fills : Fills p cmd I (runCommand sdk .setSrtpEnabled) I := by
  rw [runCommand]
  refine (Fills.paramInt _ _).bind fun type => ?_
  exact (Fills.paramInt _ _).bind fun cryptoType => Fills.record _

section SendDTMF

/-- The digits are sent one by one, and `return` is stored for each. -/
theorem sendDTMF_returns (h : textArg p "dtmf" [] ≠ []) :
    Fills p cmd (Stored "return" false) (runCommand sdk .sendDTMF) (Stored "return" true) := by
  rw [runCommand]
  refine (Fills.paramString _ _).bind fun callid => ?_
  refine (Fills.paramString _ _).read (.paramString _ _) ?_
  refine Fills.bind (Fills.forM_store h fun it stored => ?_) fun _ => ?_
  · exact (Fills.call _ _).bind fun ret => Fills.store (.int ret)
  · exact (Fills.keep (.string callid)).bind fun _ => Fills.keep (.string _)

/-- All members of `param` can be sent, and none of them is `return`. -/
structure Unreturned (ms : List (Bytes × Value)) : Prop where
  sendable : ∀ m ∈ ms, m.2.Sendable
  get : Json.get (ms.map fun m => (cstr m.1, m.2.json)) (bytes "return") = none

theorem Unreturned.insertMember {ms : List (Bytes × Value)} {k : Bytes} {x : Value}
    (h : Unreturned ms) (hx : x.Sendable) (hk : cstr k ≠ bytes "return") :
    Unreturned (Value.insertMember ms k x) :=
  ⟨sendable_insertMember h.sendable hx k, (Value.get_insertMember_of_ne hk x ms).trans h.get⟩

/-- Without digits nothing is sent, and `return` is not stored, but other members are. -/
theorem sendDTMF_empty (h : textArg p "dtmf" [] = []) :
    Fills p cmd Unreturned (runCommand sdk .sendDTMF) fun ms => Unreturned ms ∧ ms ≠ [] := by
  rw [runCommand]
  refine (Fills.paramString _ _).bind fun callid => ?_
  refine (Fills.paramString _ _).read (.paramString _ _) ?_
  rw [h]
  refine Fills.skip (Fills.ret ()) fun _ => ?_
  refine Fills.skip (Fills.setParam fun ms hms => ?_) fun _ => Fills.setParam fun ms hms => ?_
  · exact hms.insertMember (.string callid) (by decide)
  · exact ⟨hms.insertMember (.string []) (by decide), Value.insertMember_ne_nil ms _ _⟩

end SendDTMF

end UCClient
