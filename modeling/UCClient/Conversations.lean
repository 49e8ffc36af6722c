import UCClient.EventMessages
import UCClient.EventOrder
import UCClient.OneReply

/-!
# What Is Said to a Page

The program has three things to say to a page: that the SDK reported an event, what came of a
command, and that the session of the user changed. `EventOrder` and `SendQueue` are about the
texts of the messages, whatever they say. This module adds their meaning.

What is said to a page is a list of `Saying`s. An action of the environment adds to it
(`Action.tells`): an event is said to every listed page if the dispatcher of the event calls its
handler, and the reply to a command to the page that sent it. The messages queued for a page are
texts of what is said to it, one for each (`program_tells`).

`CMainWnd::OnSessionChange` is the third source of messages. It broadcasts as the handlers of
events do, from the main thread and without an instance.
-/

namespace UCClient

open ServerM WebSocketClient UCClientWSclient

/-! ### Commands -/

/-- The name of the command that a message is, if it is one. -/
def commandName? (message : Bytes) : Option Bytes :=
  (Reader.parse message).bind fun root =>
    if isCommand root then some (commandName root) else none

theorem commandName?_eq_some {message cmd : Bytes} (h : commandName? message = some cmd) :
    ∃ root, Reader.parse message = some root ∧ isCommand root = true ∧ cmd = commandName root := by
  obtain ⟨root, hp, hif⟩ := Option.bind_eq_some_iff.mp h
  split_ifs at hif with hc
  exact ⟨root, hp, hc, (Option.some.inj hif).symm⟩

theorem commandName?_eq_none {message : Bytes} (h : commandName? message = none) :
    ∀ root, Reader.parse message = some root → isCommand root = false := by
  intro root hp
  rw [commandName?, hp, Option.bind_some] at h
  split_ifs at h with hc
  exact Bool.eq_false_iff.mpr hc

/-- The result is that of `cmd` and can be sent. -/
def Answering (cmd : Bytes) (s : CmdState) : Prop :=
  ∃ ms, s.cmdresult = .object (messageMembers .cmdresult (.string cmd) ms) ∧ AllSendable ms

section Reply

variable {cmd message : Bytes} {root : Value}

theorem Answering.setParam (key : String) {x : Value} (hx : x.Sendable) :
    Triple (Answering cmd) (CmdM.setParam key x) fun _ => Answering cmd := by
  rintro s ⟨ms, hms, hsend⟩
  exact ⟨(), _, setParam_run hms key x, _, rfl, sendable_insertMember hsend hx _⟩

theorem Answering.call {α : Type} (answer : List Obs → SdkCall → α) (c : SdkCall) :
    Triple (Answering cmd) (CmdM.call answer c) fun _ => Answering cmd :=
  fun _ hs => ⟨_, _, rfl, hs⟩

theorem Answering.getVersion (sdk : Sdk) :
    Triple (Answering cmd) (CWinSDKBase.getVersion sdk) fun _ => Answering cmd := by
  refine Triple.bind (fun s hs => ⟨s, s, rfl, hs⟩) fun s => .ite (fun _ => ?_) fun _ => ?_
  · refine (Answering.call _ _).bind fun version => Triple.bind ?_ fun _ => .pure fun _ h => h
    exact fun _ hs => ⟨(), _, rfl, hs⟩
  · exact .pure fun _ h => h

/-- A branch that reads no parameter leaves a result that can be sent, whatever `param` is. -/
theorem Answering.runCommand {c : Command} (hc : c.readsParam = false) (sdk : Sdk) :
    Triple (Answering cmd) (runCommand sdk c) fun _ => Answering cmd := by
  cases c with
  | Initialize | unInitialize => exact Answering.setParam _ (.int 0)
  | disConnectToCCP => exact (Answering.call _ _).bind fun ret => Answering.setParam _ (.int ret)
  | getCurrentCall =>
      refine (Answering.call _ _).bind fun callid => .ite (fun _ => ?_) fun _ => ?_
      · exact (Answering.call _ _).bind fun callid => Answering.setParam _ (.string _)
      · exact Answering.setParam _ (.string _)
  | getMicroPhoneInfo | getSpeakerInfo =>
      refine Triple.bind (Q := fun x s => Answering cmd s ∧ x.Sendable) ?_ fun x => ?_
      · exact (Answering.call _ _).bind fun info => .pure fun _ hs => ⟨hs, .devices info⟩
      · exact fun s hs => Answering.setParam _ hs.2 s hs.1
  | getVersion | version =>
      exact (Answering.getVersion sdk).bind fun _ => Answering.setParam _ (.string _)
  | getAudioRecordDeviceList | getAudioPlayoutDeviceList | startMicrophoneTest
  | stopMicrophoneTest | startPlayoutTest | stopPlayoutTest => exact .pure fun _ h => h
  | _ => cases hc

/-- **Whenever a command does not trip an assertion, it is answered.** -/
theorem OnMessage_answers (hp : Reader.parse message = some root) (hc : isCommand root = true)
    (hgood : ParamIsObject message) (sdk : Sdk) (s : CmdState) :
    ∃ reply s', OnMessage sdk message s = .ok (some reply) s' ∧
      IsReply (commandName root) reply := by
  obtain ⟨t, ht, -, hres, hrun⟩ := OnMessage_of_command hp hc sdk s
  have hstart : Answering (commandName root) t := ⟨[], hres, List.forall_mem_nil _⟩
  have hbranch : ∃ s', runBranch sdk (commandName root) t = .ok () s' ∧
      Answering (commandName root) s' := by
    cases hname : Command.ofName (commandName root) with
    | none =>
        simp only [runBranch, hname]
        exact ⟨t, rfl, hstart⟩
    | some c =>
        cases hreads : c.readsParam with
        | true =>
            obtain ⟨_, s', hs', hfilled⟩ := runBranch_fills sdk t
              ⟨(ht.params (hgood root c hp hc hname hreads)).event, [], hres, List.forall_mem_nil _⟩
            exact ⟨s', hs', hfilled.result⟩
        | false =>
            simp only [runBranch, hname]
            obtain ⟨_, s', hs', hanswer⟩ := Answering.runCommand hreads sdk t hstart
            exact ⟨s', hs', hanswer⟩
  obtain ⟨s', hs', ms, hms, hsend⟩ := hbranch
  refine ⟨s'.cmdresult.writeValue, s', by rw [hrun, EStateM.bind_ok hs']; rfl, ?_⟩
  have hcmd : (Value.string (commandName root)).json = .string (commandName root) := by
    rw [Value.json_string, Reader.cstr_commandName hp]
  rw [hms]
  refine ⟨_, parse_message .cmdresult rfl fun m hm => (hsend m hm).noReal, get_type _ _ _, ?_⟩
  rw [← hcmd]
  exact get_name .cmdresult _ ms

end Reply

/-! ### Session changes -/

/-- The name of a session state, `WTS_CONSOLE_CONNECT` and so on. -/
def sessionState (nSessionState : UInt32) : Option String :=
  match nSessionState.toNat with
  | 1 => some "CONSOLE_CONNECT"
  | 2 => some "CONSOLE_DISCONNECT"
  | 3 => some "REMOTE_CONNECT"
  | 4 => some "REMOTE_DISCONNECT"
  | 5 => some "SESSION_LOGON"
  | 6 => some "SESSION_LOGOFF"
  | 7 => some "SESSION_LOCK"
  | 8 => some "SESSION_UNLOCK"
  | 9 => some "SESSION_REMOTE_CONTROL"
  | _ => none

/-- What `param` of the message holds; it does not exist for a state that has no name. -/
def sessionParam (nSessionState : UInt32) : List (String × Value) :=
  ((sessionState nSessionState).map fun name => ("sessionState", .ofLiteral name)).toList

/-- `CMainWnd::OnSessionChange`. -/
def CMainWnd.OnSessionChange (nSessionState : UInt32) : ServerM Unit := do
  let out ← liftFault (eventValue "OnWTSSessionChange" (sessionParam nSessionState))
  broadcast out.writeValue

/-- The text that it sends. -/
def sessionText (nSessionState : UInt32) : Bytes :=
  (Value.object (messageMembers .event (.ofLiteral "OnWTSSessionChange")
    (paramObject (sessionParam nSessionState)))).writeValue

theorem OnSessionChange_run (nSessionState : UInt32) (s : Server) :
    CMainWnd.OnSessionChange nSessionState s =
      s.g_WSClientSet.forM (fun it => Send it (sessionText nSessionState)) s := by
  simp only [CMainWnd.OnSessionChange, eventValue_eq]
  rfl

/-- The script has no use for the message. -/
theorem Script.wsonMessage_session (nSessionState : UInt32) (s : Script) :
    wsonMessage (sessionText nSessionState) s = .ok () s := by
  have hreal : ∀ kx ∈ sessionParam nSessionState, kx.2.noReal = true := by
    intro kx hkx
    obtain ⟨name, -, rfl⟩ := Option.map_eq_some_iff.mp (Option.mem_toList.mp hkx)
    rfl
  have hparse := parse_event (eventValue_eq "OnWTSSessionChange" _) hreal
  have hother : onEvent (.object (eventJson "OnWTSSessionChange" (sessionParam nSessionState))) s =
      liftPage (Page.wsonMessage (.other "OnWTSSessionChange")) s :=
    onEvent_other (get_event _ _) (by decide) (by decide)
  rw [sessionText, wsonMessage_event hparse (get_type _ _ _), hother]
  rfl

/-! ### What an action tells -/

/-- Something that is said to a page. -/
inductive Saying
  | event (ev : SdkEvent)
  | reply (cmd : Bytes)
  | session (nSessionState : UInt32)
  deriving DecidableEq, Repr

namespace Saying

/-- The message has this to say. -/
def Text : Saying → Bytes → Prop
  | event ev, buf => ev.Emits buf
  | reply cmd, buf => IsReply cmd buf
  | session nSessionState, buf => buf = sessionText nSessionState

def event? : Saying → Option SdkEvent
  | event ev => some ev
  | reply _ | session _ => none

def command? : Saying → Option Bytes
  | reply cmd => some cmd
  | event _ | session _ => none

end Saying

/-- What an action has the program say to page `p`. The dispatcher of an event calls its handler
if the event is one that is forwarded and there is an instance. -/
def Action.tells (s : Server) (p : ℕ) : Action → List Saying
  | .sdk _ ev =>
      if ev.forwarded && s.g_Instance.isSome && s.g_WSClientSet.contains p then [.event ev] else []
  | .lws wsi (.RECEIVE data) | .lws wsi (.CLIENT_RECEIVE data) =>
      if s.WSClientSet wsi = some p then
        ((commandName? (data.getD [])).map Saying.reply).toList
      else []
  | .lws _ _ | .send _ _ | .close _ | .construct | .connect _ _ | .delete _ => []

section Program

variable {s s' : Server} {sdk : Sdk} {a : Action} {r : ℤ} {p : ℕ}

/-- A broadcast, to a page that is listed once at most. -/
theorem sends_broadcast {ps : List ℕ} (h : ps.Nodup) (buf : Bytes) :
    sends p (ps.map fun q => .Send q buf) = if p ∈ ps then [buf] else [] := by
  rw [← map_deliveries _ .start, deliveries_broadcast, List.map_replicate]
  by_cases hp : p ∈ ps
  · rw [if_pos hp, List.count_eq_one_of_mem h hp]
    rfl
  · rw [if_neg hp, List.count_eq_zero_of_not_mem hp]
    rfl

/-- What is observed of commands is sent to nobody. -/
theorem sends_calls {obs : List Obs} (h : ∀ o ∈ obs, o.isCommand = true) : sends p obs = [] := by
  refine sends_eq_nil fun o ho => ?_
  rw [Obs.dataOf_of_isCommand (h o ho)]
  exact Option.some_ne_none p |>.symm

/-- The dispatcher of an event that is forwarded calls its handler. -/
theorem CB_handler {ev : SdkEvent} (h : ev.forwarded = true) (depth : ℕ) (s : Server) :
    CB depth ev s =
      (CWinSDKBase.toInstance fun this => handler this ev) (s.observed ev.alerted) := by
  have hnil : s.observed [] = s := by simp [Server.observed]
  cases ev with
  | onLogInfo | onSwitchCallMediaTypeRequest => cases h
  | onIncomingCallReceived => rfl
  | _ =>
      simp only [SdkEvent.alerted, hnil]
      rfl

/-- What a handler sends is what it emits. -/
theorem handler_sends {ev : SdkEvent} {this : ℕ} (h : handler this ev s = .ok () s') :
    ∃ buf, ev.Emits buf ∧
      s'.trace = s.trace ++ .handler this ev :: s.g_WSClientSet.map fun q => .Send q buf := by
  obtain ⟨param, hparam, -⟩ := handler_spec ev
  obtain ⟨buf, hbuf⟩ := ev.exists_emits
  obtain ⟨v, hv, rfl⟩ := hbuf.message hparam
  refine ⟨_, hbuf, ?_⟩
  rw [hparam] at h
  cases hc : s.heap.cell this with
  | none => simp [handle, client_bind, hc] at h
  | some c =>
      rw [handle_run (Heap.live_of_cell hc) ev hv] at h
      obtain ⟨t, ht, hall⟩ := forM_Send _ s.g_WSClientSet _ (live_of_forM_Send h)
      rw [ht] at h
      cases h
      rw [hall.trace, Server.observed, List.append_assoc]
      rfl

theorem CB_tells {depth : ℕ} {ev : SdkEvent} (honce : s.g_WSClientSet.Nodup)
    (h : CB depth ev s = .ok () s') :
    ∃ obs, s'.trace = s.trace ++ obs ∧
      ∀ p, List.Forall₂ Saying.Text ((Action.sdk depth ev).tells s p) (sends p obs) := by
  have hquiet : ∀ p, sends p ev.alerted = [] := by
    intro p
    refine sends_calls ?_
    cases ev <;> simp [SdkEvent.alerted, Obs.isCommand]
  by_cases hfwd : ev.forwarded = true
  · rw [CB_handler hfwd, CWinSDKBase.toInstance, EStateM.get_bind] at h
    cases hi : s.g_Instance with
    | none =>
        have hi' : (s.observed ev.alerted).g_Instance = none := hi
        simp only [hi'] at h
        cases h
        refine ⟨ev.alerted, rfl, fun p => ?_⟩
        rw [hquiet, Action.tells, hi, Option.isSome_none, Bool.and_false, Bool.false_and,
          if_neg Bool.false_ne_true]
        exact .nil
    | some this =>
        have hi' : (s.observed ev.alerted).g_Instance = some this := hi
        simp only [hi'] at h
        obtain ⟨buf, hbuf, htrace⟩ := handler_sends h
        refine ⟨_, htrace.trans (List.append_assoc ..), fun p => ?_⟩
        have hsends : sends p (ev.alerted ++ .handler this ev ::
            s.g_WSClientSet.map fun q => .Send q buf) =
              if p ∈ s.g_WSClientSet then [buf] else [] := by
          rw [sends_append, hquiet, List.nil_append, ← sends_broadcast honce]
          rfl
        refine hsends ▸ ?_
        by_cases hp : p ∈ s.g_WSClientSet
        · rw [if_pos hp, Action.tells, if_pos (by simp [hfwd, hi, hp])]
          exact .cons hbuf .nil
        · rw [if_neg hp, Action.tells, if_neg (by simp [hp])]
          exact .nil
  · -- nobody is told, since the dispatcher does nothing or does not come back
    have hsame : s' = s := by
      cases ev with
      | onLogInfo =>
          cases h
          rfl
      | onSwitchCallMediaTypeRequest callid video reason =>
          cases hi : s.g_Instance with
          | some this =>
              have hnever : CB depth (.onSwitchCallMediaTypeRequest callid video reason) s =
                .error .stackOverflow s :=
                  sonSwitchCallMediaTypeRequest_overflows hi callid video reason depth
              rw [hnever] at h
              cases h
          | none =>
              cases depth with
              | zero => cases h
              | succ depth =>
                  simp only [CB, CWinSDKBase.sonSwitchCallMediaTypeRequest, CWinSDKBase.toInstance,
                    EStateM.get_bind, hi] at h
                  cases h
                  rfl
      | _ => exact absurd rfl hfwd
    rw [hsame]
    refine ⟨[], (List.append_nil _).symm, fun p => ?_⟩
    rw [Action.tells, if_neg (by simp [hfwd])]
    exact .nil

/-- A message of a page: its own command is answered to it, and nobody else is told. -/
theorem virtualOnMessage_tells {message : Bytes} {q : ℕ} (hpages : Pages s)
    (h : virtualOnMessage sdk q message s = .ok () s') :
    ∃ obs, s'.trace = s.trace ++ obs ∧ ∀ p, List.Forall₂ Saying.Text
      (if q = p then ((commandName? message).map Saying.reply).toList else []) (sends p obs) := by
  cases hc : s.heap.cell q with
  | none => simp [virtualOnMessage, client_bind, hc] at h
  | some c =>
      have hcls := (hpages q c hc).1
      have hrun : virtualOnMessage sdk q message s =
          UCClientWSclient.OnMessage sdk q message (s.observed [.OnMessage q message]) := by
        simp only [virtualOnMessage, client_bind, observe_bind, hc, hcls, if_true]
        rfl
      rw [hrun, UCClientWSclient.OnMessage] at h
      cases hname : commandName? message with
      | none =>
          obtain ⟨t, ht, -, htrace⟩ := OnMessage_of_not_command (commandName?_eq_none hname) sdk
            { version := s.version, trace := s.trace ++ [.OnMessage q message] }
          rw [EStateM.bind_ok (liftCmd_ok (s := s.observed _) ht)] at h
          cases h
          refine ⟨_, htrace, fun p => ?_⟩
          rw [Option.map_none, Option.toList_none, ite_self]
          exact .nil
      | some cmd =>
          obtain ⟨root, hp, hisCmd, rfl⟩ := commandName?_eq_some hname
          by_cases hgood : ParamIsObject message
          · obtain ⟨reply, t, ht, hreply⟩ := OnMessage_answers hp hisCmd hgood sdk
              { version := s.version, trace := s.trace ++ [.OnMessage q message] }
            obtain ⟨obs, htrace, hobs⟩ := Frame.of_ok (OnMessage_frame sdk _) ht
            rw [EStateM.bind_ok (liftCmd_ok (s := s.observed _) ht)] at h
            have hsend := h.symm.trans (Send_spec (s := { s.observed [.OnMessage q message]
              with version := t.version, trace := t.trace }) hc reply)
            cases hsend
            refine ⟨.OnMessage q message :: obs ++ [.Send q reply], ?_, fun p => ?_⟩
            · rw [Server.sent]
              simp [htrace]
            · have hsends : sends p (.OnMessage q message :: obs ++ [.Send q reply]) =
                  if q = p then [reply] else [] := by
                rw [sends_append, show sends p (.OnMessage q message :: obs) = sends p obs from rfl,
                  sends_calls hobs, List.nil_append]
                by_cases hq : q = p
                · simp [sends, hq]
                · simp [sends, hq]
              rw [hsends]
              split_ifs
              · exact .cons hreply .nil
              · exact .nil
          · obtain ⟨t, ht⟩ := OnMessage_faults sdk hgood
              (s := { version := s.version, trace := s.trace ++ [.OnMessage q message] })
            rw [EStateM.bind_error (liftCmd_error (s := s.observed _) ht)] at h
            cases h

/-- **What an action of the server tells**, if no page is listed twice. -/
theorem program_tells (hgood : Good s) (honce : s.g_WSClientSet.Nodup)
    (hsend : ∀ p buf, a ≠ .send p buf) (h : a.program .UCClientWSServer sdk s = .ok r s') :
    ∃ obs, s'.trace = s.trace ++ obs ∧
      ∀ p, List.Forall₂ Saying.Text (a.tells s p) (sends p obs) := by
  have heffect : Effect s a r s' := by
    refine program_effect ?_ h
    intro wsi reason _ p c hp hc
    exact hgood.eq_wsi hp hc
  have hsilent : (∀ depth ev, a ≠ .sdk depth ev) →
      (∀ wsi reason, a = .lws wsi reason → ¬ reason.receives = true) → (∀ p, a.tells s p = []) →
      ∃ obs, s'.trace = s.trace ++ obs ∧
        ∀ p, List.Forall₂ Saying.Text (a.tells s p) (sends p obs) := by
    intro hsdk hrec htells
    obtain ⟨obs, htrace, hobs⟩ := heffect.silent hsend hsdk hrec
    refine ⟨obs, htrace, fun p => ?_⟩
    rw [htells, ← map_deliveries _ .start, deliveries_eq_nil hobs]
    exact .nil
  cases a with
  | sdk depth ev =>
      obtain ⟨-, hm⟩ := return_zero h
      exact CB_tells honce hm
  | lws wsi reason =>
      by_cases hrec : reason.receives = true
      · change callback_lws .UCClientWSServer sdk wsi reason s = .ok r s' at h
        rw [callback_lws, EStateM.get_bind] at h
        cases reason with
        | RECEIVE data | CLIENT_RECEIVE data =>
            obtain ⟨-, hm⟩ := return_zero (m := receive sdk _ data) h
            simp only [Action.tells]
            cases hreg : s.WSClientSet wsi with
            | none =>
                rw [hreg] at hm
                cases hm
                exact ⟨[], (List.append_nil _).symm, fun p => .nil⟩
            | some q =>
                rw [hreg] at hm
                simp only [Option.some.injEq]
                exact virtualOnMessage_tells hgood.pages hm
        | CLIENT_CONNECTION_ERROR | ESTABLISHED | CLIENT_ESTABLISHED | CLOSED
        | CLOSED_CLIENT_HTTP | CLOSED_HTTP | SERVER_WRITEABLE | CLIENT_WRITEABLE | WSI_CREATE
        | WSI_DESTROY | other => cases hrec
      · refine hsilent (fun _ _ => Action.noConfusion) ?_ fun p => ?_
        · intro wsi' reason' ha
          obtain ⟨-, rfl⟩ := Action.lws.inj ha
          exact hrec
        · cases reason <;> first | rfl | exact absurd rfl hrec
  | send | close | construct | connect | delete =>
      exact hsilent (fun _ _ => Action.noConfusion) (fun _ _ => Action.noConfusion) fun _ => rfl

/-- What a step of the program tells. -/
theorem step_tells {w w' : World} (hinv : LivesInv w) (hlisted : ListedOnce w)
    (hal : (pages sdk).allowed w a) (hst : World.step .UCClientWSServer sdk w a = .ok w') :
    ∃ obs, w'.server.trace = w.server.trace ++ obs ∧
      ∀ p, List.Forall₂ Saying.Text (a.tells w.server p) (sends p obs) := by
  obtain ⟨r, s', hrun, rfl⟩ := World.step_ok hst
  obtain ⟨writable, hbefore⟩ := w.before_server a
  rw [World.after_server]
  rw [hbefore] at hrun
  have hsend : ∀ p buf, a ≠ .send p buf := by
    rintro p buf rfl
    exact hal.2
  obtain ⟨obs, htrace, htells⟩ := program_tells (s := { w.server with writable := writable })
    ⟨hinv.good.table, hinv.good.pages⟩ hlisted.once hsend hrun
  -- what lws was asked for does not matter
  have hsame : ∀ p, a.tells { w.server with writable := writable } p = a.tells w.server p := by
    intro p
    cases a with
    | lws wsi reason => cases reason <;> rfl
    | sdk | send | close | construct | connect | delete => rfl
  exact ⟨obs, htrace, fun p => hsame p ▸ htells p⟩

end Program

end UCClient
