import UCClient.CommandSafety
import UCClient.CommandTrace
import UCClient.Server

/-!
# The Protocol Callback

`callback_lws`, the one function lws calls: for every connection and every reason. What
comes with a reason is part of it — the data `in`, `len` points to, whether the
connection has a user pointer, and, for the `WRITEABLE` reasons, what the `lws_write` made
inside will return.

The labels `lwsclose` and `ws_write` of the source are functions here, and so are the two
bodies that the source has twice, for the server and for the client reason. Reasons that
only write a log line are `other`.

Each part has its equations, for a connection that is registered with an existing client
and for one that is not registered.
-/

namespace UCClient

open ServerM WebSocketClient

/-- The reasons of `callback_lws`, with what lws passes along. -/
inductive Reason
  | ESTABLISHED
  | CLIENT_ESTABLISHED
  | CLIENT_CONNECTION_ERROR (data : Option Bytes)
  | CLOSED (data : Option Bytes)
  | CLOSED_CLIENT_HTTP (data : Option Bytes)
  | CLOSED_HTTP (data : Option Bytes)
  | RECEIVE (data : Option Bytes)
  | CLIENT_RECEIVE (data : Option Bytes)
  | SERVER_WRITEABLE (res : ℤ)
  | CLIENT_WRITEABLE (res : ℤ)
  | WSI_CREATE (hasUser : Bool)
  | WSI_DESTROY
  | other
  deriving DecidableEq, Repr

/-- `v.erase(v.begin() + first, v.begin() + last)`. -/
def eraseRange (v : Bytes) (first last : ℕ) : Except Fault Bytes :=
  if first ≤ last ∧ last ≤ v.length then .ok (v.take first ++ v.drop last)
  else .error .vectorRange

/-- The body of `LWS_CALLBACK_ESTABLISHED` and `LWS_CALLBACK_CLIENT_ESTABLISHED`. -/
def established (wsi : Wsi) : Option ℕ → ServerM Unit
  | none => pure ()
  | some p => do
      setClient p fun c => { c with m_state := .OPEN }
      OnOpen p
      lws_callback_on_writable wsi

/-- The body of `LWS_CALLBACK_CLIENT_CONNECTION_ERROR`. -/
def connectionError (wsi : Wsi) (wsclient : Option ℕ) (data : Option Bytes) :
    ServerM Unit := do
  let errorCode := data.getD []
  erase wsi
  match wsclient with
  | none => pure ()
  | some p =>
      setClient p fun c => { c with m_state := .CLOSED }
      OnError p errorCode
      OnClose p errorCode

/-- The label `lwsclose`. -/
def lwsclose (wsi : Wsi) (wsclient : Option ℕ) (data : Option Bytes) : ServerM Unit := do
  let errorCode := data.getD []
  erase wsi
  match wsclient with
  | none => pure ()
  | some p =>
      let c ← client p
      if c.m_state ≠ .CLOSED then
        setClient p fun c => { c with m_state := .CLOSED }
        OnClose p errorCode

/-- The body of `LWS_CALLBACK_RECEIVE` and `LWS_CALLBACK_CLIENT_RECEIVE`. -/
def receive (sdk : Sdk) (wsclient : Option ℕ) (data : Option Bytes) : ServerM Unit := do
  let message := data.getD []
  match wsclient with
  | none => pure ()
  | some p => virtualOnMessage sdk p message

/-- `if (bufLen > 0) { ... lws_write ... }` on the first entry `head` of the queue: the
entry afterwards, or `none` for `return -1`. -/
def writeHead (p : ℕ) (head : Bytes) (res : ℤ) : ServerM (Option Bytes) := do
  let bufLen := toInt (sizeSub head.length LWS_PRE)
  if bufLen > 0 then
    observe (.lws_write p ((head.drop LWS_PRE).take bufLen.toNat) res)
    if res > 0 then
      let head ← liftFault (eraseRange head LWS_PRE (LWS_PRE + res.toNat))
      pure (some head)
    else pure none
  else pure (some head)

/-- `if (wsclient->m_sendBuf.size() > 0) { ... }`: the queue afterwards, or `none` for
`return -1`. -/
def writeQueue (p : ℕ) (res : ℤ) : List Bytes → ServerM (Option (List Bytes))
  | [] => pure (some [])
  | head :: rest => do
      match ← writeHead p head res with
      | none => pure none
      | some head =>
          if sizeSub head.length LWS_PRE ≤ 0 then pure (some rest) else pure (some (head :: rest))

/-- The label `ws_write`. -/
def ws_write (wsi : Wsi) (wsclient : Option ℕ) (res : ℤ) : ServerM ℤ := do
  match wsclient with
  | none => pure (-1)
  | some p =>
      let c ← client p
      if c.m_state ≠ .CLOSING then
        OnSend p
        let c ← client p
        match ← writeQueue p res c.m_sendBuf with
        | none => pure (-1)
        | some queue =>
            setClient p fun c => { c with m_sendBuf := queue }
            if queue ≠ [] then lws_callback_on_writable wsi
            pure 0
      else pure (-1)

/-- The body of `LWS_CALLBACK_WSI_CREATE`. -/
def wsiCreate (This : ServerClass) (wsi : Wsi) (hasUser : Bool) : ServerM Unit := do
  if hasUser = false then
    let _ ← OnAccept This wsi

/-- The body of `LWS_CALLBACK_WSI_DESTROY`: only an object of the base class is deleted. -/
def wsiDestroy : Option ℕ → ServerM Unit
  | none => pure ()
  | some p => do
      let c ← client p
      if c.cls = .WebSocketClient then delete p

/-- `callback_lws`. -/
def callback_lws (This : ServerClass) (sdk : Sdk) (wsi : Wsi) (reason : Reason) :
    ServerM ℤ := do
  let wsclient := (← get).WSClientSet wsi
  match reason with
  | .ESTABLISHED => established wsi wsclient; pure 0
  | .CLIENT_ESTABLISHED => established wsi wsclient; pure 0
  | .CLIENT_CONNECTION_ERROR data => connectionError wsi wsclient data; pure 0
  | .CLOSED data => lwsclose wsi wsclient data; pure 0
  | .CLOSED_CLIENT_HTTP data => lwsclose wsi wsclient data; pure 0
  | .CLOSED_HTTP data => lwsclose wsi wsclient data; pure 0
  | .RECEIVE data => receive sdk wsclient data; pure 0
  | .CLIENT_RECEIVE data => receive sdk wsclient data; pure 0
  | .SERVER_WRITEABLE res => ws_write wsi wsclient res
  | .CLIENT_WRITEABLE res => ws_write wsi wsclient res
  | .WSI_CREATE hasUser => wsiCreate This wsi hasUser; pure 0
  | .WSI_DESTROY => wsiDestroy wsclient; pure 0
  | .other => pure 0

/-! ### Opening and closing -/

variable {s : Server} {p : ℕ} {c : Client} {wsi : Wsi}

namespace Server

/-- After `ESTABLISHED` on a connection of `p`, with `c` the client before. -/
def opened (s : Server) (wsi : Wsi) (p : ℕ) (c : Client) : Server :=
  { s with
    heap := s.heap.modify p fun c => { c with m_state := .OPEN }
    g_WSClientSet := if c.cls = .UCClientWSclient then s.g_WSClientSet ++ [p]
      else s.g_WSClientSet
    writable := Function.update s.writable wsi true
    trace := s.trace ++ [.OnOpen p] }

/-- After a closing callback on a connection of `p`, which made the observations `obs`. -/
def closedBy (s : Server) (wsi : Wsi) (p : ℕ) (c : Client) (obs : List Obs) : Server :=
  { s with
    heap := if c.cls = .UCClientWSclient then s.heap.free p
      else s.heap.modify p fun c => { c with m_state := .CLOSED }
    WSClientSet := Function.update s.WSClientSet wsi none
    g_WSClientSet := if c.cls = .UCClientWSclient then s.g_WSClientSet.filter (· != p)
      else s.g_WSClientSet
    g_Instance := if c.cls = .UCClientWSclient then none else s.g_Instance
    trace := s.trace ++ obs }

/-- After the entry of a connection is erased and nothing else. -/
def erased (s : Server) (wsi : Wsi) : Server :=
  { s with WSClientSet := Function.update s.WSClientSet wsi none }

end Server

theorem established_spec (h : s.heap.cell p = some c) :
    established wsi (some p) s = .ok () (s.opened wsi p c) := by
  have h' : (s.heap.modify p fun c => { c with m_state := .OPEN }).cell p =
      some { c with m_state := .OPEN } := by
    simp only [Heap.cell_modify, h, if_true, Option.map_some]
  have hopen := OnOpen_spec (s := { s with heap := s.heap.modify p _ }) h'
  simp only [established, setClient_bind, h]
  rw [EStateM.bind_ok hopen]
  rfl

/-- The common end of the closing callbacks: the entry is erased, the client is marked
closed, `obs` is observed, and `OnClose` is entered. -/
theorem closedBy_spec (h : s.heap.cell p = some c) (hw : c.wsi = wsi) (obs : List Obs)
    (errorCode : Bytes) :
    OnClose p errorCode
      { s with
        heap := s.heap.modify p fun c => { c with m_state := .CLOSED }
        WSClientSet := Function.update s.WSClientSet wsi none
        trace := s.trace ++ obs } =
      .ok () (s.closedBy wsi p c (obs ++ [.OnClose p errorCode])) := by
  have h' : (s.heap.modify p fun c => { c with m_state := .CLOSED }).cell p =
      some { c with m_state := .CLOSED } := by
    simp only [Heap.cell_modify, h, if_true, Option.map_some]
  refine (OnClose_spec (c := { c with m_state := .CLOSED }) ?_ errorCode).trans ?_
  · exact h'
  subst hw
  by_cases hc : c.cls = .UCClientWSclient
  · simp [Server.closedBy, Server.deleted, Server.wake, Server.canWrite, hc]
  · simp [Server.closedBy, hc]

theorem lwsclose_spec (h : s.heap.cell p = some c) (hw : c.wsi = wsi)
    (hs : c.m_state ≠ .CLOSED) (data : Option Bytes) :
    lwsclose wsi (some p) data s =
      .ok () (s.closedBy wsi p c [.OnClose p (data.getD [])]) := by
  simp only [lwsclose, erase_bind, client_bind, h]
  rw [if_pos hs, setClient_bind]
  simp only [h]
  have hclose := closedBy_spec h hw [] (data.getD [])
  rw [List.append_nil] at hclose
  exact hclose

/-- A client that is closed already only loses its entry. -/
theorem lwsclose_closed (h : s.heap.cell p = some c) (hs : c.m_state = .CLOSED)
    (data : Option Bytes) : lwsclose wsi (some p) data s = .ok () (s.erased wsi) := by
  simp only [lwsclose, erase_bind, client_bind, h, hs, ne_eq, not_true_eq_false, if_false]
  rfl

theorem connectionError_spec (h : s.heap.cell p = some c) (hw : c.wsi = wsi)
    (data : Option Bytes) :
    connectionError wsi (some p) data s =
      .ok () (s.closedBy wsi p c [.OnError p (data.getD []), .OnClose p (data.getD [])]) := by
  have h' : (s.heap.modify p fun c => { c with m_state := .CLOSED }).cell p =
      some { c with m_state := .CLOSED } := by
    simp only [Heap.cell_modify, h, if_true, Option.map_some]
  simp only [connectionError, erase_bind, setClient_bind, h]
  refine (EStateM.bind_ok (OnError_spec (c := { c with m_state := .CLOSED }) ?_ _)).trans ?_
  · exact h'
  · exact closedBy_spec h hw [.OnError p (data.getD [])] (data.getD [])

/-- Erasing an entry that does not exist. -/
theorem erased_eq_self (hreg : s.WSClientSet wsi = none) : s.erased wsi = s := by
  have hsame : Function.update s.WSClientSet wsi none = s.WSClientSet := by
    rw [← hreg]
    exact Function.update_eq_self wsi s.WSClientSet
  simp only [Server.erased, hsame]

/-- A connection that is not registered: only the erase is left. -/
theorem lwsclose_none (data : Option Bytes) :
    lwsclose wsi none data s = .ok () (s.erased wsi) := rfl

theorem connectionError_none (data : Option Bytes) :
    connectionError wsi none data s = .ok () (s.erased wsi) := rfl

/-! ### Writing and receiving -/

namespace Server

/-- More was observed and nothing else changed. -/
def observed (s : Server) (obs : List Obs) : Server := { s with trace := s.trace ++ obs }

/-- After a message has run as a command, before its reply is sent. -/
def ranCommand (s : Server) (p : ℕ) (message : Bytes) (obs : List Obs) (version : Bytes) :
    Server :=
  { s with version := version, trace := s.trace ++ .OnMessage p message :: obs }

/-- After a `WRITEABLE` callback of `p` that left the queue `queue`. -/
def wrote (s : Server) (wsi : Wsi) (p : ℕ) (queue : List Bytes) (obs : List Obs) : Server :=
  { s with
    heap := s.heap.modify p fun c => { c with m_sendBuf := queue }
    writable := if queue ≠ [] then Function.update s.writable wsi true else s.writable
    trace := s.trace ++ obs }

end Server

/-- Writing the first entry is observed and has no other effect, and what it returns does
not depend on the state. The only fault is a range outside the entry. -/
theorem writeHead_run (p : ℕ) (head : Bytes) (res : ℤ) :
    ∃ obs, (∀ o ∈ obs, ∃ buf, o = .lws_write p buf res) ∧
      ((∃ r, ∀ s, writeHead p head res s = .ok r (s.observed obs)) ∨
        ∀ s, writeHead p head res s = .error .vectorRange (s.observed obs)) := by
  by_cases hlen : toInt (sizeSub head.length LWS_PRE) > 0
  · refine ⟨[.lws_write p ((head.drop LWS_PRE).take
      (toInt (sizeSub head.length LWS_PRE)).toNat) res], by simp, ?_⟩
    by_cases hres : res > 0
    · by_cases hrange : LWS_PRE ≤ LWS_PRE + res.toNat ∧ LWS_PRE + res.toNat ≤ head.length
      · refine .inl ⟨some (head.take LWS_PRE ++ head.drop (LWS_PRE + res.toNat)), fun s => ?_⟩
        simp only [writeHead, hlen, hres, eraseRange, hrange, if_true]
        rfl
      · refine .inr fun s => ?_
        simp only [writeHead, hlen, hres, eraseRange, hrange, if_true, if_false]
        rfl
    · refine .inl ⟨none, fun s => ?_⟩
      simp only [writeHead, hlen, hres, if_true, if_false]
      rfl
  · refine ⟨[], by simp, .inl ⟨some head, fun s => ?_⟩⟩
    simp only [writeHead, hlen, if_false, Server.observed, List.append_nil]
    rfl

/-- So is writing from the queue. -/
theorem writeQueue_run (p : ℕ) (res : ℤ) (queue : List Bytes) :
    ∃ obs, (∀ o ∈ obs, ∃ buf, o = .lws_write p buf res) ∧
      ((∃ r, ∀ s, writeQueue p res queue s = .ok r (s.observed obs)) ∨
        ∀ s, writeQueue p res queue s = .error .vectorRange (s.observed obs)) := by
  cases queue with
  | nil =>
      refine ⟨[], by simp, .inl ⟨some [], fun s => ?_⟩⟩
      simp only [Server.observed, List.append_nil]
      rfl
  | cons head rest =>
      obtain ⟨obs, hobs, ⟨r, hr⟩ | hr⟩ := writeHead_run p head res
      · refine ⟨obs, hobs, .inl ?_⟩
        cases r with
        | none => exact ⟨none, fun s => by rw [writeQueue, EStateM.bind_ok (hr s)]; rfl⟩
        | some head' =>
            by_cases hz : sizeSub head'.length LWS_PRE ≤ 0
            · refine ⟨some rest, fun s => ?_⟩
              rw [writeQueue, EStateM.bind_ok (hr s)]
              simp only [hz, if_true]
              rfl
            · refine ⟨some (head' :: rest), fun s => ?_⟩
              rw [writeQueue, EStateM.bind_ok (hr s)]
              simp only [hz, if_false]
              rfl
      · exact ⟨obs, hobs, .inr fun s => by rw [writeQueue, EStateM.bind_error (hr s)]⟩

/-- All that is observed of it is `lws_write`. -/
theorem writes_of_run {p : ℕ} {res : ℤ} {queue : List Bytes} {obs : List Obs}
    {r : Option (List Bytes)} (hrun : ∀ s, writeQueue p res queue s = .ok r (s.observed obs)) :
    ∀ o ∈ obs, ∃ buf, o = .lws_write p buf res := by
  obtain ⟨obs', hobs, ⟨r', hr'⟩ | herr⟩ := writeQueue_run p res queue
  · obtain ⟨-, hstate⟩ := EStateM.Result.ok.inj ((hrun {}).symm.trans (hr' {}))
    obtain rfl : obs = obs' := by simpa [Server.observed] using congrArg Server.trace hstate
    exact hobs
  · cases (hrun {}).symm.trans (herr {})

theorem ws_write_closing (h : s.heap.cell p = some c) (hs : c.m_state = .CLOSING) (res : ℤ) :
    ws_write wsi (some p) res s = .ok (-1) s := by
  simp only [ws_write, client_bind, h, hs, ne_eq, not_true_eq_false, if_false]
  rfl

theorem ws_write_fail {res : ℤ} {obs : List Obs} (h : s.heap.cell p = some c)
    (hs : c.m_state ≠ .CLOSING)
    (hq : ∀ s, writeQueue p res c.m_sendBuf s = .ok none (s.observed obs)) :
    ws_write wsi (some p) res s = .ok (-1) (s.observed (.OnSend p :: obs)) := by
  simp only [ws_write, client_bind, h]
  rw [if_pos hs, EStateM.bind_ok (OnSend_spec h), client_bind]
  simp only [h]
  rw [EStateM.bind_ok (hq _)]
  simp [Server.observed]
  rfl

theorem ws_write_done {res : ℤ} {obs : List Obs} {queue : List Bytes}
    (h : s.heap.cell p = some c) (hs : c.m_state ≠ .CLOSING)
    (hq : ∀ s, writeQueue p res c.m_sendBuf s = .ok (some queue) (s.observed obs)) :
    ws_write wsi (some p) res s = .ok 0 (s.wrote wsi p queue (.OnSend p :: obs)) := by
  simp only [ws_write, client_bind, h]
  rw [if_pos hs, EStateM.bind_ok (OnSend_spec h), client_bind]
  simp only [h]
  rw [EStateM.bind_ok (hq _)]
  dsimp only
  rw [setClient_bind]
  by_cases hn : queue = []
  · simp [hn, Server.observed, Server.wrote, h]
    rfl
  · simp [hn, Server.observed, Server.wrote, h]
    rfl

theorem ws_write_fault {res : ℤ} {obs : List Obs} (h : s.heap.cell p = some c)
    (hs : c.m_state ≠ .CLOSING)
    (hq : ∀ s, writeQueue p res c.m_sendBuf s = .error .vectorRange (s.observed obs)) :
    ws_write wsi (some p) res s = .error .vectorRange (s.observed (.OnSend p :: obs)) := by
  simp only [ws_write, client_bind, h]
  rw [if_pos hs, EStateM.bind_ok (OnSend_spec h), client_bind]
  simp only [h]
  rw [EStateM.bind_error (hq _)]
  simp [Server.observed]

/-- **Every way a `WRITEABLE` callback of a registered client can end**: the connection is
to be closed, or the client has a new queue, or an entry was too short. -/
theorem ws_write_cases (wsi : Wsi) (h : s.heap.cell p = some c) (res : ℤ) :
    ∃ obs, ws_write wsi (some p) res s = .ok (-1) (s.observed obs) ∨
      (∃ queue, c.m_state ≠ .CLOSING ∧
        ws_write wsi (some p) res s = .ok 0 (s.wrote wsi p queue obs)) ∨
      ws_write wsi (some p) res s = .error .vectorRange (s.observed obs) := by
  by_cases hs : c.m_state = .CLOSING
  · exact ⟨[], .inl (by simpa [Server.observed] using ws_write_closing h hs res)⟩
  · obtain ⟨obs, -, ⟨r, hr⟩ | hr⟩ := writeQueue_run p res c.m_sendBuf
    · cases r with
      | none => exact ⟨_, .inl (ws_write_fail h hs hr)⟩
      | some queue => exact ⟨_, .inr (.inl ⟨queue, hs, ws_write_done h hs hr⟩)⟩
    · exact ⟨_, .inr (.inr (ws_write_fault h hs hr))⟩

/-- **Every way a received message can end**: the command ran and its reply, if there is
one, is on the sender's queue; or it tripped an assertion. All that is observed before the
reply is the entry into `OnMessage` and calls of a command. -/
theorem virtualOnMessage_cases (h : s.heap.cell p = some c) (sdk : Sdk) (message : Bytes) :
    ∃ obs version, (∀ o ∈ obs, o.isCommand = true) ∧
      (virtualOnMessage sdk p message s = .ok () (s.ranCommand p message obs version) ∨
        (∃ result, virtualOnMessage sdk p message s =
          .ok () ((s.ranCommand p message obs version).sent p c result)) ∨
        virtualOnMessage sdk p message s =
          .error .jsonAssert (s.ranCommand p message obs version)) := by
  have hrun : virtualOnMessage sdk p message s =
      (if c.cls = .UCClientWSclient then UCClientWSclient.OnMessage sdk p message
        else pure ()) (s.observed [.OnMessage p message]) := by
    simp only [virtualOnMessage, client_bind, observe_bind, h]
    rfl
  rw [hrun]
  by_cases hc : c.cls = .UCClientWSclient
  · rw [if_pos hc]
    obtain ⟨obs, htrace, hobs⟩ := OnMessage_frame sdk message
      { version := s.version, trace := s.trace ++ [.OnMessage p message] }
    rw [List.append_assoc] at htrace
    by_cases hgood : ParamIsObject message
    · obtain ⟨r, t, hm⟩ := OnMessage_ok sdk hgood
        (s := { version := s.version, trace := s.trace ++ [.OnMessage p message] })
      rw [hm] at htrace
      have hlift := liftCmd_ok (s := s.observed [.OnMessage p message]) hm
      rw [show t.trace = _ from htrace] at hlift
      refine ⟨obs, t.version, hobs, ?_⟩
      rw [UCClientWSclient.OnMessage, EStateM.bind_ok hlift]
      cases r with
      | none => exact .inl rfl
      | some result => exact .inr (.inl ⟨result, Send_spec (s := s.ranCommand _ _ _ _) h result⟩)
    · obtain ⟨t, hm⟩ := OnMessage_faults sdk hgood
        (s := { version := s.version, trace := s.trace ++ [.OnMessage p message] })
      rw [hm] at htrace
      have hlift := liftCmd_error (s := s.observed [.OnMessage p message]) hm
      rw [show t.trace = _ from htrace] at hlift
      refine ⟨obs, t.version, hobs, .inr (.inr ?_)⟩
      rw [UCClientWSclient.OnMessage, EStateM.bind_error hlift]
      rfl
  · refine ⟨[], s.version, by simp, .inl ?_⟩
    rw [if_neg hc]
    rfl

end UCClient
