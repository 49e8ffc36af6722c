import UCClient.Command
import UCClient.Heap

/-!
# Clients, Their Globals and Their Members

The objects of `websocket.cpp` and `UCClientWebSocket.cpp`: a client per connection, and
the globals that refer to clients by pointer — the registry `WSClientSet` from connection
addresses to clients, the broadcast list `g_WSClientSet`, and the instance pointer
`g_Instance` through which SDK callbacks arrive.

Clients live on a heap of objects with identity, so a pointer that outlives its client is
told apart from every legal one: a member function entered through it faults with
`dangling`, deleting it faults with `doubleDelete`. A program of `ServerM` keeps the state
in which it faulted.

Of lws the state holds one thing, the pending requests of `lws_callback_on_writable`.
`lws_cancel_service` only cuts the wait of the service loop short and log lines have no
effect on the state; both are left out.
-/

namespace UCClient

/-- The address of a `struct lws`; `0` is the null pointer. -/
abbrev Wsi := ℕ

/-- The states of a connection, `Status` of `websocket.h`. -/
inductive Status
  | CONNECTING | OPEN | CLOSING | CLOSED
  deriving DecidableEq, Repr

/-- The class a client object was constructed as, which `typeid` and virtual calls see:
the base class, the page connections of the server, and the client of the browser
plugin. -/
inductive ClientClass
  | WebSocketClient | UCClientWSclient | ATLWSclient
  deriving DecidableEq, Repr

/-- The server classes, by what their `OnAccept` constructs. -/
inductive ServerClass
  | WebSocketServer | UCClientWSServer
  deriving DecidableEq, Repr

/-- A client object. -/
structure Client where
  cls : ClientClass
  wsi : Wsi
  m_state : Status := .CONNECTING
  m_sendBuf : List Bytes := []
  deriving DecidableEq, Repr

/-- The client objects and the globals of a process. -/
structure Server where
  heap : Heap Client := .empty
  WSClientSet : Wsi → Option ℕ := fun _ => none
  g_WSClientSet : List ℕ := []
  g_Instance : Option ℕ := none
  /-- The connections with a pending request of `lws_callback_on_writable`. -/
  writable : Wsi → Bool := fun _ => false
  /-- The static result of `CWinSDKBase::getVersion`. -/
  version : Bytes := []
  trace : List Obs := []

/-- Programs that run on the clients and globals. -/
abbrev ServerM := EStateM Fault Server

namespace ServerM

/-- The client a pointer refers to. -/
def client (p : ℕ) : ServerM Client := fun s =>
  match s.heap.cell p with
  | some c => .ok c s
  | none => .error (.dangling p) s

/-- A store into the client a pointer refers to. -/
def setClient (p : ℕ) (f : Client → Client) : ServerM Unit := fun s =>
  match s.heap.cell p with
  | some _ => .ok () { s with heap := s.heap.modify p f }
  | none => .error (.dangling p) s

/-- Something the outside sees. -/
def observe (o : Obs) : ServerM Unit := modify fun s => { s with trace := s.trace ++ [o] }

/-- A library operation that can fault, inside the server. -/
def liftFault {α : Type} (e : Except Fault α) : ServerM α := fun s =>
  match e with
  | .ok a => .ok a s
  | .error f => .error f s

/-- `WSClientSet.find(wsi) != WSClientSet.end()`. -/
def found (w : Wsi) : ServerM Bool := do pure ((← get).WSClientSet w).isSome

/-- `WSClientSet.insert(std::make_pair(wsi, p))`, which keeps an entry that exists. -/
def insert (w : Wsi) (p : ℕ) : ServerM Unit := modify fun s =>
  { s with WSClientSet := Function.update s.WSClientSet w ((s.WSClientSet w).or (some p)) }

/-- `WSClientSet.erase(wsi)`. -/
def erase (w : Wsi) : ServerM Unit := modify fun s =>
  { s with WSClientSet := Function.update s.WSClientSet w none }

/-- `lws_callback_on_writable(wsi)`. -/
def lws_callback_on_writable (w : Wsi) : ServerM Unit := modify fun s =>
  { s with writable := Function.update s.writable w true }

end ServerM

open ServerM

/-! ### `WebSocketClient` -/

namespace WebSocketClient

/-- The constructor from a connection. -/
def new (cls : ClientClass) (w : Wsi) : ServerM ℕ := do
  let p := (← get).heap.next
  modify fun s => { s with heap := s.heap.alloc { cls := cls, wsi := w } }
  insert w p
  pure p

/-- `WebSocketClient::Close`. -/
def Close (p : ℕ) : ServerM Unit := do
  let c ← client p
  if (← found c.wsi) && c.wsi != 0 then
    if c.m_state = .OPEN then
      setClient p fun c => { c with m_state := .CLOSING }
      lws_callback_on_writable c.wsi

/-- The destructor. -/
def destructor (p : ℕ) : ServerM Unit := do
  let c ← client p
  if ← found c.wsi then Close p
  erase c.wsi

/-- The entry `Send` puts on the queue: `LWS_PRE` bytes of space and the data. -/
def entry (buf : Bytes) : Bytes := List.replicate LWS_PRE 0 ++ buf

/-- `WebSocketClient::Send`. -/
def Send (p : ℕ) (buf : Bytes) : ServerM Unit := do
  observe (.Send p buf)
  setClient p fun c => { c with m_sendBuf := c.m_sendBuf ++ [entry buf] }
  let c ← client p
  if (← found c.wsi) && c.wsi != 0 && c.m_state = .OPEN then
    lws_callback_on_writable c.wsi

/-- `WebSocketClient::Open`, for what `lws_client_connect_via_info` returned; `none` when
the address did not parse. -/
def Open (p : ℕ) (connected : Option Wsi) : ServerM Unit := do
  let c ← client p
  if c.wsi = 0 then
    match connected with
    | none => pure ()
    | some w =>
        setClient p fun c => { c with wsi := w }
        insert w p
        setClient p fun c => { c with m_state := .CONNECTING }

end WebSocketClient

open WebSocketClient

/-! ### The derived classes -/

/-- The constructor of the plugin's client: it has no connection yet. -/
def ATLWSclient.new : ServerM ℕ := do
  let p := (← get).heap.next
  modify fun s => { s with heap := s.heap.alloc { cls := .ATLWSclient, wsi := 0 } }
  pure p

/-- The constructor of a page connection: the base class `WebSocketClient` registers it,
the base class `CWinSDKBase` makes it the instance. Log lines are not modelled; the one of this
constructor asks the SDK for its version, if it is written. -/
def UCClientWSclient.new (w : Wsi) : ServerM ℕ := do
  let p ← WebSocketClient.new .UCClientWSclient w
  modify fun s => { s with g_Instance := some p }
  pure p

/-- `~UCClientWSclient` and then `~CWinSDKBase`. -/
def UCClientWSclient.destructor (p : ℕ) : ServerM Unit := modify fun s =>
  { s with g_WSClientSet := s.g_WSClientSet.filter (· != p), g_Instance := none }

/-- `delete p`: the destructors from the most derived class down, then the storage. -/
def delete (p : ℕ) : ServerM Unit := do
  match (← get).heap.cell p with
  | none => throw (.doubleDelete p)
  | some c =>
      if c.cls = .UCClientWSclient then UCClientWSclient.destructor p
      WebSocketClient.destructor p
      modify fun s => { s with heap := s.heap.free p }

/-- `OnAccept` of the server class. -/
def OnAccept (This : ServerClass) (w : Wsi) : ServerM ℕ :=
  match This with
  | .WebSocketServer => WebSocketClient.new .WebSocketClient w
  | .UCClientWSServer => UCClientWSclient.new w

/-! ### Virtual members -/

/-- `OnOpen`: a page connection joins the broadcast list. -/
def OnOpen (p : ℕ) : ServerM Unit := do
  let c ← client p
  observe (.OnOpen p)
  if c.cls = .UCClientWSclient then
    modify fun s => { s with g_WSClientSet := s.g_WSClientSet ++ [p] }

/-- `OnSend`, which does nothing in any class. -/
def OnSend (p : ℕ) : ServerM Unit := do
  let _ ← client p
  observe (.OnSend p)

/-- `OnError`, which does nothing to a client in any class. -/
def OnError (p : ℕ) (errorCode : Bytes) : ServerM Unit := do
  let _ ← client p
  observe (.OnError p errorCode)

/-- `OnClose`: a page connection deletes itself. -/
def OnClose (p : ℕ) (errorCode : Bytes) : ServerM Unit := do
  let c ← client p
  observe (.OnClose p errorCode)
  if c.cls = .UCClientWSclient then delete p

/-- A command as part of the server: it runs on the version string and the trace, and
what it did before a fault stays done. -/
def liftCmd {α : Type} (m : CmdM α) : ServerM α := fun s =>
  match m { version := s.version, trace := s.trace } with
  | .ok a t => .ok a { s with version := t.version, trace := t.trace }
  | .error f t => .error f { s with version := t.version, trace := t.trace }

/-- `UCClientWSclient::OnMessage`: the command is run and its reply is sent back. -/
def UCClientWSclient.OnMessage (sdk : Sdk) (p : ℕ) (message : Bytes) : ServerM Unit := do
  match ← liftCmd (UCClient.OnMessage sdk message) with
  | some result => Send p result
  | none => pure ()

/-- The virtual `OnMessage`; the other classes only pass the message on. -/
def virtualOnMessage (sdk : Sdk) (p : ℕ) (message : Bytes) : ServerM Unit := do
  let c ← client p
  observe (.OnMessage p message)
  if c.cls = .UCClientWSclient then UCClientWSclient.OnMessage sdk p message

/-! ### What the members do

One equation for each primitive at the head of a program, and one for each member: from a
state in which the client exists it ends without a fault, in a state written out. -/

variable {s : Server} {p : ℕ} {c : Client} {w : Wsi} {α : Type}

namespace ServerM

theorem client_bind (f : Client → ServerM α) : (client p >>= f) s =
    match s.heap.cell p with
    | some c => f c s
    | none => .error (.dangling p) s := by
  cases h : s.heap.cell p with
  | none => exact EStateM.bind_error (by simp only [client, h])
  | some c => exact EStateM.bind_ok (by simp only [client, h])

theorem setClient_bind (g : Client → Client) (f : Unit → ServerM α) :
    (setClient p g >>= f) s =
      match s.heap.cell p with
      | some _ => f () { s with heap := s.heap.modify p g }
      | none => .error (.dangling p) s := by
  cases h : s.heap.cell p with
  | none => exact EStateM.bind_error (by simp only [setClient, h])
  | some c => exact EStateM.bind_ok (by simp only [setClient, h])

theorem observe_bind (o : Obs) (f : Unit → ServerM α) :
    (observe o >>= f) s = f () { s with trace := s.trace ++ [o] } := rfl

theorem found_bind (f : Bool → ServerM α) :
    (found w >>= f) s = f (s.WSClientSet w).isSome s := rfl

theorem insert_bind (f : Unit → ServerM α) : (ServerM.insert w p >>= f) s = f ()
    { s with WSClientSet := Function.update s.WSClientSet w ((s.WSClientSet w).or (some p)) } := rfl

theorem erase_bind (f : Unit → ServerM α) :
    (erase w >>= f) s = f () { s with WSClientSet := Function.update s.WSClientSet w none } := rfl

end ServerM

namespace Server

/-- A member of `p` asks to be called back only for a connection that is open, and finds
it by its own address. -/
def canWrite (s : Server) (c : Client) : Bool :=
  (s.WSClientSet c.wsi).isSome && c.wsi != 0 && c.m_state = .OPEN

/-- The pending requests after `c` has asked to be called back, if it can. -/
def wake (s : Server) (c : Client) : Wsi → Bool :=
  if s.canWrite c then Function.update s.writable c.wsi true else s.writable

/-- A request stays pending. -/
theorem writable_wake (s : Server) (c : Client) (w : Wsi) (h : s.writable w = true) :
    s.wake c w = true := by
  rw [wake]
  split
  · by_cases hw : w = c.wsi
    · rw [hw, Function.update_self]
    · rw [Function.update_of_ne hw, h]
  · exact h

theorem wake_self {s : Server} {c : Client} (h : s.canWrite c = true) :
    s.wake c c.wsi = true := by
  rw [wake, if_pos h, Function.update_self]

/-- After `p->Send(buf)`, with `c` the client before. -/
def sent (s : Server) (p : ℕ) (c : Client) (buf : Bytes) : Server :=
  { s with
    heap := s.heap.modify p fun c => { c with m_sendBuf := c.m_sendBuf ++ [entry buf] }
    writable := s.wake c
    trace := s.trace ++ [.Send p buf] }

/-- After `p->Close()`. -/
def closing (s : Server) (p : ℕ) (c : Client) : Server :=
  { s with
    heap := if s.canWrite c then s.heap.modify p fun c => { c with m_state := .CLOSING }
      else s.heap
    writable := s.wake c }

theorem open_of_canWrite {s : Server} {c : Client} (h : s.canWrite c = true) :
    c.m_state = .OPEN := by
  simp only [canWrite, Bool.and_eq_true, decide_eq_true_eq] at h
  exact h.2

theorem closing_heap {s : Server} {c : Client} (h : s.canWrite c = true) (p : ℕ) :
    (s.closing p c).heap = s.heap.modify p fun c => { c with m_state := .CLOSING } := by
  simp only [closing, h, if_true]

/-- `Close` does nothing to a client that is not open. -/
theorem closing_eq_self {s : Server} {c : Client} (h : ¬ s.canWrite c = true) (p : ℕ) :
    s.closing p c = s := by
  simp [closing, wake, h]

/-- After the construction of a client for a connection. -/
def constructed (s : Server) (cls : ClientClass) (w : Wsi) : Server :=
  { s with
    heap := s.heap.alloc { cls := cls, wsi := w }
    WSClientSet := Function.update s.WSClientSet w ((s.WSClientSet w).or (some s.heap.next)) }

/-- After `p->Open()`, for which lws returned the connection `w`. -/
def connected (s : Server) (p : ℕ) (w : Wsi) : Server :=
  { s with
    heap := s.heap.modify p fun c => { c with wsi := w, m_state := .CONNECTING }
    WSClientSet := Function.update s.WSClientSet w ((s.WSClientSet w).or (some p)) }

/-- After `delete p`. -/
def deleted (s : Server) (p : ℕ) (c : Client) : Server :=
  { s with
    heap := s.heap.free p
    WSClientSet := Function.update s.WSClientSet c.wsi none
    g_WSClientSet := if c.cls = .UCClientWSclient then s.g_WSClientSet.filter (· != p)
      else s.g_WSClientSet
    g_Instance := if c.cls = .UCClientWSclient then none else s.g_Instance
    writable := s.wake c }

end Server

theorem Send_spec (h : s.heap.cell p = some c) (buf : Bytes) :
    Send p buf s = .ok () (s.sent p c buf) := by
  simp only [Send, observe_bind, setClient_bind, client_bind, found_bind, h, Heap.cell_modify,
    if_true, Option.map_some, Server.sent, Server.wake, Server.canWrite]
  by_cases hw : ((s.WSClientSet c.wsi).isSome && c.wsi != 0 && c.m_state = .OPEN) = true
  · simp only [hw, if_true]
    rfl
  · simp only [hw]
    rfl

theorem Close_spec (h : s.heap.cell p = some c) : Close p s = .ok () (s.closing p c) := by
  simp only [Close, client_bind, found_bind, h, Server.closing, Server.wake, Server.canWrite]
  by_cases hw : ((s.WSClientSet c.wsi).isSome && c.wsi != 0) = true
  · by_cases ho : c.m_state = .OPEN
    · simp only [hw, ho, if_true, Bool.true_and, decide_true]
      rw [setClient_bind, h]
      rfl
    · simp only [hw, ho, if_true, if_false, Bool.true_and, decide_false, Bool.false_eq_true]
      rfl
  · simp only [hw, Bool.false_and, Bool.false_eq_true, if_false]
    rfl

theorem Open_spec (h : s.heap.cell p = some c) (hw : c.wsi = 0) :
    Open p (some w) s = .ok () (s.connected p w) := by
  have h' : (s.heap.modify p fun c => { c with wsi := w }).cell p = some { c with wsi := w } := by
    simp only [Heap.cell_modify, h, if_true, Option.map_some]
  simp only [Open, client_bind, h, hw, if_true, setClient_bind, insert_bind, setClient, h',
    Heap.modify_modify]
  rfl

theorem destructor_spec (h : s.heap.cell p = some c) :
    WebSocketClient.destructor p s = .ok ()
      { s.closing p c with WSClientSet := Function.update s.WSClientSet c.wsi none } := by
  simp only [WebSocketClient.destructor, client_bind, found_bind, h]
  by_cases hf : (s.WSClientSet c.wsi).isSome = true
  · simp only [hf, if_true]
    rw [EStateM.bind_ok (Close_spec h)]
    rfl
  · rw [Server.closing_eq_self (by simp [Server.canWrite, hf])]
    simp only [hf]
    rfl

/-- What `Close` changes in a client that is being deleted is lost with it. -/
theorem delete_spec (h : s.heap.cell p = some c) : delete p s = .ok () (s.deleted p c) := by
  have hfree : (s.closing p c).heap.free p = s.heap.free p := by
    by_cases hw : s.canWrite c = true
    · rw [Server.closing_heap hw, Heap.free_modify]
    · rw [Server.closing_eq_self hw]
  by_cases hc : c.cls = .UCClientWSclient
  · simp only [delete, EStateM.get_bind, h, hc, if_true, UCClientWSclient.destructor]
    have hbase := destructor_spec
      (s := { s with g_WSClientSet := s.g_WSClientSet.filter (· != p), g_Instance := none }) h
    rw [EStateM.modify_bind, EStateM.bind_ok hbase]
    simp only [Server.deleted, hc, if_true, ← hfree]
    rfl
  · simp only [delete, EStateM.get_bind, h, hc, if_false]
    rw [EStateM.bind_ok (destructor_spec h)]
    simp only [Server.deleted, hc, if_false, ← hfree]
    rfl

theorem liftCmd_ok {m : CmdM α} {a : α} {t : CmdState}
    (h : m { version := s.version, trace := s.trace } = .ok a t) :
    liftCmd m s = .ok a { s with version := t.version, trace := t.trace } := by
  simp only [liftCmd, h]

theorem liftCmd_error {m : CmdM α} {f : Fault} {t : CmdState}
    (h : m { version := s.version, trace := s.trace } = .error f t) :
    liftCmd m s = .error f { s with version := t.version, trace := t.trace } := by
  simp only [liftCmd, h]

theorem OnOpen_spec (h : s.heap.cell p = some c) :
    OnOpen p s = .ok ()
      { s with
        g_WSClientSet := if c.cls = .UCClientWSclient then s.g_WSClientSet ++ [p]
          else s.g_WSClientSet
        trace := s.trace ++ [.OnOpen p] } := by
  simp only [OnOpen, client_bind, observe_bind, h]
  by_cases hc : c.cls = .UCClientWSclient
  · simp only [hc, if_true]
    rfl
  · simp only [hc, if_false]
    rfl

theorem OnSend_spec (h : s.heap.cell p = some c) :
    OnSend p s = .ok () { s with trace := s.trace ++ [.OnSend p] } := by
  simp only [OnSend, client_bind, h]
  rfl

theorem OnError_spec (h : s.heap.cell p = some c) (errorCode : Bytes) :
    OnError p errorCode s = .ok () { s with trace := s.trace ++ [.OnError p errorCode] } := by
  simp only [OnError, client_bind, h]
  rfl

theorem OnClose_spec (h : s.heap.cell p = some c) (errorCode : Bytes) :
    OnClose p errorCode s = .ok ()
      (if c.cls = .UCClientWSclient then
        Server.deleted { s with trace := s.trace ++ [.OnClose p errorCode] } p c
      else { s with trace := s.trace ++ [.OnClose p errorCode] }) := by
  simp only [OnClose, client_bind, observe_bind, h]
  by_cases hc : c.cls = .UCClientWSclient
  · simp only [hc, if_true]
    exact delete_spec h
  · simp only [hc, if_false]
    rfl

/-- One page is connected, over the connection `1`. -/
def onePage : Server where
  heap := Heap.empty.alloc { cls := .UCClientWSclient, wsi := 1, m_state := .OPEN }
  WSClientSet := Function.update (fun _ => none) 1 (some 0)
  g_WSClientSet := [0]
  g_Instance := some 0

end UCClient
