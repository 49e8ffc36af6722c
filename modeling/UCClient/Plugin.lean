import UCClient.Effects

/-!
# The Browser Plugin

The second user of the websocket classes is a browser control: each control has one
`ATLWSclient`, opens it for an address, sends, closes, and deletes it when its window is
destroyed. Its `websocket.cpp` is the one of the server with a lock around everything that
uses the registry, and with a look at the text that is about to be written.

All calls are made under the lock, so a call runs to its end before the next one starts;
the one thing that happens inside a call is that `lws_client_connect_via_info` may call
back for the connection it is making. What it does is chosen by the environment
(`Connect`): the address it uses, the callbacks it makes before it returns, and whether it
returns the connection or NULL.

The environment remembers of a connection what it remembers for the server (`World`), and
the contract is that of a client connection (`Life.admitsClient`): it is established at
most once, after `lws_client_connect_via_info` has returned, it receives only while it is
established, and it is destroyed only after a closing callback. A closing callback may come
several times. Addresses are reused.

## Main results

* `Plugin.callback_lws_effect`: every way a callback of the plugin can end.
* `Plugin.step_setwsurl`: every way an attempt to connect can end.
-/

namespace UCClient

open ServerM WebSocketClient

/-! ### Addresses -/

/-- What `lws_parse_uri` cuts an address into. -/
structure Uri where
  prot : Bytes
  ads : Bytes
  port : ℤ
  path : Bytes
  deriving DecidableEq, Repr

/-- The text before and after the first `://`. -/
def splitScheme : Bytes → Option (Bytes × Bytes)
  | [] => none
  | 58 :: 47 :: 47 :: rest => some ([], rest)
  | b :: rest => (splitScheme rest).map fun (prot, ads) => (b :: prot, ads)

/-- `atoi`: blanks, a sign, and digits, with the values outside an `int` cut off. -/
def atoi (b : Bytes) : ℤ :=
  let digits : Bytes → ℤ := fun b =>
    (b.takeWhile fun d => 48 ≤ d && d ≤ 57).foldl (fun n d => 10 * n + (d.toNat - 48 : ℕ)) 0
  match b.dropWhile fun d => d = 32 || 9 ≤ d && d ≤ 13 with
  | 45 :: rest => max (-2 ^ 31) (-digits rest)
  | 43 :: rest => min (2 ^ 31 - 1) (digits rest)
  | rest => min (2 ^ 31 - 1) (digits rest)

/-- The address without a port is one of a plain connection. -/
def isPlain (prot : Bytes) : Bool := prot = bytes "http" || prot = bytes "ws"

/-- The address without a port is one of a secure connection. -/
def isSecure (prot : Bytes) : Bool := prot = bytes "https" || prot = bytes "wss"

/-- The path at the end of an address: what follows a slash, if there is anything. -/
def uriPath (p : Bytes) : Bytes := if p.tail = [] then bytes "/" else p.tail

/-- `lws_parse_uri`, with the value `*port` has before. The result code is 0 for every
text. -/
def lws_parse_uri (p : Bytes) (port : ℤ) : ℤ × Uri :=
  let (prot, p) := (splitScheme p).getD ([], p)
  let port := if isPlain prot then 80 else if isSecure prot then 443 else port
  let (ads, p) := match p with
    | 91 :: rest => (rest.takeWhile (· != 93), (rest.dropWhile (· != 93)).tail)
    | _ => (p.takeWhile fun b => b != 58 && b != 47, p.dropWhile fun b => b != 58 && b != 47)
  let (port, p) := match p with
    | 58 :: rest => (atoi rest, rest.dropWhile (· != 47))
    | _ => (port, p)
  (0, { prot := prot, ads := ads, port := port, path := uriPath p })

/-- `struct lws_client_connect_info`, as far as the client fills it in. -/
structure ConInfo where
  address : Bytes := []
  port : ℤ := 0
  path : Bytes := []
  ssl_connection : ℤ := 0
  host : Bytes := []
  origin : Bytes := []
  deriving DecidableEq, Repr

/-- The path lws is asked for: with a slash before it. -/
def absolute (path : Bytes) : Bytes :=
  if path ≠ [] ∧ path.take 1 ≠ bytes "/" then bytes "/" ++ path else path

/-- What `Open` fills in for the address in its buffer; `none` when it does not parse. -/
def ConInfo.fill (info : ConInfo) (m_urlbuff : Bytes) : Option ConInfo :=
  let (err, uri) := lws_parse_uri m_urlbuff info.port
  if err ≠ 0 then none
  else
    let ssl := if isPlain uri.prot then 0 else info.ssl_connection
    let ssl := if isSecure uri.prot then 1 else ssl
    some { address := uri.ads, port := uri.port, path := absolute uri.path,
           ssl_connection := ssl, host := uri.ads, origin := uri.ads }

theorem uriPath_ne_nil (p : Bytes) : uriPath p ≠ [] := by
  rw [uriPath]
  split_ifs with h
  · decide
  · exact h

theorem absolute_take {path : Bytes} (h : path ≠ []) : (absolute path).take 1 = bytes "/" := by
  rw [absolute]
  split_ifs with hslash
  · rfl
  · by_contra hne
    exact hslash ⟨h, hne⟩

/-- Every text parses, and lws is asked for an absolute path. -/
theorem ConInfo.fill_spec (info : ConInfo) (url : Bytes) :
    ∃ info', info.fill url = some info' ∧ info'.path.take 1 = bytes "/" :=
  ⟨_, rfl, absolute_take (uriPath_ne_nil _)⟩

/-! ### Callbacks -/

/-- What lws does when it is asked for a connection: the address it uses, the callbacks it
makes for it before it returns, and whether it returns the connection or NULL. -/
structure Connect where
  wsi : Wsi
  callbacks : List Reason := []
  returned : Bool := true
  deriving DecidableEq, Repr

namespace Plugin

/-- The text about to be written is parsed, and `root["cmd"]` is read, to decide whether it
is logged. -/
def logText (sdata : Bytes) : Except Fault Unit :=
  match Reader.parse sdata with
  | none => .ok ()
  | some root => (root.index (bytes "cmd")).map fun _ => ()

/-- The look at the first entry of a queue. -/
def logHead : List Bytes → Except Fault Unit
  | [] => .ok ()
  | head :: _ =>
      if toInt (sizeSub head.length LWS_PRE) > 0 then logText (head.drop LWS_PRE) else .ok ()

/-- The look of `ws_write` at the queue of a client it is going to write for. -/
def logSend : Option ℕ → ServerM Unit
  | none => pure ()
  | some p => do
      let c ← client p
      if c.m_state ≠ .CLOSING then liftFault (logHead c.m_sendBuf)

/-- `callback_lws` of the plugin. No client of the plugin runs commands, so the SDK is
never asked. -/
def callback_lws (wsi : Wsi) (reason : Reason) : ServerM ℤ := do
  let wsclient := (← get).WSClientSet wsi
  logSend (reason.result.bind fun _ => wsclient)
  UCClient.callback_lws .WebSocketServer silentSdk wsi reason

/-- `lws_client_connect_via_info`. -/
def lws_client_connect_via_info (conn : Connect) : ServerM Wsi := do
  conn.callbacks.forM fun reason => do let _ ← callback_lws conn.wsi reason
  pure (if conn.returned then conn.wsi else 0)

/-! ### Calls of the control -/

/-- How a call into the plugin can stop the process. -/
inductive Stop
  | fault (f : Fault)
  /-- The C runtime ends the process: an invalid parameter was passed to it. -/
  | invalidParameter
  deriving DecidableEq, Repr

/-- Programs of the plugin. -/
abbrev PluginM := EStateM Stop Server

/-- A program of the shared classes. -/
def liftServer {α : Type} (m : ServerM α) : PluginM α := fun s =>
  match m s with
  | .ok a t => .ok a t
  | .error f t => .error (.fault f) t

/-- `strncpy_s(m_urlbuff, m_url.c_str(), sizeof(m_urlbuff))` into a buffer of 1024 bytes: a
text that does not fit with its NUL is an invalid parameter. -/
def strncpy_s (m_url : Bytes) : PluginM Bytes :=
  if (cstr m_url).length < 1024 then pure (cstr m_url) else throw .invalidParameter

/-- The end of `Open`: the client is registered under what lws returned, NULL included. -/
def register (p : ℕ) (wsi : Wsi) : ServerM Unit := do
  setClient p fun c => { c with wsi := wsi }
  ServerM.insert wsi p
  setClient p fun c => { c with m_state := .CONNECTING }

/-- `WebSocketClient::Open`: what `con_info` is afterwards. -/
def Open (p : ℕ) (m_url : Bytes) (con_info : ConInfo) (conn : Connect) : PluginM ConInfo := do
  let c ← liftServer (client p)
  if c.wsi ≠ 0 then pure con_info
  else
    let m_urlbuff ← strncpy_s m_url
    match con_info.fill m_urlbuff with
    | none => pure con_info
    | some con_info =>
        let wsi ← liftServer (lws_client_connect_via_info conn)
        liftServer (register p wsi)
        pure con_info

end Plugin

/-! ### The plugin in its environment -/

/-- The plugin and what its environment remembers. -/
structure PluginWorld extends World where
  con_info : ℕ → ConInfo := fun _ => {}

/-- A call into the plugin. -/
inductive PluginAction
  | lws (wsi : Wsi) (reason : Reason)
  /-- A control is made, and with it a client. -/
  | construct
  /-- `setwsurl`, which opens the client. -/
  | setwsurl (p : ℕ) (url : Bytes) (conn : Connect)
  | send (p : ℕ) (data : Bytes)
  | close (p : ℕ)
  /-- The window of the control is destroyed. -/
  | OnDestroy (p : ℕ)
  deriving DecidableEq, Repr

/-- The callbacks a client connection can get next. -/
def Life.admitsClient (l : Life) : Reason → Prop
  | .CLIENT_ESTABLISHED => l.alive = true ∧ l.established = false ∧ l.closed = false
  | .CLIENT_RECEIVE _ => l.alive = true ∧ l.established = true ∧ l.closed = false
  | .WSI_DESTROY => l.alive = true ∧ l.closed = true
  | .CLOSED _ | .CLOSED_CLIENT_HTTP _ | .CLIENT_CONNECTION_ERROR _ | .CLIENT_WRITEABLE _
  | .other => l.alive = true
  | .WSI_CREATE _ | .ESTABLISHED | .CLOSED_HTTP _ | .RECEIVE _ | .SERVER_WRITEABLE _ => False

instance (l : Life) : ∀ reason, Decidable (l.admitsClient reason)
  | .CLIENT_ESTABLISHED | .CLIENT_RECEIVE _ | .WSI_DESTROY => inferInstanceAs (Decidable (_ ∧ _))
  | .CLOSED _ | .CLOSED_CLIENT_HTTP _ | .CLIENT_CONNECTION_ERROR _ | .CLIENT_WRITEABLE _
  | .other => inferInstanceAs (Decidable (_ = true))
  | .WSI_CREATE _ | .ESTABLISHED | .CLOSED_HTTP _ | .RECEIVE _ | .SERVER_WRITEABLE _ =>
      inferInstanceAs (Decidable False)

/-- The callbacks lws can make for a connection it is still making. -/
def Reason.duringConnect : Reason → Bool
  | .WSI_CREATE hasUser => hasUser
  | .CLOSED _ | .CLOSED_CLIENT_HTTP _ | .CLIENT_CONNECTION_ERROR _ | .WSI_DESTROY | .other => true
  | .CLIENT_ESTABLISHED | .CLIENT_RECEIVE _ | .CLIENT_WRITEABLE _ | .ESTABLISHED
  | .CLOSED_HTTP _ | .RECEIVE _ | .SERVER_WRITEABLE _ => false

namespace Reason

variable {reason : Reason}

theorem not_establishes_of_duringConnect (h : reason.duringConnect = true) :
    ¬ reason.establishes = true := by
  cases reason <;> first | exact Bool.false_ne_true | cases h

theorem not_receives_of_duringConnect (h : reason.duringConnect = true) :
    ¬ reason.receives = true := by
  cases reason <;> first | exact Bool.false_ne_true | cases h

theorem result_of_duringConnect (h : reason.duringConnect = true) : reason.result = none := by
  cases reason <;> first | rfl | cases h

theorem ne_create_of_duringConnect (h : reason.duringConnect = true) :
    reason ≠ .WSI_CREATE false := by
  rintro rfl
  cases h

end Reason

namespace Connect

/-- A connection that is returned was not destroyed before. -/
def attempts (conn : Connect) : Prop :=
  ∀ reason ∈ conn.callbacks,
    reason.duringConnect = true ∧ (conn.returned = true → reason ≠ .WSI_DESTROY)

instance (conn : Connect) : Decidable conn.attempts := inferInstanceAs (Decidable (∀ _ ∈ _, _))

/-- The life of the address afterwards, for a connection of `p`. -/
def life (conn : Connect) (p : ℕ) : Life :=
  if conn.returned then
    { alive := true, closed := conn.callbacks.any Reason.closes, owner := some p }
  else {}

end Connect

namespace Plugin

/-- The contract of the environment. The length of what is sent is an `int`. -/
def contract (w : PluginWorld) : PluginAction → Prop
  | .lws wsi reason => wsi ≠ 0 ∧ (w.life wsi).admitsClient reason
  | .construct => True
  | .setwsurl p _ conn => w.server.heap.Live p ∧ conn.wsi ≠ 0 ∧
      (w.life conn.wsi).alive = false ∧ conn.attempts
  | .send p data => w.server.heap.Live p ∧ data.length < 2 ^ 31
  | .close p | .OnDestroy p => w.server.heap.Live p

instance (w : PluginWorld) : ∀ a, Decidable (contract w a)
  | .lws wsi reason => inferInstanceAs (Decidable (wsi ≠ 0 ∧ (w.life wsi).admitsClient reason))
  | .construct => inferInstanceAs (Decidable True)
  | .setwsurl _ _ _ | .send _ _ => inferInstanceAs (Decidable (_ ∧ _))
  | .close p | .OnDestroy p => inferInstanceAs (Decidable (w.server.heap.Live p))

/-- The client is not connected, so that `Open` asks lws for a connection. -/
def connects (w : PluginWorld) (p : ℕ) : Bool :=
  (w.server.heap.cell p).any fun c => c.wsi = 0

/-- The program ends and changes the process only. -/
def ran (w : PluginWorld) (m : ServerM Unit) : Except Stop PluginWorld :=
  match m w.server with
  | .ok _ s => .ok { w with server := s }
  | .error f _ => .error (.fault f)

/-- An action is taken. -/
def step (w : PluginWorld) : PluginAction → Except Stop PluginWorld
  | .lws wsi reason =>
      match callback_lws wsi reason (w.before (.lws wsi reason)).server with
      | .ok r s => .ok { w with
          toWorld := (w.before (.lws wsi reason)).after s r (.lws wsi reason) }
      | .error f _ => .error (.fault f)
  | .construct => ran w do let _ ← ATLWSclient.new
  | .setwsurl p url conn =>
      if connects w p then
        match Open p url (w.con_info p) conn (w.fresh conn.wsi).server with
        | .ok info s => .ok
            { server := s
              life := Function.update w.life conn.wsi (conn.life p)
              failing := (w.fresh conn.wsi).failing
              con_info := Function.update w.con_info p info }
        | .error f _ => .error f
      else
        match Open p url (w.con_info p) conn w.server with
        | .ok info s => .ok
            { w with server := s, con_info := Function.update w.con_info p info }
        | .error f _ => .error f
  | .send p data => ran w (Send p data)
  | .close p => ran w (Close p)
  | .OnDestroy p => ran w (delete p)

/-- The plugin. -/
def system : StepSystem PluginWorld PluginAction Stop where
  init := {}
  allowed := contract
  step := step

instance (w : PluginWorld) (a : PluginAction) : Decidable (system.allowed w a) :=
  inferInstanceAs (Decidable (contract w a))

/-! ### What a callback can do -/

/-- All clients are clients of the plugin, and a registered one knows its connection. -/
structure Base (s : Server) : Prop where
  cls : ∀ p c, s.heap.cell p = some c → c.cls = .ATLWSclient
  registered : ∀ wsi p, wsi ≠ 0 → s.WSClientSet wsi = some p →
    ∃ c, s.heap.cell p = some c ∧ c.wsi = wsi

end Plugin

/-- What a callback of the plugin did: the value returned to lws, and the state it left. -/
inductive CallbackEffect (s : Server) (wsi : Wsi) : Reason → ℤ → Server → Prop
  | unregistered {reason : Reason} (hreg : s.WSClientSet wsi = none) :
      CallbackEffect s wsi reason (if reason.result.isSome then -1 else 0) s
  | opened {reason : Reason} {p : ℕ} {c : Client} (hest : reason.establishes = true)
      (hreg : s.WSClientSet wsi = some p) (hc : s.heap.cell p = some c) :
      CallbackEffect s wsi reason 0 (s.opened wsi p c)
  /-- A client that was not closed before is closed. -/
  | closed {reason : Reason} {p : ℕ} {c : Client} {code : Bytes} {obs : List Obs}
      (hcl : reason.closes = true) (hreg : s.WSClientSet wsi = some p)
      (hc : s.heap.cell p = some c)
      (hobs : obs = [.OnClose p code] ∨ obs = [.OnError p code, .OnClose p code]) :
      CallbackEffect s wsi reason 0 (s.closedBy wsi p c obs)
  | erased {reason : Reason} {p : ℕ} {c : Client} (hcl : reason.closes = true)
      (hreg : s.WSClientSet wsi = some p) (hc : s.heap.cell p = some c)
      (hs : c.m_state = .CLOSED) : CallbackEffect s wsi reason 0 (s.erased wsi)
  | received {reason : Reason} {p : ℕ} {c : Client} {message : Bytes}
      (hr : reason.receives = true) (hreg : s.WSClientSet wsi = some p)
      (hc : s.heap.cell p = some c) :
      CallbackEffect s wsi reason 0 (s.observed [.OnMessage p message])
  /-- A client that wants to close the connection closes it. -/
  | closing {reason : Reason} {p : ℕ} {c : Client} {res : ℤ} (hr : reason.result = some res)
      (hreg : s.WSClientSet wsi = some p) (hc : s.heap.cell p = some c)
      (hs : c.m_state = .CLOSING) : CallbackEffect s wsi reason (-1) s
  /-- `lws_write` refused the data. -/
  | refused {reason : Reason} {p : ℕ} {c : Client} {res : ℤ} {obs : List Obs}
      (hr : reason.result = some res) (hreg : s.WSClientSet wsi = some p)
      (hc : s.heap.cell p = some c) (hobs : ∀ o ∈ obs, o.dataOf = some p)
      (hq : ∀ s, writeQueue p res c.m_sendBuf s = .ok none (s.observed obs)) :
      CallbackEffect s wsi reason (-1) (s.observed (.OnSend p :: obs))
  | wrote {reason : Reason} {p : ℕ} {c : Client} {res : ℤ} {obs : List Obs}
      {queue : List Bytes} (hr : reason.result = some res) (hreg : s.WSClientSet wsi = some p)
      (hc : s.heap.cell p = some c) (hs : c.m_state ≠ .CLOSING)
      (hobs : ∀ o ∈ obs, o.dataOf = some p)
      (hq : ∀ s, writeQueue p res c.m_sendBuf s = .ok (some queue) (s.observed obs)) :
      CallbackEffect s wsi reason 0 (s.wrote wsi p queue (.OnSend p :: obs))
  /-- There was nothing to do for the client. -/
  | ignored {reason : Reason} (hest : reason.establishes = false) (hcl : reason.closes = false)
      (hw : reason.result = none) : CallbackEffect s wsi reason 0 s

namespace Plugin

variable {s s' : Server} {p : ℕ} {c : Client} {wsi : Wsi} {reason : Reason} {r : ℤ}

/-- A client of the plugin is not deleted when it is closed. -/
theorem Base.closedBy_heap (hb : Base s) (hc : s.heap.cell p = some c) (wsi : Wsi)
    (obs : List Obs) :
    (s.closedBy wsi p c obs).heap = s.heap.modify p fun c => { c with m_state := .CLOSED } := by
  simp [Server.closedBy, hb.cls p c hc]

/-- Looking at a text changes nothing. -/
theorem logSend_ok {wsclient : Option ℕ} {u : Unit} (h : logSend wsclient s = .ok u s') :
    s' = s := by
  cases wsclient with
  | none =>
      cases h
      rfl
  | some p =>
      rw [logSend, client_bind] at h
      cases hc : s.heap.cell p with
      | none =>
          rw [hc] at h
          cases h
      | some c =>
          simp only [hc] at h
          split_ifs at h
          · cases hlog : logHead c.m_sendBuf <;> rw [hlog] at h <;> cases h
            rfl
          · cases h
            rfl

/-- A callback of the plugin that ends does what the shared callback does. -/
theorem callback_lws_ok (h : callback_lws wsi reason s = .ok r s') :
    UCClient.callback_lws .WebSocketServer silentSdk wsi reason s = .ok r s' := by
  rw [callback_lws, EStateM.get_bind] at h
  obtain ⟨u, t, ht, hrest⟩ := EStateM.bind_ok_inv h
  rwa [logSend_ok ht] at hrest

/-- A message for a client of the plugin is passed on. -/
theorem receive_plugin (hc : s.heap.cell p = some c) (hcls : c.cls = .ATLWSclient)
    (data : Option Bytes) :
    receive silentSdk (some p) data s = .ok () (s.observed [.OnMessage p (data.getD [])]) := by
  simp only [receive, virtualOnMessage, client_bind, observe_bind, hc, hcls]
  rfl

/-- A callback for a connection without a client does nothing; a `WRITEABLE` callback closes
it. -/
theorem callback_lws_unregistered (hreg : s.WSClientSet wsi = none)
    (hno : reason ≠ .WSI_CREATE false) :
    callback_lws wsi reason s = .ok (if reason.result.isSome then -1 else 0) s := by
  have hrun : callback_lws wsi reason s =
      UCClient.callback_lws .WebSocketServer silentSdk wsi reason s := by
    rw [callback_lws, EStateM.get_bind, hreg]
    cases reason <;> rfl
  have herased := erased_eq_self hreg
  rw [hrun, UCClient.callback_lws, EStateM.get_bind, hreg]
  cases reason with
  | CLIENT_CONNECTION_ERROR data => exact congrArg (EStateM.Result.ok 0) herased
  | CLOSED data | CLOSED_CLIENT_HTTP data | CLOSED_HTTP data =>
      exact congrArg (EStateM.Result.ok 0) herased
  | WSI_CREATE hasUser =>
      cases hasUser with
      | true => rfl
      | false => exact absurd rfl hno
  | ESTABLISHED | CLIENT_ESTABLISHED | RECEIVE | CLIENT_RECEIVE | SERVER_WRITEABLE
  | CLIENT_WRITEABLE | WSI_DESTROY | other => rfl

/-- **Every way a callback of the plugin can end.** -/
theorem callback_lws_effect (hb : Base s) (hw : wsi ≠ 0) (hno : reason ≠ .WSI_CREATE false)
    (h : callback_lws wsi reason s = .ok r s') : CallbackEffect s wsi reason r s' := by
  cases hreg : s.WSClientSet wsi with
  | none =>
      rw [callback_lws_unregistered hreg hno] at h
      cases h
      exact .unregistered hreg
  | some p =>
      obtain ⟨c, hc, hcw⟩ := hb.registered wsi p hw hreg
      have hcls := hb.cls p c hc
      have h := callback_lws_ok h
      rw [UCClient.callback_lws, EStateM.get_bind, hreg] at h
      cases reason with
      | ESTABLISHED | CLIENT_ESTABLISHED =>
          obtain ⟨rfl, hm⟩ := return_zero (m := established wsi (some p)) h
          rw [established_spec hc] at hm
          cases hm
          exact .opened rfl hreg hc
      | CLIENT_CONNECTION_ERROR data =>
          obtain ⟨rfl, hm⟩ := return_zero (m := connectionError wsi (some p) data) h
          rw [connectionError_spec hc hcw] at hm
          cases hm
          exact .closed rfl hreg hc (.inr rfl)
      | CLOSED data | CLOSED_CLIENT_HTTP data | CLOSED_HTTP data =>
          obtain ⟨rfl, hm⟩ := return_zero (m := lwsclose wsi (some p) data) h
          by_cases hs : c.m_state = .CLOSED
          · rw [lwsclose_closed hc hs] at hm
            cases hm
            exact .erased rfl hreg hc hs
          · rw [lwsclose_spec hc hcw hs] at hm
            cases hm
            exact .closed rfl hreg hc (.inl rfl)
      | RECEIVE data | CLIENT_RECEIVE data =>
          obtain ⟨rfl, hm⟩ := return_zero (m := receive silentSdk (some p) data) h
          rw [receive_plugin hc hcls] at hm
          cases hm
          exact .received rfl hreg hc
      | SERVER_WRITEABLE res | CLIENT_WRITEABLE res =>
          obtain ⟨hs, rfl, rfl⟩ | ⟨obs, hobs, ⟨rfl, rfl, hq⟩ | ⟨queue, rfl, rfl, hs, hq⟩⟩ :=
            ws_write_inv hc h
          · exact .closing rfl hreg hc hs
          · exact .refused rfl hreg hc hobs hq
          · exact .wrote rfl hreg hc hs hobs hq
      | WSI_CREATE hasUser =>
          cases hasUser with
          | true =>
              cases h
              exact .ignored rfl rfl rfl
          | false => exact absurd rfl hno
      | WSI_DESTROY =>
          obtain ⟨rfl, hm⟩ := return_zero (m := wsiDestroy (some p)) h
          simp only [wsiDestroy, client_bind, hc, hcls] at hm
          cases hm
          exact .ignored rfl rfl rfl
      | other =>
          cases h
          exact .ignored rfl rfl rfl

/-! ### What an attempt to connect can do -/

/-- The callbacks lws made while it was asked for a connection. -/
def called (wsi : Wsi) (reasons : List Reason) : ServerM Unit :=
  reasons.forM fun reason => do let _ ← callback_lws wsi reason

/-- What every callback keeps, the callbacks of an attempt keep. -/
theorem called_invariant {I : Server → Prop} {reasons : List Reason}
    (hI : ∀ reason ∈ reasons, ∀ s s' r, I s → callback_lws wsi reason s = .ok r s' → I s')
    (hs : I s) (h : called wsi reasons s = .ok () s') : I s' := by
  induction reasons generalizing s with
  | nil =>
      cases h
      exact hs
  | cons reason reasons ih =>
      obtain ⟨u, t, ht, hrest⟩ := EStateM.bind_ok_inv
        (m := do let _ ← callback_lws wsi reason) (f := fun _ => called wsi reasons) h
      obtain ⟨r, t', hcall, hpure⟩ := EStateM.bind_ok_inv ht
      cases hpure
      exact ih (fun reason' hr => hI reason' (List.mem_cons_of_mem _ hr))
        (hI reason List.mem_cons_self _ _ _ hs hcall) hrest

/-- The callbacks for an address that is not registered do nothing. -/
theorem called_unregistered {reasons : List Reason} (hreg : s.WSClientSet wsi = none)
    (hno : .WSI_CREATE false ∉ reasons) : called wsi reasons s = .ok () s := by
  induction reasons with
  | nil => rfl
  | cons reason reasons ih =>
      rw [List.mem_cons, not_or] at hno
      have hfirst : (do let _ ← callback_lws wsi reason : ServerM Unit) s = .ok () s := by
        rw [EStateM.bind_ok (callback_lws_unregistered hreg (Ne.symm hno.1))]
        rfl
      exact (EStateM.bind_ok (f := fun _ => called wsi reasons) hfirst).trans (ih hno.2)

theorem liftServer_ok {α : Type} {m : ServerM α} {a : α} (h : m s = .ok a s') :
    liftServer m s = .ok a s' := by
  rw [liftServer, h]

theorem liftServer_ok_inv {α : Type} {m : ServerM α} {a : α} (h : liftServer m s = .ok a s') :
    m s = .ok a s' := by
  rw [liftServer] at h
  split at h
  · next hm =>
    cases h
    exact hm
  · cases h

theorem lws_client_connect_via_info_ok {conn : Connect}
    (h : called conn.wsi conn.callbacks s = .ok () s') :
    lws_client_connect_via_info conn s = .ok (if conn.returned then conn.wsi else 0) s' :=
  EStateM.bind_ok h

theorem register_spec (hc : s.heap.cell p = some c) (wsi : Wsi) :
    register p wsi s = .ok () (s.connected p wsi) := by
  have hc' : (s.heap.modify p fun c => { c with wsi := wsi }).cell p =
      some { c with wsi := wsi } := by
    simp only [Heap.cell_modify, hc, if_true, Option.map_some]
  simp only [register, setClient_bind, hc, insert_bind, setClient, hc', Heap.modify_modify]
  rfl

/-- `Open` on a client that has a connection. -/
theorem Open_connected (hc : s.heap.cell p = some c) (hw : c.wsi ≠ 0) (url : Bytes)
    (info : ConInfo) (conn : Connect) : Open p url info conn s = .ok info s := by
  have hclient : client p s = .ok c s := by rw [client, hc]
  rw [Open, EStateM.bind_ok (liftServer_ok hclient), if_pos hw]
  rfl

/-- An address that does not fit into the buffer ends the process. -/
theorem Open_invalid (hc : s.heap.cell p = some c) (hw : c.wsi = 0) {url : Bytes}
    (hlen : ¬ (cstr url).length < 1024) (info : ConInfo) (conn : Connect) :
    Open p url info conn s = .error .invalidParameter s := by
  have hclient : client p s = .ok c s := by rw [client, hc]
  have hcopy : strncpy_s url s = .error .invalidParameter s := by
    rw [strncpy_s, if_neg hlen]
    rfl
  rw [Open, EStateM.bind_ok (liftServer_ok hclient), if_neg (not_not.mpr hw),
    EStateM.bind_error hcopy]

/-- `Open` on a client without a connection: the callbacks made inside, and then the client
is registered under what was returned. -/
theorem Open_spec (hc : s.heap.cell p = some c) (hw : c.wsi = 0) {url : Bytes}
    (hlen : (cstr url).length < 1024) (info : ConInfo) {conn : Connect} {t : Server}
    {d : Client} (ht : called conn.wsi conn.callbacks s = .ok () t)
    (hd : t.heap.cell p = some d) :
    ∃ info', Open p url info conn s =
      .ok info' (t.connected p (if conn.returned then conn.wsi else 0)) := by
  obtain ⟨info', hinfo, -⟩ := info.fill_spec (cstr url)
  refine ⟨info', ?_⟩
  have hclient : client p s = .ok c s := by rw [client, hc]
  have hcopy : strncpy_s url s = .ok (cstr url) s := by
    rw [strncpy_s, if_pos hlen]
    rfl
  rw [Open, EStateM.bind_ok (liftServer_ok hclient), if_neg (not_not.mpr hw),
    EStateM.bind_ok hcopy, hinfo]
  dsimp only
  rw [EStateM.bind_ok (liftServer_ok (lws_client_connect_via_info_ok ht))]
  rw [EStateM.bind_ok (liftServer_ok (register_spec hd _))]
  rfl

/-! ### What a step can do -/

/-- What an action did to the process and to what its environment remembers. -/
inductive StepEffect (w : World) : PluginAction → World → Prop
  | lws {wsi : Wsi} {reason : Reason} {r : ℤ} {s' : Server}
      (he : CallbackEffect (w.before (.lws wsi reason)).server wsi reason r s') :
      StepEffect w (.lws wsi reason) ((w.before (.lws wsi reason)).after s' r (.lws wsi reason))
  | constructed : StepEffect w .construct
      { w with server := { w.server with
          heap := w.server.heap.alloc { cls := .ATLWSclient, wsi := 0 } } }
  /-- A client that has a connection is not opened again. -/
  | kept {p : ℕ} {url : Bytes} {conn : Connect} {c : Client}
      (hc : w.server.heap.cell p = some c) (hw : c.wsi ≠ 0) :
      StepEffect w (.setwsurl p url conn) w
  | attempted {p : ℕ} {url : Bytes} {conn : Connect} {c d : Client} {t : Server}
      (hc : w.server.heap.cell p = some c) (hw : c.wsi = 0)
      (ht : called conn.wsi conn.callbacks (w.fresh conn.wsi).server = .ok () t)
      (hd : t.heap.cell p = some d) :
      StepEffect w (.setwsurl p url conn)
        { server := t.connected p (if conn.returned then conn.wsi else 0)
          life := Function.update w.life conn.wsi (conn.life p)
          failing := Function.update w.failing conn.wsi false }
  | sent {p : ℕ} {data : Bytes} {c : Client} (hc : w.server.heap.cell p = some c) :
      StepEffect w (.send p data) { w with server := w.server.sent p c data }
  | closing {p : ℕ} {c : Client} (hc : w.server.heap.cell p = some c) :
      StepEffect w (.close p) { w with server := w.server.closing p c }
  | deleted {p : ℕ} {c : Client} (hc : w.server.heap.cell p = some c) :
      StepEffect w (.OnDestroy p) { w with server := w.server.deleted p c }

theorem ran_ok {w w' : PluginWorld} {m : ServerM Unit} (h : ran w m = .ok w') :
    ∃ u s', m w.server = .ok u s' ∧ w' = { w with server := s' } := by
  rw [ran] at h
  split at h
  · next u s' hm => exact ⟨u, s', hm, (Except.ok.inj h).symm⟩
  · cases h

theorem Base.before (hb : Base s) {w : World} (hs : w.server = s) (a : Action) :
    Base (w.before a).server := by
  obtain ⟨writable, hw⟩ := w.before_server a
  rw [hw, hs]
  exact ⟨hb.cls, hb.registered⟩

/-- What `Open` did, where it ended. -/
theorem Open_ok {info info' : ConInfo} {url : Bytes} {conn : Connect}
    (hc : s.heap.cell p = some c) (hw : c.wsi = 0)
    (h : Open p url info conn s = .ok info' s') :
    ∃ t d, called conn.wsi conn.callbacks s = .ok () t ∧ t.heap.cell p = some d ∧
      s' = t.connected p (if conn.returned then conn.wsi else 0) := by
  have hclient : client p s = .ok c s := by rw [client, hc]
  by_cases hlen : (cstr url).length < 1024
  · obtain ⟨info'', hinfo, -⟩ := info.fill_spec (cstr url)
    have hcopy : strncpy_s url s = .ok (cstr url) s := by
      rw [strncpy_s, if_pos hlen]
      rfl
    rw [Open, EStateM.bind_ok (liftServer_ok hclient), if_neg (not_not.mpr hw),
      EStateM.bind_ok hcopy, hinfo] at h
    obtain ⟨wsi, t, hconn, hrest⟩ := EStateM.bind_ok_inv h
    obtain ⟨u, t', hreg, hpure⟩ := EStateM.bind_ok_inv hrest
    cases hpure
    obtain ⟨v, t'', hcalled, hpure⟩ := EStateM.bind_ok_inv
      (m := called conn.wsi conn.callbacks) (liftServer_ok_inv hconn)
    cases hpure
    have hreg := liftServer_ok_inv hreg
    cases hd : t.heap.cell p with
    | none =>
        simp only [register, setClient_bind, hd] at hreg
        cases hreg
    | some d =>
        rw [register_spec hd] at hreg
        cases hreg
        exact ⟨t, d, hcalled, hd, rfl⟩
  · rw [Open_invalid hc hw hlen] at h
    cases h

/-- **Every action that ends has one of the effects.** -/
theorem step_effect {w w' : PluginWorld} {a : PluginAction} (hb : Base w.server)
    (hal : contract w a) (h : step w a = .ok w') : StepEffect w.toWorld a w'.toWorld := by
  cases a with
  | lws wsi reason =>
      obtain ⟨hne, hadm⟩ := hal
      rw [step] at h
      split at h
      · next r s' hs =>
        cases h
        refine .lws (callback_lws_effect (hb.before rfl _) hne ?_ hs)
        rintro rfl
        exact hadm
      · cases h
  | construct =>
      rw [step] at h
      obtain ⟨u, s', hs, rfl⟩ := ran_ok h
      cases hs
      exact .constructed
  | setwsurl p url conn =>
      obtain ⟨c, hc⟩ := Heap.live_iff.mp hal.1
      rw [step] at h
      by_cases hw : c.wsi = 0
      · have hcon : connects w p = true := by simp [connects, hc, hw]
        rw [if_pos hcon] at h
        split at h
        · next info s' hs =>
          cases h
          obtain ⟨t, d, ht, hd, rfl⟩ := Open_ok (s := (w.fresh conn.wsi).server) hc hw hs
          exact .attempted hc hw ht hd
        · cases h
      · have hcon : ¬ connects w p = true := by simp [connects, hc, hw]
        rw [if_neg hcon, Open_connected hc hw] at h
        cases h
        exact .kept hc hw
  | send p data =>
      obtain ⟨c, hc⟩ := Heap.live_iff.mp hal.1
      obtain ⟨u, s', hs, rfl⟩ := ran_ok h
      rw [Send_spec hc] at hs
      cases hs
      exact .sent hc
  | close p =>
      obtain ⟨c, hc⟩ := Heap.live_iff.mp hal
      obtain ⟨u, s', hs, rfl⟩ := ran_ok h
      rw [Close_spec hc] at hs
      cases hs
      exact .closing hc
  | OnDestroy p =>
      obtain ⟨c, hc⟩ := Heap.live_iff.mp hal
      obtain ⟨u, s', hs, rfl⟩ := ran_ok h
      rw [delete_spec hc] at hs
      cases hs
      exact .deleted hc

end Plugin

end UCClient
