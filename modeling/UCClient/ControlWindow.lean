import UCClient.Mailboxes
import UCClient.PluginRegistry

/-!
# The Window of a Control

The upcalls of an `ATLWSclient` come on the thread of lws, and the functions of the page can
only be called on the thread of the control. So each upcall posts a message to the window of
its control, with a `new std::string` for its text; the window handles its messages later, in
the order they came, calls the function of the page that is set for the event at that moment,
and deletes the string.

`PostMessage` can fail: the queue of a thread takes 10000 messages by default. The client
ignores this, and the event is missed. So a string is lost when its message is refused, or when
the window is destroyed before it has handled the message. Which posts are refused is chosen by
the environment, with each action that makes some.

What the browser does inside a handler is chosen by the environment (`Site`): whether the
document has a script engine when the control asks for it, and whether the engine makes the
object that is passed to the function. The functions of the page may call the control again;
these calls are actions of their own, as a handler uses nothing but its string after the
function has returned.
-/

namespace UCClient

/-- The messages an `ATLWSclient` posts to the window of its control. -/
inductive WindowMessage
  | WM_onOpen
  | WM_onClose
  | WM_onError
  | WM_onMessage
  deriving DecidableEq, Repr

/-- The window of a control: not yet made, there, or destroyed. -/
inductive Window
  | none
  | live
  | destroyed
  deriving DecidableEq, Repr

/-- The functions of the page a control calls, null at first. -/
structure Handlers where
  m_onopen : Option ℕ := none
  m_onmessage : Option ℕ := none
  m_onclose : Option ℕ := none
  m_onerror : Option ℕ := none
  deriving DecidableEq, Repr

namespace Handlers

def put_onopen (h : Handlers) (newVal : Option ℕ) : Handlers := { h with m_onopen := newVal }

def put_onmessage (h : Handlers) (newVal : Option ℕ) : Handlers := { h with m_onmessage := newVal }

def put_onclose (h : Handlers) (newVal : Option ℕ) : Handlers := { h with m_onclose := newVal }

def put_onerror (h : Handlers) (newVal : Option ℕ) : Handlers := { h with m_onerror := newVal }

/-- `onexception` is another name of `onerror`. -/
def put_onexception (h : Handlers) (newVal : Option ℕ) : Handlers := h.put_onerror newVal

/-- The function set for an upcall. -/
def function (h : Handlers) : Obs → Option ℕ
  | .OnOpen _ => h.m_onopen
  | .OnMessage _ _ => h.m_onmessage
  | .OnClose _ _ => h.m_onclose
  | .OnError _ _ => h.m_onerror
  | _ => none

end Handlers

/-- The properties of a control a page can set. -/
inductive HandlerName
  | onopen
  | onmessage
  | onclose
  | onerror
  | onexception
  deriving DecidableEq, Repr

/-- The property is set. -/
def Handlers.put (h : Handlers) (newVal : Option ℕ) : HandlerName → Handlers
  | .onopen => h.put_onopen newVal
  | .onmessage => h.put_onmessage newVal
  | .onclose => h.put_onclose newVal
  | .onerror => h.put_onerror newVal
  | .onexception => h.put_onexception newVal

/-- What the browser does when a function is going to be called: whether `get_Script` finds a
script engine, and whether the engine makes an object. -/
structure Site where
  script : Bool := true
  object : Bool := true
  deriving DecidableEq, Repr

/-- An upcall whose message was handled, and the function that was called for it. -/
structure Fired where
  event : Obs
  function : Option ℕ
  deriving DecidableEq, Repr

/-- The plugin with the windows of its controls. `fired`, `posted`, `refused` and `lost` only
remember what happened: the messages that were handled, the upcalls whose message was taken and
those whose message was not, and the strings nobody will delete. -/
structure ControlWorld extends PluginWorld where
  window : ℕ → Window := fun _ => .none
  handlers : ℕ → Handlers := fun _ => {}
  /-- `m_Script` is not NULL. -/
  m_Script : ℕ → Bool := fun _ => false
  mail : Mail ℕ WindowMessage Bytes := {}
  fired : ℕ → List Fired := fun _ => []
  posted : ℕ → List Obs := fun _ => []
  refused : List Obs := []
  lost : List ℕ := []

/-! ### Upcalls -/

namespace ATLWSclient

/-- `PostMessage` to the window of the control, with a string made for it. The message is taken
if there is the window and Windows accepts it. The client does not look at the outcome, and when
the message is refused nobody has the string. -/
def PostMessage (w : ControlWorld) (accepted : Bool) (p : ℕ) (event : Obs) (msg : WindowMessage)
    (param : Option Bytes) : ControlWorld :=
  if accepted = true ∧ w.window p = .live then
    { w with
      mail := w.mail.post p msg param
      posted := Function.update w.posted p (w.posted p ++ [event]) }
  else
    { w with
      mail := param.elim w.mail w.mail.leak
      refused := w.refused ++ [event]
      lost := w.lost ++ (param.map fun _ => w.mail.heap.next).toList }

def OnOpen (w : ControlWorld) (accepted : Bool) (p : ℕ) : ControlWorld :=
  PostMessage w accepted p (.OnOpen p) .WM_onOpen none

def OnClose (w : ControlWorld) (accepted : Bool) (p : ℕ) (errorCode : Bytes) : ControlWorld :=
  PostMessage w accepted p (.OnClose p errorCode) .WM_onClose (some errorCode)

def OnError (w : ControlWorld) (accepted : Bool) (p : ℕ) (errorCode : Bytes) : ControlWorld :=
  PostMessage w accepted p (.OnError p errorCode) .WM_onError (some errorCode)

def OnMessage (w : ControlWorld) (accepted : Bool) (p : ℕ) (message : Bytes) : ControlWorld :=
  PostMessage w accepted p (.OnMessage p message) .WM_onMessage (some message)

/-- An upcall; nothing else that is observed posts a message. -/
def upcall (w : ControlWorld) (accepted : Bool) : Obs → ControlWorld
  | .OnOpen p => OnOpen w accepted p
  | .OnClose p errorCode => OnClose w accepted p errorCode
  | .OnError p errorCode => OnError w accepted p errorCode
  | .OnMessage p message => OnMessage w accepted p message
  | _ => w

/-- The upcalls among some observations, one after another, with the outcomes of their posts;
posts beyond these are accepted. -/
def upcalled (w : ControlWorld) : List Bool → List Obs → ControlWorld
  | _, [] => w
  | accepted, o :: obs =>
      if o.upcallOf = none then upcalled w accepted obs
      else upcalled (upcall w (accepted.headD true) o) accepted.tail obs

end ATLWSclient

/-! ### Handlers of the window -/

/-- How the control can stop the process. -/
inductive ControlStop
  | plugin (stop : Plugin.Stop)
  /-- A string that does not exist is used. -/
  | string
  /-- A null pointer to the script engine or to an object of it is used. -/
  | nullObject
  deriving DecidableEq, Repr

namespace CATLWebSocket

/-- The function of the page is called, if there is one, with an object the script engine
makes. Without an engine `JSNewObject` uses a null pointer; without an object `JSSetProperty`
does, which only `onMessage` calls. -/
def invoke (w : ControlWorld) (p : ℕ) (site : Site) (sets : Bool) :
    Option ℕ → Except ControlStop ControlWorld
  | none => .ok w
  | some _ =>
      if (w.m_Script p || site.script) = false then .error .nullObject
      else if sets && !site.object then .error .nullObject
      else .ok { w with m_Script := Function.update w.m_Script p true }

/-- The end of a handler: the message is off the queue and its string deleted. -/
def finish (w : ControlWorld) (p : ℕ) (event : Obs) : ControlWorld :=
  { w with
    mail := w.mail.take p
    fired := Function.update w.fired p
      (w.fired p ++ [⟨event, (w.handlers p).function event⟩]) }

/-- A handler: the function for the event is called, and the message is done. -/
def fire (w : ControlWorld) (p : ℕ) (site : Site) (sets : Bool) (event : Obs) :
    Except ControlStop ControlWorld := do
  let w ← invoke w p site sets ((w.handlers p).function event)
  pure (finish w p event)

def onOpen (w : ControlWorld) (p : ℕ) (site : Site) : Except ControlStop ControlWorld :=
  fire w p site false (.OnOpen p)

def onClose (w : ControlWorld) (p : ℕ) (param : Bytes) (site : Site) :
    Except ControlStop ControlWorld :=
  fire w p site false (.OnClose p param)

def onError (w : ControlWorld) (p : ℕ) (param : Bytes) (site : Site) :
    Except ControlStop ControlWorld :=
  fire w p site false (.OnError p param)

/-- The message is parsed, and `root["type"]` is read, to decide whether it is logged. -/
def logType (param : Bytes) : Except Fault Unit :=
  match Reader.parse param with
  | none => .ok ()
  | some root => (root.index (bytes "type")).map fun _ => ()

def onMessage (w : ControlWorld) (p : ℕ) (param : Bytes) (site : Site) :
    Except ControlStop ControlWorld := do
  (logType param).mapError fun f => .plugin (.fault f)
  fire w p site true (.OnMessage p param)

/-- The message map of the window, for the first message of its queue. Every handler uses the
client, for its log, and its string. -/
def dispatch (w : ControlWorld) (p : ℕ) (site : Site) : Except ControlStop ControlWorld :=
  match w.mail.box p, w.server.heap.cell p with
  | [], _ => .ok w
  | _ :: _, none => .error (.plugin (.fault (.dangling p)))
  | l :: _, some _ =>
      match Mail.read w.mail.heap l with
      | some (.WM_onOpen, _) => onOpen w p site
      | some (.WM_onClose, some param) => onClose w p param site
      | some (.WM_onError, some param) => onError w p param site
      | some (.WM_onMessage, some param) => onMessage w p param site
      | _ => .error .string

end CATLWebSocket

/-! ### Runs -/

/-- What happens to the controls. -/
inductive ControlAction
  /-- An action of the plugin, with the outcomes of the posts it makes. -/
  | plugin (a : PluginAction) (accepted : List Bool := [])
  /-- The control gets its window. It has no site yet, and so finds no script engine. -/
  | SetClientSite (p : ℕ)
  /-- The page sets a function. -/
  | put (p : ℕ) (name : HandlerName) (newVal : Option ℕ)
  /-- The window handles the first of its messages. -/
  | dispatch (p : ℕ) (site : Site)
  deriving DecidableEq, Repr

/-- The control an action is a call of. -/
def PluginAction.control : PluginAction → Option ℕ
  | .setwsurl p _ _ | .send p _ | .close p | .OnDestroy p => some p
  | .lws _ _ | .construct => none

/-- What happens to a window with its client: `OnDestroy` deletes the client while the window
is destroyed, with its queue. -/
def ControlWorld.destroyed (w : ControlWorld) : PluginAction → ControlWorld
  | .OnDestroy p =>
      { w with
        window := Function.update w.window p .destroyed
        mail := w.mail.discard p
        lost := w.lost ++ Mail.params (w.mail.box p) }
  | .lws _ _ | .construct | .setwsurl _ _ _ | .send _ _ | .close _ => w

namespace Control

/-- The contract of the environment: that of the plugin; a control is only called while it
has its window, and only a message that is there is handled. -/
def contract (w : ControlWorld) : ControlAction → Prop
  | .plugin a _ => Plugin.contract w.toPluginWorld a ∧ ∀ p ∈ a.control, w.window p = .live
  | .SetClientSite p => w.server.heap.Live p ∧ w.window p = .none
  | .put p _ _ => w.window p = .live
  | .dispatch p _ => w.window p = .live ∧ w.mail.box p ≠ []

instance (w : ControlWorld) : ∀ a, Decidable (contract w a)
  | .plugin _ _ | .SetClientSite _ => inferInstanceAs (Decidable (_ ∧ _))
  | .put p _ _ => inferInstanceAs (Decidable (w.window p = .live))
  | .dispatch p _ => inferInstanceAs (Decidable (w.window p = .live ∧ w.mail.box p ≠ []))

/-- An action is taken. The upcalls of an action are what it adds to the trace. -/
def step (w : ControlWorld) : ControlAction → Except ControlStop ControlWorld
  | .plugin a accepted =>
      match Plugin.step w.toPluginWorld a with
      | .ok w' => .ok ((ATLWSclient.upcalled { w with toPluginWorld := w' } accepted
          (w'.server.trace.drop w.server.trace.length)).destroyed a)
      | .error stop => .error (.plugin stop)
  | .SetClientSite p => .ok { w with window := Function.update w.window p .live }
  | .put p name newVal =>
      .ok { w with handlers := Function.update w.handlers p ((w.handlers p).put newVal name) }
  | .dispatch p site => CATLWebSocket.dispatch w p site

/-- The controls of the plugin. -/
def system : StepSystem ControlWorld ControlAction ControlStop where
  init := {}
  allowed := contract
  step := step

instance (w : ControlWorld) (a : ControlAction) : Decidable (system.allowed w a) :=
  inferInstanceAs (Decidable (contract w a))

end Control

end UCClient
