import UCClient.Events
import UCClient.Runs

/-!
# The Program in Its Environment

A process is driven from outside: lws calls back for its connections, the SDK calls back
with events, and other parts of the program send, close, open and delete. An `Action` is
one such call, with everything the outside chooses about it; it runs to its end before
the next one starts.

A `World` is the process with what its environment remembers: for every connection
address the life it is in (`Life`), and whether lws is closing the connection because a
callback returned -1 (`failing`). Addresses are reused: the life of an address starts
anew.

What the environment may do differs from question to question, so a system is given by
its contract `allowed`; the step is the same for all.
-/

namespace UCClient

/-- What happened to a connection address since it was last destroyed. -/
structure Life where
  /-- `WSI_CREATE` was delivered, or the address was returned for a client connection. -/
  alive : Bool := false
  /-- `ESTABLISHED` was delivered. -/
  established : Bool := false
  /-- A closing callback was delivered, and no `ESTABLISHED` since. -/
  closed : Bool := false
  /-- The client `OnAccept` constructed for it, or the one that asked for it. -/
  owner : Option ℕ := none
  deriving DecidableEq, Repr

/-- A process and what its environment remembers. -/
structure World where
  server : Server := {}
  life : Wsi → Life := fun _ => {}
  failing : Wsi → Bool := fun _ => false

/-- A call into the process. -/
inductive Action
  /-- lws calls back. -/
  | lws (wsi : Wsi) (reason : Reason)
  /-- The SDK calls back, on a stack with room for `depth` calls. -/
  | sdk (depth : ℕ) (ev : SdkEvent)
  | send (p : ℕ) (buf : Bytes)
  | close (p : ℕ)
  /-- The plugin constructs a client. -/
  | construct
  /-- `p->Open()`, for which lws returned `connected`. -/
  | connect (p : ℕ) (connected : Option Wsi)
  | delete (p : ℕ)
  deriving DecidableEq, Repr

namespace Reason

/-- The reasons that announce an established connection. -/
def establishes : Reason → Bool
  | .ESTABLISHED | .CLIENT_ESTABLISHED => true
  | _ => false

/-- The reasons that announce the end of a connection. -/
def closes : Reason → Bool
  | .CLOSED _ | .CLOSED_CLIENT_HTTP _ | .CLOSED_HTTP _ | .CLIENT_CONNECTION_ERROR _ => true
  | _ => false

theorem not_closes_of_establishes {reason : Reason} (h : reason.establishes = true) :
    ¬ reason.closes = true := by
  cases reason <;> first | exact Bool.false_ne_true | cases h

/-- The reasons that bring a message. -/
def receives : Reason → Bool
  | .RECEIVE _ | .CLIENT_RECEIVE _ => true
  | _ => false

/-- What `lws_write` returns in it, for the reasons that deliver a requested callback. -/
def result : Reason → Option ℤ
  | .SERVER_WRITEABLE res | .CLIENT_WRITEABLE res => some res
  | _ => none

theorem not_closes_of_receives {reason : Reason} (h : reason.receives = true) :
    ¬ reason.closes = true := by
  cases reason <;> first | exact Bool.false_ne_true | cases h

theorem not_establishes_of_receives {reason : Reason} (h : reason.receives = true) :
    ¬ reason.establishes = true := by
  cases reason <;> first | exact Bool.false_ne_true | cases h

theorem result_of_receives {reason : Reason} (h : reason.receives = true) :
    reason.result = none := by
  cases reason <;> first | rfl | cases h

theorem result_of_establishes {reason : Reason} (h : reason.establishes = true) :
    reason.result = none := by
  cases reason <;> first | rfl | cases h

theorem not_establishes_of_result {reason : Reason} {res : ℤ} (h : reason.result = some res) :
    ¬ reason.establishes = true := by
  cases reason <;> first | exact Bool.false_ne_true | cases h

theorem not_closes_of_result {reason : Reason} {res : ℤ} (h : reason.result = some res) :
    ¬ reason.closes = true := by
  cases reason <;> first | exact Bool.false_ne_true | cases h

end Reason

/-- The life of an address after a callback; `p` is the client a `WSI_CREATE` constructs. -/
def Life.next (l : Life) (p : ℕ) (reason : Reason) : Life :=
  if reason.establishes then { l with established := true, closed := false }
  else if reason.closes then { l with closed := true }
  else match reason with
    | .WSI_CREATE hasUser => { l with alive := true, owner := if hasUser then none else some p }
    | .WSI_DESTROY => {}
    | _ => l

/-- The program an action runs; the result is what is returned to lws. -/
def Action.program (This : ServerClass) (sdk : Sdk) : Action → ServerM ℤ
  | .lws wsi reason => callback_lws This sdk wsi reason
  | .sdk depth ev => do CB depth ev; pure 0
  | .send p buf => do WebSocketClient.Send p buf; pure 0
  | .close p => do WebSocketClient.Close p; pure 0
  | .construct => do let _ ← ATLWSclient.new; pure 0
  | .connect p connected => do WebSocketClient.Open p connected; pure 0
  | .delete p => do UCClient.delete p; pure 0

namespace World

/-- A connection starts with nothing requested and is not being closed. -/
def fresh (w : World) (wsi : Wsi) : World :=
  { w with
    server := { w.server with writable := Function.update w.server.writable wsi false }
    failing := Function.update w.failing wsi false }

/-- What lws does before it calls back: a request is used up when it is answered. -/
def before (w : World) : Action → World
  | .lws wsi (.SERVER_WRITEABLE _) | .lws wsi (.CLIENT_WRITEABLE _) =>
      { w with
        server := { w.server with writable := Function.update w.server.writable wsi false } }
  | .lws wsi (.WSI_CREATE _) => w.fresh wsi
  | .connect _ (some wsi) => w.fresh wsi
  | _ => w

/-- What the environment remembers of an action that returned `r` and left the process as
`s`. -/
def after (w : World) (s : Server) (r : ℤ) : Action → World
  | .lws wsi reason =>
      { server := s
        life := Function.update w.life wsi ((w.life wsi).next w.server.heap.next reason)
        failing := if r = -1 then Function.update w.failing wsi true else w.failing }
  | .connect _ (some wsi) =>
      { w with server := s, life := Function.update w.life wsi { alive := true } }
  | _ => { w with server := s }

/-- An action is taken. -/
def step (This : ServerClass) (sdk : Sdk) (w : World) (a : Action) : Except Fault World :=
  match a.program This sdk (w.before a).server with
  | .ok r s => .ok ((w.before a).after s r a)
  | .error f _ => .error f

/-- A process of the server class `This` in an environment with the contract `allowed`. -/
def system (This : ServerClass) (sdk : Sdk) (allowed : World → Action → Prop) :
    StepSystem World Action Fault where
  init := {}
  allowed := allowed
  step := step This sdk

instance (This : ServerClass) (sdk : Sdk) (allowed : World → Action → Prop)
    [∀ w a, Decidable (allowed w a)] (w : World) (a : Action) :
    Decidable ((system This sdk allowed).allowed w a) :=
  inferInstanceAs (Decidable (allowed w a))

/-- What lws does before it calls back touches its own requests only. -/
theorem before_server (w : World) (a : Action) :
    ∃ writable, (w.before a).server = { w.server with writable := writable } := by
  cases a with
  | lws wsi reason => cases reason <;> exact ⟨_, rfl⟩
  | connect p connected => cases connected <;> exact ⟨_, rfl⟩
  | sdk | send | close | construct | delete => exact ⟨_, rfl⟩

theorem after_server (w : World) (s : Server) (r : ℤ) (a : Action) :
    (w.after s r a).server = s := by
  cases a with
  | connect p connected => cases connected <;> rfl
  | lws | sdk | send | close | construct | delete => rfl

/-- What a step did: its program ended without a fault. -/
theorem step_ok {This : ServerClass} {sdk : Sdk} {w w' : World} {a : Action}
    (h : step This sdk w a = .ok w') :
    ∃ r s, a.program This sdk (w.before a).server = .ok r s ∧ w' = (w.before a).after s r a := by
  rw [step] at h
  split at h
  · next r s hs => exact ⟨r, s, hs, (Except.ok.inj h).symm⟩
  · cases h

end World

end UCClient
