import UCClient.JsonWriting
import UCClient.Script

/-!
# The Script on Messages

`wsonMessage` of UCClient.js as the socket calls it, with the text of a message. The text is
parsed; a message of type `cmdresult` is the reply to a command and goes to the handler the
page has for it, a message of type `event` is an event.

On the way the script reads properties, makes values part of a log text and compares with
`==`, and each of these can throw. Reading from `undefined` or `null` is a `TypeError`. So is
making a string of an object that has a member `toString`, or of an array with such an object
in it, since no value that was parsed is a function.

The handlers of a page are observed and not run, as in `Script`. The call id of an event is
taken to be a string, which it is in all messages of the program.
-/

namespace UCClient

/-- The exceptions `wsonMessage` can raise: the message is not JSON, or a handler throws. -/
inductive MessageError
  | SyntaxError
  | script (e : PageError)
  deriving DecidableEq, Repr

/-- The script and the replies it has passed on: the command and what was returned. -/
structure Script where
  page : Page := {}
  replies : List (String × Option Json) := []

/-- The functions of the script on messages. -/
abbrev ScriptM := EStateM MessageError Script

mutual

/-- The value can be made a string. -/
def stringable : Json → Bool
  | .object ms => (Json.get ms (bytes "toString")).isNone
  | .array xs => stringables xs
  | .null | .bool _ | .number _ | .string _ => true

def stringables : List Json → Bool
  | [] => true
  | x :: xs => stringable x && stringables xs

end

/-- The value, as a string, is the text; the text has no comma in it and is no number. -/
def reads (text : Bytes) : Json → Bool
  | .string s => s = text
  | .array [x] => reads text x
  | _ => false

namespace Script

/-- A part of the script that is not about messages. -/
def liftPage (m : PageM Unit) : ScriptM Unit := fun s =>
  match m s.page with
  | .ok a page => .ok a { s with page := page }
  | .error e page => .error (.script e) { s with page := page }

/-- `x.name`, where only objects have a property of that name. -/
def property (x : Option Json) (name : String) : ScriptM (Option Json) :=
  match x with
  | none | some .null => throw (.script .TypeError)
  | some (.object ms) => pure (Json.get ms (bytes name))
  | some (.bool _) | some (.number _) | some (.string _) | some (.array _) => pure none

/-- `"..." + x`, of which only the exception matters. -/
def concatenate (x : Option Json) : ScriptM Unit :=
  if x.all stringable then pure () else throw (.script .TypeError)

/-- `x == "..."`. -/
def equals (x : Option Json) (text : String) : ScriptM Bool := do
  concatenate x
  pure (x.any (reads (bytes text)))

/-- `x === "..."`, as a `case` compares. -/
def isCase (x : Option Json) (text : String) : Bool :=
  match x with
  | some (.string s) => s = bytes text
  | _ => false

/-! ### Replies -/

/-- What the script does with the member `return` of a reply before it passes it on: it is
made part of a log text, or written out by `JSON.stringify`, or it is not looked at. -/
inductive Report
  | concatenated | stringified | unread
  deriving DecidableEq, Repr

/-- The cases for replies, in the order of the source. -/
def replyCases : List (String × Report) :=
  [("initialize", .concatenated), ("unInitialize", .concatenated),
    ("getVersion", .concatenated), ("getMicroPhoneInfo", .stringified),
    ("selectMicroPhone", .concatenated), ("getSpeakerInfo", .stringified),
    ("selectSpeaker", .stringified), ("setTraceFlag", .concatenated),
    ("connectToCCPServer", .concatenated), ("disConnectToCCP", .concatenated),
    ("makeCall", .concatenated), ("setUserData", .concatenated),
    ("releaseCall", .concatenated), ("acceptCall", .concatenated),
    ("pauseCall", .concatenated), ("resumeCall", .concatenated),
    ("transferCall", .concatenated), ("sendDTMF", .concatenated),
    ("consultTransferCall", .concatenated), ("transferMeeting", .concatenated),
    ("setSipTransportType", .concatenated), ("setSrtpEnabled", .unread)]

/-- The handler of the page for the replies to a command is called. -/
def passOn (name : String) (ret : Option Json) : ScriptM Unit := modify fun s =>
  { s with replies := s.replies ++ [(name, ret)] }

/-- The body of a case. -/
def reply (event : Json) (name : String) : Report → ScriptM Unit
  | .concatenated => do
      let ret ← property (← property event "param") "return"
      concatenate ret
      passOn name ret
  | .stringified => do
      let ret ← property (← property event "param") "return"
      passOn name ret
  | .unread => passOn name none

/-- `switch (event.cmdresult)`; an unknown command is only logged. -/
def onReply (event : Json) : ScriptM Unit := do
  let cmdresult ← property event "cmdresult"
  match replyCases.find? fun c => isCase cmdresult c.1 with
  | some (name, report) => reply event name report
  | none => pure ()

/-! ### Events -/

/-- The events the script acts on itself. -/
def callEvents : List (String × (Bytes → ℤ → PageEvent)) :=
  [("onCallReleased", .onCallReleased), ("onCallAnswered", fun callid _ => .onCallAnswered callid),
    ("onCallAlerting", fun callid _ => .onCallAlerting callid),
    ("onIncomingCallReceived", fun callid _ => .onIncomingCallReceived callid),
    ("onCallPaused", .onCallPaused), ("onCallResumed", .onCallResumed)]

/-- The call id of an event. -/
def callidOf : Option Json → Bytes
  | some (.string s) => s
  | _ => bytes "undefined"

/-- The reason of an event, which the page is told. -/
def reasonOf : Option Json → ℤ
  | some (.number text) => Json.intOf text
  | _ => 0

/-- `switch (event.event)`; an unknown event is only logged. -/
def onEvent (event : Json) : ScriptM Unit := do
  let name ← property event "event"
  match callEvents.find? fun c => isCase name c.1 with
  | some (_, ev) => do
      let param ← property event "param"
      let callid ← property param "callid"
      let reason ← property param "reason"
      liftPage (Page.wsonMessage (ev (callidOf callid) (reasonOf reason)))
  | none =>
      match Page.passedOn.find? (isCase name) with
      | some ev => liftPage (Page.wsonMessage (.other ev))
      | none => pure ()

/-- `wsonMessage`. -/
def wsonMessage (data : Bytes) : ScriptM Unit := do
  match Json.parse data with
  | none => throw .SyntaxError
  | some event =>
      if ← equals (← property event "type") "cmdresult" then onReply event
      else if ← equals (← property event "type") "event" then onEvent event
      else pure ()

/-! ### Objects -/

section Objects

variable {data : Bytes} {ms : List (Bytes × Json)} {s : Script} {α : Type}

/-- Reading a property of an object. -/
theorem property_bind (name : String) (f : Option Json → ScriptM α) :
    (property (some (.object ms)) name >>= f) s = f (Json.get ms (bytes name)) s := rfl

theorem equals_bind (text : Bytes) (literal : String) (f : Bool → ScriptM α) :
    (equals (some (.string text)) literal >>= f) s = f (decide (text = bytes literal)) s := rfl

/-- A message that is an object of type `event`. -/
theorem wsonMessage_event (hp : Json.parse data = some (.object ms))
    (ht : Json.get ms (bytes "type") = some (.string (bytes "event"))) :
    wsonMessage data s = onEvent (.object ms) s := by
  rw [wsonMessage]
  simp only [hp]
  rw [property_bind, ht, equals_bind, if_neg (by decide), property_bind, ht, equals_bind,
    if_pos (by decide)]

/-- A message that is an object of type `cmdresult`. -/
theorem wsonMessage_reply (hp : Json.parse data = some (.object ms))
    (ht : Json.get ms (bytes "type") = some (.string (bytes "cmdresult"))) :
    wsonMessage data s = onReply (.object ms) s := by
  rw [wsonMessage]
  simp only [hp]
  rw [property_bind, ht, equals_bind, if_pos (by decide)]

end Objects

end Script

end UCClient
