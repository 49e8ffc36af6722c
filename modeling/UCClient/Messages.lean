import Mathlib.Tactic.SplitIfs
import UCClient.JsonWriting

/-!
# Messages to a Page

The program sends two kinds of messages, events and replies, and builds both the same way:
`type` says which kind it is, a member of that name says which event it is or which command
is answered, and `param` holds what there is to tell. `param` exists once something was
stored in it.

`messageMembers` is such a message with its members in key order. Storing a member of
`param` gives another one (`setMember₂_messageMembers`), and a page finds in its text what
was stored (`parse_message`, `get_insertMember`).
-/

namespace UCClient

namespace Value

/-! ### Stored members -/

section Members

variable {ms : List (Bytes × Value)} {key k : Bytes} {x : Value}

theorem insertMember_ne_nil (ms : List (Bytes × Value)) (key : Bytes) (x : Value) :
    insertMember ms key x ≠ [] := by
  cases ms with
  | nil => exact List.cons_ne_nil _ _
  | cons m ms =>
      rw [insertMember]
      split_ifs <;> exact List.cons_ne_nil _ _

theorem noRealMembers_iff : noRealMembers ms = true ↔ ∀ m ∈ ms, m.2.noReal = true := by
  induction ms with
  | nil => simp [noRealMembers]
  | cons m ms ih => simp [noRealMembers, ih]

/-- Storing a member leaves the others as a page reads them. -/
theorem get_insertMember_of_ne (h : cstr key ≠ k) (x : Value) (ms : List (Bytes × Value)) :
    Json.get ((insertMember ms key x).map fun m => (cstr m.1, m.2.json)) k =
      Json.get (ms.map fun m => (cstr m.1, m.2.json)) k := by
  induction ms with
  | nil => simp [insertMember, Json.get, h]
  | cons m ms ih =>
      obtain ⟨k', v⟩ := m
      rw [insertMember]
      split_ifs with heq
      · simp [Json.get, heq, h]
      · simp [Json.get, h]
      · simp only [List.map_cons, Json.get, ih]

/-- A member that was not there is read as it was stored. -/
theorem get_insertMember (h : Json.get (ms.map fun m => (cstr m.1, m.2.json)) (cstr key) = none)
    (x : Value) : Json.get ((insertMember ms key x).map fun m => (cstr m.1, m.2.json)) (cstr key) =
      some x.json := by
  induction ms with
  | nil => simp [insertMember, Json.get]
  | cons m ms ih =>
      obtain ⟨k', v⟩ := m
      rw [List.map_cons, Json.get, Option.or_eq_none_iff] at h
      obtain ⟨hrest, hhead⟩ := h
      have hne : cstr k' ≠ cstr key := by simpa using hhead
      rw [insertMember, if_neg fun heq => hne (congrArg cstr heq)]
      split_ifs
      · simp [Json.get, hrest, hne]
      · rw [List.map_cons, Json.get, ih hrest, Option.some_or]

/-- What was stored is there. -/
theorem isSome_get_insertMember (ms : List (Bytes × Value)) (key : Bytes) (x : Value) :
    (Json.get ((insertMember ms key x).map fun m => (cstr m.1, m.2.json)) (cstr key)).isSome =
      true := by
  induction ms with
  | nil => simp [insertMember, Json.get]
  | cons m ms ih =>
      obtain ⟨k', v⟩ := m
      rw [insertMember]
      split_ifs
      · simp [Json.get]
      · simp [Json.get]
      · rw [List.map_cons, Json.get, Option.isSome_or, ih, Bool.true_or]

end Members

end Value

/-! ### Messages -/

/-- What a message is about. -/
inductive MessageKind
  | event | cmdresult
  deriving DecidableEq, Repr

/-- The `type` of the message, and the member that has its name. -/
def MessageKind.text : MessageKind → String
  | event => "event"
  | cmdresult => "cmdresult"

/-- The members of a message, with `ms` the members of `param`. -/
def messageMembers (kind : MessageKind) (name : Value) :
    List (Bytes × Value) → List (Bytes × Value)
  | [] => [(bytes kind.text, name), (bytes "type", .ofLiteral kind.text)]
  | m :: ms => [(bytes kind.text, name), (bytes "param", .object (m :: ms)),
      (bytes "type", .ofLiteral kind.text)]

section Messages

variable {kind : MessageKind} {name : Value} {ms : List (Bytes × Value)}

/-- `out["param"][key] = x` -/
theorem setMember₂_messageMembers (key : Bytes) (x : Value) :
    (Value.object (messageMembers kind name ms)).setMember₂ (bytes "param") key x =
      .ok (.object (messageMembers kind name (Value.insertMember ms key x))) := by
  cases ms with
  | nil => cases kind <;> rfl
  | cons m ms =>
      obtain ⟨m', ms', hms⟩ :=
        List.exists_cons_of_ne_nil (Value.insertMember_ne_nil (m :: ms) key x)
      rw [hms, messageMembers, messageMembers, ← hms]
      cases kind <;> rfl

theorem noReal_messageMembers (hname : name.noReal = true) (h : ∀ m ∈ ms, m.2.noReal = true) :
    (Value.object (messageMembers kind name ms)).noReal = true := by
  have hms := Value.noRealMembers_iff.mpr h
  cases ms with
  | nil => simpa [messageMembers, Value.noReal, Value.noRealMembers, Value.ofLiteral] using hname
  | cons m ms =>
      simpa [messageMembers, Value.noReal, Value.noRealMembers, Value.ofLiteral, hname] using hms

/-- What a page reads of a message. -/
def messageJson (kind : MessageKind) (name : Value) (ms : List (Bytes × Value)) :
    List (Bytes × Json) :=
  (messageMembers kind name ms).map fun m => (cstr m.1, m.2.json)

/-- **The text of a message is read as the message.** -/
theorem parse_message (kind : MessageKind) (hname : name.noReal = true)
    (h : ∀ m ∈ ms, m.2.noReal = true) :
    Json.parse (Value.object (messageMembers kind name ms)).writeValue =
      some (.object (messageJson kind name ms)) := by
  rw [Value.parse_writeValue (noReal_messageMembers hname h), Value.json_object, messageJson]

theorem get_type (kind : MessageKind) (name : Value) (ms : List (Bytes × Value)) :
    Json.get (messageJson kind name ms) (bytes "type") = some (.string (bytes kind.text)) := by
  have hkind : (Value.ofLiteral kind.text).json = .string (bytes kind.text) := by
    rw [Value.ofLiteral, Value.json_string]
    cases kind <;> rfl
  rw [← hkind, messageJson]
  cases ms <;> cases kind <;> rfl

theorem get_name (kind : MessageKind) (name : Value) (ms : List (Bytes × Value)) :
    Json.get (messageJson kind name ms) (bytes kind.text) = some name.json := by
  rw [messageJson]
  cases ms <;> cases kind <;> rfl

theorem get_param (kind : MessageKind) (name : Value) (hms : ms ≠ []) :
    Json.get (messageJson kind name ms) (bytes "param") =
      some (.object (ms.map fun m => (cstr m.1, m.2.json))) := by
  cases ms with
  | nil => exact absurd rfl hms
  | cons m ms =>
      rw [← Value.json_object]
      cases kind <;> rfl

end Messages

end UCClient
