import Mathlib.Data.List.Perm.Basic
import Mathlib.Data.Set.Function
import UCClient.EventMessages
import UCClient.Utf8

/-!
# Do Media Bytes Survive the Event Encoding

Four events hand audio samples or a video frame to the pages. Their handlers store the bytes
as a string into a JSON value, and the rendering is sent as a text frame, which has to be
UTF-8. The writer renders a string up to its first NUL and escapes quotes, backslashes and
control characters; bytes from 128 on it copies. So the message is UTF-8 exactly when the
bytes before the first NUL are (`MediaEvent.valid_message`), and what the page reads is these
bytes (`MediaEvent.text_message`): of the rest nothing is sent.

## Main results

* `Value.valid_writeValue`: a message is UTF-8 exactly when its strings are.
* `media_bytes_iff`: the sets of byte strings that survive.
* `media_bytes_lost`: a byte that is no UTF-8, and a NUL.
-/

namespace UCClient

open Utf8 UCClientWSclient

/-! ### What the writer does to UTF-8 -/

namespace Value

theorem escapeCharacter_low : ∀ n < 128, escapeCharacter (UInt8.ofNat n) ≠ [] ∧
    ∀ d ∈ escapeCharacter (UInt8.ofNat n), d.toNat < 128 := by
  decide +kernel

theorem escapeCharacter_high {c : UInt8} (hc : 128 ≤ c.toNat) : escapeCharacter c = [c] := by
  have hne : ∀ d : UInt8, d.toNat < 128 → c ≠ d := by
    rintro d hd rfl
    omega
  have hplain : Json.isPlain c = true := by
    rw [isPlain_iff, UInt8.le_iff_toNat_le]
    exact ⟨Nat.le_trans (by decide) hc, hne 34 (by decide), hne 92 (by decide)⟩
  rw [← text_piece (hne 0 (by decide)), piece_plain hplain, Piece.text]

theorem valid_valueToQuotedString (s rest : Bytes) :
    Valid (valueToQuotedString s ++ rest) ↔ Valid (cstr s) ∧ Valid rest := by
  have hescape : Valid ((cstr s).flatMap escapeCharacter) ↔ Valid (cstr s) := by
    refine valid_flatMap (fun c hc => ?_) fun c hc => escapeCharacter_high hc
    simpa using escapeCharacter_low c.toNat hc
  rw [valueToQuotedString_eq, List.cons_append, valid_cons (by decide), List.append_assoc,
    List.singleton_append, valid_append_cons (by decide), hescape]

theorem ascii_of_isDigit {c : UInt8} (h : Json.isDigit c = true) : c.toNat < 128 := by
  simp only [Json.isDigit, Bool.and_eq_true, decide_eq_true_eq] at h
  exact Nat.lt_of_le_of_lt (UInt8.le_iff_toNat_le.mp h.2) (by decide)

theorem Decimal.valid {value : ℕ} {c : UInt8} {ds : Bytes} (h : Decimal value c ds) :
    Valid (c :: ds) := by
  refine valid_of_ascii (List.forall_mem_cons.mpr ⟨ascii_of_isDigit h.head, fun d hd => ?_⟩)
  exact ascii_of_isDigit (h.tail d hd)

mutual

/-- All strings of the value, as they are written, are UTF-8. -/
def utf8 : Value → Prop
  | .string s => Valid (cstr s)
  | .real token => Valid token
  | .array xs => utf8s xs
  | .object ms => utf8Members ms
  | .null | .int _ | .uint _ | .bool _ => True

def utf8s : List Value → Prop
  | [] => True
  | x :: xs => utf8 x ∧ utf8s xs

def utf8Members : List (Bytes × Value) → Prop
  | [] => True
  | (name, x) :: ms => Valid (cstr name) ∧ utf8 x ∧ utf8Members ms

end

mutual

/-- **A message is UTF-8 exactly when its strings are.** -/
theorem valid_writeValue : ∀ v : Value, Valid v.writeValue ↔ v.utf8
  | .null => iff_of_true (by decide +kernel) trivial
  | .int i => by
      obtain ⟨c, ds, heq, hdec⟩ := valueToStringInt_decimal i
      refine iff_of_true ?_ trivial
      rw [writeValue, heq]
      split
      · exact (valid_cons (by decide)).mpr hdec.valid
      · exact hdec.valid
  | .uint u => by
      obtain ⟨c, ds, heq, hdec⟩ := valueToStringUInt_decimal u
      refine iff_of_true ?_ trivial
      rw [writeValue, heq]
      exact hdec.valid
  | .real token => Iff.rfl
  | .string s => by
      rw [writeValue, utf8, ← List.append_nil (valueToQuotedString s), valid_valueToQuotedString,
        and_iff_left valid_nil]
  | .bool b => by
      refine iff_of_true ?_ trivial
      cases b <;> decide +kernel
  | .array [] => iff_of_true (by decide +kernel) trivial
  | .array (x :: xs) => by
      have hwrite : writeValue (.array (x :: xs)) = 91 :: (writeElements (x :: xs) ++ [93]) := rfl
      rw [hwrite, valid_cons (by decide), writeElements_cons, valid_elementsRest xs,
        valid_writeValue x]
      rfl
  | .object [] => iff_of_true (by decide +kernel) trivial
  | .object ((name, x) :: ms) => by
      have hwrite : writeValue (.object ((name, x) :: ms)) =
          123 :: (writeMembers ((name, x) :: ms) ++ [125]) := rfl
      rw [hwrite, valid_cons (by decide), writeMembers_cons, valid_valueToQuotedString,
        valid_cons (by decide), valid_membersRest ms, valid_writeValue x]
      rfl

theorem valid_elementsRest : ∀ (xs : List Value) (l : Bytes),
    Valid (l ++ elementsRest xs) ↔ Valid l ∧ utf8s xs
  | [], l => by
      rw [elementsRest, valid_append_cons (by decide), utf8s]
      exact and_congr_right fun _ => iff_of_true valid_nil trivial
  | x :: xs, l => by
      rw [elementsRest, valid_append_cons (by decide), writeElements_cons, valid_elementsRest xs,
        valid_writeValue x, utf8s]

theorem valid_membersRest : ∀ (ms : List (Bytes × Value)) (l : Bytes),
    Valid (l ++ membersRest ms) ↔ Valid l ∧ utf8Members ms
  | [], l => by
      rw [membersRest, valid_append_cons (by decide), utf8Members]
      exact and_congr_right fun _ => iff_of_true valid_nil trivial
  | (name, x) :: ms, l => by
      rw [membersRest, valid_append_cons (by decide), writeMembers_cons, valid_valueToQuotedString,
        valid_cons (by decide), valid_membersRest ms, valid_writeValue x, utf8Members]

end

theorem utf8Members_iff {ms : List (Bytes × Value)} :
    utf8Members ms ↔ ∀ m ∈ ms, Valid (cstr m.1) ∧ m.2.utf8 := by
  induction ms with
  | nil => simp [utf8Members]
  | cons m ms ih => simp [utf8Members, ih, and_assoc]

/-- Storing under a new name only puts the member in its place. -/
theorem insertMember_perm {ms : List (Bytes × Value)} {key : Bytes} (h : key ∉ ms.map Prod.fst)
    (x : Value) : (insertMember ms key x).Perm ((key, x) :: ms) := by
  induction ms with
  | nil => exact .refl _
  | cons m ms ih =>
      obtain ⟨k, v⟩ := m
      rw [List.map_cons, List.mem_cons, not_or] at h
      rw [insertMember, if_neg (Ne.symm h.1)]
      split
      · exact .refl _
      · exact ((ih h.2).cons _).trans (.swap ..)

/-- The place of a member does not depend on the values. -/
theorem insertMember_map (g : Value → Value) (ms : List (Bytes × Value)) (key : Bytes) (x : Value) :
    (insertMember ms key x).map (Prod.map id g) =
      insertMember (ms.map (Prod.map id g)) key (g x) := by
  induction ms with
  | nil => rfl
  | cons m ms ih =>
      obtain ⟨k, v⟩ := m
      rw [insertMember, List.map_cons, Prod.map_apply, id_eq, insertMember]
      split
      · rfl
      · split
        · rfl
        · rw [List.map_cons, ih]
          rfl

theorem writeMembers_comma (name : Bytes) (x : Value) (m : Bytes × Value)
    (ms : List (Bytes × Value)) : writeMembers ((name, x) :: m :: ms) =
      valueToQuotedString name ++ bytes ":" ++ x.writeValue ++ bytes "," ++
        writeMembers (m :: ms) := by
  rw [writeMembers]
  simp

/-- Members whose values are written alike are written alike. -/
theorem writeMembers_map {g : Value → Value} (hg : ∀ x, (g x).writeValue = x.writeValue)
    (ms : List (Bytes × Value)) : writeMembers (ms.map (Prod.map id g)) = writeMembers ms := by
  induction ms with
  | nil => rfl
  | cons m ms ih =>
      obtain ⟨name, x⟩ := m
      cases ms with
      | nil => simp only [List.map_cons, List.map_nil, Prod.map_apply, id_eq, writeMembers, hg]
      | cons m' ms =>
          rw [List.map_cons, List.map_cons, Prod.map_apply, id_eq, writeMembers_comma, hg,
            ← List.map_cons, ih, writeMembers_comma]

/-- A string cut where the writer stops. -/
def cut : Value → Value
  | .string s => .string (cstr s)
  | v => v

theorem writeValue_cut (v : Value) : v.cut.writeValue = v.writeValue := by
  cases v with
  | string s =>
      rw [cut, writeValue, writeValue, valueToQuotedString_eq, valueToQuotedString_eq, cstr_cstr]
  | null | int | uint | real | bool | array | object => rfl

end Value

/-! ### Messages of media events -/

/-- Under different names, `param` has just the members that were stored. -/
theorem paramObject_perm {param : List (String × Value)}
    (h : ((param.map Prod.fst).map bytes).Nodup) :
    (paramObject param).Perm (param.map fun kx => (bytes kx.1, kx.2)) := by
  rw [List.map_map] at h
  induction param using List.reverseRecOn with
  | nil => exact .refl _
  | append_singleton param kx ih =>
      rw [List.map_append, List.nodup_append] at h
      obtain ⟨hparam, -, hdisj⟩ := h
      have hperm := ih hparam
      have hnew : bytes kx.1 ∉ (paramObject param).map Prod.fst := by
        rw [(hperm.map Prod.fst).mem_iff]
        intro hmem
        obtain ⟨m, hm, heq⟩ := List.mem_map.mp hmem
        obtain ⟨kx', hkx', rfl⟩ := List.mem_map.mp hm
        exact hdisj _ (List.mem_map_of_mem hkx') _ List.mem_cons_self heq
      rw [paramObject_snoc, List.map_append]
      exact (Value.insertMember_perm hnew kx.2).trans
        ((hperm.cons _).trans (List.perm_append_singleton _ _).symm)

theorem paramObject_map (g : Value → Value) (param : List (String × Value)) :
    (paramObject param).map (Prod.map id g) = paramObject (param.map (Prod.map id g)) := by
  induction param using List.reverseRecOn with
  | nil => rfl
  | append_singleton param kx ih =>
      rw [paramObject_snoc, Value.insertMember_map, ih, List.map_append, List.map_cons,
        List.map_nil, paramObject_snoc]
      rfl

/-- A message is written by what its values are written as. -/
theorem writeValue_messageMembers_map {g : Value → Value}
    (hg : ∀ x, (g x).writeValue = x.writeValue) (kind : MessageKind) (name : Value)
    (ms : List (Bytes × Value)) :
    (Value.object (messageMembers kind name (ms.map (Prod.map id g)))).writeValue =
      (Value.object (messageMembers kind name ms)).writeValue := by
  cases ms with
  | nil => rfl
  | cons m ms =>
      have hparam : Value.writeValue (.object ((m :: ms).map (Prod.map id g))) =
          Value.writeValue (.object (m :: ms)) := by
        rw [Value.writeValue, Value.writeValue, Value.writeMembers_map hg]
      simp only [List.map_cons, messageMembers, Value.writeValue,
        Value.writeMembers_comma] at hparam ⊢
      rw [hparam]

/-- **The message of an event is UTF-8** exactly when all that was stored in it is. -/
theorem valid_event {name : String} {param : List (String × Value)}
    (hname : Valid (cstr (bytes name))) (hparam : param ≠ [])
    (hkeys : ∀ key ∈ param.map Prod.fst, Valid (cstr (bytes key)))
    (hnodup : ((param.map Prod.fst).map bytes).Nodup) :
    Valid (Value.object (messageMembers .event (.ofLiteral name) (paramObject param))).writeValue ↔
      ∀ kx ∈ param, kx.2.utf8 := by
  obtain ⟨m, ms, hms⟩ := List.exists_cons_of_ne_nil (paramObject_ne_nil hparam)
  have hperm := paramObject_perm hnodup
  have hlit : Valid (cstr (bytes "event")) ∧ Valid (cstr (bytes "param")) ∧
      Valid (cstr (bytes "type")) := by decide +kernel
  have hmembers : Value.utf8Members (m :: ms) ↔ ∀ kx ∈ param, kx.2.utf8 := by
    rw [← hms, Value.utf8Members_iff]
    constructor
    · intro h kx hkx
      exact (h (bytes kx.1, kx.2) (hperm.mem_iff.mpr (List.mem_map_of_mem hkx))).2
    · intro h m hm
      obtain ⟨kx, hkx, rfl⟩ := List.mem_map.mp (hperm.mem_iff.mp hm)
      exact ⟨hkeys kx.1 (List.mem_map_of_mem hkx), h kx hkx⟩
  rw [Value.valid_writeValue, hms, messageMembers, ← hmembers]
  simp only [Value.utf8, Value.utf8Members, Value.ofLiteral, MessageKind.text, hlit, hname,
    true_and, and_true]

/-- An event that hands media to the pages, but for its bytes. -/
inductive MediaEvent
  | onAudioData (callid : Bytes) (outData outLen : ℕ) (send : Bool)
  | onVideoData (callid : Bytes) (outData outLen : ℕ) (send : Bool)
  | onAudioCaptureData (callid : Bytes) (samples sampleRate numChannels : Int32)
  | onVideoCaptureData (callid : Bytes) (width height yStride uvStride : Int32)

namespace MediaEvent

/-- The event with the bytes. -/
def event : MediaEvent → Bytes → SdkEvent
  | onAudioData callid outData outLen send, data => .onAudioData callid data outData outLen send
  | onVideoData callid outData outLen send, data => .onVideoData callid data outData outLen send
  | onAudioCaptureData callid samples sampleRate numChannels, data =>
      .onAudioCaptureData callid data samples sampleRate numChannels
  | onVideoCaptureData callid width height yStride uvStride, data =>
      .onVideoCaptureData callid data width height yStride uvStride

def callid : MediaEvent → Bytes
  | onAudioData callid .. | onVideoData callid .. | onAudioCaptureData callid ..
  | onVideoCaptureData callid .. => callid

/-- The member of `param` the bytes are stored in. -/
def member : MediaEvent → String
  | onAudioData .. | onVideoData .. => "inData"
  | onAudioCaptureData .. | onVideoCaptureData .. => "data"

/-- The members of `param` stored after the bytes. -/
def others : MediaEvent → List (String × Value)
  | onAudioData _ _ _ send | onVideoData _ _ _ send => [("send", .bool send)]
  | onAudioCaptureData _ samples sampleRate numChannels =>
      [("samples", .int samples), ("sampleRate", .int sampleRate),
        ("numChannels", .int numChannels)]
  | onVideoCaptureData _ width height yStride uvStride =>
      [("width", .int width), ("height", .int height), ("y_stride", .int yStride),
        ("uv_stride", .int uvStride)]

variable {m : MediaEvent} {d d' msg : Bytes}

def param (m : MediaEvent) (data : Bytes) : List (String × Value) :=
  ("callid", .ofCString m.callid) :: (m.member, .string data) :: m.others

theorem handler_eq (m : MediaEvent) (d : Bytes) (this : ℕ) :
    handler this (m.event d) =
      handle this (m.event d) (m.event d).name (m.param d) := by
  cases m <;> rfl

/-- The message of an event. -/
def message (m : MediaEvent) (d : Bytes) : Bytes :=
  (Value.object (messageMembers .event (.ofLiteral (m.event d).name)
    (paramObject (m.param d)))).writeValue

theorem emits_iff : (m.event d).Emits msg ↔ msg = m.message d := by
  have hone : ∀ msg, (m.event d).Emits msg → msg = m.message d := by
    intro msg h
    obtain ⟨v, hv, rfl⟩ := h.message (m.handler_eq d)
    rw [eventValue_eq] at hv
    exact congrArg Value.writeValue (Except.ok.inj hv).symm
  refine ⟨hone msg, ?_⟩
  rintro rfl
  obtain ⟨msg, hmsg⟩ := (m.event d).exists_emits
  rwa [← hone msg hmsg]

/-- The literals of the messages. -/
theorem literals : (∀ name ∈ ["onAudioData", "onVideoData", "onAudioCaptureData",
      "onVideoCaptureData"], Valid (cstr (bytes name))) ∧
    ∀ keys ∈ [["callid", "inData", "send"],
      ["callid", "data", "samples", "sampleRate", "numChannels"],
      ["callid", "data", "width", "height", "y_stride", "uv_stride"]],
      (keys.map bytes).Nodup ∧ ∀ key ∈ keys, Valid (cstr (bytes key)) := by
  decide +kernel

/-- **The message is UTF-8** exactly when the callid and the bytes are, up to a NUL. -/
theorem valid_message (m : MediaEvent) (d : Bytes) :
    Valid (m.message d) ↔ Valid (cstr m.callid) ∧ Valid (cstr d) := by
  have hname : Valid (cstr (bytes (m.event d).name)) := by
    refine literals.1 _ ?_
    cases m <;> simp [event, SdkEvent.name]
  obtain ⟨hnodup, hkeys⟩ : (((m.param d).map Prod.fst).map bytes).Nodup ∧
      ∀ key ∈ (m.param d).map Prod.fst, Valid (cstr (bytes key)) := by
    refine literals.2 _ ?_
    cases m <;> simp [param, others, member]
  have hothers : ∀ kx ∈ m.others, kx.2.utf8 := by
    cases m <;> simp [others, Value.utf8]
  rw [message, valid_event hname (by simp [param]) hkeys hnodup, param, List.forall_mem_cons,
    List.forall_mem_cons, and_iff_left hothers, Value.ofCString, Value.utf8, Value.utf8, cstr_cstr]

/-- **What a page reads** in the place of the bytes. -/
def text (m : MediaEvent) (msg : Bytes) : Option Bytes := do
  let .object ms ← Json.parse msg | none
  let .object param ← Json.get ms (bytes "param") | none
  let .string s ← Json.get param (cstr (bytes m.member)) | none
  pure s

theorem parse_text (m : MediaEvent) (d : Bytes) :
    Json.parse (m.message d) = some (.object (eventJson (m.event d).name (m.param d))) := by
  refine parse_event (eventValue_eq _ _) ?_
  cases m <;> simp [param, others, Value.noReal, Value.ofCString]

theorem text_message (m : MediaEvent) (d : Bytes) : m.text (m.message d) = some (cstr d) := by
  have hkeys : ([("callid", Value.ofCString m.callid)] ++ m.others).all
      (fun kx => cstr (bytes kx.1) ≠ cstr (bytes m.member)) = true := by
    cases m <;> simp +decide [others, member]
  have hget : Json.get ((paramObject (m.param d)).map fun m => (cstr m.1, m.2.json))
      (cstr (bytes m.member)) = some (.string (cstr d)) := by
    rw [← Value.json_string]
    exact get_paramObject [("callid", _)] m.others (.string d) hkeys
  have hparam : Json.get (eventJson (m.event d).name (m.param d)) (bytes "param") =
      some (.object ((paramObject (m.param d)).map fun m => (cstr m.1, m.2.json))) :=
    get_param .event _ (paramObject_ne_nil (by simp [param]))
  simp only [text, parse_text, Option.bind_eq_bind, Option.bind_some, hparam, hget]
  rfl

/-- The bytes behind a NUL are not sent. -/
theorem message_cstr (m : MediaEvent) (d : Bytes) : m.message (cstr d) = m.message d := by
  have hname : (m.event (cstr d)).name = (m.event d).name := by cases m <;> rfl
  have hcut : (m.param d).map (Prod.map id Value.cut) = m.param (cstr d) := by
    have hothers : m.others.map (Prod.map id Value.cut) = m.others := by cases m <;> rfl
    rw [param, List.map_cons, List.map_cons, hothers, param]
    simp only [Prod.map_apply, id_eq, Value.ofCString, Value.cut, cstr_cstr]
  rw [message, message, hname, ← hcut, ← paramObject_map,
    writeValue_messageMembers_map Value.writeValue_cut]

theorem message_eq_iff : m.message d = m.message d' ↔ cstr d = cstr d' := by
  constructor
  · intro h
    have htext := congrArg m.text h
    rw [text_message, text_message] at htext
    exact Option.some.inj htext
  · intro h
    rw [← message_cstr, h, message_cstr]

end MediaEvent

/-! ### Which bytes survive -/

/-- The byte strings of a set survive as the bytes of an event: each of its messages is UTF-8
and is JSON, the bytes can be recovered from what a page reads in their place, and no two have
a message in common. -/
structure Survives (m : MediaEvent) (D : Set Bytes) : Prop where
  utf8 : ∀ d ∈ D, ∀ msg, (m.event d).Emits msg → Valid msg
  json : ∀ d ∈ D, ∀ msg, (m.event d).Emits msg → (Json.parse msg).isSome = true
  recovered : ∃ recover : Bytes → Bytes, ∀ d ∈ D, ∀ msg, (m.event d).Emits msg →
    (m.text msg).map recover = some d
  injective : ∀ d ∈ D, ∀ d' ∈ D, ∀ msg, (m.event d).Emits msg → (m.event d').Emits msg → d = d'

/-- **Which media bytes survive.** For each of the four events and any set of byte strings:
its elements survive the encoding exactly when each of them, cut at its first NUL, is UTF-8
(as the callid is), and no two of them are the same up to there. -/
theorem media_bytes_iff (m : MediaEvent) (D : Set Bytes) :
    Survives m D ↔ (∀ d ∈ D, Valid (cstr m.callid) ∧ Valid (cstr d)) ∧ D.InjOn cstr := by
  constructor
  · intro h
    refine ⟨fun d hd => ?_, fun d hd d' hd' heq => ?_⟩
    · exact (m.valid_message d).mp (h.utf8 d hd _ (MediaEvent.emits_iff.mpr rfl))
    · refine h.injective d hd d' hd' (m.message d) (MediaEvent.emits_iff.mpr rfl) ?_
      exact MediaEvent.emits_iff.mpr (MediaEvent.message_eq_iff.mpr heq)
  · rintro ⟨hvalid, hinj⟩
    refine ⟨fun d hd msg hmsg => ?_, fun d hd msg hmsg => ?_, ?_, ?_⟩
    · rw [MediaEvent.emits_iff.mp hmsg]
      exact (m.valid_message d).mpr (hvalid d hd)
    · rw [MediaEvent.emits_iff.mp hmsg, m.parse_text]
      rfl
    · refine ⟨Function.invFunOn cstr D, fun d hd msg hmsg => ?_⟩
      rw [MediaEvent.emits_iff.mp hmsg, m.text_message, Option.map_some]
      exact congrArg some (hinj.leftInvOn_invFunOn hd)
    · intro d hd d' hd' msg hmsg hmsg'
      rw [MediaEvent.emits_iff.mp hmsg] at hmsg'
      exact hinj hd hd' (MediaEvent.message_eq_iff.mp (MediaEvent.emits_iff.mp hmsg'))

/-- **Media bytes are lost.** One byte that is no UTF-8 makes the message of audio samples
invalid; and what stands behind a NUL leaves no trace in the message. -/
theorem media_bytes_lost :
    ∃ msg msg', (SdkEvent.onAudioData [49] [255] 0 0 false).Emits msg ∧ ¬ Valid msg ∧
      (SdkEvent.onAudioData [49] [1, 0, 2] 0 0 false).Emits msg' ∧
      (SdkEvent.onAudioData [49] [1] 0 0 false).Emits msg' := by
  let m := MediaEvent.onAudioData [49] 0 0 false
  have hsame : m.message [1, 0, 2] = m.message [1] := MediaEvent.message_eq_iff.mpr rfl
  refine ⟨m.message [255], m.message [1], MediaEvent.emits_iff (m := m).mpr rfl, ?_,
    MediaEvent.emits_iff (m := m).mpr hsame.symm, MediaEvent.emits_iff (m := m).mpr rfl⟩
  rw [m.valid_message]
  rintro ⟨-, hbytes⟩
  exact absurd hbytes (by decide +kernel)

end UCClient
