import Mathlib.Data.List.Basic
import Mathlib.Data.List.TakeWhile
import Mathlib.Tactic.SplitIfs
import UCClient.Json
import UCClient.JsonWriter

/-!
# The Messages of the Program Are JSON

`FastWriter` renders a value as a JSON text: a character of a string is one piece of it, an
integer is a numeral without leading zeros, and elements and members are separated by
commas. Only for a `realValue` the model has no number, just the token it was read from; the
program makes no such value.

A page reads its messages by `JSON.parse`, so it gets the value the program wrote, with the
strings cut at their first NUL.

## Main results

* `Value.writeValue_render`: the writer's output is the text of the value.
* `Value.parse_writeValue`: a page reads the value that was written.
-/

namespace UCClient

open Json

namespace Value

/-! ### Strings -/

theorem hex4_control : ∀ n < 32,
    hex4 48 48 (hexDigit (n / 16)) (hexDigit (n % 16)) = some n := by decide

theorem isPlain_iff {c : UInt8} : isPlain c = true ↔ 32 ≤ c ∧ c ≠ 34 ∧ c ≠ 92 := by
  simp [isPlain, and_assoc]

theorem control_of_not_plain {c : UInt8} (hp : ¬ isPlain c = true) (hq : c ≠ 34) (hb : c ≠ 92) :
    c.toNat < 32 := by
  rw [isPlain_iff, UInt8.le_iff_toNat_le] at hp
  by_contra hge
  exact hp ⟨Nat.not_lt.mp hge, hq, hb⟩

/-- How a character is written. -/
def piece (c : UInt8) : Piece :=
  if hp : isPlain c = true then .plain c hp
  else if hq : c = 34 then .short 34 34 rfl
  else if hb : c = 92 then .short 92 92 rfl
  else if c = 8 then .short 98 8 rfl
  else if c = 12 then .short 102 12 rfl
  else if c = 10 then .short 110 10 rfl
  else if c = 13 then .short 114 13 rfl
  else if c = 9 then .short 116 9 rfl
  else .unicode 48 48 (hexDigit (c.toNat / 16)) (hexDigit (c.toNat % 16)) c.toNat
    (hex4_control c.toNat (control_of_not_plain hp hq hb))

theorem piece_plain {c : UInt8} (hp : isPlain c = true) : piece c = .plain c hp := dif_pos hp

/-- The three kinds of characters. -/
theorem plain_or_short_or_control (c : UInt8) :
    isPlain c = true ∨ (c = 34 ∨ c = 92) ∨ c.toNat < 32 := by
  by_cases hp : isPlain c = true
  · exact .inl hp
  · by_cases hshort : c = 34 ∨ c = 92
    · exact .inr (.inl hshort)
    · rw [not_or] at hshort
      exact .inr (.inr (control_of_not_plain hp hshort.1 hshort.2))

/-- A control character is written with a letter of its own or with its number. -/
theorem text_piece_control : ∀ n < 32, 0 < n →
    (piece (UInt8.ofNat n)).text = escapeCharacter (UInt8.ofNat n) := by decide

theorem symbol_piece_control : ∀ n < 32, (piece (UInt8.ofNat n)).symbol = .byte (UInt8.ofNat n) ∨
    (piece (UInt8.ofNat n)).symbol = .code n := by decide

theorem text_piece {c : UInt8} (h : c ≠ 0) : (piece c).text = escapeCharacter c := by
  rcases plain_or_short_or_control c with hp | (rfl | rfl) | hlt
  · obtain ⟨hge, hq, hb⟩ := isPlain_iff.mp hp
    have hne : ∀ d : UInt8, d < 32 → c ≠ d := by
      rintro d hd rfl
      exact absurd hd (UInt8.not_lt.mpr hge)
    have hctl : isControlCharacter c = false := by
      simp only [isControlCharacter, Bool.and_eq_false_iff, decide_eq_false_iff_not, UInt8.not_le]
      exact .inr (UInt8.lt_of_lt_of_le (by decide) hge)
    rw [piece_plain hp, escapeCharacter]
    simp [hq, hb, hne, hctl, Piece.text]
  · rfl
  · rfl
  · have hpos : 0 < c.toNat := UInt8.lt_iff_toNat_lt.mp (UInt8.pos_iff_ne_zero.mpr h)
    simpa using text_piece_control c.toNat hlt hpos

/-- A character is read as itself, or as a code unit that is no half of a pair. -/
theorem symbol_piece (c : UInt8) : (piece c).symbol = .byte c ∨
    c.toNat < 32 ∧ (piece c).symbol = .code c.toNat := by
  rcases plain_or_short_or_control c with hp | (rfl | rfl) | hlt
  · rw [piece_plain hp]
    exact .inl rfl
  · exact .inl rfl
  · exact .inl rfl
  · have hsymbol := symbol_piece_control c.toNat hlt
    rw [UInt8.ofNat_toNat] at hsymbol
    exact hsymbol.imp_right fun hcode => ⟨hlt, hcode⟩

theorem isHigh_control {n : ℕ} (h : n < 32) : isHigh n = false := by
  simp only [isHigh, Bool.and_eq_false_iff, decide_eq_false_iff_not]
  omega

theorem join_piece (c : UInt8) (rest : List Symbol) :
    join ((piece c).symbol :: rest) = c :: join rest := by
  rcases symbol_piece c with hbyte | ⟨hlt, hcode⟩
  · rw [hbyte, join_byte]
  · have hutf8 : utf8 c.toNat = [c] := by rw [utf8, if_pos (by omega), UInt8.ofNat_toNat]
    rw [hcode, join_code (isHigh_control hlt), hutf8]
    rfl

/-! ### Numbers -/

theorem digit_spec : ∀ d < 10, isDigit (UInt8.ofNat (d + 48)) = true ∧
    (UInt8.ofNat (d + 48)).toNat - 48 = d ∧ (UInt8.ofNat (d + 48) = 48 → d = 0) := by decide

/-- The digits of a number: none of them is a zero in front of others. -/
structure Decimal (value : ℕ) (c : UInt8) (ds : Bytes) : Prop where
  head : isDigit c = true
  tail : ∀ d ∈ ds, isDigit d = true
  leading : c = 48 → value = 0 ∧ ds = []
  value : natOf (c :: ds) = value

theorem decimal_digit {value : ℕ} (h : value < 10) :
    Decimal value (UInt8.ofNat (value + 48)) [] := by
  obtain ⟨hdigit, hvalue, hzero⟩ := digit_spec value h
  exact ⟨hdigit, by simp, fun hc => ⟨hzero hc, rfl⟩, by
    rw [natOf, List.foldl_cons, List.foldl_nil, hvalue]
    omega⟩

theorem Decimal.snoc {value : ℕ} {c : UInt8} {ds : Bytes} (h : Decimal (value / 10) c ds)
    (hpos : value / 10 ≠ 0) : Decimal value c (ds ++ [UInt8.ofNat (value % 10 + 48)]) := by
  obtain ⟨hdigit, hvalue, -⟩ := digit_spec (value % 10) (Nat.mod_lt _ (by decide))
  refine ⟨h.head, ?_, fun hc => absurd (h.leading hc).1 hpos, ?_⟩
  · intro d hd
    rcases List.mem_append.mp hd with hd | hd
    · exact h.tail d hd
    · rw [List.mem_singleton.mp hd]
      exact hdigit
  · have hv := h.value
    rw [natOf] at hv
    rw [natOf, ← List.cons_append, List.foldl_append, hv]
    simp only [List.foldl_cons, List.foldl_nil, hvalue]
    omega

theorem uintToString_decimal : ∀ (fuel : ℕ) {value : ℕ} (current : Bytes),
    value < 10 ^ (fuel + 1) → ∃ c ds, uintToString (fuel + 1) value current = c :: (ds ++ current) ∧
      Decimal value c ds := by
  intro fuel
  induction fuel with
  | zero =>
      intro value current hlt
      have hmod : value % 10 = value := Nat.mod_eq_of_lt (by omega)
      have hdiv : value / 10 = 0 := Nat.div_eq_of_lt (by omega)
      refine ⟨_, [], ?_, decimal_digit (by omega)⟩
      simp [uintToString, hdiv, hmod]
  | succ fuel ih =>
      intro value current hlt
      rw [uintToString]
      by_cases hdiv : value / 10 = 0
      · have hmod : value % 10 = value := Nat.mod_eq_of_lt (by omega)
        refine ⟨_, [], ?_, decimal_digit (by omega)⟩
        simp [hdiv, hmod]
      · obtain ⟨c, ds, heq, hdec⟩ := ih (UInt8.ofNat (value % 10 + 48) :: current)
          (show value / 10 < 10 ^ (fuel + 1) by rw [Nat.pow_succ] at hlt; omega)
        refine ⟨c, _, ?_, hdec.snoc hdiv⟩
        simp only [hdiv, if_false, heq, List.append_assoc, List.cons_append, List.nil_append]

theorem unsigned_decimal {value : ℕ} {c : UInt8} {ds : Bytes} (h : Decimal value c ds) :
    unsigned (c :: ds) = some [] := by
  have hall : ds.dropWhile isDigit = [] := List.dropWhile_eq_nil_iff.mpr h.tail
  by_cases hc : c = 48
  · rw [unsigned, if_pos hc, (h.leading hc).2]
    rfl
  · rw [unsigned, if_neg hc, if_pos h.head, hall]
    rfl

theorem valueToStringUInt_decimal (u : UInt32) :
    ∃ c ds, valueToStringUInt u = c :: ds ∧ Decimal u.toNat c ds := by
  have hlt : u.toNat < 10 ^ (9 + 1) := Nat.lt_trans u.toNat_lt (by decide)
  obtain ⟨c, ds, heq, hdec⟩ := uintToString_decimal 9 [] hlt
  exact ⟨c, ds, by rw [valueToStringUInt, heq, List.append_nil], hdec⟩

theorem valueToStringInt_decimal (i : Int32) :
    ∃ c ds, valueToStringInt i = (if i.toInt < 0 then 45 :: c :: ds else c :: ds) ∧
      Decimal i.toInt.natAbs c ds := by
  have hlt : i.toInt.natAbs < 10 ^ (9 + 1) := by
    have hlow := i.le_toInt
    have hhigh := i.toInt_lt
    omega
  obtain ⟨c, ds, heq, hdec⟩ := uintToString_decimal 9 [] hlt
  refine ⟨c, ds, ?_, hdec⟩
  rw [valueToStringInt, heq, List.append_nil]
  rfl

theorem signed_decimal {value : ℕ} {c : UInt8} {ds : Bytes} (h : Decimal value c ds) :
    signed (c :: ds) = some [] := by
  have hc : c ≠ 45 := by
    rintro rfl
    cases h.head
  rw [signed, if_neg hc, unsigned_decimal h]

/-- A number as the writer writes it. -/
def uintNumeral (u : UInt32) : Numeral where
  text := valueToStringUInt u
  ok := by
    obtain ⟨c, ds, heq, hdec⟩ := valueToStringUInt_decimal u
    rw [heq, signed_decimal hdec]

def intNumeral (i : Int32) : Numeral where
  text := valueToStringInt i
  ok := by
    obtain ⟨c, ds, heq, hdec⟩ := valueToStringInt_decimal i
    rw [heq]
    by_cases hneg : i.toInt < 0
    · rw [if_pos hneg, signed, if_pos rfl, unsigned_decimal hdec]
    · rw [if_neg hneg, signed_decimal hdec]

theorem intOf_valueToStringInt (i : Int32) : intOf (valueToStringInt i) = i.toInt := by
  obtain ⟨c, ds, heq, hdec⟩ := valueToStringInt_decimal i
  rw [heq]
  by_cases hneg : i.toInt < 0
  · rw [if_pos hneg, intOf, if_pos rfl, hdec.value]
    omega
  · have hc : c ≠ 45 := by
      rintro rfl
      cases hdec.head
    rw [if_neg hneg, intOf, if_neg hc, hdec.value]
    omega

/-! ### Values -/

/-- A string as the writer writes it. -/
def pieces (s : Bytes) : List Piece := (cstr s).map piece

/-- The writer's short cut for strings without a special character writes the same. -/
theorem valueToQuotedString_eq (s : Bytes) :
    valueToQuotedString s = 34 :: ((cstr s).flatMap escapeCharacter ++ [34]) := by
  rw [valueToQuotedString]
  by_cases hall : (cstr s).all fun c => !isEscapedCharacter c && !isControlCharacter c
  · have hsame : (cstr s).flatMap escapeCharacter = (cstr s).flatMap fun c => [c] := by
      refine List.flatMap_congr fun c hc => ?_
      have hplain := List.all_eq_true.mp hall c hc
      simp only [Bool.and_eq_true, Bool.not_eq_true', isEscapedCharacter, Bool.or_eq_false_iff,
        decide_eq_false_iff_not] at hplain
      simp [escapeCharacter, hplain]
    simp only [hall, if_true, hsame, List.flatMap_singleton']
    rfl
  · simp only [hall, Bool.false_eq_true, if_false]
    rfl

theorem quoted_pieces (s : Bytes) : JsonText.quoted (pieces s) = valueToQuotedString s := by
  have htext : (pieces s).flatMap Piece.text = (cstr s).flatMap escapeCharacter := by
    rw [pieces, List.flatMap_map]
    refine List.flatMap_congr fun c hc => text_piece ?_
    simpa using List.mem_takeWhile_imp hc
  rw [JsonText.quoted, htext, valueToQuotedString_eq]

theorem denoted_pieces (s : Bytes) : JsonText.denoted (pieces s) = cstr s := by
  rw [JsonText.denoted, pieces]
  induction cstr s with
  | nil => rfl
  | cons c s ih => rw [List.map_cons, List.map_cons, join_piece, ih]

mutual

/-- A value with no `realValue` in it. The program makes no other. -/
def noReal : Value → Bool
  | .real _ => false
  | .array xs => noReals xs
  | .object ms => noRealMembers ms
  | _ => true

def noReals : List Value → Bool
  | [] => true
  | x :: xs => noReal x && noReals xs

def noRealMembers : List (Bytes × Value) → Bool
  | [] => true
  | (_, x) :: ms => noReal x && noRealMembers ms

end

mutual

/-- The text of a value without a `realValue`. -/
def text : Value → JsonText
  | .null | .real _ => .null
  | .int i => .number (intNumeral i)
  | .uint u => .number (uintNumeral u)
  | .string s => .string (pieces s)
  | .bool b => .bool b
  | .array xs => .array (texts xs)
  | .object ms => .object (textMembers ms)

def texts : List Value → List JsonText
  | [] => []
  | x :: xs => text x :: texts xs

def textMembers : List (Bytes × Value) → List (List Piece × JsonText)
  | [] => []
  | (name, x) :: ms => (pieces name, text x) :: textMembers ms

end

/-- The rest of an array behind an element, as it is written. -/
def elementsRest : List Value → Bytes
  | [] => [93]
  | x :: xs => 44 :: (writeElements (x :: xs) ++ [93])

/-- The rest of an object behind a member, as it is written. -/
def membersRest : List (Bytes × Value) → Bytes
  | [] => [125]
  | m :: ms => 44 :: (writeMembers (m :: ms) ++ [125])

theorem writeElements_cons (x : Value) (xs : List Value) :
    writeElements (x :: xs) ++ [93] = writeValue x ++ elementsRest xs := by
  cases xs with
  | nil => rw [writeElements, elementsRest]
  | cons y ys =>
      rw [writeElements, elementsRest, List.append_assoc, List.append_assoc]
      · rfl
      · simp

theorem writeMembers_cons (name : Bytes) (x : Value) (ms : List (Bytes × Value)) :
    writeMembers ((name, x) :: ms) ++ [125] =
      valueToQuotedString name ++ 58 :: (writeValue x ++ membersRest ms) := by
  have hcolon : ∀ s t : Bytes, s ++ bytes ":" ++ t = s ++ 58 :: t := by simp [bytes]
  cases ms with
  | nil => rw [writeMembers, membersRest, hcolon, List.append_assoc, List.cons_append]
  | cons m ms =>
      rw [writeMembers, membersRest, hcolon]
      · simp [bytes]
      · simp

mutual

theorem writeValue_render : ∀ {v : Value}, noReal v = true → v.writeValue = v.text.render
  | .null, _ => rfl
  | .int i, _ => rfl
  | .uint u, _ => rfl
  | .real _, h => by cases h
  | .string s, _ => (quoted_pieces s).symm
  | .bool b, _ => by cases b <;> rfl
  | .array [], _ => rfl
  | .array (x :: xs), h => by
      rw [noReal, noReals, Bool.and_eq_true] at h
      rw [writeValue, text, texts, JsonText.render, ← writeValue_render h.1,
        ← elementsRest_render h.2, ← writeElements_cons]
      rfl
  | .object [], _ => rfl
  | .object ((name, x) :: ms), h => by
      rw [noReal, noRealMembers, Bool.and_eq_true] at h
      rw [writeValue, text, textMembers, JsonText.render, ← writeValue_render h.1,
        ← membersRest_render h.2, quoted_pieces, ← writeMembers_cons]
      rfl

theorem elementsRest_render : ∀ {xs : List Value}, noReals xs = true →
    elementsRest xs = JsonText.renderElements (texts xs)
  | [], _ => rfl
  | x :: xs, h => by
      rw [noReals, Bool.and_eq_true] at h
      rw [elementsRest, writeElements_cons, texts, JsonText.renderElements,
        writeValue_render h.1, elementsRest_render h.2]

theorem membersRest_render : ∀ {ms : List (Bytes × Value)}, noRealMembers ms = true →
    membersRest ms = JsonText.renderMembers (textMembers ms)
  | [], _ => rfl
  | (name, x) :: ms, h => by
      rw [noRealMembers, Bool.and_eq_true] at h
      rw [membersRest, writeMembers_cons, textMembers, JsonText.renderMembers,
        writeValue_render h.1, membersRest_render h.2, quoted_pieces]

end

/-! ### What the page reads -/

/-- The value a page reads. -/
def json (v : Value) : Json := v.text.json

theorem json_array (xs : List Value) : (Value.array xs).json = .array (xs.map json) := by
  have hmap : JsonText.jsons (texts xs) = xs.map json := by
    induction xs with
    | nil => rfl
    | cons x xs ih => rw [texts, JsonText.jsons, ih]; rfl
  rw [json, text, JsonText.json, hmap]

theorem json_object (ms : List (Bytes × Value)) :
    (Value.object ms).json = .object (ms.map fun m => (cstr m.1, m.2.json)) := by
  have hmap : JsonText.jsonMembers (textMembers ms) = ms.map fun m => (cstr m.1, m.2.json) := by
    induction ms with
    | nil => rfl
    | cons m ms ih =>
        obtain ⟨name, x⟩ := m
        rw [textMembers, JsonText.jsonMembers, ih, denoted_pieces]
        rfl
  rw [json, text, JsonText.json, hmap]

theorem json_string (s : Bytes) : (Value.string s).json = .string (cstr s) := by
  rw [json, text, JsonText.json, denoted_pieces]

/-- **A page reads every message of the program as the value it was written from.** -/
theorem parse_writeValue {v : Value} (h : v.noReal = true) :
    Json.parse v.writeValue = some v.json := by
  rw [writeValue_render h, Json.parse_render, json]

end Value

end UCClient
