import Mathlib.Data.List.TakeWhile
import UCClient.Json
import UCClient.JsonReader

/-!
# The Reader on JSON Texts

The reader of the program takes more than JSON. On a text that is JSON it makes the value
the text stands for, except that strings go through its own decoder, are cut at their first
NUL, and integers of more than 32 bits become `realValue`s. This is `ofText`, by recursion on
the text.

The one thing it refuses in a JSON text is the escaped first half of a surrogate pair with no
escape behind it.

## Main results

* `Reader.parse_spaced`: the reader on the text of a tree.
* `Reader.ofText_isSome`: a text without escaped halves is accepted.
-/

namespace UCClient

open Json
open JsonText (quoted)
open SpacedText

namespace Reader

/-! ### What the reader makes of a text -/

/-- `Reader::decodeString` on the symbols of a string: the first half of a pair takes the
next code unit with it, and there has to be one. -/
def decodeSymbols : List Symbol → Option Bytes
  | [] => some []
  | .byte c :: rest => (c :: ·) <$> decodeSymbols rest
  | .code u :: .code v :: rest =>
      if isHigh u then
        (codePointToUTF8 (0x10000 + u % 1024 * 1024 + v % 1024) ++ ·) <$> decodeSymbols rest
      else (codePointToUTF8 u ++ ·) <$> decodeSymbols (.code v :: rest)
  | .code u :: rest =>
      if isHigh u then none else (codePointToUTF8 u ++ ·) <$> decodeSymbols rest

/-- The string the reader makes of some pieces. -/
def ofPieces (s : List Piece) : Option Bytes := decodeSymbols (s.map Piece.symbol)

mutual

/-- The value the reader makes of a text, if it accepts it. -/
def ofText : JsonText → Option Value
  | .null => some .null
  | .bool b => some (.bool b)
  | .number n => decodeNumber n.text
  | .string s => (ofPieces s).map fun s => .string (cstr s)
  | .array xs => (ofElements xs []).map .array
  | .object ms => (ofMembers ms []).map .object

/-- The elements are put behind those that are there. -/
def ofElements : List JsonText → List Value → Option (List Value)
  | [], elements => some elements
  | x :: xs, elements => do
      let v ← ofText x
      ofElements xs (elements ++ [v])

/-- The members are stored among those that are there. -/
def ofMembers : List (List Piece × JsonText) → List (Bytes × Value) →
    Option (List (Bytes × Value))
  | [], members => some members
  | (name, x) :: ms, members => do
      let name ← ofPieces name
      let v ← ofText x
      ofMembers ms (Value.insertMember members (cstr name) v)

end

/-! ### Strings -/

variable {rest : Bytes}

theorem hexValue_eq : hexValue = Json.hexValue := rfl

theorem decodeUnicodeEscapeSequence_hex4 {a b c d : UInt8} {u : ℕ} (h : hex4 a b c d = some u) :
    decodeUnicodeEscapeSequence (a :: b :: c :: d :: rest) = some (u, rest) := by
  obtain ⟨a', ha, h⟩ := Option.bind_eq_some_iff.mp h
  obtain ⟨b', hb, h⟩ := Option.bind_eq_some_iff.mp h
  obtain ⟨c', hc, h⟩ := Option.bind_eq_some_iff.mp h
  obtain ⟨d', hd, h⟩ := Option.bind_eq_some_iff.mp h
  cases h
  simp only [decodeUnicodeEscapeSequence, hexValue_eq, ha, hb, hc, hd, Option.bind_eq_bind,
    Option.bind_some]
  rfl

theorem readString_cons {c : UInt8} (hq : c ≠ 34) (hb : c ≠ 92) :
    readString (c :: rest) = readString rest := by
  rw [readString.eq_def]
  simp only [hq, hb, if_false]

/-- A hexadecimal digit neither ends a string nor escapes. -/
theorem readString_hex {c : UInt8} {n : ℕ} (h : Json.hexValue c = some n) :
    readString (c :: rest) = readString rest := by
  refine readString_cons ?_ ?_ <;> rintro rfl <;> cases h

theorem readString_piece (p : Piece) : readString (p.text ++ rest) = readString rest := by
  cases p with
  | plain c h =>
      simp only [isPlain, Bool.and_eq_true, decide_eq_true_eq] at h
      exact readString_cons h.1.2 h.2
  | short e c h =>
      show readString (92 :: e :: rest) = _
      rw [readString.eq_def]
      rfl
  | unicode a b c d u h =>
      obtain ⟨a', ha, h⟩ := Option.bind_eq_some_iff.mp h
      obtain ⟨b', hb, h⟩ := Option.bind_eq_some_iff.mp h
      obtain ⟨c', hc, h⟩ := Option.bind_eq_some_iff.mp h
      obtain ⟨d', hd, -⟩ := Option.bind_eq_some_iff.mp h
      show readString (92 :: 117 :: a :: b :: c :: d :: rest) = _
      rw [readString.eq_def]
      simp only [if_true]
      rw [readString_hex ha, readString_hex hb, readString_hex hc, readString_hex hd]

theorem readString_pieces (s : List Piece) (rest : Bytes) :
    readString (s.flatMap Piece.text ++ 34 :: rest) = (true, rest) := by
  induction s with
  | nil =>
      show readString (34 :: rest) = _
      rw [readString.eq_def]
      rfl
  | cons p s ih => rw [List.flatMap_cons, List.append_assoc, readString_piece, ih]

theorem decodeString_plain {c : UInt8} (h : isPlain c = true) (fuel : ℕ) :
    decodeString (fuel + 1) (c :: rest) = (c :: ·) <$> decodeString fuel rest := by
  simp only [isPlain, Bool.and_eq_true, decide_eq_true_eq] at h
  simp only [decodeString, h.1.2, h.2, if_false]

theorem decodeString_short {e c : UInt8} (h : shortEscape e = some c) (fuel : ℕ) :
    decodeString (fuel + 1) (92 :: e :: rest) = (c :: ·) <$> decodeString fuel rest := by
  rw [shortEscape] at h
  split_ifs at h <;> cases h <;> subst e <;> rfl

theorem decodeUnicodeCodePoint_single {a b c d : UInt8} {u : ℕ} (h : hex4 a b c d = some u)
    (hu : isHigh u = false) :
    decodeUnicodeCodePoint (a :: b :: c :: d :: rest) = some (u, rest) := by
  have hu' : (0xD800 ≤ u && u ≤ 0xDBFF) = false := hu
  simp only [decodeUnicodeCodePoint, decodeUnicodeEscapeSequence_hex4 h, Option.bind_eq_bind,
    Option.bind_some, hu', Bool.false_eq_true, if_false]
  rfl

theorem decodeUnicodeCodePoint_pair {a b c d a' b' c' d' : UInt8} {u v : ℕ}
    (h : hex4 a b c d = some u) (h' : hex4 a' b' c' d' = some v) (hu : isHigh u = true)
    (rest : Bytes) :
    decodeUnicodeCodePoint (a :: b :: c :: d :: 92 :: 117 :: a' :: b' :: c' :: d' :: rest) =
      some (0x10000 + u % 1024 * 1024 + v % 1024, rest) := by
  have hu' : (0xD800 ≤ u && u ≤ 0xDBFF) = true := hu
  simp only [decodeUnicodeCodePoint, decodeUnicodeEscapeSequence_hex4 h,
    decodeUnicodeEscapeSequence_hex4 h', Option.bind_eq_bind, Option.bind_some, hu', if_true]
  rfl

/-- A first half that no code unit follows. -/
theorem decodeUnicodeCodePoint_lone {a b c d : UInt8} {u : ℕ} (h : hex4 a b c d = some u)
    (hu : isHigh u = true) (hrest : ∀ t, rest ≠ 92 :: 117 :: t) :
    decodeUnicodeCodePoint (a :: b :: c :: d :: rest) = none := by
  have hu' : (0xD800 ≤ u && u ≤ 0xDBFF) = true := hu
  simp only [decodeUnicodeCodePoint, decodeUnicodeEscapeSequence_hex4 h, Option.bind_eq_bind,
    Option.bind_some, hu', if_true]

theorem decodeSymbols_code {u : ℕ} (hu : isHigh u = false) (rest : List Symbol) :
    decodeSymbols (.code u :: rest) = (codePointToUTF8 u ++ ·) <$> decodeSymbols rest := by
  cases rest with
  | nil => simp [decodeSymbols, hu]
  | cons v rest => cases v <;> simp [decodeSymbols, hu]

theorem decodeString_unicode (fuel : ℕ) (text : Bytes) :
    decodeString (fuel + 1) (92 :: 117 :: text) = (decodeUnicodeCodePoint text).bind fun r =>
      (codePointToUTF8 r.1 ++ ·) <$> decodeString fuel r.2 := rfl

/-- **The string decoder on the pieces of a string.** -/
theorem decodeString_pieces (s : List Piece) : ∀ fuel, (s.flatMap Piece.text).length ≤ fuel →
    decodeString fuel (s.flatMap Piece.text) = ofPieces s := by
  -- a pair of code units is two pieces, so the induction is on the number of them
  induction hn : s.length using Nat.strongRecOn generalizing s with
  | ind n ih =>
      subst hn
      rintro fuel hlen
      cases s with
      | nil => cases fuel <;> rfl
      | cons p s =>
          have hs := ih s.length (by simp) s rfl
          have hpos : 0 < p.text.length := by cases p <;> exact Nat.zero_lt_succ _
          rw [List.flatMap_cons, List.length_append] at hlen
          obtain ⟨fuel, rfl⟩ := Nat.exists_eq_add_one.mpr (show 0 < fuel by omega)
          rw [List.flatMap_cons]
          cases p with
          | plain c h =>
              show decodeString (fuel + 1) (c :: s.flatMap Piece.text) = _
              rw [decodeString_plain h, hs fuel (by omega)]
              rfl
          | short e c h =>
              show decodeString (fuel + 1) (92 :: e :: s.flatMap Piece.text) = _
              rw [decodeString_short h, hs fuel (by omega)]
              rfl
          | unicode a b c d u h =>
              show decodeString (fuel + 1) (92 :: 117 :: a :: b :: c :: d ::
                s.flatMap Piece.text) = decodeSymbols (.code u :: s.map Piece.symbol)
              rw [decodeString_unicode]
              by_cases hu : isHigh u = true
              · -- the next piece decides whether the half has a partner
                cases s with
                | nil =>
                    rw [List.flatMap_nil, decodeUnicodeCodePoint_lone h hu (by simp)]
                    simp [decodeSymbols, hu]
                | cons q s =>
                    rw [List.flatMap_cons, List.map_cons]
                    cases q with
                    | plain c' h' =>
                        have hne : c' ≠ 92 := by
                          rintro rfl
                          cases h'
                        rw [decodeUnicodeCodePoint_lone h hu (by simp [Piece.text, hne])]
                        simp [decodeSymbols, hu, Piece.symbol]
                    | short e c' h' =>
                        have hne : e ≠ 117 := by
                          rintro rfl
                          cases h'
                        rw [decodeUnicodeCodePoint_lone h hu (by simp [Piece.text, hne])]
                        simp [decodeSymbols, hu, Piece.symbol]
                    | unicode a' b' c' d' v h' =>
                        have hpair := decodeUnicodeCodePoint_pair h h' hu (s.flatMap Piece.text)
                        have hfuel : (s.flatMap Piece.text).length ≤ fuel := by
                          simp only [List.flatMap_cons, List.length_append] at hlen
                          omega
                        have hs' := ih s.length (by simp only [List.length_cons]; omega) s rfl
                          fuel hfuel
                        refine (congrArg (Option.bind · _) hpair).trans ?_
                        simp only [Option.bind_some, hs', Piece.symbol, decodeSymbols, hu, if_true]
                        rfl
              · rw [Bool.not_eq_true] at hu
                rw [decodeUnicodeCodePoint_single h hu, Option.bind_some, decodeSymbols_code hu,
                  hs fuel (by omega)]
                rfl

/-! ### Numbers -/

/-- Behind `t` comes `r`, and what is between belongs to a number. -/
def Consumes (t r : Bytes) : Prop :=
  ∃ taken, t = taken ++ r ∧ ∀ c ∈ taken, isNumberCharacter c = true

namespace Consumes

variable {t r : Bytes} {c : UInt8}

theorem refl (t : Bytes) : Consumes t t := ⟨[], rfl, by simp⟩

theorem cons (hc : isNumberCharacter c = true) (h : Consumes t r) : Consumes (c :: t) r := by
  obtain ⟨taken, rfl, htaken⟩ := h
  exact ⟨c :: taken, rfl, List.forall_mem_cons.mpr ⟨hc, htaken⟩⟩

theorem trans {t' : Bytes} (h : Consumes t t') (h' : Consumes t' r) : Consumes t r := by
  obtain ⟨taken, rfl, htaken⟩ := h
  obtain ⟨taken', rfl, htaken'⟩ := h'
  refine ⟨taken ++ taken', (List.append_assoc _ _ _).symm, fun c hc => ?_⟩
  rcases List.mem_append.mp hc with hc | hc
  · exact htaken c hc
  · exact htaken' c hc

theorem isNumberCharacter_digit (h : isDigit c = true) : isNumberCharacter c = true := by
  have h' : (48 ≤ c && c ≤ 57) = true := h
  simp [isNumberCharacter, h']

theorem dropWhile (t : Bytes) : Consumes t (t.dropWhile isDigit) :=
  ⟨t.takeWhile isDigit, List.takeWhile_append_dropWhile.symm,
    fun _ hc => isNumberCharacter_digit (List.mem_takeWhile_imp hc)⟩

theorem digits (h : digits t = some r) : Consumes t r := by
  cases t with
  | nil => cases h
  | cons c t =>
      rw [Json.digits] at h
      by_cases hc : isDigit c = true
      · rw [if_pos hc] at h
        cases h
        exact (dropWhile t).cons (isNumberCharacter_digit hc)
      · rw [if_neg hc] at h
        cases h

theorem sign (t : Bytes) : Consumes t (sign t) := by
  cases t with
  | nil => exact refl _
  | cons c t =>
      rw [Json.sign]
      by_cases hc : (c = 43 || c = 45) = true
      · rw [if_pos hc]
        refine (refl t).cons ?_
        rcases (by simpa using hc : c = 43 ∨ c = 45) with rfl | rfl <;> rfl
      · rw [if_neg hc]
        exact refl _

theorem exponent (h : exponent t = some r) : Consumes t r := by
  cases t with
  | nil =>
      cases h
      exact refl _
  | cons c t =>
      rw [Json.exponent] at h
      by_cases hc : (c = 101 || c = 69) = true
      · rw [if_pos hc] at h
        refine ((sign t).trans (digits h)).cons ?_
        rcases (by simpa using hc : c = 101 ∨ c = 69) with rfl | rfl <;> rfl
      · rw [if_neg hc] at h
        cases h
        exact refl _

theorem fraction (h : fraction t = some r) : Consumes t r := by
  cases t with
  | nil =>
      cases h
      exact refl _
  | cons c t =>
      rw [Json.fraction] at h
      by_cases hc : c = 46
      · rw [if_pos hc] at h
        obtain ⟨t', ht', hr⟩ := Option.bind_eq_some_iff.mp h
        subst hc
        exact ((digits ht').trans (exponent hr)).cons rfl
      · rw [if_neg hc] at h
        exact exponent h

theorem unsigned (h : unsigned t = some r) : Consumes t r := by
  cases t with
  | nil => cases h
  | cons c t =>
      rw [Json.unsigned] at h
      by_cases hzero : c = 48
      · rw [if_pos hzero] at h
        subst hzero
        exact (fraction h).cons rfl
      · rw [if_neg hzero] at h
        by_cases hc : isDigit c = true
        · rw [if_pos hc] at h
          exact ((dropWhile t).trans (fraction h)).cons (isNumberCharacter_digit hc)
        · rw [if_neg hc] at h
          cases h

theorem signed (h : signed t = some r) : Consumes t r := by
  cases t with
  | nil => cases h
  | cons c t =>
      rw [Json.signed] at h
      by_cases hc : c = 45
      · rw [if_pos hc] at h
        subst hc
        exact (unsigned h).cons rfl
      · rw [if_neg hc] at h
        exact unsigned h

end Consumes

/-! ### Tokens -/

theorem skipSpaces_append (s : Space) (rest : Bytes) :
    skipSpaces (s.text ++ rest) = skipSpaces rest := by
  refine List.dropWhile_append_of_pos fun c hc => ?_
  have hok := s.ok c hc
  simp only [isSpace, Bool.or_eq_true, decide_eq_true_eq] at hok ⊢
  rcases hok with ((rfl | rfl) | rfl) | rfl <;> simp

theorem readToken_append (s : Space) (rest : Bytes) :
    readToken (s.text ++ rest) = readToken rest := by
  rw [readToken, readToken, skipSpaces_append]

theorem skipSpaces_cons {c : UInt8} (h : 32 < c) : skipSpaces (c :: rest) = c :: rest := by
  refine List.dropWhile_cons_of_neg ?_
  simp only [Bool.or_eq_true, decide_eq_true_eq]
  rintro (((rfl | rfl) | rfl) | rfl) <;> revert h <;> decide

/-- A token that a scanner found the end of. -/
theorem token_append (type : TokenType) (text : Bytes) :
    token type (text ++ rest) (true, rest) = ⟨type, text, rest⟩ := by
  have hlen : (text ++ rest).length - rest.length = text.length := by
    rw [List.length_append]
    omega
  simp only [token, if_true, hlen, List.take_left]

theorem readToken_quoted (s : List Piece) (rest : Bytes) :
    readToken (quoted s ++ rest) = ⟨.string, quoted s, rest⟩ := by
  have hread := readString_pieces s rest
  have happ : quoted s ++ rest = 34 :: (s.flatMap Piece.text ++ 34 :: rest) := by
    rw [quoted, List.cons_append, List.append_assoc, List.singleton_append]
  have htok : readToken (quoted s ++ rest) = token .string (quoted s ++ rest)
      (readString (s.flatMap Piece.text ++ 34 :: rest)) := by
    rw [happ]
    rfl
  rw [htok, hread, token_append]

/-- A number ends where the reader stops taking characters. -/
theorem dropWhile_isNumberCharacter {text : Bytes} (hrest : Follows rest)
    (h : ∀ c ∈ text, isNumberCharacter c = true) :
    (text ++ rest).dropWhile isNumberCharacter = rest := by
  have hnot : rest.dropWhile isNumberCharacter = rest := by
    cases rest with
    | nil => rfl
    | cons c rest =>
        refine List.dropWhile_cons_of_neg ?_
        rcases hrest c rfl with rfl | rfl | rfl | rfl | rfl | rfl | rfl <;> decide
  rw [List.dropWhile_append, List.dropWhile_eq_nil_iff.mpr h, hnot]
  rfl

theorem readToken_number (n : Numeral) (hrest : Follows rest) :
    readToken (n.text ++ rest) = ⟨.number, n.text, rest⟩ := by
  obtain ⟨taken, htaken, hall⟩ := Consumes.signed n.ok
  rw [List.append_nil] at htaken
  obtain ⟨c, text, htext, hspace, -⟩ := head_render (.number n)
  rw [render] at htext
  have hok := n.ok
  rw [htext] at hok htaken ⊢
  rw [← htaken, List.forall_mem_cons] at hall
  have hne : ∀ d : UInt8, d ≠ 45 → isDigit d = false → c ≠ d := fun _ => ne_of_signed hok
  have hnum : ((48 ≤ c && c ≤ 57) || c = 45) = true := by
    rcases head_signed hok with rfl | h
    · rfl
    · exact Bool.or_eq_true_iff.mpr (.inl h)
  have htok : readToken (c :: (text ++ rest)) = token .number (c :: (text ++ rest))
      (true, (text ++ rest).dropWhile isNumberCharacter) := by
    simp only [readToken, skipSpaces_cons hspace, hne 123 (by decide) rfl,
      hne 125 (by decide) rfl, hne 91 (by decide) rfl, hne 93 (by decide) rfl,
      hne 34 (by decide) rfl, hne 47 (by decide) rfl, if_false, hnum, if_true]
  rw [List.cons_append, htok, dropWhile_isNumberCharacter hrest hall.2, ← List.cons_append,
    token_append]

theorem readToken_objectBegin : readToken (123 :: rest) = ⟨.objectBegin, [123], rest⟩ :=
  token_append .objectBegin [123]

theorem readToken_objectEnd : readToken (125 :: rest) = ⟨.objectEnd, [125], rest⟩ :=
  token_append .objectEnd [125]

theorem readToken_arrayBegin : readToken (91 :: rest) = ⟨.arrayBegin, [91], rest⟩ :=
  token_append .arrayBegin [91]

theorem readToken_arrayEnd : readToken (93 :: rest) = ⟨.arrayEnd, [93], rest⟩ :=
  token_append .arrayEnd [93]

theorem readToken_arraySeparator : readToken (44 :: rest) = ⟨.arraySeparator, [44], rest⟩ :=
  token_append .arraySeparator [44]

theorem readToken_memberSeparator : readToken (58 :: rest) = ⟨.memberSeparator, [58], rest⟩ :=
  token_append .memberSeparator [58]

/-- The next token behind white space, when it is no comment. -/
theorem skipCommentTokens_eq {doc text : Bytes} {type : TokenType}
    (h : readToken doc = ⟨type, text, rest⟩) (htype : type ≠ .comment) (s : Space) (fuel : ℕ) :
    skipCommentTokens fuel (s.text ++ doc) = ⟨type, text, rest⟩ := by
  rw [← readToken_append s] at h
  cases fuel with
  | zero => exact h
  | succ fuel => simp only [skipCommentTokens, h, htype, if_false]

/-! ### Values -/

theorem decodeStringToken_quoted (s : List Piece) : decodeStringToken (quoted s) = ofPieces s := by
  have hlen : (quoted s).length = (s.flatMap Piece.text).length + 2 := by
    simp only [quoted, List.length_cons, List.length_append, List.length_nil]
  have htake : (quoted s).tail.take ((quoted s).length - 2) = s.flatMap Piece.text := by
    rw [hlen, Nat.add_sub_cancel, quoted, List.tail_cons, List.take_left]
  rw [decodeStringToken, htake]
  exact decodeString_pieces s _ (by omega)

mutual

theorem readValue_render : ∀ (t : SpacedText) (s : Space) (fuel : ℕ) (rest : Bytes),
    Follows rest → 2 * (t.render ++ rest).length ≤ fuel →
      readValue fuel (s.text ++ (t.render ++ rest)) = (ofText t.text).map (·, rest)
  | t, _, 0, rest, _, hlen => by
      obtain ⟨c, text, htext, -⟩ := head_render t
      rw [htext] at hlen
      simp at hlen
  | .null, s, fuel + 1, rest, _, _ => by
      have htok : readToken (render .null ++ rest) = ⟨.null, render .null, rest⟩ :=
        token_append .null (render .null)
      simp only [readValue, skipCommentTokens_eq htok (by decide), SpacedText.text, ofText]
      rfl
  | .bool true, s, fuel + 1, rest, _, _ => by
      have htok : readToken (render (.bool true) ++ rest) =
          ⟨.true, render (.bool true), rest⟩ := token_append .true (render (.bool true))
      simp only [readValue, skipCommentTokens_eq htok (by decide), SpacedText.text, ofText]
      rfl
  | .bool false, s, fuel + 1, rest, _, _ => by
      have htok : readToken (render (.bool false) ++ rest) =
          ⟨.false, render (.bool false), rest⟩ := token_append .false (render (.bool false))
      simp only [readValue, skipCommentTokens_eq htok (by decide), SpacedText.text, ofText]
      rfl
  | .number n, s, fuel + 1, rest, hrest, _ => by
      have htok := readToken_number n hrest
      simp only [render, readValue, skipCommentTokens_eq htok (by decide), SpacedText.text, ofText]
  | .string p, s, fuel + 1, rest, _, _ => by
      have htok := readToken_quoted p rest
      simp only [render, readValue, skipCommentTokens_eq htok (by decide), SpacedText.text, ofText,
        decodeStringToken_quoted, Option.map_map]
      rfl
  | .array inside [], s, fuel + 1, rest, _, _ => by
      have htok : readToken (91 :: (inside.text ++ 93 :: rest)) = _ := readToken_arrayBegin
      simp only [render, List.cons_append, List.append_assoc, List.nil_append, readValue,
        skipCommentTokens_eq htok (by decide), SpacedText.text, texts, ofText, ofElements,
        skipSpaces_append, skipSpaces_cons (c := 93) (by decide), List.head?_cons, if_true]
      rw [readToken_append, readToken_arrayEnd]
      rfl
  | .array _ (⟨u, x, u'⟩ :: xs), s, fuel + 1, rest, _, hlen => by
      obtain ⟨c, text, htext, hspace, hc⟩ := head_render x
      have htok : readToken (91 :: (u.text ++ (x.render ++ (u'.text ++
        (renderElements xs ++ rest))))) = _ := readToken_arrayBegin
      have hhead : ∀ r, (skipSpaces (x.render ++ r)).head? ≠ some 93 := by
        intro r
        rw [htext, List.cons_append, skipSpaces_cons hspace]
        simpa using hc
      have hxs := readArray_render (⟨u, x, u'⟩ :: xs) fuel [] rest (by simp) (by
        simp only [render, renderElements, List.length_append, List.length_cons] at hlen ⊢
        omega)
      simp only [renderElements, List.cons_append, List.tail_cons, List.append_assoc] at hxs
      simp only [render, List.cons_append, List.append_assoc, readValue,
        skipCommentTokens_eq htok (by decide), skipSpaces_append, hhead, if_false, hxs,
        SpacedText.text, ofText, Option.map_map]
      rfl
  | .object inside [], _, 1, rest, _, hlen => by
      simp only [render, List.cons_append, List.length_cons] at hlen
      omega
  | .object inside [], s, fuel + 2, rest, _, _ => by
      have htok : readToken (123 :: (inside.text ++ 125 :: rest)) = _ := readToken_objectBegin
      simp only [render, List.cons_append, List.append_assoc, List.nil_append, readValue,
        readObject, skipCommentTokens_eq htok (by decide), SpacedText.text, textMembers, ofText,
        ofMembers, skipCommentTokens_eq readToken_objectEnd (by decide)]
      rfl
  | .object _ ((⟨u, name, u'⟩, ⟨v, x, v'⟩) :: ms), s, fuel + 1, rest, _, hlen => by
      have htok : readToken (123 :: (u.text ++ (quoted name ++ (u'.text ++ 58 :: (v.text ++
        (x.render ++ (v'.text ++ (renderMembers ms ++ rest)))))))) = _ := readToken_objectBegin
      have hms := readObject_render ((⟨u, name, u'⟩, ⟨v, x, v'⟩) :: ms) fuel [] [] rest (by simp)
        (by
          simp only [render, renderMembers, List.length_append, List.length_cons] at hlen ⊢
          omega)
      simp only [renderMembers, List.cons_append, List.tail_cons, List.append_assoc] at hms
      simp only [render, List.cons_append, List.append_assoc, readValue,
        skipCommentTokens_eq htok (by decide), hms, SpacedText.text, ofText, Option.map_map]
      rfl

theorem readArray_render : ∀ (xs : List (Padded SpacedText)) (fuel : ℕ) (elements : List Value)
    (rest : Bytes), xs ≠ [] → 2 * (renderElements xs ++ rest).length ≤ fuel + 1 →
      readArray fuel elements (renderElements xs ++ rest).tail =
        (ofElements (texts xs) elements).map fun elements => (.array elements, rest)
  | [], _, _, _, hne, _ => absurd rfl hne
  | _ :: _, 0, _, rest, _, hlen => by
      simp only [renderElements, List.cons_append, List.length_cons] at hlen
      omega
  | ⟨u, x, u'⟩ :: xs, fuel + 1, elements, rest, _, hlen => by
      have hx := readValue_render x u fuel (u'.text ++ (renderElements xs ++ rest))
        ((follows_renderElements xs).append u') (by
          simp only [renderElements, List.length_append, List.length_cons] at hlen ⊢
          omega)
      simp only [renderElements, List.cons_append, List.tail_cons, List.append_assoc, readArray,
        hx, texts, ofElements]
      cases ofText x.text with
      | none => rfl
      | some v =>
          simp only [Option.map_some, Option.bind_eq_bind, Option.bind_some]
          cases xs with
          | nil =>
              rw [renderElements, List.singleton_append,
                skipCommentTokens_eq readToken_arrayEnd (by decide)]
              rfl
          | cons y ys =>
              have hxs := readArray_render (y :: ys) fuel (elements ++ [v]) rest (by simp) (by
                simp only [renderElements, List.length_append, List.length_cons] at hlen ⊢
                omega)
              have htok : readToken (renderElements (y :: ys) ++ rest) = _ :=
                readToken_arraySeparator
              rw [skipCommentTokens_eq htok (by decide)]
              exact hxs

theorem readObject_render : ∀ (ms : List (Padded (List Piece) × Padded SpacedText)) (fuel : ℕ)
    (name : Bytes) (members : List (Bytes × Value)) (rest : Bytes), ms ≠ [] →
      2 * (renderMembers ms ++ rest).length ≤ fuel + 1 →
        readObject fuel name members (renderMembers ms ++ rest).tail =
          (ofMembers (textMembers ms) members).map fun members => (.object members, rest)
  | [], _, _, _, _, hne, _ => absurd rfl hne
  | _ :: _, 0, _, _, rest, _, hlen => by
      simp only [renderMembers, List.cons_append, List.length_cons] at hlen
      omega
  | (⟨u, key, u'⟩, ⟨v, x, v'⟩) :: ms, fuel + 1, name, members, rest, _, hlen => by
      have hx := readValue_render x v fuel (v'.text ++ (renderMembers ms ++ rest))
        ((follows_renderMembers ms).append v') (by
          simp only [renderMembers, List.length_append, List.length_cons] at hlen ⊢
          omega)
      have hkey := skipCommentTokens_eq (readToken_quoted key (u'.text ++ 58 :: (v.text ++
        (x.render ++ (v'.text ++ (renderMembers ms ++ rest)))))) (by decide)
      have hcolon : readToken (58 :: (v.text ++ (x.render ++ (v'.text ++
        (renderMembers ms ++ rest))))) = _ := readToken_memberSeparator
      simp only [renderMembers, List.cons_append, List.tail_cons, List.append_assoc, readObject,
        hkey, readToken_append, hcolon, decodeStringToken_quoted, hx, textMembers, ofMembers]
      cases ofPieces key with
      | none => rfl
      | some key =>
          cases ofText x.text with
          | none => rfl
          | some w =>
              simp only [Option.map_some, Option.bind_eq_bind, Option.bind_some]
              cases ms with
              | nil =>
                  have htok : readToken (renderMembers [] ++ rest) = _ := readToken_objectEnd
                  rw [skipCommentTokens_eq htok (by decide), readToken_append, htok]
                  rfl
              | cons m ms =>
                  have htok : readToken (renderMembers (m :: ms) ++ rest) = _ :=
                    readToken_arraySeparator
                  have hms := readObject_render (m :: ms) fuel key
                    (Value.insertMember members (cstr key) w) rest (by simp) (by
                      simp only [renderMembers, List.length_append, List.length_cons] at hlen ⊢
                      omega)
                  rw [skipCommentTokens_eq htok (by decide), readToken_append, htok]
                  exact hms

end

/-- **The reader on a text**, with any white space. -/
theorem parse_spaced (t : SpacedText) (s s' : Space) :
    parse (s.text ++ (t.render ++ s'.text)) = ofText t.text := by
  have hfollows : Follows s'.text := by
    have hnil : Follows [] := by simp [Follows]
    have happend := hnil.append s'
    rwa [List.append_nil] at happend
  have ht := readValue_render t s (2 * (s.text ++ (t.render ++ s'.text)).length + 2) s'.text
    hfollows (by
      simp only [List.length_append]
      omega)
  rw [parse, ht, Option.map_map]
  cases ofText t.text <;> rfl

theorem parse_render (t : JsonText) : parse t.render = ofText t := by
  have ht := parse_spaced t.spaced .empty .empty
  rw [t.render_spaced, t.text_spaced] at ht
  simpa using ht

/-! ### Which texts are accepted -/

/-- A digit stands at the front of a number without a sign. -/
theorem head_unsigned {t r : Bytes} (h : unsigned t = some r) : t.head?.any isDigit = true := by
  cases t with
  | nil => cases h
  | cons c t =>
      rw [unsigned] at h
      by_cases hzero : c = 48
      · subst hzero
        rfl
      · by_cases hc : isDigit c = true
        · exact hc
        · simp [hzero, hc] at h

theorem sscanfDouble_signed {t r : Bytes} (h : signed t = some r) : sscanfDouble t = true := by
  cases t with
  | nil => cases h
  | cons c t =>
      rw [signed] at h
      by_cases hc : c = 45
      · subst hc
        exact Bool.or_eq_true_iff.mpr (.inl (head_unsigned h))
      · rw [if_neg hc] at h
        have hplus : c ≠ 43 := by
          rintro rfl
          cases head_unsigned h
        have hstrip : (if (c :: t).head? = some 45 || (c :: t).head? = some 43 then (c :: t).tail
            else c :: t) = c :: t := by simp [hc, hplus]
        refine Bool.or_eq_true_iff.mpr (.inl ?_)
        rw [hstrip]
        exact head_unsigned h

/-- Every number of a text is one for the reader. -/
theorem decodeNumber_isSome (n : Numeral) : (decodeNumber n.text).isSome = true := by
  have hdouble : decodeDouble n.text = some (.real n.text) := by
    rw [decodeDouble, if_pos (sscanfDouble_signed n.ok)]
  simp only [decodeNumber, hdouble]
  split
  · rfl
  · split
    · rfl
    · split_ifs <;> rfl

/-- The piece is the first half of a pair, escaped. -/
def isHalf (p : Piece) : Bool :=
  match p.symbol with
  | .byte _ => false
  | .code u => isHigh u

theorem ofPieces_isSome {s : List Piece} (h : ∀ p ∈ s, isHalf p = false) :
    (ofPieces s).isSome = true := by
  rw [ofPieces]
  induction s with
  | nil => rfl
  | cons p s ih =>
      obtain ⟨hp, hs⟩ := List.forall_mem_cons.mp h
      rw [List.map_cons]
      cases hsym : p.symbol with
      | byte c => simp [decodeSymbols, ih hs]
      | code u =>
          rw [isHalf, hsym] at hp
          rw [decodeSymbols_code hp]
          simp [ih hs]

mutual

/-- No string of the text has an escaped first half of a pair in it, as no text has that is
made from well-formed strings. -/
def noHalves : JsonText → Bool
  | .string s => s.all fun p => !isHalf p
  | .array xs => noHalvesElements xs
  | .object ms => noHalvesMembers ms
  | .null | .bool _ | .number _ => true

def noHalvesElements : List JsonText → Bool
  | [] => true
  | x :: xs => noHalves x && noHalvesElements xs

def noHalvesMembers : List (List Piece × JsonText) → Bool
  | [] => true
  | (name, x) :: ms => (name.all fun p => !isHalf p) && noHalves x && noHalvesMembers ms

end

theorem ofPieces_isSome_of_all {s : List Piece} (h : (s.all fun p => !isHalf p) = true) :
    (ofPieces s).isSome = true :=
  ofPieces_isSome fun p hp => by simpa using List.all_eq_true.mp h p hp

mutual

theorem ofText_isSome : ∀ {t : JsonText}, noHalves t = true → (ofText t).isSome = true
  | .null, _ => rfl
  | .bool _, _ => rfl
  | .number n, _ => decodeNumber_isSome n
  | .string s, h => by
      rw [noHalves] at h
      rw [ofText, Option.isSome_map, ofPieces_isSome_of_all h]
  | .array xs, h => by
      rw [noHalves] at h
      rw [ofText, Option.isSome_map, ofElements_isSome h]
  | .object ms, h => by
      rw [noHalves] at h
      rw [ofText, Option.isSome_map, ofMembers_isSome h]

theorem ofElements_isSome : ∀ {xs : List JsonText} {elements : List Value},
    noHalvesElements xs = true → (ofElements xs elements).isSome = true
  | [], _, _ => rfl
  | x :: xs, elements, h => by
      rw [noHalvesElements, Bool.and_eq_true] at h
      obtain ⟨v, hv⟩ := Option.isSome_iff_exists.mp (ofText_isSome h.1)
      rw [ofElements, hv]
      exact ofElements_isSome h.2

theorem ofMembers_isSome : ∀ {ms : List (List Piece × JsonText)} {members : List (Bytes × Value)},
    noHalvesMembers ms = true → (ofMembers ms members).isSome = true
  | [], _, _ => rfl
  | (name, x) :: ms, members, h => by
      rw [noHalvesMembers, Bool.and_eq_true, Bool.and_eq_true] at h
      obtain ⟨s, hs⟩ := Option.isSome_iff_exists.mp (ofPieces_isSome_of_all h.1.1)
      obtain ⟨v, hv⟩ := Option.isSome_iff_exists.mp (ofText_isSome h.1.2)
      rw [ofMembers, hs, hv]
      exact ofMembers_isSome h.2

end

end Reader

end UCClient
