import Mathlib.Data.Int.Notation
import Mathlib.Data.Nat.Notation
import Mathlib.Tactic.ByContra

/-!
# JSON Texts and Their Parser

A JSON value, the texts that stand for it, and the function by which ECMAScript reads them.

A text is the list of the bytes of its UTF-8 encoding, and so is a string; in a string a
surrogate that is not half of a pair is encoded like any other code point of three bytes.

`JsonText` is the grammar without white space, as a type of syntax trees. The numerals and
the pieces of the strings carry the proof that they are well formed, so that every tree is
rendered as a JSON text (`render`) and stands for a value (`json`). Two programs that write
and read JSON meet here: what one writes is the rendering of a tree, and the other is
correct if it reads renderings. `SpacedText` is the whole grammar, with white space between the
tokens; the readers are followed on these texts, of which those without white space are a case.

The parser recurses with fuel. No call is made without consuming a byte, so the length of
the text is enough of it.

## Main results

* `Json.parse_spaced`: `JSON.parse` reads every text as the value it stands for.
-/

/-- A JSON value. A number is the text it is written as. -/
inductive Json
  | null
  | bool (b : Bool)
  | number (text : List UInt8)
  | string (s : List UInt8)
  | array (xs : List Json)
  | object (members : List (List UInt8 × Json))

namespace Json

/-- The member under a name: of several, the last. -/
def get : List (List UInt8 × Json) → List UInt8 → Option Json
  | [], _ => none
  | (k, x) :: rest, key => (get rest key).or (if k = key then some x else none)

/-- What is found is the value of a member. -/
theorem mem_of_get {ms : List (List UInt8 × Json)} {key : List UInt8} {x : Json}
    (h : get ms key = some x) : ∃ m ∈ ms, m.2 = x := by
  induction ms with
  | nil => cases h
  | cons m ms ih =>
      obtain ⟨k, y⟩ := m
      rw [get, Option.or_eq_some_iff] at h
      rcases h with h | ⟨-, h⟩
      · obtain ⟨m, hm, rfl⟩ := ih h
        exact ⟨m, List.mem_cons_of_mem _ hm, rfl⟩
      · by_cases hk : k = key
        · rw [if_pos hk] at h
          cases h
          exact ⟨_, List.mem_cons_self, rfl⟩
        · rw [if_neg hk] at h
          cases h

/-! ### Strings -/

/-- A byte that can stand in a string for itself. -/
def isPlain (c : UInt8) : Bool := 0x20 ≤ c && c ≠ 34 && c ≠ 92

/-- The character a letter stands for behind a backslash. -/
def shortEscape (e : UInt8) : Option UInt8 :=
  if e = 34 then some 34
  else if e = 47 then some 47
  else if e = 92 then some 92
  else if e = 98 then some 8
  else if e = 102 then some 12
  else if e = 110 then some 10
  else if e = 114 then some 13
  else if e = 116 then some 9
  else none

/-- The value of a hexadecimal digit of either case. -/
def hexValue (c : UInt8) : Option ℕ :=
  if 48 ≤ c && c ≤ 57 then some (c.toNat - 48)
  else if 97 ≤ c && c ≤ 102 then some (c.toNat - 97 + 10)
  else if 65 ≤ c && c ≤ 70 then some (c.toNat - 65 + 10)
  else none

/-- The number four hexadecimal digits denote. -/
def hex4 (a b c d : UInt8) : Option ℕ := do
  let a ← hexValue a
  let b ← hexValue b
  let c ← hexValue c
  let d ← hexValue d
  pure (((a * 16 + b) * 16 + c) * 16 + d)

/-- What a string is made of: bytes, and UTF-16 code units that are given by number. -/
inductive Symbol
  | byte (c : UInt8)
  | code (u : ℕ)
  deriving DecidableEq, Repr

/-- The encoding of a code point. -/
def utf8 (cp : ℕ) : List UInt8 :=
  if cp ≤ 0x7f then [UInt8.ofNat cp]
  else if cp ≤ 0x7ff then [UInt8.ofNat (0xc0 + cp / 64), UInt8.ofNat (0x80 + cp % 64)]
  else if cp ≤ 0xffff then
    [UInt8.ofNat (0xe0 + cp / 4096), UInt8.ofNat (0x80 + cp / 64 % 64),
      UInt8.ofNat (0x80 + cp % 64)]
  else
    [UInt8.ofNat (0xf0 + cp / 262144), UInt8.ofNat (0x80 + cp / 4096 % 64),
      UInt8.ofNat (0x80 + cp / 64 % 64), UInt8.ofNat (0x80 + cp % 64)]

/-- A code unit that is the first half of a pair. -/
def isHigh (u : ℕ) : Bool := 0xd800 ≤ u && u ≤ 0xdbff

/-- A code unit that is the second half of a pair. -/
def isLow (u : ℕ) : Bool := 0xdc00 ≤ u && u ≤ 0xdfff

/-- The bytes of a string: two halves that meet are one code point. -/
def join : List Symbol → List UInt8
  | [] => []
  | .byte c :: rest => c :: join rest
  | .code u :: .code v :: rest =>
      if isHigh u && isLow v then
        utf8 (0x10000 + (u - 0xd800) * 1024 + (v - 0xdc00)) ++ join rest
      else utf8 u ++ join (.code v :: rest)
  | .code u :: rest => utf8 u ++ join rest

theorem join_byte (c : UInt8) (rest : List Symbol) : join (.byte c :: rest) = c :: join rest := by
  rw [join]

/-- A code unit that is no first half is a code point of its own. -/
theorem join_code {u : ℕ} (h : isHigh u = false) (rest : List Symbol) :
    join (.code u :: rest) = utf8 u ++ join rest := by
  cases rest with
  | nil => simp [join]
  | cons v rest => cases v <;> simp [join, h]

/-- A string behind its opening quote, and the text behind its closing one. -/
def scanString : List UInt8 → Option (List Symbol × List UInt8)
  | [] => none
  | c :: rest =>
      if c = 34 then some ([], rest)
      else if c = 92 then
        match rest with
        | [] => none
        | e :: rest =>
            if e = 117 then
              match rest with
              | a :: b :: c :: d :: rest => do
                  let u ← hex4 a b c d
                  let (s, rest) ← scanString rest
                  pure (.code u :: s, rest)
              | _ => none
            else do
              let c ← shortEscape e
              let (s, rest) ← scanString rest
              pure (.byte c :: s, rest)
      else if isPlain c then do
        let (s, rest) ← scanString rest
        pure (.byte c :: s, rest)
      else none

/-! ### Numbers -/

def isDigit (c : UInt8) : Bool := 48 ≤ c && c ≤ 57

/-- The text behind one or more digits. -/
def digits : List UInt8 → Option (List UInt8)
  | [] => none
  | c :: rest => if isDigit c then some (rest.dropWhile isDigit) else none

/-- The text behind a sign, if there is one. -/
def sign : List UInt8 → List UInt8
  | [] => []
  | c :: rest => if c = 43 || c = 45 then rest else c :: rest

/-- The text behind an exponent, if there is one. -/
def exponent : List UInt8 → Option (List UInt8)
  | [] => some []
  | c :: rest => if c = 101 || c = 69 then digits (sign rest) else some (c :: rest)

/-- The text behind a fraction and an exponent, if there are any. -/
def fraction : List UInt8 → Option (List UInt8)
  | [] => some []
  | c :: rest => if c = 46 then digits rest >>= exponent else exponent (c :: rest)

/-- The text behind a number without a sign. -/
def unsigned : List UInt8 → Option (List UInt8)
  | [] => none
  | c :: rest =>
      if c = 48 then fraction rest
      else if isDigit c then fraction (rest.dropWhile isDigit)
      else none

/-- The text behind a number. -/
def signed : List UInt8 → Option (List UInt8)
  | [] => none
  | c :: rest => if c = 45 then unsigned rest else unsigned (c :: rest)

/-- What digits amount to. -/
def natOf (ds : List UInt8) : ℕ := ds.foldl (fun n c => n * 10 + (c.toNat - 48)) 0

/-- The number a text of digits denotes, with or without a minus sign. -/
def intOf : List UInt8 → ℤ
  | [] => 0
  | c :: ds => if c = 45 then -natOf ds else natOf (c :: ds)

/-! ### The parser -/

def isSpace (c : UInt8) : Bool := c = 32 || c = 9 || c = 10 || c = 13

/-- The text behind white space. -/
def skipSpace (text : List UInt8) : List UInt8 := text.dropWhile isSpace

/-- A value that is written as a word, and the text behind it. -/
def word (w : List UInt8) (x : Json) (text : List UInt8) : Option (Json × List UInt8) :=
  if w.isPrefixOf text then some (x, text.drop w.length) else none

mutual

/-- A value, and the text behind it. -/
def parseValue : ℕ → List UInt8 → Option (Json × List UInt8)
  | 0, _ => none
  | fuel + 1, text =>
      match skipSpace text with
      | [] => none
      | c :: rest =>
          if c = 123 then
            if (skipSpace rest).head? = some 125 then some (.object [], (skipSpace rest).tail)
            else do
              let (m, rest) ← parseMember fuel rest
              let (ms, rest) ← parseMembers fuel rest
              pure (.object (m :: ms), rest)
          else if c = 91 then
            if (skipSpace rest).head? = some 93 then some (.array [], (skipSpace rest).tail)
            else do
              let (x, rest) ← parseValue fuel rest
              let (xs, rest) ← parseElements fuel rest
              pure (.array (x :: xs), rest)
          else if c = 34 then do
            let (s, rest) ← scanString rest
            pure (.string (join s), rest)
          else if c = 110 then word [117, 108, 108] .null rest
          else if c = 116 then word [114, 117, 101] (.bool true) rest
          else if c = 102 then word [97, 108, 115, 101] (.bool false) rest
          else do
            let rest' ← signed (c :: rest)
            pure (.number ((c :: rest).take ((c :: rest).length - rest'.length)), rest')

/-- The elements of an array from the second on. -/
def parseElements : ℕ → List UInt8 → Option (List Json × List UInt8)
  | 0, _ => none
  | fuel + 1, text =>
      match skipSpace text with
      | [] => none
      | c :: rest =>
          if c = 93 then some ([], rest)
          else if c = 44 then do
            let (x, rest) ← parseValue fuel rest
            let (xs, rest) ← parseElements fuel rest
            pure (x :: xs, rest)
          else none

/-- A member of an object. -/
def parseMember : ℕ → List UInt8 → Option ((List UInt8 × Json) × List UInt8)
  | 0, _ => none
  | fuel + 1, text =>
      match skipSpace text with
      | [] => none
      | c :: rest =>
          if c = 34 then do
            let (name, rest) ← scanString rest
            if (skipSpace rest).head? = some 58 then do
              let (x, rest) ← parseValue fuel (skipSpace rest).tail
              pure ((join name, x), rest)
            else none
          else none

/-- The members of an object from the second on. -/
def parseMembers : ℕ → List UInt8 → Option (List (List UInt8 × Json) × List UInt8)
  | 0, _ => none
  | fuel + 1, text =>
      match skipSpace text with
      | [] => none
      | c :: rest =>
          if c = 125 then some ([], rest)
          else if c = 44 then do
            let (m, rest) ← parseMember fuel rest
            let (ms, rest) ← parseMembers fuel rest
            pure (m :: ms, rest)
          else none

end

/-- `JSON.parse`; a text that is not JSON is a `SyntaxError`. -/
def parse (text : List UInt8) : Option Json := do
  let (x, rest) ← parseValue text.length text
  if skipSpace rest = [] then pure x else none

end Json

open Json

/-! ### Texts -/

/-- A piece of a string as it is written. -/
inductive Piece
  | plain (c : UInt8) (h : isPlain c = true)
  | short (e c : UInt8) (h : shortEscape e = some c)
  | unicode (a b c d : UInt8) (u : ℕ) (h : hex4 a b c d = some u)

namespace Piece

def text : Piece → List UInt8
  | plain c _ => [c]
  | short e _ _ => [92, e]
  | unicode a b c d _ _ => [92, 117, a, b, c, d]

def symbol : Piece → Symbol
  | plain c _ => .byte c
  | short _ c _ => .byte c
  | unicode _ _ _ _ u _ => .code u

end Piece

/-- A number as it is written. -/
structure Numeral where
  text : List UInt8
  ok : signed text = some []

/-- A JSON text without white space. -/
inductive JsonText
  | null
  | bool (b : Bool)
  | number (n : Numeral)
  | string (s : List Piece)
  | array (xs : List JsonText)
  | object (members : List (List Piece × JsonText))

namespace JsonText

/-- A string between its quotes. -/
def quoted (s : List Piece) : List UInt8 := 34 :: (s.flatMap Piece.text ++ [34])

mutual

def render : JsonText → List UInt8
  | .null => [110, 117, 108, 108]
  | .bool b => if b then [116, 114, 117, 101] else [102, 97, 108, 115, 101]
  | .number n => n.text
  | .string s => quoted s
  | .array [] => [91, 93]
  | .array (x :: xs) => 91 :: (render x ++ renderElements xs)
  | .object [] => [123, 125]
  | .object ((name, x) :: ms) => 123 :: (quoted name ++ 58 :: (render x ++ renderMembers ms))

/-- The rest of an array behind an element. -/
def renderElements : List JsonText → List UInt8
  | [] => [93]
  | x :: xs => 44 :: (render x ++ renderElements xs)

/-- The rest of an object behind a member. -/
def renderMembers : List (List Piece × JsonText) → List UInt8
  | [] => [125]
  | (name, x) :: ms => 44 :: (quoted name ++ 58 :: (render x ++ renderMembers ms))

end

/-- The string some pieces stand for. -/
def denoted (s : List Piece) : List UInt8 := join (s.map Piece.symbol)

mutual

/-- The value a text stands for. -/
def json : JsonText → Json
  | .null => .null
  | .bool b => .bool b
  | .number n => .number n.text
  | .string s => .string (denoted s)
  | .array xs => .array (jsons xs)
  | .object ms => .object (jsonMembers ms)

def jsons : List JsonText → List Json
  | [] => []
  | x :: xs => json x :: jsons xs

def jsonMembers : List (List Piece × JsonText) → List (List UInt8 × Json)
  | [] => []
  | (name, x) :: ms => (denoted name, json x) :: jsonMembers ms

end

end JsonText

/-! ### White space -/

/-- White space between two tokens. -/
structure Space where
  text : List UInt8
  ok : ∀ c ∈ text, isSpace c = true

/-- No white space. -/
def Space.empty : Space := ⟨[], List.forall_mem_nil _⟩

@[simp] theorem Space.text_empty : Space.empty.text = [] := rfl

/-- Something with the white space around it. -/
structure Padded (α : Type) where
  before : Space := .empty
  it : α
  behind : Space := .empty

/-- A JSON text with its white space. Brackets with nothing between them may have some
`inside`. -/
inductive SpacedText
  | null
  | bool (b : Bool)
  | number (n : Numeral)
  | string (s : List Piece)
  | array (inside : Space) (xs : List (Padded SpacedText))
  | object (inside : Space) (members : List (Padded (List Piece) × Padded SpacedText))

namespace SpacedText

mutual

def render : SpacedText → List UInt8
  | .null => [110, 117, 108, 108]
  | .bool b => if b then [116, 114, 117, 101] else [102, 97, 108, 115, 101]
  | .number n => n.text
  | .string s => JsonText.quoted s
  | .array inside [] => 91 :: (inside.text ++ [93])
  | .array _ (⟨s, x, s'⟩ :: xs) =>
      91 :: (s.text ++ (render x ++ (s'.text ++ renderElements xs)))
  | .object inside [] => 123 :: (inside.text ++ [125])
  | .object _ ((⟨s, name, s'⟩, ⟨u, x, u'⟩) :: ms) =>
      123 :: (s.text ++ (JsonText.quoted name ++ (s'.text ++ 58 :: (u.text ++ (render x ++
        (u'.text ++ renderMembers ms))))))

/-- The rest of an array behind an element. -/
def renderElements : List (Padded SpacedText) → List UInt8
  | [] => [93]
  | ⟨s, x, s'⟩ :: xs => 44 :: (s.text ++ (render x ++ (s'.text ++ renderElements xs)))

/-- The rest of an object behind a member. -/
def renderMembers : List (Padded (List Piece) × Padded SpacedText) → List UInt8
  | [] => [125]
  | (⟨s, name, s'⟩, ⟨u, x, u'⟩) :: ms =>
      44 :: (s.text ++ (JsonText.quoted name ++ (s'.text ++ 58 :: (u.text ++ (render x ++
        (u'.text ++ renderMembers ms))))))

end

mutual

/-- The text without its white space. -/
def text : SpacedText → JsonText
  | .null => .null
  | .bool b => .bool b
  | .number n => .number n
  | .string s => .string s
  | .array _ xs => .array (texts xs)
  | .object _ ms => .object (textMembers ms)

def texts : List (Padded SpacedText) → List JsonText
  | [] => []
  | ⟨_, x, _⟩ :: xs => text x :: texts xs

def textMembers : List (Padded (List Piece) × Padded SpacedText) → List (List Piece × JsonText)
  | [] => []
  | (⟨_, name, _⟩, ⟨_, x, _⟩) :: ms => (name, text x) :: textMembers ms

end

end SpacedText

namespace JsonText

mutual

/-- A text without white space is one with none in it. -/
def spaced : JsonText → SpacedText
  | .null => .null
  | .bool b => .bool b
  | .number n => .number n
  | .string s => .string s
  | .array xs => .array .empty (spacedElements xs)
  | .object ms => .object .empty (spacedMembers ms)

def spacedElements : List JsonText → List (Padded SpacedText)
  | [] => []
  | x :: xs => { it := spaced x } :: spacedElements xs

def spacedMembers : List (List Piece × JsonText) → List (Padded (List Piece) × Padded SpacedText)
  | [] => []
  | (name, x) :: ms => ({ it := name }, { it := spaced x }) :: spacedMembers ms

end

mutual

theorem text_spaced : ∀ t : JsonText, t.spaced.text = t
  | .null | .bool _ | .number _ | .string _ => rfl
  | .array xs => by rw [spaced, SpacedText.text, texts_spaced xs]
  | .object ms => by rw [spaced, SpacedText.text, textMembers_spaced ms]

theorem texts_spaced : ∀ xs : List JsonText, SpacedText.texts (spacedElements xs) = xs
  | [] => rfl
  | x :: xs => by rw [spacedElements, SpacedText.texts, text_spaced x, texts_spaced xs]

theorem textMembers_spaced :
    ∀ ms : List (List Piece × JsonText), SpacedText.textMembers (spacedMembers ms) = ms
  | [] => rfl
  | (name, x) :: ms => by
      rw [spacedMembers, SpacedText.textMembers, text_spaced x, textMembers_spaced ms]

end

mutual

theorem render_spaced : ∀ t : JsonText, t.spaced.render = t.render
  | .null | .bool _ | .number _ | .string _ | .array [] | .object [] => rfl
  | .array (x :: xs) => by
      rw [spaced, spacedElements, SpacedText.render, render, render_spaced x,
        renderElements_spaced xs]
      rfl
  | .object ((name, x) :: ms) => by
      rw [spaced, spacedMembers, SpacedText.render, render, render_spaced x,
        renderMembers_spaced ms]
      rfl

theorem renderElements_spaced : ∀ xs : List JsonText,
    SpacedText.renderElements (spacedElements xs) = renderElements xs
  | [] => rfl
  | x :: xs => by
      rw [spacedElements, SpacedText.renderElements, renderElements, render_spaced x,
        renderElements_spaced xs]
      rfl

theorem renderMembers_spaced : ∀ ms : List (List Piece × JsonText),
    SpacedText.renderMembers (spacedMembers ms) = renderMembers ms
  | [] => rfl
  | (name, x) :: ms => by
      rw [spacedMembers, SpacedText.renderMembers, renderMembers, render_spaced x,
        renderMembers_spaced ms]
      rfl

end

end JsonText

/-! ### Reading strings -/

namespace Json

variable {rest : List UInt8}

theorem skipSpace_append (s : Space) (rest : List UInt8) :
    skipSpace (s.text ++ rest) = skipSpace rest := List.dropWhile_append_of_pos s.ok

theorem skipSpace_cons {c : UInt8} (h : 32 < c) : skipSpace (c :: rest) = c :: rest := by
  refine List.dropWhile_cons_of_neg ?_
  simp only [isSpace, Bool.or_eq_true, decide_eq_true_eq]
  rintro (((rfl | rfl) | rfl) | rfl) <;> revert h <;> decide

theorem scanString_piece (p : Piece) :
    scanString (p.text ++ rest) =
      (scanString rest).map fun r => (p.symbol :: r.1, r.2) := by
  cases p with
  | plain c h =>
      have hc : c ≠ 34 ∧ c ≠ 92 := by
        simp only [isPlain, Bool.and_eq_true, decide_eq_true_eq] at h
        exact ⟨h.1.2, h.2⟩
      show scanString (c :: rest) = _
      rw [scanString.eq_def]
      simp only [hc.1, hc.2, if_false, h, if_true]
      cases scanString rest <;> rfl
  | short e c h =>
      have he : e ≠ 117 := by
        rintro rfl
        cases h
      show scanString (92 :: e :: rest) = _
      rw [scanString.eq_def]
      simp only [he, h, if_false, if_true]
      cases scanString rest <;> rfl
  | unicode a b c d u h =>
      show scanString (92 :: 117 :: a :: b :: c :: d :: rest) = _
      rw [scanString.eq_def]
      simp only [h, if_true]
      cases scanString rest <;> rfl

theorem scanString_pieces (s : List Piece) (rest : List UInt8) :
    scanString (s.flatMap Piece.text ++ 34 :: rest) = some (s.map Piece.symbol, rest) := by
  induction s with
  | nil =>
      show scanString (34 :: rest) = _
      rw [scanString.eq_def]
      rfl
  | cons p s ih =>
      rw [List.flatMap_cons, List.append_assoc, scanString_piece, ih]
      rfl

/-! ### Reading numbers -/

/-- What can stand behind a value. -/
def Follows (rest : List UInt8) : Prop :=
  ∀ c ∈ rest.head?, c = 44 ∨ c = 93 ∨ c = 125 ∨ c = 32 ∨ c = 9 ∨ c = 10 ∨ c = 13

theorem Follows.append (hrest : Follows rest) (s : Space) : Follows (s.text ++ rest) := by
  intro c hc
  cases hs : s.text with
  | nil =>
      rw [hs] at hc
      exact hrest c hc
  | cons d text =>
      rw [hs] at hc
      cases hc
      have hok := s.ok c (by rw [hs]; exact List.mem_cons_self)
      simp only [isSpace, Bool.or_eq_true, decide_eq_true_eq] at hok
      rcases hok with ((rfl | rfl) | rfl) | rfl <;> simp

/-- A byte that stands behind no value stands elsewhere. -/
theorem Follows.ne {c d : UInt8} (hrest : Follows (c :: rest))
    (hd : d ∉ [44, 93, 125, 32, 9, 10, 13]) : c ≠ d := by
  rintro rfl
  refine hd ?_
  simpa using hrest c rfl

theorem dropWhile_isDigit_append {t : List UInt8} (hrest : Follows rest) :
    (t ++ rest).dropWhile isDigit = t.dropWhile isDigit ++ rest := by
  have hnot : rest.dropWhile isDigit = rest := by
    cases rest with
    | nil => rfl
    | cons c rest =>
        refine List.dropWhile_cons_of_neg ?_
        rcases hrest c rfl with rfl | rfl | rfl | rfl | rfl | rfl | rfl <;> decide
  rw [List.dropWhile_append, hnot]
  cases h : t.dropWhile isDigit with
  | nil => simp
  | cons c t => simp

variable {t r : List UInt8}

theorem digits_append (hrest : Follows rest) (h : digits t = some r) :
    digits (t ++ rest) = some (r ++ rest) := by
  cases t with
  | nil => cases h
  | cons c t =>
      simp only [digits, List.cons_append] at h ⊢
      by_cases hc : isDigit c = true
      · simp only [hc, if_true, Option.some.injEq] at h ⊢
        rw [dropWhile_isDigit_append hrest, h]
      · simp [hc] at h

theorem exponent_append (hrest : Follows rest) (h : exponent t = some []) :
    exponent (t ++ rest) = some rest := by
  cases t with
  | nil =>
      cases rest with
      | nil => rfl
      | cons c rest =>
          have hc : c ≠ 101 ∧ c ≠ 69 := ⟨hrest.ne (by decide), hrest.ne (by decide)⟩
          simp [exponent, hc]
  | cons c t =>
      simp only [exponent, List.cons_append] at h ⊢
      by_cases hc : (c = 101 || c = 69) = true
      · rw [if_pos hc] at h ⊢
        have hsign : sign (t ++ rest) = sign t ++ rest := by
          cases t with
          | nil => simp [sign, digits] at h
          | cons s t =>
              simp only [sign, List.cons_append]
              by_cases hs : (s = 43 || s = 45) = true
              · simp only [hs, if_true]
              · simp only [hs]
                rfl
        rw [hsign, digits_append hrest h]
        rfl
      · simp [hc] at h

theorem fraction_append (hrest : Follows rest) (h : fraction t = some []) :
    fraction (t ++ rest) = some rest := by
  cases t with
  | nil =>
      cases rest with
      | nil => rfl
      | cons c rest =>
          have hc : c ≠ 46 := hrest.ne (by decide)
          rw [List.nil_append, fraction, if_neg hc]
          exact exponent_append hrest (t := []) rfl
  | cons c t =>
      simp only [fraction, List.cons_append] at h ⊢
      by_cases hc : c = 46
      · rw [if_pos hc] at h ⊢
        obtain ⟨r, hr, he⟩ := Option.bind_eq_some_iff.mp h
        rw [digits_append hrest hr]
        exact exponent_append hrest he
      · rw [if_neg hc] at h ⊢
        exact exponent_append hrest h

theorem unsigned_append (hrest : Follows rest) (h : unsigned t = some []) :
    unsigned (t ++ rest) = some rest := by
  cases t with
  | nil => cases h
  | cons c t =>
      simp only [unsigned, List.cons_append] at h ⊢
      by_cases hzero : c = 48
      · rw [if_pos hzero] at h ⊢
        exact fraction_append hrest h
      · rw [if_neg hzero] at h ⊢
        by_cases hc : isDigit c = true
        · rw [if_pos hc] at h ⊢
          rw [dropWhile_isDigit_append hrest]
          exact fraction_append hrest h
        · simp [hc] at h

theorem signed_append (hrest : Follows rest) (h : signed t = some []) :
    signed (t ++ rest) = some rest := by
  cases t with
  | nil => cases h
  | cons c t =>
      simp only [signed, List.cons_append] at h ⊢
      by_cases hc : c = 45
      · rw [if_pos hc] at h ⊢
        exact unsigned_append hrest h
      · rw [if_neg hc] at h ⊢
        exact unsigned_append hrest h

/-- A number begins with a digit or with a minus sign. -/
theorem head_signed {c : UInt8} (h : signed (c :: t) = some r) : c = 45 ∨ isDigit c = true := by
  by_cases hc : c = 45
  · exact .inl hc
  · right
    rw [signed, if_neg hc, unsigned] at h
    by_cases hzero : c = 48
    · subst hzero
      rfl
    · by_contra hd
      simp [hzero, hd] at h

theorem ne_of_signed {c d : UInt8} (h : signed (c :: t) = some r) (hd : d ≠ 45)
    (hd' : isDigit d = false) : c ≠ d := by
  rintro rfl
  rcases head_signed h with hc | hc
  · exact hd hc
  · rw [hd'] at hc
    cases hc

end Json

open JsonText (quoted denoted jsons jsonMembers)
open SpacedText

/-! ### Reading texts -/

namespace Json

variable {rest : List UInt8}

theorem follows_renderElements (xs : List (Padded SpacedText)) :
    Follows (renderElements xs ++ rest) := by
  cases xs with
  | nil => exact fun c hc => .inr (.inl (Option.some.inj hc).symm)
  | cons x xs => exact fun c hc => .inl (Option.some.inj hc).symm

theorem follows_renderMembers (ms : List (Padded (List Piece) × Padded SpacedText)) :
    Follows (renderMembers ms ++ rest) := by
  cases ms with
  | nil => exact fun c hc => .inr (.inr (.inl (Option.some.inj hc).symm))
  | cons m ms => exact fun c hc => .inl (Option.some.inj hc).symm

/-- No value begins with white space, and none with a closing bracket. -/
theorem head_render (t : SpacedText) : ∃ c text, t.render = c :: text ∧ 32 < c ∧ c ≠ 93 := by
  cases t with
  | null => exact ⟨_, _, rfl, by decide, by decide⟩
  | bool b => cases b <;> exact ⟨_, _, rfl, by decide, by decide⟩
  | number n =>
      cases hn : n.text with
      | nil =>
          have hok := n.ok
          rw [hn] at hok
          cases hok
      | cons c text =>
          have hok := n.ok
          rw [hn] at hok
          refine ⟨c, text, by rw [render, hn], ?_, ?_⟩ <;>
            rcases head_signed hok with rfl | hd
          · decide
          · simp only [isDigit, Bool.and_eq_true, decide_eq_true_eq] at hd
            exact UInt8.lt_of_lt_of_le (by decide) hd.1
          · decide
          · rintro rfl
            revert hd
            decide
  | string s => exact ⟨_, _, rfl, by decide, by decide⟩
  | array inside xs => cases xs <;> exact ⟨_, _, rfl, by decide, by decide⟩
  | object inside ms => cases ms <;> exact ⟨_, _, rfl, by decide, by decide⟩

/-! White space in front is skipped by every function of the parser. -/

theorem parseValue_space (s : Space) (fuel : ℕ) (text : List UInt8) :
    parseValue fuel (s.text ++ text) = parseValue fuel text := by
  cases fuel with
  | zero => rfl
  | succ fuel => simp only [parseValue, skipSpace_append]

theorem parseElements_space (s : Space) (fuel : ℕ) (text : List UInt8) :
    parseElements fuel (s.text ++ text) = parseElements fuel text := by
  cases fuel with
  | zero => rfl
  | succ fuel => simp only [parseElements, skipSpace_append]

theorem parseMember_space (s : Space) (fuel : ℕ) (text : List UInt8) :
    parseMember fuel (s.text ++ text) = parseMember fuel text := by
  cases fuel with
  | zero => rfl
  | succ fuel => simp only [parseMember, skipSpace_append]

theorem parseMembers_space (s : Space) (fuel : ℕ) (text : List UInt8) :
    parseMembers fuel (s.text ++ text) = parseMembers fuel text := by
  cases fuel with
  | zero => rfl
  | succ fuel => simp only [parseMembers, skipSpace_append]

/-- A value that begins with neither of the brackets, a quote or the letter of a word is a
number. -/
theorem parseValue_number (n : Numeral) {fuel : ℕ} (hrest : Follows rest) :
    parseValue (fuel + 1) (n.text ++ rest) = some (.number n.text, rest) := by
  obtain ⟨c, text, htext, hspace, -⟩ := head_render (.number n)
  rw [render] at htext
  have hok := n.ok
  have happ := signed_append hrest hok
  rw [htext] at hok happ ⊢
  have hne : ∀ d : UInt8, d ≠ 45 → isDigit d = false → c ≠ d := fun _ => ne_of_signed hok
  rw [List.cons_append] at happ ⊢
  simp only [parseValue, skipSpace_cons hspace, hne 123 (by decide) rfl, hne 91 (by decide) rfl,
    hne 34 (by decide) rfl, hne 110 (by decide) rfl, hne 116 (by decide) rfl,
    hne 102 (by decide) rfl, if_false, happ]
  have hlen : (c :: (text ++ rest)).length - rest.length = (c :: text).length := by
    simp only [List.length_cons, List.length_append]
    omega
  show some (Json.number _, rest) = _
  rw [hlen, ← List.cons_append, List.take_left]

theorem parseValue_string (s : List Piece) {fuel : ℕ} :
    parseValue (fuel + 1) (quoted s ++ rest) = some (.string (denoted s), rest) := by
  have hscan := scanString_pieces s rest
  simp only [quoted, List.cons_append, List.append_assoc, List.nil_append, parseValue,
    skipSpace_cons (c := 34) (by decide), if_true, hscan]
  rfl

/-- A member is read if its value is. -/
theorem parseMember_render {fuel : ℕ} {text : List UInt8} {x : Json} (name : List Piece)
    (s : Space) (hx : ∀ k, fuel = k + 1 → parseValue k text = some (x, rest))
    (hlen : (quoted name ++ (s.text ++ 58 :: text)).length ≤ fuel) :
    parseMember fuel (quoted name ++ (s.text ++ 58 :: text)) = some ((denoted name, x), rest) := by
  cases fuel with
  | zero => simp [quoted] at hlen
  | succ k =>
      have hscan := scanString_pieces name (s.text ++ 58 :: text)
      simp only [quoted, List.cons_append, List.append_assoc, List.nil_append, parseMember,
        skipSpace_cons (c := 34) (by decide), skipSpace_append,
        skipSpace_cons (c := 58) (by decide), if_true, hscan, List.head?_cons, List.tail_cons,
        Option.bind_eq_bind, Option.bind_some, hx k rfl]
      rfl

mutual

theorem parseValue_render : ∀ (t : SpacedText) (fuel : ℕ) (rest : List UInt8), Follows rest →
    (t.render ++ rest).length ≤ fuel →
      parseValue fuel (t.render ++ rest) = some (t.text.json, rest)
  | t, 0, rest, _, hlen => by
      obtain ⟨c, text, htext, -⟩ := head_render t
      rw [htext] at hlen
      simp at hlen
  | .null, fuel + 1, rest, _, _ => rfl
  | .bool b, fuel + 1, rest, _, _ => by cases b <;> rfl
  | .number n, fuel + 1, rest, hrest, _ => parseValue_number n hrest
  | .string s, fuel + 1, rest, _, _ => parseValue_string s
  | .array inside [], fuel + 1, rest, _, _ => by
      simp only [render, List.cons_append, List.append_assoc, List.nil_append, parseValue,
        skipSpace_cons (c := 91) (by decide), skipSpace_append,
        skipSpace_cons (c := 93) (by decide), List.head?_cons, if_true, List.tail_cons]
      rfl
  | .array _ (⟨s, x, s'⟩ :: xs), fuel + 1, rest, _, hlen => by
      obtain ⟨c, text, htext, hspace, hc⟩ := head_render x
      simp only [render, List.cons_append, List.append_assoc, List.length_cons,
        Nat.add_le_add_iff_right] at hlen ⊢
      have hx := parseValue_render x fuel (s'.text ++ (renderElements xs ++ rest))
        ((follows_renderElements xs).append s') (by
          simp only [List.length_append] at hlen ⊢
          omega)
      have hxs := parseElements_render xs fuel rest (by
        simp only [List.length_append] at hlen ⊢
        omega)
      have hhead : ∀ r, (skipSpace (x.render ++ r)).head? ≠ some 93 := by
        intro r
        rw [htext, List.cons_append, skipSpace_cons hspace]
        simpa using hc
      simp only [parseValue, skipSpace_cons (c := 91) (by decide), skipSpace_append, hhead,
        if_false, if_true, parseValue_space, hx, Option.bind_eq_bind, Option.bind_some,
        parseElements_space, hxs]
      rfl
  | .object inside [], fuel + 1, rest, _, _ => by
      simp only [render, List.cons_append, List.append_assoc, List.nil_append, parseValue,
        skipSpace_cons (c := 123) (by decide), skipSpace_append,
        skipSpace_cons (c := 125) (by decide), List.head?_cons, if_true, List.tail_cons]
      rfl
  | .object _ ((⟨s, name, s'⟩, ⟨u, x, u'⟩) :: ms), fuel + 1, rest, _, hlen => by
      simp only [render, List.cons_append, List.append_assoc, List.length_cons,
        Nat.add_le_add_iff_right] at hlen ⊢
      have hx := parseMember_render name s' (fun k (hk : fuel = k + 1) =>
        (parseValue_space u k _).trans
          (parseValue_render x k (u'.text ++ (renderMembers ms ++ rest))
          ((follows_renderMembers ms).append u') (by
            simp only [List.length_append, List.length_cons] at hlen ⊢
            omega))) (by
          simp only [List.length_append, List.length_cons] at hlen ⊢
          omega)
      have hms := parseMembers_render ms fuel rest (by
        simp only [List.length_append, List.length_cons] at hlen ⊢
        omega)
      have hhead : ∀ text, (skipSpace (quoted name ++ text)).head? ≠ some 125 := by
        intro text
        rw [quoted, List.cons_append, skipSpace_cons (by decide)]
        simp
      simp only [parseValue, skipSpace_cons (c := 123) (by decide), skipSpace_append, hhead,
        if_false, if_true, parseMember_space, hx, Option.bind_eq_bind, Option.bind_some,
        parseMembers_space, hms]
      rfl

theorem parseElements_render : ∀ (xs : List (Padded SpacedText)) (fuel : ℕ) (rest : List UInt8),
    (renderElements xs ++ rest).length ≤ fuel →
      parseElements fuel (renderElements xs ++ rest) = some (jsons (texts xs), rest)
  | [], 0, rest, hlen => by simp [renderElements] at hlen
  | _ :: _, 0, rest, hlen => by simp [renderElements] at hlen
  | [], fuel + 1, rest, _ => rfl
  | ⟨s, x, s'⟩ :: xs, fuel + 1, rest, hlen => by
      simp only [renderElements, List.cons_append, List.append_assoc, List.length_cons,
        Nat.add_le_add_iff_right] at hlen ⊢
      have hx := parseValue_render x fuel (s'.text ++ (renderElements xs ++ rest))
        ((follows_renderElements xs).append s') (by
          simp only [List.length_append] at hlen ⊢
          omega)
      have hxs := parseElements_render xs fuel rest (by
        simp only [List.length_append] at hlen ⊢
        omega)
      simp only [parseElements, skipSpace_cons (c := 44) (by decide), if_true, parseValue_space,
        hx, Option.bind_eq_bind, Option.bind_some, parseElements_space, hxs]
      rfl

theorem parseMembers_render : ∀ (ms : List (Padded (List Piece) × Padded SpacedText)) (fuel : ℕ)
    (rest : List UInt8), (renderMembers ms ++ rest).length ≤ fuel →
      parseMembers fuel (renderMembers ms ++ rest) = some (jsonMembers (textMembers ms), rest)
  | [], 0, rest, hlen => by simp [renderMembers] at hlen
  | _ :: _, 0, rest, hlen => by simp [renderMembers] at hlen
  | [], fuel + 1, rest, _ => rfl
  | (⟨s, name, s'⟩, ⟨u, x, u'⟩) :: ms, fuel + 1, rest, hlen => by
      simp only [renderMembers, List.cons_append, List.append_assoc, List.length_cons,
        Nat.add_le_add_iff_right] at hlen ⊢
      have hx := parseMember_render name s' (fun k (hk : fuel = k + 1) =>
        (parseValue_space u k _).trans
          (parseValue_render x k (u'.text ++ (renderMembers ms ++ rest))
          ((follows_renderMembers ms).append u') (by
            simp only [List.length_append, List.length_cons] at hlen ⊢
            omega))) (by
          simp only [List.length_append, List.length_cons] at hlen ⊢
          omega)
      have hms := parseMembers_render ms fuel rest (by
        simp only [List.length_append, List.length_cons] at hlen ⊢
        omega)
      simp only [parseMembers, skipSpace_cons (c := 44) (by decide), if_true, parseMember_space,
        hx, Option.bind_eq_bind, Option.bind_some, parseMembers_space, hms]
      rfl

end

/-- **`JSON.parse` reads every text as the value it stands for**, with any white space. -/
theorem parse_spaced (t : SpacedText) (s s' : Space) :
    parse (s.text ++ (t.render ++ s'.text)) = some t.text.json := by
  have hfollows : Follows s'.text := by
    have hnil : Follows [] := by simp [Follows]
    have happend := hnil.append s'
    rwa [List.append_nil] at happend
  have ht := parseValue_render t (s.text ++ (t.render ++ s'.text)).length s'.text hfollows (by
    simp only [List.length_append]
    omega)
  have hend : skipSpace s'.text = [] := by
    have hskip := skipSpace_append s' []
    rwa [List.append_nil] at hskip
  rw [parse, parseValue_space, ht]
  simp only [Option.bind_eq_bind, Option.bind_some, hend, if_true]
  rfl

theorem parse_render (t : JsonText) : parse t.render = some t.json := by
  have ht := parse_spaced t.spaced .empty .empty
  rw [t.render_spaced, t.text_spaced] at ht
  simpa using ht

end Json
