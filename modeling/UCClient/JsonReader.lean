import UCClient.JsonValue

/-!
# The jsoncpp Reader

`Json::Reader::parse` of jsoncpp 0.5.0 with all features on, by which every message of a
page is read. The reader's position is the list of bytes still to come; at the end of
the document `getNextChar` keeps returning NUL, which is also what a NUL byte in the
document is taken for (`tokenEndOfStream`).

The grammar is the reader's own, wider than JSON: comments are skipped, whatever follows
the root value is ignored, an object may end after a comma when its last member name is
empty, and inside an array any token at all is accepted between two elements.

Errors are only reported as failure here, so `addError`, `recoverFromError` and the
attachment of comments to values have no counterpart. Each recursive call of the source
consumes input or is made once per consumed byte, so `2 * length + 2` is enough fuel.
-/

namespace UCClient

namespace Reader

/-- The token types of the reader. -/
inductive TokenType
  | endOfStream | objectBegin | objectEnd | arrayBegin | arrayEnd | string | number
  | true | false | null | arraySeparator | memberSeparator | comment | error
  deriving DecidableEq, Repr

/-- A token: its type, its text, and the input behind it. -/
structure Token where
  type : TokenType
  text : Bytes
  rest : Bytes

/-- `Reader::skipSpaces`. -/
def skipSpaces (doc : Bytes) : Bytes :=
  doc.dropWhile fun c => c = 32 || c = 9 || c = 13 || c = 10

/-- `Reader::readString`, behind the opening quote: whether the closing quote was found,
and the input behind it. -/
def readString : Bytes → Bool × Bytes
  | [] => (.false, [])
  | c :: rest =>
      if c = 92 then
        match rest with
        | [] => (.false, [])
        | _ :: rest => readString rest
      else if c = 34 then (.true, rest)
      else readString rest

/-- `Reader::readCStyleComment`, behind the opening `/*`. -/
def readCStyleComment : Bytes → Bool × Bytes
  | [] => (.false, [])
  | c :: rest =>
      if c = 42 && rest.head? = some 47 then (.true, rest.tail)
      else readCStyleComment rest

/-- `Reader::readCppStyleComment`, behind the opening `//`. -/
def readCppStyleComment : Bytes → Bytes
  | [] => []
  | c :: rest => if c = 13 || c = 10 then rest else readCppStyleComment rest

/-- `Reader::readComment`, behind the first slash. -/
def readComment : Bytes → Bool × Bytes
  | [] => (.false, [])
  | c :: rest =>
      if c = 42 then readCStyleComment rest
      else if c = 47 then (.true, readCppStyleComment rest)
      else (.false, rest)

/-- A character `Reader::readNumber` takes. -/
def isNumberCharacter (c : UInt8) : Bool :=
  (48 ≤ c && c ≤ 57) || c = 46 || c = 101 || c = 69 || c = 43 || c = 45

/-- `Reader::match`: the input behind the pattern, if it stands here. -/
def matchPattern (pattern : Bytes) (doc : Bytes) : Bool × Bytes :=
  if pattern.isPrefixOf doc then (.true, doc.drop pattern.length) else (.false, doc)

/-- The token of the given type up to `rest`, or an error token when it is not `ok`. -/
def token (type : TokenType) (start : Bytes) (scan : Bool × Bytes) : Token where
  type := if scan.1 then type else .error
  text := start.take (start.length - scan.2.length)
  rest := scan.2

/-- `Reader::readToken`. -/
def readToken (doc : Bytes) : Token :=
  match skipSpaces doc with
  | [] => ⟨.endOfStream, [], []⟩
  | start@(c :: rest) =>
      if c = 123 then token .objectBegin start (.true, rest)
      else if c = 125 then token .objectEnd start (.true, rest)
      else if c = 91 then token .arrayBegin start (.true, rest)
      else if c = 93 then token .arrayEnd start (.true, rest)
      else if c = 34 then token .string start (readString rest)
      else if c = 47 then token .comment start (readComment rest)
      else if (48 ≤ c && c ≤ 57) || c = 45 then
        token .number start (.true, rest.dropWhile isNumberCharacter)
      else if c = 116 then token .true start (matchPattern (bytes "rue") rest)
      else if c = 102 then token .false start (matchPattern (bytes "alse") rest)
      else if c = 110 then token .null start (matchPattern (bytes "ull") rest)
      else if c = 44 then token .arraySeparator start (.true, rest)
      else if c = 58 then token .memberSeparator start (.true, rest)
      else if c = 0 then token .endOfStream start (.true, rest)
      else token .error start (.false, rest)

/-- The first token from here on that is not a comment. -/
def skipCommentTokens : ℕ → Bytes → Token
  | 0, doc => readToken doc
  | fuel + 1, doc =>
      let tok := readToken doc
      if tok.type = .comment then skipCommentTokens fuel tok.rest else tok

/-! ### Strings -/

/-- `codePointToUTF8`. -/
def codePointToUTF8 (cp : ℕ) : Bytes :=
  if cp ≤ 0x7f then [UInt8.ofNat cp]
  else if cp ≤ 0x7FF then
    [UInt8.ofNat (0xC0 + cp / 64 % 32), UInt8.ofNat (0x80 + cp % 64)]
  else if cp ≤ 0xFFFF then
    [UInt8.ofNat (0xE0 + cp / 4096 % 16), UInt8.ofNat (0x80 + cp / 64 % 64),
      UInt8.ofNat (0x80 + cp % 64)]
  else if cp ≤ 0x10FFFF then
    [UInt8.ofNat (0xF0 + cp / 262144 % 8), UInt8.ofNat (0x80 + cp / 4096 % 64),
      UInt8.ofNat (0x80 + cp / 64 % 64), UInt8.ofNat (0x80 + cp % 64)]
  else []

/-- The value of a hexadecimal digit of either case. -/
def hexValue (c : UInt8) : Option ℕ :=
  if 48 ≤ c && c ≤ 57 then some (c.toNat - 48)
  else if 97 ≤ c && c ≤ 102 then some (c.toNat - 97 + 10)
  else if 65 ≤ c && c ≤ 70 then some (c.toNat - 65 + 10)
  else none

/-- `Reader::decodeUnicodeEscapeSequence`: four hexadecimal digits. -/
def decodeUnicodeEscapeSequence : Bytes → Option (ℕ × Bytes)
  | a :: b :: c :: d :: rest => do
      let a ← hexValue a
      let b ← hexValue b
      let c ← hexValue c
      let d ← hexValue d
      pure (((a * 16 + b) * 16 + c) * 16 + d, rest)
  | _ => none

/-- `Reader::decodeUnicodeCodePoint`: a high surrogate takes the next escape with it,
whatever that one is. -/
def decodeUnicodeCodePoint (current : Bytes) : Option (ℕ × Bytes) := do
  let (unicode, current) ← decodeUnicodeEscapeSequence current
  if 0xD800 ≤ unicode && unicode ≤ 0xDBFF then
    match current with
    | 92 :: 117 :: rest =>
        let (surrogatePair, rest) ← decodeUnicodeEscapeSequence rest
        pure (0x10000 + unicode % 1024 * 1024 + surrogatePair % 1024, rest)
    | _ => none
  else pure (unicode, current)

/-- `Reader::decodeString` between the quotes. -/
def decodeString : ℕ → Bytes → Option Bytes
  | 0, _ => some []
  | _ + 1, [] => some []
  | fuel + 1, c :: rest =>
      if c = 34 then some []
      else if c = 92 then
        match rest with
        | [] => none
        | escape :: rest =>
            if escape = 34 then (34 :: ·) <$> decodeString fuel rest
            else if escape = 47 then (47 :: ·) <$> decodeString fuel rest
            else if escape = 92 then (92 :: ·) <$> decodeString fuel rest
            else if escape = 98 then (8 :: ·) <$> decodeString fuel rest
            else if escape = 102 then (12 :: ·) <$> decodeString fuel rest
            else if escape = 110 then (10 :: ·) <$> decodeString fuel rest
            else if escape = 114 then (13 :: ·) <$> decodeString fuel rest
            else if escape = 116 then (9 :: ·) <$> decodeString fuel rest
            else if escape = 117 then do
              let (unicode, rest) ← decodeUnicodeCodePoint rest
              (codePointToUTF8 unicode ++ ·) <$> decodeString fuel rest
            else none
      else (c :: ·) <$> decodeString fuel rest

/-- The string a string token stands for. -/
def decodeStringToken (text : Bytes) : Option Bytes :=
  decodeString text.length (text.tail.take (text.length - 2))

/-! ### Numbers -/

/-- Whether `sscanf(buffer, "%lf", &value)` finds a number: an optional sign, then
digits with at most one point among them, at least one digit in all. -/
def sscanfDouble (text : Bytes) : Bool :=
  let unsigned := if text.head? = some 45 || text.head? = some 43 then text.tail else text
  let isDigit := fun c : UInt8 => 48 ≤ c && c ≤ 57
  let fraction := unsigned.dropWhile isDigit
  unsigned.head?.any isDigit || (fraction.head? = some 46 && fraction.tail.head?.any isDigit)

/-- `Reader::decodeDouble`. -/
def decodeDouble (text : Bytes) : Option Value :=
  if sscanfDouble text then some (.real text) else none

/-- The digit loop of `Reader::decodeNumber`: `none` where it falls back to a double. -/
def decodeDigits (threshold : ℕ) : Bytes → ℕ → Option ℕ
  | [], value => some value
  | c :: rest, value =>
      if threshold ≤ value then none
      else decodeDigits threshold rest (value * 10 + (c.toNat - 48))

/-- `Reader::decodeNumber`. -/
def decodeNumber (text : Bytes) : Option Value :=
  let isDouble := text.any (fun c => c = 46 || c = 101 || c = 69 || c = 43) ||
    text.tail.any (· = 45)
  if isDouble then decodeDouble text
  else
    let isNegative := text.head? = some 45
    let digits := if isNegative then text.tail else text
    let threshold := (if isNegative then 2 ^ 31 else 2 ^ 32 - 1) / 10
    match decodeDigits threshold digits 0 with
    | none => decodeDouble text
    | some value =>
        if isNegative then some (.int (Int32.ofInt (-value)))
        else if value ≤ 2 ^ 31 - 1 then some (.int (Int32.ofNat value))
        else some (.uint (UInt32.ofNat value))

/-! ### Values -/

mutual

/-- `Reader::readValue`. -/
def readValue : ℕ → Bytes → Option (Value × Bytes)
  | 0, _ => none
  | fuel + 1, doc =>
      let tok := skipCommentTokens doc.length doc
      match tok.type with
      | .objectBegin => readObject fuel [] [] tok.rest
      | .arrayBegin =>
          if (skipSpaces tok.rest).head? = some 93 then
            some (.array [], (readToken tok.rest).rest)
          else readArray fuel [] tok.rest
      | .number => (decodeNumber tok.text).map (·, tok.rest)
      | .string => (decodeStringToken tok.text).map fun s => (.string (cstr s), tok.rest)
      | .true => some (.bool Bool.true, tok.rest)
      | .false => some (.bool Bool.false, tok.rest)
      | .null => some (.null, tok.rest)
      | _ => none

/-- The loop of `Reader::readObject`: the last member name read and the members so
far. -/
def readObject : ℕ → Bytes → List (Bytes × Value) → Bytes → Option (Value × Bytes)
  | 0, _, _, _ => none
  | fuel + 1, name, members, doc =>
      let tokenName := skipCommentTokens doc.length doc
      if tokenName.type = .objectEnd ∧ name = [] then some (.object members, tokenName.rest)
      else if tokenName.type = .string then do
        let name ← decodeStringToken tokenName.text
        let colon := readToken tokenName.rest
        if colon.type = .memberSeparator then do
          let (value, rest) ← readValue fuel colon.rest
          let members := Value.insertMember members (cstr name) value
          let comma := readToken rest
          if comma.type = .objectEnd ∨ comma.type = .arraySeparator ∨
              comma.type = .comment then
            -- comments between the value and the separator are skipped
            let comma := skipCommentTokens rest.length rest
            if comma.type = .objectEnd then some (.object members, comma.rest)
            else readObject fuel name members comma.rest
          else none
        else none
      else none

/-- The loop of `Reader::readArray`: the token behind an element is only compared with
the closing bracket. -/
def readArray : ℕ → List Value → Bytes → Option (Value × Bytes)
  | 0, _, _ => none
  | fuel + 1, elements, doc => do
      let (value, rest) ← readValue fuel doc
      let tok := skipCommentTokens rest.length rest
      if tok.type = .arrayEnd then some (.array (elements ++ [value]), tok.rest)
      else readArray fuel (elements ++ [value]) tok.rest

end

/-- `Reader::parse( document, root )`: the root value, if parsing succeeds. -/
def parse (document : Bytes) : Option Value :=
  (readValue (2 * document.length + 2) document).map Prod.fst

end Reader

end UCClient
