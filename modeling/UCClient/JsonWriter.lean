import UCClient.JsonValue

/-!
# The jsoncpp Writer

`Json::FastWriter` of jsoncpp 0.5.0, by which every message to a page is rendered:
decimal numbers, quoted and escaped strings, members in key order, no white space and no
final newline.

Strings are C strings here: a value is rendered up to its first NUL byte, and a byte
above 127 is a negative `char`, so it is neither a control character nor escaped.
-/

namespace UCClient

namespace Value

/-- `uintToString`: decimal digits, the last one first, in front of what is there. A
32-bit number has at most ten of them, which is the fuel `valueToString` gives. -/
def uintToString : ℕ → ℕ → Bytes → Bytes
  | 0, _, current => current
  | fuel + 1, value, current =>
      let current := UInt8.ofNat (value % 10 + 48) :: current
      if value / 10 = 0 then current else uintToString fuel (value / 10) current

/-- `valueToString( UInt )`. -/
def valueToStringUInt (value : UInt32) : Bytes := uintToString 10 value.toNat []

/-- `valueToString( Int )`: the digits of the magnitude behind a sign. -/
def valueToStringInt (value : Int32) : Bytes :=
  let digits := uintToString 10 value.toInt.natAbs []
  if value.toInt < 0 then bytes "-" ++ digits else digits

/-- `isControlCharacter` on a signed `char`. -/
def isControlCharacter (c : UInt8) : Bool := 0 < c && c ≤ 0x1F

/-- One of the characters `strpbrk(value, "\"\\\b\f\n\r\t")` looks for. -/
def isEscapedCharacter (c : UInt8) : Bool :=
  c = 34 || c = 92 || c = 8 || c = 12 || c = 10 || c = 13 || c = 9

/-- An upper-case hexadecimal digit. -/
def hexDigit (n : ℕ) : UInt8 := if n < 10 then UInt8.ofNat (n + 48) else UInt8.ofNat (n + 55)

/-- The rendering of one character of a string that needs escaping. -/
def escapeCharacter (c : UInt8) : Bytes :=
  if c = 34 then [92, 34]
  else if c = 92 then [92, 92]
  else if c = 8 then bytes "\\b"
  else if c = 12 then bytes "\\f"
  else if c = 10 then bytes "\\n"
  else if c = 13 then bytes "\\r"
  else if c = 9 then bytes "\\t"
  else if isControlCharacter c then
    bytes "\\u00" ++ [hexDigit (c.toNat / 16), hexDigit (c.toNat % 16)]
  else [c]

/-- `valueToQuotedString`: the common case is copied, the rest is walked and escaped. -/
def valueToQuotedString (b : Bytes) : Bytes :=
  let value := cstr b
  if value.all fun c => !isEscapedCharacter c && !isControlCharacter c then
    34 :: value ++ [34]
  else 34 :: value.flatMap escapeCharacter ++ [34]

/-- `valueToString( bool )`. -/
def valueToStringBool (b : Bool) : Bytes := if b then bytes "true" else bytes "false"

mutual

/-- `FastWriter::writeValue`. -/
def writeValue : Value → Bytes
  | .null => bytes "null"
  | .int i => valueToStringInt i
  | .uint u => valueToStringUInt u
  | .real token => token
  | .string s => valueToQuotedString s
  | .bool b => valueToStringBool b
  | .array xs => bytes "[" ++ writeElements xs ++ bytes "]"
  | .object ms => 123 :: writeMembers ms ++ [125]

/-- The elements of an array, with commas between them. -/
def writeElements : List Value → Bytes
  | [] => []
  | [x] => writeValue x
  | x :: xs => writeValue x ++ bytes "," ++ writeElements xs

/-- The members of an object, with commas between them. -/
def writeMembers : List (Bytes × Value) → Bytes
  | [] => []
  | [(name, x)] => valueToQuotedString name ++ bytes ":" ++ writeValue x
  | (name, x) :: ms =>
      valueToQuotedString name ++ bytes ":" ++ writeValue x ++ bytes "," ++ writeMembers ms

end

end Value

end UCClient
