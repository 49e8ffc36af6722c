import Mathlib.Algebra.Group.Int.Defs
import Mathlib.Algebra.Group.Nat.Defs
import Mathlib.Data.List.TakeWhile

/-!
# Bytes, Sizes and Faults

The data every part of the client program shares: byte strings as `std::string` and
`std::vector<unsigned char>` hold them, C strings as a pointer to them is read, the
unsigned arithmetic of `size_t`, and the ways in which the C++ code can leave defined
behaviour.
-/

namespace UCClient

/-- The bytes of a `std::string` or of a `std::vector<unsigned char>`. -/
abbrev Bytes := List UInt8

/-- The bytes of an ASCII literal of the source. -/
def bytes (s : String) : Bytes := s.toList.map fun c => UInt8.ofNat c.toNat

/-- What a `const char *` to these bytes denotes: they are read up to the first NUL. -/
def cstr (b : Bytes) : Bytes := b.takeWhile (· != 0)

theorem cstr_cstr (b : Bytes) : cstr (cstr b) = cstr b := by
  simp only [cstr, List.takeWhile_takeWhile, and_self, Bool.decide_eq_true]

/-- `LWS_PRE`, the space lws wants before a payload: `_LWS_PAD(4 + 10)`. -/
def LWS_PRE : ℕ := 16

/-- `a - b` on `size_t` (32 bits in the narrower of the two builds). -/
def sizeSub (a b : ℕ) : ℕ := (a + 2 ^ 32 - b) % 2 ^ 32

/-- The conversion of a `size_t` to `int`. -/
def toInt (n : ℕ) : ℤ := (n : ℤ).bmod (2 ^ 32)

/-- The ways the modelled code can leave defined behaviour. -/
inductive Fault
  /-- A member of a client that is not constructed, or already deleted, is used. -/
  | dangling (p : ℕ)
  /-- A client that is not constructed, or already deleted, is deleted. -/
  | doubleDelete (p : ℕ)
  /-- `JSON_ASSERT( type_ == nullValue || type_ == objectValue )` does not hold. -/
  | jsonAssert
  /-- An erased range is not inside its vector. -/
  | vectorRange
  /-- The call stack is exhausted. -/
  | stackOverflow
  deriving DecidableEq, Repr

end UCClient
