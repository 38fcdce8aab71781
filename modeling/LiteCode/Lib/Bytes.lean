import Mathlib.Algebra.Group.Nat.Defs
import Mathlib.Data.List.Basic

/-!
# Byte strings

Texts that cross a process boundary (shell variables, files, container logs, SQL strings) are
strings of bytes, with no assumption on their encoding.

* `bytes`: the bytes of an ASCII literal;
* `decimal`: the decimal digits of a number, as `printf '%s'` and `std::to_string` print it.
-/

namespace LiteCode

/-- A string of bytes. -/
abbrev Bytes := List UInt8

/-- Strings of bytes are compared byte by byte. -/
instance : LawfulBEq Bytes := inferInstance

/-- The bytes of an ASCII literal. -/
def bytes (s : String) : Bytes := s.toList.map fun c => UInt8.ofNat c.toNat

/-- The decimal digits of `n`. -/
def decimal (n : Nat) : Bytes := (Nat.toDigits 10 n).map fun c => UInt8.ofNat c.toNat

/-- The bytes of an integer: a minus sign if negative, then the digits. -/
def decimalInt : Int → Bytes
  | .ofNat n => decimal n
  | .negSucc n => bytes "-" ++ decimal (n + 1)

end LiteCode
