/-!
# Decimal numbers

Reading an unsigned number of 64 bits: decimal digits, after an optional plus
sign. The first character that is wrong or makes the number too large decides
the error.
-/

namespace FrozenApp.Text

/-- Why a text is no number of 64 bits. -/
inductive NumberError where
  | empty
  | invalidDigit
  | tooLarge
  deriving Repr, DecidableEq

/-- The wording of an error. -/
def NumberError.message : NumberError → String
  | .empty => "cannot parse integer from empty string"
  | .invalidDigit => "invalid digit found in string"
  | .tooLarge => "number too large to fit in target type"

/-- Read digits behind those that spell `n`. -/
def digits (n : Nat) : List Char → Except NumberError Nat
  | [] => .ok n
  | c :: rest =>
    if !c.isDigit then .error .invalidDigit
    else
      let n := n * 10 + (c.toNat - '0'.toNat)
      if UInt64.size ≤ n then .error .tooLarge else digits n rest

/-- The number that a text spells. -/
def parseUInt64 (s : String) : Except NumberError UInt64 :=
  match s.toList with
  | [] => .error .empty
  | ['+'] => .error .invalidDigit
  | '+' :: rest => (digits 0 rest).map UInt64.ofNat
  | chars => (digits 0 chars).map UInt64.ofNat

end FrozenApp.Text
