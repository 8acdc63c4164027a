import FrozenApp.Text.Unprintable
import FrozenApp.Text.Utf8
/-!
# Quoted texts

Messages show names and values between double quotes. A quote and a backslash
get a backslash, five controls have short forms, other characters that are not
printed are spelled by their number, and a byte that is part of no character is
spelled as two hexadecimal digits.
-/

namespace FrozenApp.Text

/-- A number in lower-case hexadecimal, without leading zeros. -/
def hex (n : Nat) : String :=
  String.ofList (Nat.toDigits 16 n)

/-- A byte as two hexadecimal digits. -/
def hexByte (b : UInt8) : String :=
  String.ofList [Nat.digitChar (b.toNat / 16), Nat.digitChar (b.toNat % 16)]

/-- A character as it stands between quotes. -/
def quoteChar (c : Char) : String :=
  if c = '"' then "\\\""
  else if c = '\\' then "\\\\"
  else if c = '\n' then "\\n"
  else if c = '\r' then "\\r"
  else if c = '\t' then "\\t"
  else if c = '\x00' then "\\0"
  else if isUnprintable c then "\\u\x7b" ++ hex c.toNat ++ "\x7d"
  else String.singleton c

/-- A text between double quotes. -/
def quote (s : String) : String :=
  "\"" ++ String.join (s.toList.map quoteChar) ++ "\""

/-- A byte string between double quotes. -/
def quoteBytes (s : Bytes) : String :=
  "\"" ++ String.join ((Utf8.parts s).map fun
    | .char c => quoteChar c
    | .broken bytes _ => String.join (bytes.map fun b => "\\x" ++ (hexByte b).toUpper)) ++ "\""

/-- `s` moved to the right edge of a column of `width` characters. -/
def padLeft (width : Nat) (s : String) : String :=
  String.ofList (List.replicate (width - s.length) ' ') ++ s

end FrozenApp.Text
