import Mathlib.Data.Int.Notation
import Mathlib.Data.List.Basic

/-!
# JSON values

The values that a text of JSON stands for. An object is the list of its members, as a deserializer meets
them.
-/

/-- `int` is a number without a fraction or an exponent that fits 64 bits, with or without a sign. -/
inductive Json
  | null
  | bool (b : Bool)
  | int (n : ℤ)
  | float
  | string (s : String)
  | array (items : List Json)
  | object (members : List (String × Json))

namespace Json

/-- How a character is written in a string. -/
def escape (c : Char) : List Char :=
  if c = '"' then ['\\', '"']
  else if c = '\\' then ['\\', '\\']
  else if c.toNat = 8 then ['\\', 'b']
  else if c.toNat = 9 then ['\\', 't']
  else if c.toNat = 10 then ['\\', 'n']
  else if c.toNat = 12 then ['\\', 'f']
  else if c.toNat = 13 then ['\\', 'r']
  else if c.toNat < 32 then
    ['\\', 'u', '0', '0', Nat.digitChar (c.toNat / 16), Nat.digitChar (c.toNat % 16)]
  else [c]

/-- A string as it is written. -/
def quote (s : String) : String := "\"" ++ String.ofList (s.toList.flatMap escape) ++ "\""

end Json
