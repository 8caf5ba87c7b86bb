/-
JSON values with ordered members, and their printed form over several lines.

The printed form puts every item and every member on a line of its own, two
spaces deeper than what holds it; an empty list and an empty object stay on one
line. In strings, the two characters that would end or escape them and the
control characters below the space are escaped, and nothing else is.
-/

set_option autoImplicit false

namespace ClassLens.Report

/-- A JSON value. -/
inductive Json where
  | null
  | bool (value : Bool)
  | num (value : Int)
  | str (value : String)
  | list (items : List Json)
  | obj (members : List (String × Json))

namespace Json

/-- Two lower-case hexadecimal digits. -/
def hexPair (n : Nat) : List Char :=
  [Nat.digitChar (n / 16), Nat.digitChar (n % 16)]

/-- The characters that one character of a string is written as. -/
def escapeChar (c : Char) : List Char :=
  if c = '"' then ['\\', '"']
  else if c = '\\' then ['\\', '\\']
  else if c = '\n' then ['\\', 'n']
  else if c = '\r' then ['\\', 'r']
  else if c = '\t' then ['\\', 't']
  else if c = '\x08' then ['\\', 'b']
  else if c = '\x0c' then ['\\', 'f']
  else if c.toNat < 0x20 then ['\\', 'u', '0', '0'] ++ hexPair c.toNat
  else [c]

/-- A string in quotes. -/
def quote (s : String) : String :=
  String.ofList ('"' :: s.toList.flatMap escapeChar ++ ['"'])

/-- A line end, and the spaces that the next line starts with. -/
def newline (depth : Nat) : String :=
  String.ofList ('\n' :: List.replicate (2 * depth) ' ')

mutual

/-- A value whose first line stands at some depth already. -/
def prettyAt (depth : Nat) : Json → String
  | .null => "null"
  | .bool value => if value then "true" else "false"
  | .num value => toString value
  | .str value => quote value
  | .list [] => "[]"
  | .list (item :: rest) =>
    "[" ++ newline (depth + 1) ++ prettyAt (depth + 1) item ++ prettyItems (depth + 1) rest ++
      newline depth ++ "]"
  | .obj [] => "\x7b\x7d"
  | .obj ((key, value) :: rest) =>
    "\x7b" ++ newline (depth + 1) ++ quote key ++ ": " ++ prettyAt (depth + 1) value ++
      prettyMembers (depth + 1) rest ++ newline depth ++ "\x7d"

/-- The items of a list after the first. -/
def prettyItems (depth : Nat) : List Json → String
  | [] => ""
  | item :: rest =>
    "," ++ newline depth ++ prettyAt depth item ++ prettyItems depth rest

/-- The members of an object after the first. -/
def prettyMembers (depth : Nat) : List (String × Json) → String
  | [] => ""
  | (key, value) :: rest =>
    "," ++ newline depth ++ quote key ++ ": " ++ prettyAt depth value ++
      prettyMembers depth rest

end

/-- The printed form of a value. -/
def pretty (j : Json) : String :=
  j.prettyAt 0

end Json

end ClassLens.Report
