/-
The lines of a text.

A line ends at a line feed, which is not part of it, and neither is a carriage
return right before the line feed. What stands after the last line feed is a
line of its own unless it is empty.
-/

set_option autoImplicit false

namespace ClassLens.Text

/-- The line whose characters come newest first, when a line feed ends it. -/
def endedLine : List Char → String
  | '\r' :: rest => String.ofList rest.reverse
  | line => String.ofList line.reverse

/-- Cuts characters into lines. The current line and the lines before it come
newest first. -/
def linesFrom : List Char → List Char → List String → List String
  | [], [], read => read.reverse
  | [], c :: line, read => (String.ofList (c :: line).reverse :: read).reverse
  | c :: rest, line, read =>
    if c = '\n' then linesFrom rest [] (endedLine line :: read)
    else linesFrom rest (c :: line) read

/-- The lines of a text. -/
def lines (s : String) : List String :=
  linesFrom s.toList [] []

end ClassLens.Text
