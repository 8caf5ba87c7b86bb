/-
The source-like text of literals and names.
-/
import ClassLens.Decimal.FloatText
import ClassLens.Instruction
import ClassLens.Text.Quoted

set_option autoImplicit false

namespace ClassLens

/-- A literal as one would write it. What has no literal form has no text. -/
def Constant.literal? : Constant → Option String
  | null => some "null"
  | int value => some (toString value.toInt)
  | long value => some (toString value.toInt ++ "L")
  | float bits => some (Decimal.floatText bits ++ "f")
  | double bits => some (Decimal.doubleText bits)
  | string value => some (Text.quoted value)
  | classLiteral name =>
    some (String.ofList (name.toList.map fun c => if c = '/' then '.' else c) ++ ".class")
  | other _ => none

/-- The part of an internal class name after its last slash. -/
def simpleName (internal : String) : String :=
  String.ofList (internal.toList.reverse.takeWhile (· != '/')).reverse

end ClassLens
