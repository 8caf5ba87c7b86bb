/-
The constant lookups that decoding needs.

Operands name constants by index. What an index means depends on the use: the
same entry may be a class for one instruction and a literal for another. So the
decoder sees a pool as four partial lookups, one for each use, and never the
entries behind them. Any record of four functions is a pool; a class file gives
one, and so do four tables.
-/
import ClassLens.Instruction

set_option autoImplicit false

namespace ClassLens.Code

/-- A member of a class, as its uses name it. -/
structure MemberRef where
  owner : String
  name : String
  descriptor : String
  deriving DecidableEq, Repr

/-- The target of a dynamic call, which has no owner. -/
structure DynamicRef where
  name : String
  descriptor : String
  deriving DecidableEq, Repr

/-- The constants that operands may name, by index and by use. -/
structure Pool where
  /-- The internal name of a class. -/
  className? : UInt16 → Option String
  /-- A field or a method. -/
  member? : UInt16 → Option MemberRef
  /-- The target of a dynamic call. -/
  dynamic? : UInt16 → Option DynamicRef
  /-- A literal that can be pushed. -/
  literal? : UInt16 → Option Constant

end ClassLens.Code
