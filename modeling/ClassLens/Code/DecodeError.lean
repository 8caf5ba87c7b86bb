/-
Why bytes are not code: a place, and a cause with the operands its text names.
-/
import ClassLens.Opcode

set_option autoImplicit false

namespace ClassLens.Code

/-- What is wrong with a piece of code. -/
inductive DecodeCause where
  | endOfCode
  | undefinedOpcode (op : Opcode)
  | pastEnd (op : Opcode)
  | notWidened (op : Opcode)
  | pairCount (count : Int32)
  | tableRange (low high : Int32)
  | targetRange (target : Int)
  | literalIndex (index : UInt16)
  | memberIndex (index : UInt16)
  | dynamicIndex (index : UInt16)
  | classIndex (index : UInt16)
  deriving DecidableEq, Repr

/-- The two lower-case hexadecimal digits of a byte. -/
def hexByte (b : UInt8) : String :=
  String.ofList [Nat.digitChar (b.toNat / 16), Nat.digitChar (b.toNat % 16)]

/-- The text of a cause. -/
def DecodeCause.message : DecodeCause → String
  | endOfCode => "unexpected end of code"
  | undefinedOpcode op => "undefined opcode 0x" ++ hexByte op
  | pastEnd op => "instruction " ++ op.mnemonic ++ " runs past end of code"
  | notWidened op => "wide cannot modify " ++ op.mnemonic
  | pairCount count => "negative lookupswitch pair count " ++ toString count.toInt
  | tableRange low high =>
    "invalid tableswitch range " ++ toString low.toInt ++ ".." ++ toString high.toInt
  | targetRange target => "branch target " ++ toString target ++ " out of range"
  | literalIndex index => "constant pool entry #" ++ toString index.toNat ++ " is not loadable"
  | memberIndex index => "invalid member reference #" ++ toString index.toNat
  | dynamicIndex index => "invalid invokedynamic entry #" ++ toString index.toNat
  | classIndex index => "invalid class reference #" ++ toString index.toNat

/-- A fault of the code, blamed on an offset. -/
structure DecodeError where
  offset : UInt32
  cause : DecodeCause
  deriving DecidableEq, Repr

/-- The fault at a place counted in bytes from the start of the code. -/
def DecodeError.at (place : Nat) (cause : DecodeCause) : DecodeError :=
  ⟨UInt32.ofNat place, cause⟩

/-- The text of a fault. -/
def DecodeError.message (e : DecodeError) : String :=
  "malformed bytecode at offset " ++ toString e.offset.toNat ++ ": " ++ e.cause.message

end ClassLens.Code
