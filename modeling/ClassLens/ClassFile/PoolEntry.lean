/-
The entries of a class file's constant pool, and their use as a pool of
constants for code.
-/
import ClassLens.Code.Pool
import ClassLens.Decimal.FloatText

set_option autoImplicit false

namespace ClassLens.ClassFile

/-- A constant. Numbers named `…Index` point into the same pool; whether they
point at something of the right sort is not checked when the pool is read. -/
inductive PoolEntry where
  /-- No constant: entry 0, and the entry after a `long` or a `double`. -/
  | empty
  | utf8 (value : String)
  | integer (value : Int32)
  | float (bits : UInt32)
  | long (value : Int64)
  | double (bits : UInt64)
  | classRef (nameIndex : UInt16)
  | string (stringIndex : UInt16)
  | fieldRef (classIndex nameAndTypeIndex : UInt16)
  | methodRef (classIndex nameAndTypeIndex : UInt16)
  | interfaceMethodRef (classIndex nameAndTypeIndex : UInt16)
  | nameAndType (nameIndex descriptorIndex : UInt16)
  | methodHandle (referenceKind : UInt8) (referenceIndex : UInt16)
  | methodType (descriptorIndex : UInt16)
  | dynamic (bootstrapIndex nameAndTypeIndex : UInt16)
  | invokeDynamic (bootstrapIndex nameAndTypeIndex : UInt16)
  | moduleRef (nameIndex : UInt16)
  | packageRef (nameIndex : UInt16)
  deriving DecidableEq, Repr

namespace PoolEntry

/-- Whether the entry after this one is empty. -/
def takesTwo : PoolEntry → Bool
  | long _ | double _ => true
  | _ => false

/-- A name with fields in braces. -/
private def withFields (name : String) (fields : List (String × String)) : String :=
  name ++ " \x7b " ++ ", ".intercalate (fields.map fun (k, v) => k ++ ": " ++ v) ++ " \x7d"

/-- How a diagnostic shows an entry. -/
def describe : PoolEntry → String
  | empty => "Empty"
  | utf8 value => withFields "Utf8" [("value", value)]
  | integer value => withFields "Integer" [("value", toString value.toInt)]
  | float bits => withFields "Float" [("value", Decimal.floatText bits)]
  | long value => withFields "Long" [("value", toString value.toInt)]
  | double bits => withFields "Double" [("value", Decimal.doubleText bits)]
  | classRef n => withFields "Class" [("name_index", toString n.toNat)]
  | string n => withFields "String" [("string_index", toString n.toNat)]
  | fieldRef c n => withFields "Fieldref" (memberFields c n)
  | methodRef c n => withFields "Methodref" (memberFields c n)
  | interfaceMethodRef c n => withFields "InterfaceMethodref" (memberFields c n)
  | nameAndType n d => withFields "NameAndType"
      [("name_index", toString n.toNat), ("descriptor_index", toString d.toNat)]
  | methodHandle k i => withFields "MethodHandle"
      [("reference_kind", toString k.toNat), ("reference_index", toString i.toNat)]
  | methodType d => withFields "MethodType" [("descriptor_index", toString d.toNat)]
  | dynamic b n => withFields "Dynamic" (dynamicFields b n)
  | invokeDynamic b n => withFields "InvokeDynamic" (dynamicFields b n)
  | moduleRef n => withFields "Module" [("name_index", toString n.toNat)]
  | packageRef n => withFields "Package" [("name_index", toString n.toNat)]
where
  memberFields (c n : UInt16) : List (String × String) :=
    [("class_index", toString c.toNat), ("name_and_type_index", toString n.toNat)]
  dynamicFields (b n : UInt16) : List (String × String) :=
    [("bootstrap_method_attr_index", toString b.toNat),
      ("name_and_type_index", toString n.toNat)]

end PoolEntry

/-! ## The pool as seen by code -/

/-- The entries of a class file in the order of their indices. -/
abbrev Entries := Array PoolEntry

namespace Entries

/-- The text of a text entry. -/
def utf8? (entries : Entries) (index : UInt16) : Option String :=
  match entries[index.toNat]? with
  | some (.utf8 value) => some value
  | _ => none

/-- The internal name of a class entry. -/
def className? (entries : Entries) (index : UInt16) : Option String :=
  match entries[index.toNat]? with
  | some (.classRef name) => entries.utf8? name
  | _ => none

/-- Name and descriptor of an entry that pairs the two. -/
def nameAndType? (entries : Entries) (index : UInt16) : Option Code.DynamicRef :=
  match entries[index.toNat]? with
  | some (.nameAndType name descriptor) => do
    let name ← entries.utf8? name
    let descriptor ← entries.utf8? descriptor
    return ⟨name, descriptor⟩
  | _ => none

/-- The member a reference names. Field, method and interface method references
are interchangeable here. -/
def member? (entries : Entries) (index : UInt16) : Option Code.MemberRef :=
  match entries[index.toNat]? with
  | some (.fieldRef c n) | some (.methodRef c n) | some (.interfaceMethodRef c n) => do
    let owner ← entries.className? c
    let pair ← entries.nameAndType? n
    return ⟨owner, pair.name, pair.descriptor⟩
  | _ => none

/-- The target of a dynamic call. -/
def dynamic? (entries : Entries) (index : UInt16) : Option Code.DynamicRef :=
  match entries[index.toNat]? with
  | some (.invokeDynamic _ n) => entries.nameAndType? n
  | _ => none

/-- The literal of an entry that can be pushed. Method handles and method types
have a fixed static type, a dynamic constant has the one it declares. -/
def literal? (entries : Entries) (index : UInt16) : Option Constant :=
  match entries[index.toNat]? with
  | some (.integer value) => some (.int value)
  | some (.float bits) => some (.float bits)
  | some (.long value) => some (.long value)
  | some (.double bits) => some (.double bits)
  | some (.string n) => (entries.utf8? n).map .string
  | some (.classRef n) => (entries.utf8? n).map .classLiteral
  | some (.methodHandle _ _) => some (.other "Ljava/lang/invoke/MethodHandle;")
  | some (.methodType _) => some (.other "Ljava/lang/invoke/MethodType;")
  | some (.dynamic _ n) => (entries.nameAndType? n).map fun pair => .other pair.descriptor
  | _ => none

/-- The lookups that code needs. -/
def codePool (entries : Entries) : Code.Pool where
  className? := entries.className?
  member? := entries.member?
  dynamic? := entries.dynamic?
  literal? := entries.literal?

end Entries

end ClassLens.ClassFile
