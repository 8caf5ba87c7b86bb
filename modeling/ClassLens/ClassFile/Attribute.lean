/-
The attributes of a class file.

Each attribute has a name, a length and a body whose layout the name decides.
The length is not trusted: a body is read by its layout, and reading goes on
where the layout ends. Two attributes also ask that a block of the stated length
be there. Only the code of methods is kept. All other known attributes are moved
over, which still finds out what is wrong with them, and an unknown name stops
the reading.

Element values, and attributes in attributes, nest. The nesting is bounded by a
number of levels. Every level takes a byte at least, so no file nests deeper
than it is long, and the size of the file serves as the bound.
-/
import ClassLens.ClassFile.Reader

set_option autoImplicit false

namespace ClassLens.ClassFile

/-- A row of an exception table. -/
structure ExceptionRow where
  startPc : UInt16
  endPc : UInt16
  handlerPc : UInt16
  /-- The index of the class handled; 0 for every exception. -/
  catchIndex : UInt16
  deriving DecidableEq, Repr

/-- An attribute, as far as it is kept. -/
inductive Attribute where
  | code (bytes : ByteArray) (handlers : List ExceptionRow)
  | other (name : String)

open Reader

/-! ## Layouts -/

/-- The place of an element value or an attribute below the deepest level,
which no bytes are left for. -/
private def tooDeep {α : Type} : Reader α :=
  fun data place => .error (.numberPastEnd place data.size)

/-- An annotation: its type, and pairs of a name and a value. -/
def annotationBody (value : Reader Unit) : Reader Unit := do
  skipWords 1
  skipList do
    skipWords 1
    value

/-- An element value, told by its tag. -/
def elementValue : Nat → Reader Unit
  | 0 => tooDeep
  | levels + 1 => do
    let tag ← byte
    match Char.ofNat tag.toNat with
    | 'B' | 'C' | 'D' | 'F' | 'I' | 'J' | 'S' | 'Z' | 's' | 'c' => skipWords 1
    | 'e' => skipWords 2
    | '@' => annotationBody (elementValue levels)
    | '[' => skipList (elementValue levels)
    | _ => fail (.elementTag tag)

/-- The target of a type annotation, told by its type. -/
def annotationTarget (type : UInt8) : Reader Unit :=
  match type.toNat with
  | 0x00 | 0x01 | 0x16 => skipByte
  | 0x10 | 0x17 | 0x42 | 0x43 | 0x44 | 0x45 | 0x46 => skipWords 1
  | 0x11 | 0x12 => skipTimes skipByte 2
  | 0x13 | 0x14 | 0x15 => Reader.pure ()
  | 0x40 | 0x41 => skipList (skipWords 3)
  | 0x47 | 0x48 | 0x49 | 0x4a | 0x4b => do
    skipWords 1
    skipByte
  | _ => fail (.targetType type)

/-- A type annotation: target, path, and an annotation. -/
def typeAnnotationBody (value : Reader Unit) : Reader Unit := do
  let type ← byte
  annotationTarget type
  skipShortList (skipTimes skipByte 2)
  annotationBody value

/-- A verification type. Those of objects have an index or an offset. -/
def verificationType : Reader Unit := do
  let tag ← byte
  if tag.toNat ≤ 6 then Reader.pure ()
  else if tag.toNat ≤ 8 then skipWords 1
  else fail (.verificationTag tag)

/-- A stack map frame, told by its type. -/
def stackMapFrame : Reader Unit := do
  let type ← byte
  let t := type.toNat
  if t ≤ 63 then Reader.pure ()
  else if t ≤ 127 then verificationType
  else if t ≤ 246 then fail (.frameType type)
  else if t = 247 then do
    skipWords 1
    verificationType
  else if t ≤ 251 then skipWords 1
  else if t ≤ 254 then do
    skipWords 1
    skipTimes verificationType (t - 251)
  else do
    skipWords 1
    skipList verificationType
    skipList verificationType

/-! ## Attributes -/

/-- The name of an attribute, found in the pool. -/
def attributeName (entries : Entries) (index : UInt16) : Reader String :=
  match entries[index.toNat]? with
  | none => fail (.noEntry index)
  | some (.utf8 name) => Reader.pure name
  | some entry => fail (.notText entry)

/-- A row of an exception table. -/
def exceptionRow : Reader ExceptionRow := do
  let startPc ← word
  let endPc ← word
  let handlerPc ← word
  let catchIndex ← word
  return ⟨startPc, endPc, handlerPc, catchIndex⟩

/-- The body of a code attribute. `nested` reads an attribute within it. -/
def codeBody (nested : Reader Attribute) : Reader Attribute := do
  skipWords 2
  let size ← number 4
  let code ← block size
  let handlers ← listOf exceptionRow
  skipList do let _ ← nested
  return .code code handlers

/-- The body of an attribute other than code, by its name. -/
def skippedBody (levels length : Nat) (nested : Reader Attribute) (name : String) :
    Reader Unit :=
  let value := elementValue levels
  match name with
  | "ConstantValue" | "SourceFile" | "Signature" | "NestHost" => skipWords 1
  | "Exceptions" | "NestMembers" | "PermittedSubclasses" => skipList (skipWords 1)
  | "LineNumberTable" => skipList (skipWords 2)
  | "LocalVariableTable" | "LocalVariableTypeTable" => skipList (skipWords 5)
  | "InnerClasses" => skipList (skipWords 4)
  | "Synthetic" | "Deprecated" => Reader.pure ()
  | "EnclosingMethod" => skipWords 2
  | "RuntimeVisibleAnnotations" => do
    expectBlock length
    skipList (annotationBody value)
  | "RuntimeInvisibleAnnotations" => skipList (annotationBody value)
  | "RuntimeVisibleParameterAnnotations" => skipShortList (skipList (annotationBody value))
  | "RuntimeVisibleTypeAnnotations" => skipList (typeAnnotationBody value)
  | "AnnotationDefault" => do
    expectBlock length
    value
  | "StackMapTable" => skipList stackMapFrame
  | "BootstrapMethods" => skipList do
    skipWords 1
    skipList (skipWords 1)
  | "MethodParameters" => skipShortList (skipWords 2)
  | "Record" => skipList do
    skipWords 2
    skipList do let _ ← nested
  | _ => fail (.unknownAttribute name)

/-- An attribute: name, length and body. The name is looked up before the length
is read. -/
def attributeInfo (entries : Entries) : Nat → Reader Attribute
  | 0 => tooDeep
  | levels + 1 => do
    let index ← word
    let name ← attributeName entries index
    let length ← number 4
    if name = "Code" then codeBody (attributeInfo entries levels)
    else do
      skippedBody levels length (attributeInfo entries levels) name
      return .other name

/-- Attributes under their count. -/
def attributes (entries : Entries) : Reader (List Attribute) :=
  fun data place => listOf (attributeInfo entries (data.size + 1)) data place

end ClassLens.ClassFile
