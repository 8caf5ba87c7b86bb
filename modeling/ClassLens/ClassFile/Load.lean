/-
From a class file to a class with decoded methods.

A method that cannot be decoded, or that has no name or descriptor, is left out
with a warning, and its siblings are not touched: each entry of the method table
gives either a method or a warning, and nothing else of the class depends on
it. A method with several code attributes must decode all of them and has the
code and the handlers of the last.
-/
import ClassLens.ClassFile.Basic
import ClassLens.Code.Decode
import ClassLens.Method

set_option autoImplicit false

namespace ClassLens.ClassFile

/-! ## What goes wrong -/

/-- Why a method is left out. -/
inductive MethodFault where
  | noName
  | noDescriptor
  | undecodable (owner name descriptor : String) (cause : Code.DecodeError)
  deriving DecidableEq, Repr

/-- The text of a method's fault. -/
def MethodFault.message : MethodFault → String
  | noName => "method name is not a UTF-8 constant"
  | noDescriptor => "method descriptor is not a UTF-8 constant"
  | undecodable owner name descriptor cause =>
    "failed to decode " ++ owner ++ "." ++ name ++ descriptor ++ ": " ++ cause.message

/-- Why a class file gives no class. -/
inductive LoadError where
  | unreadable (cause : ReadError)
  | nameless
  deriving DecidableEq, Repr

/-- The text of a load error. -/
def LoadError.message : LoadError → String
  | unreadable cause => "invalid class file: " ++ cause.message
  | nameless => "this_class does not name a class"

/-! ## Methods -/

/-- The analysed ones among the access flags. -/
def access (flags : UInt16) : MethodAccess where
  isPublic := flags.toNat.testBit 0
  isStatic := flags.toNat.testBit 3
  isAbstract := flags.toNat.testBit 10

/-- A handler with its class named, where the table names one. -/
def handler (entries : Entries) (row : ExceptionRow) : ExceptionHandler where
  startPc := row.startPc.toUInt32
  endPc := row.endPc.toUInt32
  handlerPc := row.handlerPc.toUInt32
  catchType := if row.catchIndex = 0 then none else entries.className? row.catchIndex

/-- The code of a method, decoded, with its handlers. -/
structure Body where
  instructions : List Instruction
  handlers : List ExceptionHandler
  deriving DecidableEq, Repr

/-- Goes over the attributes of a method: each code attribute replaces the body
that the ones before it gave. -/
def bodyFrom (entries : Entries) (body : Body) : List Attribute → Except Code.DecodeError Body
  | [] => .ok body
  | .other _ :: rest => bodyFrom entries body rest
  | .code bytes rows :: rest =>
    match Code.decode entries.codePool bytes.data.toList with
    | .error e => .error e
    | .ok instructions => bodyFrom entries ⟨instructions, rows.map (handler entries)⟩ rest

/-- The method of an entry of the method table. -/
def method (entries : Entries) (owner : String) (info : MemberInfo) :
    Except MethodFault Method :=
  match entries.utf8? info.nameIndex with
  | none => .error .noName
  | some name =>
    match entries.utf8? info.descriptorIndex with
    | none => .error .noDescriptor
    | some descriptor =>
      match bodyFrom entries ⟨[], []⟩ info.attributes with
      | .error e => .error (.undecodable owner name descriptor e)
      | .ok body =>
        .ok ⟨owner, name, descriptor, access info.flags, body.instructions, body.handlers⟩

/-! ## Classes -/

/-- A class with a warning for each of its methods that is left out. -/
structure Loaded where
  loadedClass : Class
  warnings : List String
  deriving DecidableEq, Repr

/-- The warning about a method that is left out. -/
def skipWarning (owner : String) (fault : MethodFault) : String :=
  "skipping method in " ++ owner ++ ": " ++ fault.message

/-- The class of a class file. -/
def toClass (f : ClassFile) : Except LoadError Loaded :=
  match f.entries.className? f.thisClass with
  | none => .error .nameless
  | some name =>
    let results := f.methods.map (method f.entries name)
    .ok {
      loadedClass := {
        name := name
        superName := f.entries.className? f.superClass
        methods := results.filterMap fun
          | .ok m => some m
          | .error _ => none }
      warnings := results.filterMap fun
        | .ok _ => none
        | .error fault => some (skipWarning name fault) }

/-- Reads the class in the bytes of a class file. -/
def load (data : ByteArray) : Except LoadError Loaded :=
  match parse data with
  | .error e => .error (.unreadable e)
  | .ok f => toClass f

end ClassLens.ClassFile
