/-
Class files: the constant pool and the methods, read from bytes.

The parts of a class file follow each other without gaps, so the file is read
from front to back in one go, and it must end where its last part does.
-/
import ClassLens.ClassFile.Attribute
import ClassLens.Text.ModifiedUtf8

set_option autoImplicit false

namespace ClassLens

namespace ClassFile

open Reader

/-! ## The constant pool -/

/-- One constant: a tag, and what the tag calls for. -/
def poolEntry : Reader PoolEntry := do
  let tag ← byte
  match tag.toNat with
  | 1 => do
    let size ← word
    let bytes ← block size.toNat
    match Text.ofModifiedUtf8? bytes with
    | some text => return .utf8 text
    | none => fail .invalidText
  | 3 => return .integer (UInt32.ofNat (← number 4)).toInt32
  | 4 => return .float (UInt32.ofNat (bigEndian (← block 4)))
  | 5 => return .long (UInt64.ofNat (← number 8)).toInt64
  | 6 => return .double (UInt64.ofNat (bigEndian (← block 8)))
  | 7 => return .classRef (← word)
  | 8 => return .string (← word)
  | 9 => return .fieldRef (← word) (← word)
  | 10 => return .methodRef (← word) (← word)
  | 11 => return .interfaceMethodRef (← word) (← word)
  | 12 => return .nameAndType (← word) (← word)
  | 15 => return .methodHandle (← byte) (← word)
  | 16 => return .methodType (← word)
  | 17 => return .dynamic (← word) (← word)
  | 18 => return .invokeDynamic (← word) (← word)
  | 19 => return .moduleRef (← word)
  | 20 => return .packageRef (← word)
  | _ => fail (.poolTag tag)

/-- Reads the entries of so many indices after those read so far. -/
def poolEntries : Nat → Entries → Reader Entries
  | 0, read => Reader.pure read
  | n + 1, read => fun data place =>
    match poolEntry data place with
    | .error e => .error e
    | .ok (entry, place) =>
      match entry.takesTwo, n with
      | true, n + 1 => poolEntries n ((read.push entry).push .empty) data place
      | true, 0 => .ok (read.push entry, place)
      | false, n => poolEntries n (read.push entry) data place

/-- The constant pool: a count, and one entry less than that, since there is
none of index 0. -/
def pool : Reader Entries := do
  let count ← word
  match count.toNat with
  | 0 => return #[]
  | n + 1 => poolEntries n #[.empty]

/-! ## Members -/

/-- A field or a method, as stored. -/
structure MemberInfo where
  flags : UInt16
  nameIndex : UInt16
  descriptorIndex : UInt16
  attributes : List Attribute

/-- A field or a method. -/
def memberInfo (entries : Entries) : Reader MemberInfo := do
  let flags ← word
  let nameIndex ← word
  let descriptorIndex ← word
  let attributes ← attributes entries
  return ⟨flags, nameIndex, descriptorIndex, attributes⟩

end ClassFile

/-! ## Files -/

/-- A class file, without the parts that nothing looks at. -/
structure ClassFile where
  entries : ClassFile.Entries
  thisClass : UInt16
  superClass : UInt16
  methods : List ClassFile.MemberInfo

namespace ClassFile

open Reader

/-- The number that class files start with. -/
def magic : Nat := 0xcafebabe

/-- A class file from its first byte to its last. -/
def file : Reader ClassFile := do
  let start ← number 4
  if start ≠ magic then fail .notClassFile
  skipWords 2
  let entries ← pool
  skipWords 1
  let thisClass ← word
  let superClass ← word
  skipList (skipWords 1)
  let _ ← listOf (memberInfo entries)
  let methods ← listOf (memberInfo entries)
  let _ ← attributes entries
  return ⟨entries, thisClass, superClass, methods⟩

/-- Reads a class file, which must take up all the bytes. -/
def parse (data : ByteArray) : Except ReadError ClassFile :=
  match file data 0 with
  | .error e => .error e
  | .ok (f, place) =>
    if place = data.size then .ok f else .error (.leftover place data.size)

end ClassFile

end ClassLens
