/-
Method descriptors: the types of a method's parameters and of its result,
written as `(IJ)Ljava/lang/String;`.

The reader is a left to right scan over characters. Each step reads one token,
which is a type or the parenthesis that closes the parameter list, and hands
back what follows it; the rest is always shorter, which is why the scan of the
parameters ends. Text after the result is not looked at. The printer beside it
writes the one spelling each descriptor has.

Two leniencies are part of the format as read here: `V` is accepted wherever a
type is, and the name of a class may hold any character but the semicolon that
ends it, the empty name included.
-/
import ClassLens.NatSum

set_option autoImplicit false

namespace ClassLens

/-! ## Types -/

/-- The eight primitive types. -/
inductive Primitive where
  | boolean
  | byte
  | char
  | short
  | int
  | long
  | float
  | double
  deriving DecidableEq, Repr

namespace Primitive

/-- The letter that stands for a primitive type. -/
def letter : Primitive → Char
  | boolean => 'Z'
  | byte => 'B'
  | char => 'C'
  | short => 'S'
  | int => 'I'
  | long => 'J'
  | float => 'F'
  | double => 'D'

/-- The primitive type a letter stands for. -/
def ofLetter? : Char → Option Primitive
  | 'Z' => some boolean
  | 'B' => some byte
  | 'C' => some char
  | 'S' => some short
  | 'I' => some int
  | 'J' => some long
  | 'F' => some float
  | 'D' => some double
  | _ => none

end Primitive

/-- A type that is not an array. -/
inductive ElementType where
  | void
  | primitive (type : Primitive)
  | object (name : String)
  deriving DecidableEq, Repr

/-- A type: an element type under some number of array dimensions, none for a
type that is not an array. -/
structure TypeDescriptor where
  dimensions : Nat
  element : ElementType
  deriving DecidableEq, Repr

namespace TypeDescriptor

/-- The stack slots a value of the type takes. Only `long` and `double` take
two; an array of them is a reference and takes one. -/
def slots (t : TypeDescriptor) : Nat :=
  if t = ⟨0, .primitive .long⟩ ∨ t = ⟨0, .primitive .double⟩ then 2 else 1

/-- The characters of an element type. -/
def elementChars : ElementType → List Char
  | .void => ['V']
  | .primitive p => [p.letter]
  | .object name => 'L' :: name.toList ++ [';']

/-- The characters of a type: one opening bracket a dimension, then the
element. -/
def chars (t : TypeDescriptor) : List Char :=
  List.replicate t.dimensions '[' ++ elementChars t.element

end TypeDescriptor

/-! ## Failures -/

/-- Why a text is not a method descriptor. -/
inductive DescriptorError where
  | noOpening
  | missingReturn
  | missingSemicolon
  | tooManyDimensions
  | arrayOfNothing
  | endOfInput
  | unrecognized
  deriving DecidableEq, Repr

/-- The text of a failure. -/
def DescriptorError.message : DescriptorError → String
  | noOpening => "InvalidFormat(\"Method descriptor must start with '('.\")"
  | missingReturn => "InvalidFormat(\"Missing return type.\")"
  | missingSemicolon => "InvalidFormat(\"Missing semicolon in class name descriptor.\")"
  | tooManyDimensions => "TooManyDimensions"
  | arrayOfNothing => "InvalidFormat(\"Invalid descriptor.\")"
  | endOfInput => "UnexpectedEndOfInput"
  | unrecognized => "InvalidFormat(\"Unrecognized type descriptor.\")"

/-! ## Reading -/

/-- What one step of the scan finds: a type, or the end of the parameters. -/
inductive DescriptorToken where
  | type (type : TypeDescriptor)
  | close
  deriving DecidableEq, Repr

namespace DescriptorToken

/-- The greatest number of dimensions an array type has. -/
def maxDimensions : Nat := 255

/-- Reads one token that stands under `dimensions` opening brackets, and gives
what follows it. A bracket beyond the greatest number of dimensions is refused
before the character after it is looked at. -/
def scan (dimensions : Nat) : List Char → Except DescriptorError (DescriptorToken × List Char)
  | [] => .error .endOfInput
  | c :: rest =>
    if c = '[' then
      if dimensions = maxDimensions then .error .tooManyDimensions
      else scan (dimensions + 1) rest
    else if c = ')' then
      if dimensions = 0 then .ok (.close, rest) else .error .arrayOfNothing
    else if c = 'L' then
      match rest.dropWhile (· != ';') with
      | [] => .error .missingSemicolon
      | _ :: after =>
        .ok (.type ⟨dimensions, .object (String.ofList (rest.takeWhile (· != ';')))⟩, after)
    else if c = 'V' then .ok (.type ⟨dimensions, .void⟩, rest)
    else match Primitive.ofLetter? c with
      | some p => .ok (.type ⟨dimensions, .primitive p⟩, rest)
      | none => .error .unrecognized

private theorem length_dropWhile_le (p : Char → Bool) (cs : List Char) :
    (cs.dropWhile p).length ≤ cs.length :=
  (List.dropWhile_suffix p).length_le

/-- A token takes at least one character, so what follows it is shorter. -/
theorem scan_length_lt {dimensions : Nat} {cs rest : List Char} {token : DescriptorToken}
    (h : scan dimensions cs = .ok (token, rest)) : rest.length < cs.length := by
  induction cs generalizing dimensions with
  | nil => simp [scan] at h
  | cons c cs ih =>
    rw [scan] at h
    split at h
    · split at h
      · simp at h
      · have := ih h
        simp only [List.length_cons]
        omega
    · split at h
      · split at h
        · simp only [Except.ok.injEq, Prod.mk.injEq] at h
          simp [h.2]
        · simp at h
      · split at h
        · have hle := length_dropWhile_le (· != ';') cs
          split at h
          · simp at h
          · rename_i heq
            simp only [Except.ok.injEq, Prod.mk.injEq] at h
            rw [heq, h.2] at hle
            simp only [List.length_cons] at hle ⊢
            omega
        · split at h
          · simp only [Except.ok.injEq, Prod.mk.injEq] at h
            simp [h.2]
          · split at h
            · simp only [Except.ok.injEq, Prod.mk.injEq] at h
              simp [h.2]
            · simp at h

end DescriptorToken

/-- A method descriptor: parameter types in order, and the result type. -/
structure MethodDescriptor where
  parameters : List TypeDescriptor
  result : TypeDescriptor
  deriving DecidableEq, Repr

namespace MethodDescriptor

/-- Reads types up to the closing parenthesis. The types read so far come
newest first. -/
def scanParameters (read : List TypeDescriptor) (cs : List Char) :
    Except DescriptorError (List TypeDescriptor × List Char) :=
  match _h : DescriptorToken.scan 0 cs with
  | .error e => .error e
  | .ok (.close, rest) => .ok (read.reverse, rest)
  | .ok (.type t, rest) => scanParameters (t :: read) rest
termination_by cs.length
decreasing_by exact DescriptorToken.scan_length_lt _h

/-- Reads a descriptor from its characters. -/
def ofChars : List Char → Except DescriptorError MethodDescriptor
  | '(' :: cs =>
    match scanParameters [] cs with
    | .error e => .error e
    | .ok (parameters, rest) =>
      match DescriptorToken.scan 0 rest with
      | .error e => .error e
      | .ok (.close, _) => .error .missingReturn
      | .ok (.type result, _) => .ok ⟨parameters, result⟩
  | _ => .error .noOpening

/-- Reads a descriptor. -/
def parse (text : String) : Except DescriptorError MethodDescriptor :=
  ofChars text.toList

/-- The characters of a descriptor. -/
def chars (d : MethodDescriptor) : List Char :=
  '(' :: d.parameters.flatMap TypeDescriptor.chars ++ ')' :: d.result.chars

/-- The spelling of a descriptor. -/
def text (d : MethodDescriptor) : String :=
  String.ofList d.chars

/-- The number of declared parameters. -/
def parameterCount (d : MethodDescriptor) : Nat :=
  d.parameters.length

/-- The stack slots that the arguments take together. -/
def argumentSlots (d : MethodDescriptor) : Nat :=
  natSum (d.parameters.map TypeDescriptor.slots)

/-- Whether the method gives nothing back. An array of `V` is not nothing. -/
def returnsVoid (d : MethodDescriptor) : Bool :=
  d.result == ⟨0, .void⟩

/-! ## The result, read off the text alone -/

/-- What follows the last closing parenthesis, if there is one. -/
def resultChars? (cs : List Char) : Option (List Char) :=
  if ')' ∈ cs then some (cs.reverse.takeWhile (· != ')')).reverse else none

/-- Whether the text ends, after its last closing parenthesis, in the class
type named `owner`. The text need not be a descriptor. -/
def returnsClass (text owner : String) : Bool :=
  resultChars? text.toList == some ('L' :: owner.toList ++ [';'])

end MethodDescriptor

end ClassLens
