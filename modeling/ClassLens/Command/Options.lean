/-
The options of the command, and how they are read from words.

Words are texts of the system. Names and letters are told by what they are as
texts, and values are taken as they are.

Words are read from the left, and the first one that decides the outcome does:
a word that asks for help or for the version is answered even if what follows
makes no sense, and not if something before it makes none. An option may be
given once. Whether something is missing is only looked at when all words are
read.
-/
import ClassLens.Files.OsText

set_option autoImplicit false

namespace ClassLens.Command

/-! ## Options -/

/-- What a command is told to do. -/
structure Options where
  input : Option OsText := none
  output : Option OsText := none
  trees : Bool := false
  listPatterns : Bool := false
  quiet : Bool := false
  timing : Bool := false
  verbose : Bool := false
  deriving DecidableEq, Repr

/-- An option that is given or not. -/
inductive Flag where
  | trees
  | listPatterns
  | quiet
  | timing
  | verbose
  deriving DecidableEq, Repr

/-- An option that has a value. -/
inductive Setting where
  | input
  | output
  deriving DecidableEq, Repr

namespace Options

/-- Whether a flag is given. -/
def hasFlag (o : Options) : Flag → Bool
  | .trees => o.trees
  | .listPatterns => o.listPatterns
  | .quiet => o.quiet
  | .timing => o.timing
  | .verbose => o.verbose

/-- Gives a flag, which must not be given yet. -/
def giveFlag? (o : Options) (f : Flag) : Option Options :=
  if o.hasFlag f then none
  else some <|
    match f with
    | .trees => { o with trees := true }
    | .listPatterns => { o with listPatterns := true }
    | .quiet => { o with quiet := true }
    | .timing => { o with timing := true }
    | .verbose => { o with verbose := true }

/-- The value of a setting. -/
def value? (o : Options) : Setting → Option OsText
  | .input => o.input
  | .output => o.output

/-- Gives a setting its value, which must not be empty. The setting must not
have one yet. -/
def giveValue? (o : Options) (s : Setting) (value : OsText) : Option Options :=
  if value.isEmpty || (o.value? s).isSome then none
  else some <|
    match s with
    | .input => { o with input := some value }
    | .output => { o with output := some value }

end Options

/-! ## Words -/

/-- What an option word stands for. -/
inductive Meaning where
  | flag (f : Flag)
  | setting (s : Setting)
  | help
  | version
  deriving DecidableEq, Repr

/-- The meaning of the long name of an option. -/
def Meaning.ofName? (name : OsText) : Option Meaning :=
  match name.text? with
  | some "input" => some (.setting .input)
  | some "output" => some (.setting .output)
  | some "trees" => some (.flag .trees)
  | some "list-patterns" => some (.flag .listPatterns)
  | some "quiet" => some (.flag .quiet)
  | some "timing" => some (.flag .timing)
  | some "verbose" => some (.flag .verbose)
  | some "help" => some .help
  | some "version" => some .version
  | _ => none

/-- The meaning of the letter of an option. -/
def Meaning.ofLetter? (letter : UInt8) : Option Meaning :=
  match Char.ofNat letter.toNat with
  | 'v' => some (.flag .verbose)
  | 'h' => some .help
  | 'V' => some .version
  | _ => none

/-- The form of a word. -/
inductive Word where
  /-- A long name, and the value that is attached to it. -/
  | long (name : OsText) (value : Option OsText)
  /-- Letters, of which there is at least one. -/
  | short (letters : List UInt8)
  /-- The word after which nothing is an option. -/
  | endOfOptions
  /-- Anything else. -/
  | plain
  deriving DecidableEq, Repr

/-- The byte that options start with. -/
def dash : UInt8 := 0x2d

/-- The byte between a long name and its value. -/
def equalsSign : UInt8 := 0x3d

/-- A long name, and behind the first equals sign its value. -/
def Word.ofLong (rest : OsText) : Word :=
  let name := rest.takeWhile (· != equalsSign)
  match rest.dropWhile (· != equalsSign) with
  | [] => .long name none
  | _ :: value => .long name (some value)

/-- The form of a word. -/
def Word.of : OsText → Word
  | [] => .plain
  | first :: rest =>
    if first ≠ dash then .plain
    else match rest with
      | [] => .plain
      | second :: name =>
        if second ≠ dash then .short rest
        else if name.isEmpty then .endOfOptions
        else Word.ofLong name

/-! ## Requests -/

/-- What a command has to do. -/
inductive Task where
  | listPatterns
  | analyse (path : OsText)
  deriving DecidableEq, Repr

/-- What words ask for. -/
inductive Request where
  | help
  | version
  /-- The words make no sense. -/
  | misuse
  | perform (task : Task) (o : Options)
  deriving DecidableEq, Repr

/-- What is asked for when all words are read. There must be an input unless
the patterns are to be listed. -/
def Request.ofOptions (o : Options) : Request :=
  if o.listPatterns then .perform .listPatterns o
  else match o.input with
    | some path => .perform (.analyse path) o
    | none => .misuse

/-- Reads letters. They are what decides, or there are more options. -/
def readLetters (o : Options) : List UInt8 → Except Request Options
  | [] => .ok o
  | c :: rest =>
    match Meaning.ofLetter? c with
    | some (.flag f) =>
      match o.giveFlag? f with
      | some o => readLetters o rest
      | none => .error .misuse
    | some .help => .error .help
    | some .version => .error .version
    | some (.setting _) | none => .error .misuse

/-- Reads words. -/
def Request.ofWordsFrom (o : Options) : List OsText → Request
  | [] => .ofOptions o
  | word :: rest =>
    match Word.of word with
    | .plain => .misuse
    | .endOfOptions => if rest.isEmpty then .ofOptions o else .misuse
    | .short letters =>
      match readLetters o letters with
      | .error request => request
      | .ok o => ofWordsFrom o rest
    | .long name value =>
      match Meaning.ofName? name, value with
      | some .help, none => .help
      | some .version, none => .version
      | some (.flag f), none =>
        match o.giveFlag? f with
        | some o => ofWordsFrom o rest
        | none => .misuse
      | some (.setting s), some value =>
        match o.giveValue? s value with
        | some o => ofWordsFrom o rest
        | none => .misuse
      | some (.setting s), none =>
        match rest with
        | [] => .misuse
        | value :: rest =>
          -- a word in the form of an option is not taken for a value
          if Word.of value = .plain then
            match o.giveValue? s value with
            | some o => ofWordsFrom o rest
            | none => .misuse
          else .misuse
      | _, _ => .misuse

/-- What words ask for. -/
def Request.ofWords (words : List OsText) : Request :=
  .ofWordsFrom {} words

end ClassLens.Command
