import PipeCodec.Decimal

/-!
# Arguments

Arguments are options, which have a name and mostly a value, and at most one operand, which stands
alone.  A value is joined to its option by an equals sign or is the next argument; a next argument
that begins with a hyphen is no value, save the lone hyphen and, where an integer is wanted, a
negative number.  After `--` everything is an operand.  Nothing may be given twice, and names are
not shortened.
-/

set_option autoImplicit false

namespace PipeCodec

/-- What an option or an operand wants. -/
inductive Want where
  | flag
  | text
  | integer
  | path
  deriving DecidableEq

inductive Given where
  | flag
  | text (value : String)
  | integer (value : Int32)
  /-- A path is bytes; it need not be a text. -/
  | path (value : Bytes)
  deriving DecidableEq

/-- The given value, if the bytes are of the wanted kind.  No path is empty. -/
def Given.read? (want : Want) (bytes : Bytes) : Option Given :=
  match want with
  | .flag => none
  | .text => (Utf8.decode? bytes).map text
  | .integer => (Decimal.readExact? bytes).map integer
  | .path => if bytes = [] then none else some (path bytes)

/-- The options and the operand that a request knows. -/
structure Grammar where
  options : List (String × Want)
  operand : Option Want

/-- The option of that name and what it wants. -/
def Grammar.find? (grammar : Grammar) (name : Bytes) : Option (String × Want) :=
  grammar.options.find? (Utf8.encode ·.1 = name)

structure Arguments where
  options : List (String × Given)
  operand : Option Given
  deriving DecidableEq

/-- How an argument looks, before it is known what is wanted. -/
inductive Shape where
  | endOfOptions
  /-- A name after two hyphens, with the bytes after an equals sign if there is one. -/
  | named (name : Bytes) (value : Option Bytes)
  /-- One hyphen and more. -/
  | short (letters : Bytes)
  | plain
  deriving DecidableEq

namespace Shape

def hyphen : UInt8 := 0x2D

def equalsSign : UInt8 := 0x3D

def ofName (bytes : Bytes) : Shape :=
  match bytes.dropWhile (· != equalsSign) with
  | [] => named bytes none
  | _ :: value => named (bytes.takeWhile (· != equalsSign)) (some value)

def ofArgument : Bytes → Shape
  | [] => plain
  | [_] => plain
  | first :: second :: rest =>
    if first ≠ hyphen then plain
    else if second ≠ hyphen then short (second :: rest)
    else if rest = [] then endOfOptions
    else ofName rest

end Shape

/-- Whether the next argument can be the value of an option that wants one. -/
def Want.takes (want : Want) (next : Bytes) : Bool :=
  Shape.ofArgument next = .plain || (want = .integer && (Decimal.readExact? next).isSome)

namespace Arguments

def empty : Arguments :=
  ⟨[], none⟩

def addOption (arguments : Arguments) (name : String) (given : Given) : Option Arguments :=
  if arguments.options.any (·.1 = name) then none
  else some { arguments with options := (name, given) :: arguments.options }

def addOperand (grammar : Grammar) (arguments : Arguments) (bytes : Bytes) : Option Arguments := do
  let want ← grammar.operand
  let operand ← Given.read? want bytes
  if arguments.operand.isSome then none else some { arguments with operand }

def parseOperands (grammar : Grammar) (sofar : Arguments) : List Bytes → Option Arguments
  | [] => some sofar
  | bytes :: rest => do
    let sofar ← addOperand grammar sofar bytes
    parseOperands grammar sofar rest

def parseFrom (grammar : Grammar) (sofar : Arguments) : List Bytes → Option Arguments
  | [] => some sofar
  | argument :: rest =>
    match Shape.ofArgument argument with
    | .endOfOptions => parseOperands grammar sofar rest
    | .short _ => none
    | .plain => do
      let sofar ← addOperand grammar sofar argument
      parseFrom grammar sofar rest
    | .named name value => do
      let (name, want) ← grammar.find? name
      if want = .flag then
        if value.isSome then none
        else
          let sofar ← addOption sofar name .flag
          parseFrom grammar sofar rest
      else
        match value, rest with
        | some value, rest => do
          let sofar ← addOption sofar name (← Given.read? want value)
          parseFrom grammar sofar rest
        | none, [] => none
        | none, next :: rest =>
          if want.takes next then do
            let sofar ← addOption sofar name (← Given.read? want next)
            parseFrom grammar sofar rest
          else none

/-- Reads arguments by a grammar; refuses them all if one is out of place. -/
def parse (grammar : Grammar) (arguments : List Bytes) : Option Arguments :=
  parseFrom grammar empty arguments

def option? (arguments : Arguments) (name : String) : Option Given :=
  (arguments.options.find? (·.1 = name)).map (·.2)

def text? (arguments : Arguments) (name : String) : Option String :=
  match arguments.option? name with
  | some (.text value) => some value
  | _ => none

def integer? (arguments : Arguments) (name : String) : Option Int32 :=
  match arguments.option? name with
  | some (.integer value) => some value
  | _ => none

def path? (arguments : Arguments) (name : String) : Option Bytes :=
  match arguments.option? name with
  | some (.path value) => some value
  | _ => none

def hasFlag (arguments : Arguments) (name : String) : Bool :=
  arguments.option? name = some .flag

end Arguments

end PipeCodec
