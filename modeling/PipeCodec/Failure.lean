import PipeCodec.Text.Parts
import PipeCodec.Decimal

/-!
# Failures of files and streams

Causes that lie outside the messages themselves.  The system refuses an operation with a number, a
kind and a description; moving bytes can fail on its own account; any other failure is known only
by the description that a device reports.
-/

set_option autoImplicit false

namespace PipeCodec

/-- Why the system refuses to open or read a file. -/
inductive SystemCause where
  | notFound
  | notADirectory
  | isADirectory
  | nameTooLong
  deriving DecidableEq

namespace SystemCause

def number : SystemCause → Nat
  | notFound => 2
  | notADirectory => 20
  | isADirectory => 21
  | nameTooLong => 36

def kind : SystemCause → String
  | notFound => "NotFound"
  | notADirectory => "NotADirectory"
  | isADirectory => "IsADirectory"
  | nameTooLong => "InvalidFilename"

def description : SystemCause → String
  | notFound => "No such file or directory"
  | notADirectory => "Not a directory"
  | isADirectory => "Is a directory"
  | nameTooLong => "File name too long"

end SystemCause

inductive Failure where
  | system (cause : SystemCause)
  /-- A text was wanted, and the bytes are not UTF-8. -/
  | notText
  /-- A sink took no more bytes although some were left. -/
  | sinkFull
  | reported (description : String)
  deriving DecidableEq

namespace Failure

def message : Failure → String
  | system cause => cause.description ++ " (os error " ++ Decimal.digits cause.number ++ ")"
  | notText => "stream did not contain valid UTF-8"
  | sinkFull => "failed to write whole buffer"
  | reported description => description

def render : Failure → String
  | system cause =>
    labelled "Os" [("code", Decimal.digits cause.number), ("kind", cause.kind),
      ("message", quote cause.description)]
  | notText => labelled "Error" [("kind", "InvalidData"), ("message", quote notText.message)]
  | sinkFull => labelled "Error" [("kind", "WriteZero"), ("message", quote sinkFull.message)]
  | reported description => labelled "Custom" [("kind", "Other"), ("error", quote description)]

end Failure

end PipeCodec
