/-!
# Settings

How long an encoded record may be, and how integers are read.  The standard settings allow 4096
bytes and read integers leniently.
-/

set_option autoImplicit false

namespace PipeCodec

/-- Which reading of decimal numbers applies to integer fields. -/
inductive IntegerRule where
  | lenient
  | exact
  deriving DecidableEq

structure Settings where
  capacity : Nat
  integers : IntegerRule
  deriving DecidableEq

namespace Settings

def standard : Settings :=
  ⟨4096, .lenient⟩

def withCapacity (settings : Settings) (capacity : Nat) : Settings :=
  { settings with capacity }

def withExactIntegers (settings : Settings) : Settings :=
  { settings with integers := .exact }

end Settings

end PipeCodec
