import PipeCodec.Text.Quoted

/-!
# Names with parts

How a value with a name and parts is laid out on one line: the name applied to its one part, or the
name with labelled parts in braces.
-/

set_option autoImplicit false

namespace PipeCodec

/-- A name applied to one part, as in `Name(part)`. -/
def applied (name part : String) : String :=
  name ++ "(" ++ part ++ ")"

/-- Labelled parts: a blank before the first, a comma and a blank before each later one. -/
def parts : List (String × String) → String
  | [] => ""
  | (label, part) :: rest =>
    " " ++ label ++ ": " ++ part ++
      String.join (rest.map fun entry => ", " ++ entry.1 ++ ": " ++ entry.2)

/-- A name with its labelled parts in braces, also when there are none. -/
def labelled (name : String) (entries : List (String × String)) : String :=
  name ++ " \x7b" ++ parts entries ++ " \x7d"

/-- A text that may be missing, quoted inside `Some` when it is there. -/
def quoteOption : Option String → String
  | none => "None"
  | some text => applied "Some" (quote text)

end PipeCodec
