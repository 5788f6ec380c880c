import PipeCodec.Failure

/-!
# Directories

A directory of plain files, and what reading a path from it gives.  A path is a row of names divided
by slashes.  Empty names and single dots lead nowhere, two dots lead to the directory above, and the
topmost directory is above itself; so a path of these alone names a directory.  A plain file has
nothing below it.  Outside the directory no file is known, but a name that is too long is still
refused for that.
-/

set_option autoImplicit false

namespace PipeCodec

structure Directory where
  files : List (Bytes × Bytes)

namespace Directory

def slash : UInt8 := 0x2F

def dot : UInt8 := 0x2E

/-- The longest name and the longest path, in bytes. -/
def longestName : Nat := 255

def longestPath : Nat := 4095

def get? (directory : Directory) (name : Bytes) : Option Bytes :=
  (directory.files.find? (·.1 = name)).map (·.2)

/-- The names of a path, in order. -/
def names (path : Bytes) : List Bytes :=
  path.splitOn slash

/-- A name that leads to where one stands. -/
def staysPut (name : Bytes) : Bool :=
  name = [] || name = [dot]

/-- Where a path has led so far: to the directory itself or out of it. -/
inductive Place where
  | inside
  | outside
  deriving DecidableEq

/-- The contents of the file of that name at a place. -/
def fileAt (directory : Directory) (name : Bytes) : Place → Option Bytes
  | .inside => directory.get? name
  | .outside => none

/-- Follows names from a place; the first name that is no directory decides. -/
def follow (directory : Directory) (place : Place) : List Bytes → Except SystemCause Bytes
  | [] => .error .isADirectory
  | name :: rest =>
    if staysPut name then follow directory place rest
    else if name = [dot, dot] then follow directory .outside rest
    else
      match directory.fileAt name place with
      | some contents => if rest = [] then .ok contents else .error .notADirectory
      | none => .error (if longestName < name.length then .nameTooLong else .notFound)

/-- Where a path begins: a leading slash takes it to the topmost directory. -/
def startOf (path : Bytes) : Place :=
  if path.head? = some slash then .outside else .inside

def read (directory : Directory) (path : Bytes) : Except Failure Bytes :=
  if path = [] then .error (.system .notFound)
  else if longestPath < path.length then .error (.system .nameTooLong)
  else
    match directory.follow (startOf path) (names path) with
    | .ok contents => .ok contents
    | .error cause => .error (.system cause)

end Directory

end PipeCodec
