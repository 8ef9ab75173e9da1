import IrStream.CommandLine.Basic

/-!
# A directory of files

Commands can run on a directory that is only a list of named files.  It has no directories inside,
so a path names a file of it when it names one in the directory itself.
-/

set_option autoImplicit false

namespace IrStream

/-- Files by name, the latest first. -/
structure Directory where
  files : List (String × List UInt8)
  deriving DecidableEq

namespace Directory

/-- Reason for a path that leads nowhere. -/
def notFound : String := "No such file or directory (os error 2)"

/-- Reason for a file that is no text. -/
def notText : String := "stream did not contain valid UTF-8"

/-- The steps of a path, without those that stay where they are. -/
def steps (path : String) : List (List Char) :=
  (path.toList.splitBy fun a b => a != '/' && b != '/').filter fun step =>
    step ≠ ['/'] && step ≠ ['.']

/-- The name of a file of the directory itself, if the path is one. -/
def fileName? (path : String) : Option String :=
  if path.startsWith "/" then none
  else
    match steps path with
    | [name] => some (String.ofList name)
    | _ => none

/-- The text of a file. -/
def read (directory : Directory) (path : String) : Except String String :=
  match (fileName? path).bind fun name => directory.files.lookup name with
  | none => .error notFound
  | some bytes =>
    match String.fromUTF8? ⟨bytes.toArray⟩ with
    | some text => .ok text
    | none => .error notText

/-- The directory with a file written. -/
def write (directory : Directory) (path : String) (bytes : List UInt8) :
    Except String Directory :=
  match fileName? path with
  | none => .error notFound
  | some name => .ok ⟨(name, bytes) :: directory.files⟩

/-- Access to the files of a directory. -/
def access : FileAccess (StateM Directory) where
  read path := return (← get).read path
  write path bytes := do
    match (← get).write path bytes with
    | .error reason => return .error reason
    | .ok directory =>
      set directory
      return .ok ()

end Directory

end IrStream
