import Chip8.Setting

/-!
# Chip8.FileStore

Files by name, as a program in a directory sees them: the directory holds files
and no other directories, and a name may be a path.  `Setting.fileName` says
which values are names.
-/

namespace Chip8

/-- Why a file cannot be read. -/
inductive FileError
  | notFound (name : String)
  | isDirectory (name : String)
  | notDirectory (name : String)
  | nameTooLong (name : String)
  | nullByte
  /-- The number of a file that is already open is asked for, and it is
  negative. -/
  | negativeDescriptor
  /-- No open file has the number that is asked for. -/
  | badDescriptor
  /-- A value of this kind is no name. -/
  | notName (kind : String)
  deriving DecidableEq, Repr

def FileError.message : FileError → String
  | notFound name => "[Errno 2] No such file or directory: " ++ quoted name
  | isDirectory name => "[Errno 21] Is a directory: " ++ quoted name
  | notDirectory name => "[Errno 20] Not a directory: " ++ quoted name
  | nameTooLong name => "[Errno 36] File name too long: " ++ quoted name
  | nullByte => "embedded null byte"
  | negativeDescriptor => "negative file descriptor"
  | badDescriptor => "[Errno 9] Bad file descriptor"
  | notName kind => "expected str, bytes or os.PathLike object, not " ++ kind

/-- Whether a number may be that of an open file: it fits into 32 bits with a
sign. -/
def isDescriptor (n : Int) : Bool := -0x80000000 ≤ n && n < 0x80000000

/-- The name of the file that a value asks for.  A number asks for a file that
is already open, and there is none. -/
def Setting.fileName (s : Setting) : Except FileError String :=
  match s with
  | .text name => .ok name
  | s =>
    match s.number? with
    | none => .error (.notName s.kind)
    | some n =>
      if !isDescriptor n then .error (.notName s.kind)
      else if n < 0 then .error .negativeDescriptor
      else .error .badDescriptor

/-- The files of a directory, each with its name. -/
structure FileStore where
  files : List (String × List UInt8)

namespace FileStore

/-- The most bytes that a part of a path may have. -/
def maxPart : Nat := 255

/-- The most bytes that a path may have. -/
def maxPath : Nat := 4095

/-- Whether a path goes on from a directory to that directory itself. -/
def staysHere (part : List Char) : Bool := part == [] || part == ['.']

/-- Whether a path goes on to the directory above. -/
def goesUp (part : List Char) : Bool := part == ['.', '.']

/-- What the parts of a path lead to.  `home` says whether they start in the
directory of the files; nothing is known to be anywhere else. -/
def walk (store : FileStore) (name : String) (home : Bool) :
    List (List Char) → Except FileError (List UInt8)
  | [] => .error (.isDirectory name)
  | part :: rest =>
    if staysHere part then walk store name home rest
    else if goesUp part then walk store name false rest
    else if maxPart < (String.ofList part).utf8ByteSize then .error (.nameTooLong name)
    else
      match if home then store.files.lookup (String.ofList part) else none with
      | none => .error (.notFound name)
      | some bytes => if rest.isEmpty then .ok bytes else .error (.notDirectory name)

/-- The content of the file with a given name. -/
def read (store : FileStore) (name : String) : Except FileError (List UInt8) :=
  if name.toList.contains '\x00' then .error .nullByte
  else if name.isEmpty then .error (.notFound name)
  else if maxPath < name.utf8ByteSize then .error (.nameTooLong name)
  else walk store name (name.toList.head? != some '/') (name.toList.splitOn '/')

end FileStore

end Chip8
