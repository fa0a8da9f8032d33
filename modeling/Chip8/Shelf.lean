/-!
# Shelves

A directory in memory that holds files and no directories, and the reading of files by path.
What lies above it is unknown: a path that leaves the shelf finds directories only by `..` and `/`.
-/

namespace Chip8

/-- Why a path cannot be read. -/
inductive Obstacle where
  | notFound
  | notDirectory
  | isDirectory
  | nameTooLong
  | nulByte
  deriving DecidableEq, Repr

def Obstacle.message : Obstacle → String
  | notFound => "No such file or directory (os error 2)"
  | notDirectory => "Not a directory (os error 20)"
  | isDirectory => "Is a directory (os error 21)"
  | nameTooLong => "File name too long (os error 36)"
  | nulByte => "file name contained an unexpected NUL byte"

structure Shelf where
  files : List (String × Array UInt8)

namespace Shelf

/-- Bytes in the longest name. -/
def nameLimit : Nat := 255
/-- Bytes in the longest path. -/
def pathLimit : Nat := 4095

inductive Place where
  | shelf
  /-- A directory that is not the shelf. -/
  | elsewhere
  | file (content : Array UInt8)

/-- From a place to what a path component names there; an empty one names the directory itself. -/
def walk (s : Shelf) : Place → String → Except Obstacle Place
  | .file _, _ => .error .notDirectory
  | p, "" | p, "." => .ok p
  | _, ".." => .ok .elsewhere
  | p, name =>
    if name.utf8ByteSize > nameLimit then .error .nameTooLong
    else match p, s.files.lookup name with
      | .shelf, some content => .ok (.file content)
      | _, _ => .error .notFound

def read (s : Shelf) (path : String) : Except Obstacle (Array UInt8) :=
  if path.toList.contains '\x00' then .error .nulByte
  else if path.utf8ByteSize > pathLimit then .error .nameTooLong
  else do
    let start := if path.toList.head? = some '/' then .elsewhere else .shelf
    match ← (path.toList.splitOn '/').foldlM (fun p c => s.walk p (String.ofList c)) start with
    | .file content => .ok content
    | _ => .error .isDirectory

end Shelf

end Chip8
