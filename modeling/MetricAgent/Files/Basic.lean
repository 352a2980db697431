import MetricAgent.Files.Tree
import MetricAgent.Text.Bytes

/-!
# Files and their paths

A path names a place among the files. It begins at the root or in the directory
where the agent is. Its parts lead down into directories, and `..` leads up
again. Nothing can be below a file, not even the empty part behind a slash at
the end of a path. Neither a path nor a part of it can have any length.

A path to append to need not lead to anything yet. But it must not read like
the path of a directory, whatever it leads to.
-/

namespace MetricAgent

inductive FileError where
  | notFound
  | notDirectory
  | isDirectory
  | noSpace
  | nameTooLong
  | nulInName
deriving DecidableEq, Repr

def FileError.message : FileError → String
  | .notFound => "No such file or directory (os error 2)"
  | .notDirectory => "Not a directory (os error 20)"
  | .isDirectory => "Is a directory (os error 21)"
  | .noSpace => "No space left on device (os error 28)"
  | .nameTooLong => "File name too long (os error 36)"
  | .nulInName => "file name contained an unexpected NUL byte"

/-- The files that an agent can see, and the directory in which it is. -/
structure Files where
  root : FileTree
  /-- The names that lead to the directory. -/
  directory : List String

namespace Files

/-- The parts of a path between its slashes, where `part` is the one that is
being read, in reverse. -/
def pathParts (part : List Char) : List Char → List String
  | [] => [String.ofList part.reverse]
  | c :: rest =>
    if c = '/' then String.ofList part.reverse :: pathParts [] rest else pathParts (c :: part) rest

def start (f : Files) (path : String) : List String :=
  if path.toList.head? = some '/' then [] else f.directory

/-- The bytes that a path may have, with one that ends it. -/
def pathLimit : Nat := 4096

def partLimit : Nat := 255

def checkPath (path : String) : Except FileError Unit :=
  if path.toList.contains '\x00' then .error .nulInName
  else if path = "" then .error .notFound
  else if pathLimit ≤ (Text.bytes path).length then .error .nameTooLong
  else .ok ()

def checkPart (part : String) : Except FileError Unit :=
  if partLimit < (Text.bytes part).length then .error .nameTooLong else .ok ()

def entries (f : Files) (place : List String) : Except FileError (List (String × FileTree)) :=
  match f.root.get? place with
  | some (.directory entries) => .ok entries
  | _ => .error .notDirectory

/-- Follows the parts of a path from a place, which is given by its names in
reverse, and gives the names of the place where they lead. -/
def follow (f : Files) : List String → List String → Except FileError (List String)
  | place, [] => .ok place.reverse
  | place, part :: parts =>
    match f.entries place.reverse with
    | .error e => .error e
    | .ok entries =>
      if part = "" ∨ part = "." then f.follow place parts
      else if part = ".." then f.follow place.tail parts
      else
        match checkPart part with
        | .error e => .error e
        | .ok () =>
          if (entries.lookup part).isSome then f.follow (part :: place) parts
          else .error .notFound

def resolve (f : Files) (path : String) : Except FileError FileTree := do
  checkPath path
  let place ← f.follow (f.start path).reverse (pathParts [] path.toList)
  match f.root.get? place with
  | some t => return t
  | none => throw .notFound

/-- The place that a path to append to leads to, and what is there. An empty
file is what is not there yet. -/
def appendPlace (f : Files) (path : String) : Except FileError (List String × FileTree) := do
  checkPath path
  let parts := (pathParts [] path.toList).filter (· ≠ "")
  let place ← f.follow (f.start path).reverse parts.dropLast
  let entries ← f.entries place
  let name := parts.getLastD "."
  if name = "." ∨ name = ".." ∨ path.toList.getLast? = some '/' then throw .isDirectory
  checkPart name
  match entries.lookup name with
  | some (.directory _) => throw .isDirectory
  | found => return (place ++ [name], found.getD (.file []))

/-- Appends bytes to a file, which is made if it is not there. A device stays
what it is. -/
def append (f : Files) (path : String) (bytes : List UInt8) : Except FileError Files := do
  let (place, found) ← f.appendPlace path
  match found with
  | .file content => return { f with root := FileTree.put (.file (content ++ bytes)) place f.root }
  | .device full => if full ∧ bytes ≠ [] then throw .noSpace else return f
  | .directory _ => throw .isDirectory

def entryPath (path name : String) : String :=
  if path.toList.getLast? = some '/' then path ++ name else path ++ "/" ++ name

def readText? (f : Files) (path : String) : Option String :=
  match f.resolve path with
  | .ok (.file content) => Text.ofBytes? content
  | .ok (.device _) => some ""
  | _ => none

@[simp] theorem follow_nil (f : Files) (place : List String) :
    f.follow place [] = .ok place.reverse := by rw [follow]

end Files

end MetricAgent
