import MetricAgent.Text.SortedPairs

/-!
# Trees of files

The files of a system are a tree of directories. A list of names leads from a
directory down to a place in it.
-/

namespace MetricAgent

/-- A file, a directory of named entries, or a device, which is neither. -/
inductive FileTree where
  | file (content : List UInt8)
  | directory (entries : List (String × FileTree))
  /-- It holds nothing, and takes everything or, if it is full, nothing. -/
  | device (full : Bool)

namespace FileTree

def empty : FileTree := .directory []

def get? : FileTree → List String → Option FileTree
  | t, [] => some t
  | .directory entries, name :: names => (entries.lookup name).bind fun t => t.get? names
  | _, _ :: _ => none

/-- Puts something at the end of a list of names, and makes the directories on
the way. -/
def put (new : FileTree) : List String → FileTree → FileTree
  | [], _ => new
  | name :: names, .directory entries =>
    .directory (SortedPairs.insert name (put new names ((entries.lookup name).getD empty)) entries)
  | name :: names, _ => .directory [(name, put new names empty)]

def withEach (names : List String) (t new : FileTree) : FileTree :=
  names.foldl (fun t name => put new [name] t) t

def devices : FileTree :=
  let takers := ["null", "random", "stderr", "stdin", "stdout", "urandom", "zero"]
  let t := empty.withEach takers (.device false)
  put (.device true) ["full"] (t.withEach ["pts", "shm"] empty)

/-- The directories that are at the root of every system. Only the one of the
devices holds something. -/
def standard : FileTree :=
  put devices ["dev"] (empty.withEach ["bin", "boot", "etc", "home", "lib", "media", "mnt", "opt",
    "proc", "root", "run", "sbin", "srv", "sys", "tmp", "usr", "var"] empty)

@[simp] theorem get?_nil (t : FileTree) : t.get? [] = some t := by cases t <;> rfl

@[simp] theorem put_nil (new t : FileTree) : put new [] t = new := rfl

end FileTree

end MetricAgent
