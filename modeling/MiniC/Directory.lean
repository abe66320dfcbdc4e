/-!
# `MiniC.Directory` — the files of a directory and the paths to them

A path leads to a file, or to a directory, or to nothing.  Whether something is there at all and
whether it can be read are two questions: a directory is there, but reading it fails, and the
operating system says why.

A directory holds files under names and nothing else.  A path is followed component by component
from the directory, or from the root if it begins with a slash.  A dot and an empty component stay
where they are, two dots lead to the directory around, and nothing is behind a file, not even a
slash.  The directories around hold nothing else that is known.

## Contents
- `OsError`: why something cannot be read.  `Reached`: what a path leads to.
- `Directory`, `Directory.reach`.
-/

namespace MiniC

/-! ## What a path leads to -/

/-- Why something cannot be read, as the operating system says it. -/
structure OsError where
  code : Nat
  kind : String
  message : String
deriving DecidableEq, Repr

namespace OsError

def isDirectory : OsError := ⟨21, "IsADirectory", "Is a directory"⟩

def permissionDenied : OsError := ⟨13, "PermissionDenied", "Permission denied"⟩

/-- The error in a message. -/
def describe (error : OsError) : String :=
  s!"Os \x7b code: {error.code}, kind: {error.kind}, message: \"{error.message}\" \x7d"

end OsError

/-- What a path leads to. -/
inductive Reached
  | nothing
  /-- Something that cannot be read. -/
  | unreadable (error : OsError)
  | file (bytes : ByteArray)

/-! ## Paths in a directory -/

/-- Files under their names, each name once and without a slash. -/
structure Directory where
  files : List (String × ByteArray)

namespace Directory

/-- Where one is on the way along a path. -/
inductive Place
  | inside
  /-- In a directory around, the root among them. -/
  | outside
  | atFile (bytes : ByteArray)

/-- Where a component of a path leads to, if there is something. -/
def step (directory : Directory) (component : String) : Place → Option Place
  | .inside =>
    if component ∈ ["", "."] then some .inside
    else if component = ".." then some .outside
    else (directory.files.lookup component).map .atFile
  | .outside => if component ∈ ["", ".", ".."] then some .outside else none
  | .atFile _ => none

/-- Follow the components of a path. -/
def follow (directory : Directory) (place : Place) (components : List String) : Option Place :=
  components.foldlM (fun place component => directory.step component place) place

/-- What is at a place. -/
def Place.reached : Place → Reached
  | inside | outside => .unreadable .isDirectory
  | atFile bytes => .file bytes

/-- What a path leads to.  A path has at least one byte and fewer than 4096. -/
def reach (directory : Directory) (path : String) : Reached :=
  if path = "" ∨ 4096 ≤ path.utf8ByteSize then .nothing
  else
    let start := if path.startsWith "/" then Place.outside else .inside
    ((directory.follow start (path.splitOn "/")).map Place.reached).getD .nothing

end Directory

end MiniC
