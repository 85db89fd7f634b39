/-
  Places in a system of files.

  A place is the list of the names that lead to it from the root of the system.  Of the working
  directory nothing is known but that it stands in `/tmp`: its own name is one that no path can
  spell.

  1. **Links** — a few places of the system have two names.  A link leads on to the place that it
     stands for, and `..` goes up from there.

  2. **Steps** — a segment of a path leads from one place to another.  Empty segments and `.` stay
     where they are, `..` leads up, any other segment is a name.

  3. **Paths** — a path is cut into segments at its slashes, and one that begins with a slash sets
     out from the root.
-/
import Acceptor.Files.Host

namespace Acceptor

/-- Where something stands: the names that lead to it from the root of the system. -/
structure Place where
  names : List String
deriving DecidableEq

namespace Place

/-- The root of the system. -/
def root : Place := ⟨[]⟩

/-- The working directory.  No segment leads to the empty name. -/
def here : Place := ⟨["tmp", ""]⟩

/-- The file that is always empty. -/
def null : Place := ⟨["dev", "null"]⟩

/-- The file that is always full. -/
def full : Place := ⟨["dev", "full"]⟩

/-- The terminal that a program was started from. -/
def terminal : Place := ⟨["dev", "tty"]⟩

/-- The directory in which a program finds itself. -/
def process : Place := ⟨["proc", "self"]⟩

/-- The directory of the files that a program has open. -/
def opened : Place := ⟨process.names ++ ["fd"]⟩

/-- The standard input. -/
def input : Place := ⟨opened.names ++ ["0"]⟩

/-- The standard output. -/
def output : Place := ⟨opened.names ++ ["1"]⟩

/-- The standard error. -/
def errorOutput : Place := ⟨opened.names ++ ["2"]⟩

/-! ## Links -/

/-- The links of the system. -/
def links : List (Place × Place) :=
  [(⟨["dev", "fd"]⟩, opened), (⟨["dev", "stdin"]⟩, input), (⟨["dev", "stdout"]⟩, output),
   (⟨["dev", "stderr"]⟩, errorOutput), (⟨process.names ++ ["cwd"]⟩, here),
   (⟨process.names ++ ["root"]⟩, root)]

/-- The place that a link stands for; any other place stands for itself. -/
def follow (p : Place) : Place := (links.lookup p).getD p

/-! ## Steps -/

/-- The place a level up; the root has nothing above it. -/
def parent (p : Place) : Place := ⟨p.names.dropLast⟩

/-- The place that a segment leads to. -/
def into (p : Place) (segment : String) : Place :=
  if segment = "" || segment = "." then p
  else if segment = ".." then p.parent
  else follow ⟨p.names ++ [segment]⟩

/-! ## Paths -/

/-- The segments of a path. -/
def segments (path : String) : List String := (path.toList.splitOn '/').map String.ofList

/-- Where a path sets out. -/
def origin (path : String) : Place := if path.toList.head? = some '/' then root else here

/-- How many bytes a name may have. -/
def nameLimit : Nat := 255

/-- How many bytes a path may have. -/
def pathLimit : Nat := 4095

/-- Whether a path can be looked up at all. -/
def checkPath (path : String) : Except SystemFault Unit :=
  if path.toList.contains '\x00' then .error .nulInPath
  else if path = "" then .error .notFound
  else if path.utf8ByteSize > pathLimit then .error .nameTooLong
  else .ok ()

end Place

end Acceptor
