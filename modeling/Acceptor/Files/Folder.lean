/-
  A folder as data: files and directories in and around a working directory.

  Of what lies outside the working directory only little is known: the directories below the root
  of every system, the three standard streams, which are files too, and the files `/dev/null`,
  `/dev/full` and `/dev/tty`.  Whatever else was not put in is not found.

  1. **Files** — a file keeps what was written to it last, but a few files of the system are kept
     in another way.

  2. **Looking up** — each segment of a path but the last must lead to a directory.  A name that is
     too long fails when it is looked up, a path that is too long before that.

  3. **Reading and writing** — a path that ends with a slash can only mean a directory.

  4. **A folder from its files** — every directory on the way to a file is there, even if a `..`
     leaves it again.
-/
import Acceptor.Files.Place

namespace Acceptor

/-! ## Files -/

/-- How a file is kept. -/
inductive FileKind
  /-- It keeps what was written to it last. -/
  | regular
  /-- It keeps everything that was written to it until it is read, as a standard stream does. -/
  | pipe
  /-- It keeps nothing. -/
  | sink
  /-- It takes nothing. -/
  | full
  /-- There is no device behind it, so that it can be neither read nor written. -/
  | detached
deriving DecidableEq

/-- A file: the bytes that can be read from it, and how it is kept. -/
structure File where
  bytes : ByteArray
  kind : FileKind := .regular

instance : DecidableEq File := fun a b =>
  have : Decidable (a.bytes = b.bytes) := ByteArray.decEq a.bytes b.bytes
  decidable_of_iff (a.bytes = b.bytes ∧ a.kind = b.kind) (by cases a; cases b; simp)

namespace File

/-- The bytes of a file, and the file after they were read. -/
def reading (file : File) : Except SystemFault (ByteArray × File) :=
  match file.kind with
  | .pipe => .ok (file.bytes, { file with bytes := .empty })
  | .detached => .error .noDevice
  | _ => .ok (file.bytes, file)

/-- The file after bytes were written to it. -/
def writing (file : File) (bytes : ByteArray) : Except SystemFault File :=
  match file.kind with
  | .regular => .ok { file with bytes }
  | .pipe => .ok { file with bytes := file.bytes ++ bytes }
  | .sink => .ok file
  | .full => .error .noSpace
  | .detached => .error .noDevice

end File

/-! ## Looking up -/

/-- What there is at a place. -/
inductive Content
  | file (file : File)
  | directory
  | nothing
deriving DecidableEq

/-- Files and directories with their places. -/
structure Folder where
  files : List (Place × File)
  directories : List Place
deriving DecidableEq

namespace Folder

/-- The file at a place. -/
def file? (f : Folder) (p : Place) : Option File := f.files.lookup p

/-- The bytes at a place; none if there is no file. -/
def bytesAt (f : Folder) (p : Place) : ByteArray := (f.file? p).elim .empty File.bytes

/-- What there is at a place. -/
def contentAt (f : Folder) (p : Place) : Content :=
  match f.file? p with
  | some file => .file file
  | none => if f.directories.contains p then .directory else .nothing

/-- A place in which names can be looked up. -/
def requireDirectory (f : Folder) (p : Place) : Except SystemFault Unit :=
  match f.contentAt p with
  | .directory => .ok ()
  | .file _ => .error .notDirectory
  | .nothing => .error .notFound

/-- The place that a segment leads to, if it can be taken. -/
def enter (f : Folder) (p : Place) (segment : String) : Except SystemFault Place := do
  f.requireDirectory p
  if segment.utf8ByteSize > Place.nameLimit then .error .nameTooLong else .ok (p.into segment)

/-- The place that segments lead to from the origin of a path. -/
def walk (f : Folder) (path : String) (segments : List String) : Except SystemFault Place :=
  segments.foldlM f.enter (Place.origin path)

/-! ## Reading and writing -/

/-- The folder with a file put into it, in place of an old one. -/
def put (f : Folder) (p : Place) (file : File) : Folder :=
  if (f.file? p).isSome then
    { f with files := f.files.map fun (q, old) => (q, if q = p then file else old) }
  else { f with files := f.files ++ [(p, file)] }

/-- The bytes of the file at a place, and the folder after they were read. -/
def take (f : Folder) (p : Place) : Except SystemFault (ByteArray × Folder) :=
  match f.contentAt p with
  | .file file => do
    let (bytes, file) ← file.reading
    return (bytes, f.put p file)
  | .directory => .error .isDirectory
  | .nothing => .error .notFound

/-- The bytes of the file that a path names, and the folder after they were read. -/
def read (f : Folder) (path : String) : Except SystemFault (ByteArray × Folder) := do
  Place.checkPath path
  f.take (← f.walk path (Place.segments path))

/-- Why no file can be made at a place: what is below `/proc` and `/sys` is made by the system. -/
def refusal? (p : Place) : Option SystemFault :=
  match p.names with
  | "proc" :: _ => some .notFound
  | "sys" :: _ => some .permissionDenied
  | _ => none

/-- The file at a place that is to be written to, new if there is none. -/
def target (f : Folder) (p : Place) : Except SystemFault File :=
  match f.contentAt p, refusal? p with
  | .file file, _ => .ok file
  | .directory, _ => .error .isDirectory
  | .nothing, some fault => .error fault
  | .nothing, none => .ok { bytes := .empty }

/-- The folder after a text was written to the file that a path names. -/
def write (f : Folder) (path : String) (text : String) : Except SystemFault Folder := do
  Place.checkPath path
  let all := Place.segments path
  let named := (all.reverse.dropWhile (· = "")).reverse
  match named.getLast? with
  | none => .error .isDirectory
  | some last =>
    let parent ← f.walk path named.dropLast
    f.requireDirectory parent
    -- a name behind which a slash stands is not even looked up
    if named ≠ all || last = "." || last = ".." then .error .isDirectory
    else
      let place ← f.enter parent last
      let file ← (← f.target place).writing text.toUTF8
      return f.put place file

/-- The folder as a host. -/
def host : Host (StateM Folder) := .ofStore read write

/-- What is left of the standard input; nothing is left after that. -/
def takeInput : StateM Folder ByteArray := fun f =>
  match f.take .input with
  | .ok result => result
  | .error _ => (.empty, f)

/-! ## A folder from its files -/

/-- The names of the directories that every system has below its root. -/
def standardNames : List String :=
  ["bin", "boot", "dev", "etc", "home", "lib", "media", "mnt", "opt", "proc", "root", "run", "sbin",
   "srv", "sys", "tmp", "usr", "var"]

/-- The folder without files in the working directory, and with this standard input. -/
def empty (input : ByteArray) : Folder where
  files :=
    [(.null, ⟨.empty, .sink⟩), (.full, ⟨.empty, .full⟩), (.input, ⟨input, .pipe⟩),
     (.output, ⟨.empty, .pipe⟩), (.errorOutput, ⟨.empty, .pipe⟩), (.terminal, ⟨.empty, .detached⟩)]
  directories :=
    [.root, .here, .process, .opened] ++ standardNames.map fun name => ⟨[name]⟩

/-- The folder with a directory in it. -/
def addDirectory (f : Folder) (p : Place) : Folder :=
  if f.directories.contains p then f else { f with directories := f.directories ++ [p] }

/-- The folder with a file at a path, and with every directory that the path goes through. -/
def addFile (f : Folder) (path : String) (bytes : ByteArray) : Folder :=
  let all := Place.segments path
  let passed := all.dropLast.scanl Place.into (Place.origin path)
  (passed.foldl addDirectory f).put (all.foldl Place.into (Place.origin path)) { bytes }

/-- The folder that holds files with the given paths, and a standard input; a later file replaces
    an earlier one. -/
def ofFiles (files : List (String × ByteArray)) (input : ByteArray) : Folder :=
  files.foldl (fun f (path, bytes) => f.addFile path bytes) (empty input)

/-- The names that lead to a place from the working directory, if it lies below it. -/
def localNames? (p : Place) : Option (List String) :=
  if Place.here.names.isPrefixOf p.names then some (p.names.drop Place.here.names.length) else none

/-- The files below the working directory that an earlier folder did not have, or had with other
    bytes. -/
def changesSince (f before : Folder) : List (String × ByteArray) :=
  f.files.filterMap fun (p, file) => do
    let names ← localNames? p
    if before.file? p = some file then none else some ("/".intercalate names, file.bytes)

end Folder

end Acceptor
