/-
  Files, as the programs of this library see them.

  A host reads a file by its path and writes a text to one; either may fail with a fault of the
  system.  The programs are written for any host in any monad, so that what they do is the same on
  the files of a real system and on a folder that is only data.
-/

namespace Acceptor

/-- Why a file could not be used. -/
inductive SystemFault
  | notFound
  | notDirectory
  | isDirectory
  | noDevice
  | permissionDenied
  | noSpace
  /-- A path, or a name in it, has too many bytes. -/
  | nameTooLong
  /-- A path holds the character U+0000, which ends a path for the system. -/
  | nulInPath
  /-- The bytes are no text. -/
  | invalidText
  /-- Anything else, in the words of the system. -/
  | other (text : String)
deriving DecidableEq

/-- The wording of a fault. -/
def SystemFault.text : SystemFault → String
  | notFound => "No such file or directory (os error 2)"
  | notDirectory => "Not a directory (os error 20)"
  | isDirectory => "Is a directory (os error 21)"
  | noDevice => "No such device or address (os error 6)"
  | permissionDenied => "Permission denied (os error 13)"
  | noSpace => "No space left on device (os error 28)"
  | nameTooLong => "File name too long (os error 36)"
  | nulInPath => "file name contained an unexpected NUL byte"
  | invalidText => "stream did not contain valid UTF-8"
  | other text => text

/-- The use of files. -/
structure Host (m : Type → Type) where
  /-- The bytes of a file. -/
  read : String → m (Except SystemFault ByteArray)
  /-- Gives a file a new content; the file may be new, its directory may not. -/
  write : String → String → m (Except SystemFault Unit)

/-- A host whose files are a value: a way to read from it, and one to write to it.  Either may
    leave another value behind. -/
def Host.ofStore {σ : Type} (read : σ → String → Except SystemFault (ByteArray × σ))
    (write : σ → String → String → Except SystemFault σ) : Host (StateM σ) where
  read path := fun s =>
    match read s path with
    | .ok (bytes, s') => (.ok bytes, s')
    | .error fault => (.error fault, s)
  write path text := fun s =>
    match write s path text with
    | .ok s' => (.ok (), s')
    | .error fault => (.error fault, s)

end Acceptor
