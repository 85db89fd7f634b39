/-
  A program that ran in a folder, as it is seen from outside.
-/
import Acceptor.Files.Folder
import Acceptor.Program.Outcome

namespace Acceptor.Program

/-- What can be seen of a program that ran in a folder: its exit code, its two outputs, and the
    files that it made or changed. -/
structure Session where
  exitCode : UInt32
  output : ByteArray
  errorOutput : ByteArray
  changes : List (String × ByteArray)

/-- Runs a program in a folder.  A stream that was written to by its path holds that text before
    what the program leaves behind, for a program prints when it is done with its files. -/
def observe (program : StateM Folder Outcome) (folder : Folder) : Session :=
  let (outcome, after) := program.run folder
  { exitCode := outcome.exitCode
    output := after.bytesAt .output ++ outcome.output.toUTF8
    errorOutput := after.bytesAt .errorOutput ++ outcome.errorOutput.toUTF8
    changes := after.changesSince folder }

end Acceptor.Program
