import InstanceState.CommandLine.Run

/-!
# The program

The command line on the file system of the machine.
-/

namespace InstanceState

/-- The failure of an operation of the machine. -/
def fileErrorOf : IO.Error → FileError
  | .noFileOrDirectory .. => .notFound
  | e => .other (toString e).toList

/-- Runs an operation of the machine and gives its failure as a value. -/
def attemptFile {α : Type} (operation : IO α) : IO (Except FileError α) := do
  try
    return .ok (← operation)
  catch e =>
    return .error (fileErrorOf e)

/-- The file system of the machine. -/
def machineFiles : FileSystem IO IO.FS.Handle where
  read path := attemptFile do
    return (← IO.FS.readBinFile (String.ofList path)).toList
  createDirAll path := attemptFile do
    if !path.isEmpty then IO.FS.createDirAll (String.ofList path)
  create path := attemptFile do
    IO.FS.Handle.mk (String.ofList path) .write
  write file chunk := do
    match ← attemptFile (file.write ⟨chunk.toArray⟩) with
    | .ok () => return (.ok (.whole chunk), file)
    | .error e => return (.error e, file)
  sync file := attemptFile file.flush
  rename source target := attemptFile do
    IO.FS.rename (String.ofList source) (String.ofList target)
  remove path := attemptFile do
    IO.FS.removeFile (String.ofList path)

end InstanceState

open InstanceState in
/-- Runs the program. -/
def main (arguments : List String) : IO UInt32 := do
  let outcome ← CommandLine.run machineFiles (arguments.map String.toList)
  IO.print (String.ofList outcome.output)
  for d in outcome.diagnostics do
    IO.eprintln ("reported " ++ String.ofList d.display)
  for message in outcome.error do
    IO.eprintln ("error: " ++ String.ofList message)
  return outcome.exitCode.toUInt32
