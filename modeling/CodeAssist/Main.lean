import CodeAssist.CommandLine.Program

/-!
# The executable

Reads the files that the arguments name, and prints what the program answers. No parser is linked,
so analyses are skipped, and every byte is a token where an encoder is asked for.
-/

namespace CodeAssist

/-- The paths of the files that an invocation reads. -/
def CommandLine.Invocation.paths (invocation : CommandLine.Invocation) : List String :=
  let source := match invocation.command with
    | .language .. => []
    | .prompt file .. | .complete file .. | .symbols file => [file]
  invocation.config.toList ++ source

/-- Places what is read at a path into a file system. What cannot be read stands there as bytes
that are no text, unless it is missing. -/
def readInto (files : FileSystem) (path : String) : IO FileSystem := do
  let content : Option Content ← try
      let data ← IO.FS.readBinFile path
      pure (some (.ofBytes data))
    catch
      | .noFileOrDirectory .. => pure none
      | _ => pure (some (.bytes .empty))
  match content with
  | none => return files
  | some content =>
    let (files, _) := files.createDirectories ((FilePath.parent? path).getD "")
    return (files.write path content).1

/-- Answers some arguments. -/
def runProgram (arguments : List String) : IO CommandLine.Output := do
  let paths := match CommandLine.Invocation.ofArguments arguments with
    | .ok invocation => invocation.paths
    | .error _ => []
  let files ← paths.foldlM readInto FileSystem.empty
  let environment : CommandLine.Environment := {
    files
    parser := fun _ _ => none
    encoders := fun _ => .perByte }
  return environment.answer arguments

end CodeAssist

def main (arguments : List String) : IO UInt32 := do
  let output ← CodeAssist.runProgram arguments
  IO.print output.out
  IO.eprint output.err
  return output.exitCode
