import AccessChecks.Plugin.Run

/-!
# The program

Reads one request from standard input and writes the response to standard output.
Runtime paths are paths of names here.
A request that has no response is a failure, which is told on standard error.
-/

namespace AccessChecks

partial def readToEnd (input : IO.FS.Stream) (taken : ByteArray) :
    IO ByteArray := do
  let more ← input.read 65536
  if more.isEmpty then return taken else readToEnd input (taken ++ more)

end AccessChecks

open AccessChecks in
def main : IO UInt32 := do
  let input ← readToEnd (← IO.getStdin) ByteArray.empty
  match Plugin.run RuntimeReader.names input.data.toList with
  | .ok output =>
      let stream ← IO.getStdout
      stream.write ⟨output.toArray⟩
      stream.flush
      return 0
  | .error failure =>
      (← IO.getStderr).putStrLn ("Error: " ++ failure.message)
      return 1
