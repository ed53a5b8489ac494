import SentenceEngine.CommandLine.Run

/-!
# The program

Reads the files that a request names, carries it out, and prints what comes of it.
-/

open SentenceEngine SentenceEngine.CommandLine

/-- The content of a file, or why there is none. -/
def readContent (path : String) : IO FileContent := do
  try
    return .ok (← IO.FS.readFile path)
  catch
    | .noFileOrDirectory .. => return .error .notFound
    | .inappropriateType _ code _ =>
      return .error (if code = 20 then .notADirectory else .isADirectory)
    | .invalidArgument _ 36 _ => return .error .nameTooLong
    | problem => return .error (.other (toString problem))

/-- Carries out the words of the command line. -/
def main (words : List String) : IO UInt32 := do
  let transcript ← match Request.read words with
    | .error halt => pure (Transcript.ofHalt halt)
    | .ok request =>
      let contents ← request.files.mapM fun path => return (path, ← readContent path)
      let read (path : String) : FileContent := (contents.lookup path).getD (.error .notFound)
      pure (request.perform read toString)
  IO.print transcript.stdout
  IO.eprint transcript.stderr
  return transcript.exit.toUInt32
