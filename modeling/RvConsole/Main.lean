import RvConsole.Command.Run

/-! The console as a program: the surroundings are gathered, the command runs, and what it leaves is
written. -/
namespace RvConsole.Program

/-- Everything that a stream still holds. -/
partial def readAll (stream : IO.FS.Stream) (read : ByteArray) : IO ByteArray := do
  let piece ← stream.read 65536
  if piece.isEmpty then return read else readAll stream (read ++ piece)

/-- A text of a program's surroundings. -/
def ofText (t : Text) : String := (String.fromUTF8? ⟨t.toArray⟩).getD ""

/-- The directory for settings that the environment names. -/
def configHome : IO (Option Text) := do
  match ← IO.getEnv "XDG_CONFIG_HOME" with
  | some home => if home.isEmpty then fromHome else return some (Text.ofString home)
  | none => fromHome
where
  fromHome : IO (Option Text) := do
    match ← IO.getEnv "HOME" with
    | some home =>
      if home.isEmpty then return none else return some (Path.join (Text.ofString home) ".config")
    | none => return none

/-- The store with what is at a path, if something is. -/
def load (files : Store) (path : Text) : IO Store := do
  if path = [] then return files
  let parts := files.lexical path
  try
    let content ← IO.FS.readBinFile (ofText path)
    return files.put parts content.toList
  catch _ => return files

/-- Writes the files that a run has changed. -/
def save (before after : Store) : IO Unit :=
  for (parts, content) in after.files do
    if before.files.lookup parts ≠ some content then
      let directory := ofText (Path.slash :: Text.join [Path.slash] parts.dropLast)
      let path := ofText (Path.slash :: Text.join [Path.slash] parts)
      try
        IO.FS.createDirAll directory
        IO.FS.writeBinFile path ⟨content.toArray⟩
      catch e => IO.eprintln s!"{path}: {e}"

end RvConsole.Program

open RvConsole in
def main (args : List String) : IO UInt32 := do
  let here := Path.parts (Text.ofString (← IO.currentDir).toString)
  let home ← Program.configHome
  let arguments := args.map Text.ofString
  let empty : Store := { here := here.filter (· ≠ []) }
  let settings ← Program.load empty (Command.settingsPath home arguments)
  let files ← (Command.otherPaths home arguments settings).foldlM Program.load settings
  let input ← Program.readAll (← IO.getStdin) .empty
  let done := Command.run
    { args := arguments, input := input.toList, files, configHome := home }
  (← IO.getStdout).write ⟨done.out.toArray⟩
  (← IO.getStderr).write ⟨done.err.toArray⟩
  Program.save files done.files
  return done.exitCode.toUInt32
