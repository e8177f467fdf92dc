import Lexicon.CommandLine.Run
import Std.Time.DateTime.Timestamp

/-!
# The program

The outer layer of the command line: it takes a picture of the files that arguments can lead to,
runs the command in it, writes the files that the command wrote, and prints what it printed.
-/

namespace Lexicon.CommandLine

/-- The text of a file; a file that holds no text counts as empty. -/
def readEntry (entry : IO.FS.DirEntry) : IO String := do
  return (String.fromUTF8? (← IO.FS.readBinFile entry.path)).getD ""

/-- A picture of a file or directory. Only files that documents may be in are read, and those with
the given names; links to directories are not followed, and the first argument bounds the depth. -/
def picture : Nat → List String → IO.FS.DirEntry → IO FileTree
  | 0, _, _ => return .empty
  | depth + 1, names, entry => do
    match (← entry.path.symlinkMetadata).type with
    | .dir =>
      let entries ← entry.path.readDir
      return .directory
        (← entries.toList.mapM fun e => return (e.fileName, ← picture depth names e))
    | _ =>
      if entry.fileName.endsWith ".json" || names.contains entry.fileName then
        return .file (← readEntry entry)
      else return .file ""

/-- The greatest depth of a picture. -/
def maxDepth : Nat := 64

/-- The names that lead from the root to where a path leads, up to the first part that is a
pattern. -/
def placeOf (directory : List String) (path : FilePath) : List String :=
  (path.parts.takeWhile (!Glob.isPattern ·)).foldl
    (fun names part => if part = ".." then names.dropLast else names ++ [part])
    (if path.root = "" then directory else [])

/-- A tree with a picture of what lies at a place, if anything does. -/
def addPlace (names : List String) (tree : FileTree) (place : List String) : IO FileTree := do
  if place.isEmpty || (tree.get? place).isSome then return tree
  let entry : IO.FS.DirEntry := ⟨"/" ++ "/".intercalate place.dropLast, place.getLastD ""⟩
  if ← entry.path.pathExists then
    return tree.set place (← picture maxDepth names entry)
  else return tree

/-- The files that arguments and settings can lead to. -/
def pictureFor (args settings : List String) : IO FileSystem := do
  let directory := FilePath.partsOf (← IO.currentDir).toString.toList
  let paths := (args ++ settings).map FilePath.ofString
  let names := paths.map fun p => p.parts.getLastD ""
  let places := directory :: paths.map (placeOf directory)
  return { tree := ← places.foldlM (addPlace names) .empty, directory }

/-- Writes the files that differ from those of an earlier picture. -/
def writeChanges (before after : FileTree) : IO Unit := do
  let known := before.files
  for (names, contents) in after.files do
    unless known.contains (names, contents) do
      IO.FS.createDirAll ("/" ++ "/".intercalate names.dropLast)
      IO.FS.writeFile ("/" ++ "/".intercalate names) contents

/-- The variables of the environment that hold settings. -/
def readEnvironment : IO (Entries String) := do
  let names := [Config.pathVariable, Config.strictVariable, Config.bundledVariable]
  let found ← names.mapM fun name => return (← IO.getEnv name).map (name, ·)
  return found.filterMap id

/-- A new timestamp identifier. -/
def newTid : IO Tid := do
  let time := (← Std.Time.Timestamp.now).toNanosecondsSinceUnixEpoch.toInt
  let clock ← IO.rand 0 1023
  return ((Tid.ofParts (time / 1000) clock).toOption).getD ⟨0, 0, by decide, by decide⟩

/-- A number of milliseconds as seconds. -/
def secondsText (milliseconds : Nat) : String :=
  toString (milliseconds / 1000) ++ "." ++ Calendar.padded 3 (milliseconds % 1000) ++ "s"

/-- Whether an event is shown where progress is reported. -/
def isProgress (event : Event) : Bool :=
  event.level != .debug

/-- Runs the program. -/
def runMain (args : List String) : IO UInt32 := do
  let environment ← readEnvironment
  let settings := (Entries.find? environment Config.pathVariable).toList
  let files ← pictureFor args (settings.flatMap (·.splitOn ":"))
  let input ← if args.contains "-" then (← IO.getStdin).readToEnd else pure ""
  let start : Console :=
    { workspace := { surroundings := { files, environment } }, input, fresh := ← newTid }
  let began ← IO.monoMsNow
  let (ending, console) := (run args).run start
  let elapsed := secondsText ((← IO.monoMsNow) - began)
  writeChanges files.tree console.workspace.surroundings.files.tree
  if console.verbose then
    for event in console.workspace.log.filter isProgress do
      IO.eprintln (event.level.name.toUpper ++ " " ++ event.message elapsed)
  IO.print console.output
  IO.eprint console.errors
  match ending with
  | .ok (.finished code) | .ok (.stopped code) => return code.toUInt32
  | .error fault =>
    IO.eprintln fault.message
    return 1

end Lexicon.CommandLine

/-- The program. -/
def main (args : List String) : IO UInt32 :=
  Lexicon.CommandLine.runMain args
