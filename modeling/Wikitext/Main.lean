/-
  Wikitext/Main.lean
  ==================
  **The command** — collects what a run can see, runs it, and makes visible what came of
  it.
-/
import Wikitext.CommandLine.Run

namespace Wikitext.Main

open Wikitext.CommandLine

/-- What a place is: a file with its content, a folder, a device, or nothing. -/
def lookUp (place : Place) : IO Directory := do
  let path := String.ofList place.path
  try
    let real ← IO.FS.realPath path
    match (← real.metadata).type with
    | .dir => return { Directory.empty with folders := [place] }
    | .file =>
      let bytes ← IO.FS.readBinFile path
      return { Directory.empty with files := [(place, bytes.toList)] }
    | _ => return { Directory.empty with devices := [(place, .sink)] }
  catch _ => return Directory.empty

def placesOn (path : Text) : List Place :=
  (List.range ((Path.segments path).length + 1)).map fun n =>
    ((Path.segments path).take n).foldl Place.enter (Path.start path)

/-- The part of the file system that a command line mentions. -/
def collect (a : Arguments) : IO Directory := do
  let mut d := Directory.empty
  for path in [a.source, a.out.getD [], a.logFile.getD []] do
    unless Path.hasNull path do
      for place in placesOn path ++ (Path.place path).above do
        let found ← lookUp place
        d := ⟨found.files ++ d.files, found.folders ++ d.folders, found.devices ++ d.devices⟩
  return d

/-- Writes the files that a run has changed. -/
def store (before after : Directory) : IO Unit := do
  for (place, content) in after.files do
    if before.contentAt? place != some content then
      IO.FS.writeBinFile (String.ofList place.path) (ByteArray.mk content.toArray)

/-- Everything on standard input. -/
def readInput : IO (List UInt8) := do
  let bytes ← (← IO.getStdin).readBinToEnd
  return bytes.toList

end Wikitext.Main

open Wikitext Wikitext.CommandLine in
/-- Runs the command with the given arguments. -/
def main (args : List String) : IO UInt32 := do
  let args := args.map String.toList
  let arguments := match Arguments.read args with
    | .ok a => a
    | .error _ => {}
  let readsInput := match Arguments.read args with
    | .ok a => a.source == ['-']
    | .error _ => false
  let directory ← Wikitext.Main.collect arguments
  let standardInput ← if readsInput then Wikitext.Main.readInput else pure []
  let terminal ← (← IO.getStdout).isTty
  match run ⟨standardInput, directory, terminal⟩ args with
  | .ok outcome =>
    Wikitext.Main.store directory outcome.directory
    IO.print (String.ofList outcome.standardOutput)
    for message in outcome.messages do
      IO.eprintln (String.ofList message)
    return UInt32.ofNat outcome.status
  | .error e =>
    IO.eprintln (String.ofList e.message)
    return 1
