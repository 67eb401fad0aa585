/-
  Wikitext/CommandLine/Run.lean
  =============================
  **Running the command** — what a command line does in a given setting: it reads the
  input, converts it, and writes the markup to a file or to standard output.  A setting
  holds all that a run can see, and an outcome all that can be seen of it.
-/
import Wikitext.CommandLine.Arguments
import Wikitext.Conversion.Exchange

namespace Wikitext.CommandLine

def versionText : Text := "html2wiki 1.0.0".toList

/-- What a run can see. -/
structure Setting where
  /-- What comes in by standard input. -/
  standardInput : List UInt8
  directory : Directory
  /-- Whether standard output is a terminal. -/
  terminal : Bool

/-- What can be seen of a run. -/
structure Outcome where
  status : Nat
  standardOutput : Text
  /-- The messages on standard error. -/
  messages : List Text
  level : LogLevel
  directory : Directory

/-- A message about a failure. -/
def errorMessage (t : Text) : Text := "Error: ".toList ++ t

def logLine (t : Text) : Text := "INFO: ".toList ++ t ++ ['\n']

/-- Adds a line to the log file, if there is one and the level asks for it.  Traces have
lines of another form.  A log file that cannot be written is done without, unless its name
is no path. -/
def log (a : Arguments) (d : Directory) (line : Text) : Except FileError Directory :=
  match a.logFile with
  | some (c :: cs) =>
    match d.append (c :: cs) (if a.level.showsInfo && !a.trace then logLine line else []) with
    | .ok d => .ok d
    | .error .null => .error .null
    | .error _ => .ok d
  | _ => .ok d

def openInput (setting : Setting) (d : Directory) (input : Text) : Except Text Source :=
  if input = ['-'] then .ok (.bytes setting.standardInput)
  else match d.read input with
    | .ok (some content) => .ok (.bytes content)
    | .ok none => .error ("Input file not found: ".toList ++ input)
    | .error e => .error e.message

/-- Carries out a command line.  A link or image whose URL cannot be read ends the run
without a message of its own, and so does a name to write to that is no path. -/
def carryOut (setting : Setting) (a : Arguments) : Except Failure Outcome := do
  let log (d : Directory) (line : Text) : Except Failure Directory :=
    (log a d line).mapError fun e => .destination (.file e)
  let d ← log setting.directory ("Logging to file: ".toList ++ a.logFile.getD [])
  let ended (status : Nat) (output : Text) (messages : List Text) (d : Directory) : Outcome :=
    ⟨status, output, messages, a.level, d⟩
  let failed (area : Failure.Area) (message : Text) : Outcome :=
    ended area.status [] [errorMessage message] d
  match a.options with
  | .error e => return failed .value e.message
  | .ok options =>
    match openInput setting d a.source with
    | .error message => return failed .file message
    | .ok source =>
      match ((Session.mediaWiki options).convertSource source).outcome with
      | .error (.url e) => throw (.url e)
      | .error f => return failed f.area f.message
      | .ok t =>
        let page := t ++ ['\n']
        match a.out with
        | some (c :: cs) =>
          match d.write (c :: cs) (Utf8.encode page) with
          | .ok d =>
            let d ← log d ("Wrote ".toList ++ c :: cs)
            return ended Failure.success [] [] d
          | .error .null => throw (.destination (.file .null))
          | .error e =>
            return failed .file ("could not write ".toList ++ c :: cs ++ [':', ' '] ++ e.message)
        | _ =>
          let noColours :=
            "Warning: Rich library not installed. Install with: pip install html2wiki[rich]".toList
          return ended Failure.success page
            (if a.rich && setting.terminal then [noColours] else []) d

def run (setting : Setting) (args : List Text) : Except Failure Outcome :=
  match Arguments.read args with
  | .ok a => carryOut setting a
  | .error (.misused message) =>
    .ok ⟨Failure.Area.value.status, [], ["html2wiki: error: ".toList ++ message], .warning,
      setting.directory⟩
  | .error .version => .ok ⟨Failure.success, versionText ++ ['\n'], [], .warning, setting.directory⟩
  | .error .help => .ok ⟨Failure.success, [], [], .warning, setting.directory⟩

end Wikitext.CommandLine
