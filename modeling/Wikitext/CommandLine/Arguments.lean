/-
  Wikitext/CommandLine/Arguments.lean
  ===================================
  **Arguments** — reading a command line.  An argument is a switch, the value of a switch, or
  the input.  A long switch may be shortened as long as only one switch starts so; several
  short switches may share a hyphen; a value may follow an equals sign, or the letter of a
  short switch.  After `--` nothing is a switch.

  All arguments are classified first, which already refuses ambiguous ones; then they are
  taken from left to right, and the first one that cannot be taken is reported.
-/
import Wikitext.Options.Build
import Wikitext.Text.Digit

namespace Wikitext.CommandLine

/-! ### Switches -/

inductive Switch where
  | help
  | out
  | preserveBold
  | preserveItalic
  | wikiUri
  | imageNamespace
  | baseUri
  | htmlParser
  | keepComments
  | noEscapeEntities
  | unknownTags
  | rich
  | logLevel
  | verbose
  | trace
  | logFile
  | version
deriving DecidableEq, Repr

/-- How much is logged. -/
inductive LogLevel where
  | debug
  | info
  | warning
  | error
  | critical
deriving DecidableEq, Repr

namespace LogLevel

def name : LogLevel → String
  | debug => "DEBUG"
  | info => "INFO"
  | warning => "WARNING"
  | error => "ERROR"
  | critical => "CRITICAL"

def all : List LogLevel := [debug, info, warning, error, critical]

def ofName? (s : String) : Option LogLevel :=
  all.find? (·.name == s)

/-- Whether messages of the level INFO are logged. -/
def showsInfo : LogLevel → Bool
  | debug => true
  | info => true
  | _ => false

end LogLevel

namespace Switch

/-- All switches, in the order in which they are listed. -/
def all : List Switch :=
  [help, out, preserveBold, preserveItalic, wikiUri, imageNamespace, baseUri, htmlParser,
    keepComments, noEscapeEntities, unknownTags, rich, logLevel, verbose, trace, logFile, version]

def spellings : Switch → List String
  | help => ["-h", "--help"]
  | out => ["--out", "-o"]
  | preserveBold => ["--preserve-bold"]
  | preserveItalic => ["--preserve-italic"]
  | wikiUri => ["--wiki-uri"]
  | imageNamespace => ["--image-namespace"]
  | baseUri => ["--base-uri"]
  | htmlParser => ["--html-parser"]
  | keepComments => ["--keep-comments"]
  | noEscapeEntities => ["--no-escape-entities"]
  | unknownTags => ["--unknown-tags"]
  | rich => ["--rich"]
  | logLevel => ["--log-level"]
  | verbose => ["--verbose", "-v"]
  | trace => ["--trace"]
  | logFile => ["--log-file"]
  | version => ["--version"]

def hasValue : Switch → Bool
  | out | wikiUri | imageNamespace | baseUri | htmlParser | unknownTags | logLevel | logFile => true
  | _ => false

/-- The only values of a switch, where not every value will do. -/
def choices? : Switch → Option (List String)
  | htmlParser => some (HtmlReader.all.map (·.name))
  | unknownTags => some (UnknownTags.all.map (·.name))
  | logLevel => some (LogLevel.all.map (·.name))
  | _ => none

/-- A switch in a message: all its spellings. -/
def shown (s : Switch) : Text :=
  Text.join ['/'] (s.spellings.map String.toList)

/-- Every spelling with its switch. -/
def table : List (Text × Switch) :=
  all.flatMap fun s => s.spellings.map fun name => (name.toList, s)

def ofSpelling? (t : Text) : Option Switch :=
  (table.find? (·.1 == t)).map (·.2)

end Switch

/-! ### Words -/

/-- A switch as it stands in an argument: with its spelling, and with the value that the
argument holds. -/
structure Use where
  switch : Switch
  spelling : Text
  value : Option Text
deriving DecidableEq, Repr

/-- What an argument is. -/
inductive Word where
  /-- The input, or the value of the switch before it. -/
  | plain (t : Text)
  /-- The mark after which nothing is a switch. -/
  | mark
  | use (u : Use)
  /-- What looks like a switch and is none. -/
  | stray (t : Text)
deriving DecidableEq, Repr

/-- A negative number: digits, perhaps with a point before the last of them.  A final
line feed does not count. -/
def isNegativeNumber : Text → Bool
  | '-' :: t =>
    let t := if t.getLast? = some '\n' then t.dropLast else t
    match Text.cut '.' t with
    | (digits, none) => digits != [] && digits.all Text.isDecimalDigit
    | (whole, some fraction) =>
      whole.all Text.isDecimalDigit && fraction != [] && fraction.all Text.isDecimalDigit
  | _ => false

/-- The switches that a shortened or joined spelling may stand for. -/
def readings (t : Text) : List Use :=
  if ['-', '-'].isPrefixOf t then
    let (start, value) := t.cut '='
    Switch.table.filterMap fun (spelling, switch) =>
      if start.isPrefixOf spelling then some ⟨switch, spelling, value⟩ else none
  else
    Switch.table.filterMap fun (spelling, switch) =>
      if spelling = t.take 2 then some ⟨switch, spelling, some (t.drop 2)⟩
      else if t.isPrefixOf spelling then some ⟨switch, spelling, none⟩
      else none

/-- The message about a spelling that several switches start with. -/
def ambiguous (t : Text) (uses : List Use) : Text :=
  "ambiguous option: ".toList ++ t ++ " could match ".toList
    ++ Text.join [',', ' '] (uses.map (·.spelling))

/-- What an argument before `--` is. -/
def classify (t : Text) : Except Text Word :=
  if t.head? ≠ some '-' then .ok (.plain t)
  else match Switch.ofSpelling? t with
    | some s => .ok (.use ⟨s, t, none⟩)
    | none =>
      if t.length = 1 then .ok (.plain t)
      else match t.cut '=' with
        | (spelling, value) =>
          match value, Switch.ofSpelling? spelling with
          | some value, some s => .ok (.use ⟨s, spelling, some value⟩)
          | _, _ =>
            match readings t with
            | [u] => .ok (.use u)
            | [] => .ok (if isNegativeNumber t || ' ' ∈ t then .plain t else .stray t)
            | uses => .error (ambiguous t uses)

def classifyAll : List Text → Except Text (List Word)
  | [] => .ok []
  | t :: ts =>
    if t = ['-', '-'] then .ok (.mark :: ts.map .plain)
    else do
      let w ← classify t
      let ws ← classifyAll ts
      return w :: ws

/-! ### Arguments -/

/-- What a command line says. -/
structure Arguments where
  input : Option Text := none
  out : Option Text := none
  preserveBold : Bool := false
  preserveItalic : Bool := false
  wikiUris : List Text := []
  imageNamespace : Text := ['I', 'm', 'a', 'g', 'e']
  baseUri : Option Text := none
  htmlParser : Text := HtmlReader.plain.name.toList
  keepComments : Bool := false
  noEscapeEntities : Bool := false
  unknownTags : Text := UnknownTags.passthrough.name.toList
  rich : Bool := false
  logLevel : LogLevel := .warning
  verbose : Bool := false
  trace : Bool := false
  logFile : Option Text := none
  /-- The arguments that nothing was made of. -/
  extras : List Text := []
deriving DecidableEq, Repr

/-- Why a command line is not carried out. -/
inductive Stop where
  /-- It cannot be read. -/
  | misused (message : Text)
  /-- It asks for the usage of the command. -/
  | help
  /-- It asks for the version of the command. -/
  | version
deriving DecidableEq, Repr

def complaint (s : Switch) (text : Text) : Stop :=
  .misused ("argument ".toList ++ s.shown ++ [':', ' '] ++ text)

/-- The complaint about a value that is none of the choices. -/
def badChoice (s : Switch) (value : Text) (choices : List String) : Stop :=
  complaint s ("invalid choice: ".toList ++ value.quoted ++ " (choose from ".toList
    ++ Text.join [',', ' '] (choices.map fun c => Text.quoted c.toList) ++ [')'])

/-- The complaint about a value of a switch that has none. -/
def needlessValue (s : Switch) (value : Text) : Stop :=
  complaint s ("ignored explicit argument ".toList ++ value.quoted)

/-- The complaint about a switch without its value. -/
def missingValue (s : Switch) : Stop :=
  complaint s "expected one argument".toList

namespace Arguments

/-- Takes a switch that has no value. -/
def flag (a : Arguments) : Switch → Except Stop Arguments
  | .help => .error .help
  | .version => .error .version
  | .preserveBold => .ok { a with preserveBold := true }
  | .preserveItalic => .ok { a with preserveItalic := true }
  | .keepComments => .ok { a with keepComments := true }
  | .noEscapeEntities => .ok { a with noEscapeEntities := true }
  | .rich => .ok { a with rich := true }
  | .verbose => .ok { a with verbose := true }
  | .trace => .ok { a with trace := true }
  | _ => .ok a

def store (a : Arguments) (value : Text) : Switch → Arguments
  | .out => { a with out := some value }
  | .wikiUri => { a with wikiUris := a.wikiUris ++ [value] }
  | .imageNamespace => { a with imageNamespace := value }
  | .baseUri => { a with baseUri := some value }
  | .htmlParser => { a with htmlParser := value }
  | .unknownTags => { a with unknownTags := value }
  | .logLevel => { a with logLevel := (LogLevel.ofName? (String.ofList value)).getD a.logLevel }
  | .logFile => { a with logFile := some value }
  | _ => a

def valued (a : Arguments) (s : Switch) (value : Text) : Except Stop Arguments :=
  match s.choices? with
  | some choices =>
    if choices.contains (String.ofList value) then .ok (a.store value s)
    else .error (badChoice s value choices)
  | none => .ok (a.store value s)

/-- Takes flags in turn. -/
def flags (a : Arguments) : List Switch → Except Stop Arguments
  | [] => .ok a
  | s :: ss => do
    let a ← a.flag s
    a.flags ss

end Arguments

/-- The switches of an argument: those without a value that share its hyphen, and the last
one, with the value that the argument holds. -/
def unjoin (spelling : Text) (s : Switch) : Option Text → Except Stop (List Switch × Switch × Option Text)
  | none => .ok ([], s, none)
  | some value =>
    if s.hasValue then .ok ([], s, some value)
    else match value with
      | [] => .error (needlessValue s [])
      | c :: cs =>
        if ['-', '-'].isPrefixOf spelling then .error (needlessValue s (c :: cs))
        else match Switch.ofSpelling? ['-', c] with
          | none => .error (needlessValue s (c :: cs))
          | some next =>
            match cs with
            | [] => .ok ([s], next, none)
            | d :: ds => do
              let (flags, last, value) ← unjoin ['-', c] next (some (d :: ds))
              return (s :: flags, last, value)
termination_by value => value.elim 0 List.length

namespace Arguments

/-- Takes what is left once no switch follows: the input, unless there is one, and
extras. -/
def finish (a : Arguments) : List Word → Arguments
  | [] => a
  | .mark :: .plain t :: ws =>
    if a.input.isNone then { a with input := some t, extras := a.extras ++ plainTexts ws }
    else { a with extras := a.extras ++ ['-', '-'] :: t :: plainTexts ws }
  | .plain t :: .mark :: ws =>
    if a.input.isNone then { a with input := some t, extras := a.extras ++ plainTexts ws }
    else { a with extras := a.extras ++ t :: ['-', '-'] :: plainTexts ws }
  | .plain t :: ws =>
    if a.input.isNone then { a with input := some t, extras := a.extras ++ plainTexts ws }
    else { a with extras := a.extras ++ t :: plainTexts ws }
  | .mark :: ws =>
    if a.input.isNone then { a with extras := a.extras ++ plainTexts ws }
    else { a with extras := a.extras ++ ['-', '-'] :: plainTexts ws }
  | _ => a
where
  plainTexts : List Word → List Text
    | [] => []
    | .plain t :: ws => t :: plainTexts ws
    | .mark :: ws => ['-', '-'] :: plainTexts ws
    | _ :: ws => plainTexts ws

/-- Whether a word is a switch, or looks like one. -/
def isSwitch : Word → Bool
  | .use _ => true
  | .stray _ => true
  | _ => false

/-- Takes words from left to right. -/
def takeWords (a : Arguments) (ws : List Word) : Except Stop Arguments :=
  if !ws.any isSwitch then .ok (a.finish ws)
  else match ws with
    | [] => .ok a
    | .plain t :: ws =>
      if a.input.isNone then { a with input := some t }.takeWords ws
      else { a with extras := a.extras ++ [t] }.takeWords ws
    | .mark :: ws => a.takeWords ws
    | .stray t :: ws => { a with extras := a.extras ++ [t] }.takeWords ws
    | .use u :: ws => do
      let (flags, last, value) ← unjoin u.spelling u.switch u.value
      match last.hasValue, value, ws with
      | true, some value, ws => do
        let a ← a.flags flags
        let a ← a.valued last value
        a.takeWords ws
      | true, none, .plain value :: ws => do
        let a ← a.flags flags
        let a ← a.valued last value
        a.takeWords ws
      | true, none, _ => .error (missingValue last)
      | false, _, ws => do
        let a ← a.flags (flags ++ [last])
        a.takeWords ws
termination_by ws.length

def read (args : List Text) : Except Stop Arguments := do
  let words ← (classifyAll args).mapError .misused
  let a ← Arguments.takeWords {} words
  if a.extras = [] then return a
  else .error (.misused ("unrecognized arguments: ".toList ++ Text.join [' '] a.extras))

/-- The input; without one it is the standard input. -/
def source (a : Arguments) : Text :=
  a.input.getD ['-']

def options (a : Arguments) : Except OptionsError Options :=
  Options.make [
    ("preserve_bold", .bool a.preserveBold),
    ("preserve_italic", .bool a.preserveItalic),
    ("wiki_uri", .list (a.wikiUris.map .text)),
    ("image_namespace", .text a.imageNamespace),
    ("base_uri", a.baseUri.elim .null .text),
    ("html_parser", .text a.htmlParser),
    ("strip_comments", .bool !a.keepComments),
    ("escape_entities", .bool !a.noEscapeEntities),
    ("unknown_tags", .text a.unknownTags)]

/-- The level that is logged at: `--trace` asks for everything, and so does `--verbose`,
unless another level is asked for. -/
def level (a : Arguments) : LogLevel :=
  if a.trace then .debug
  else if a.verbose && a.logLevel == .warning then .debug
  else a.logLevel

end Arguments

end Wikitext.CommandLine
