/-
  Wikitext/Options/Build.lean
  ===========================
  **Making options** — from named values that have not been checked.  An option that is
  not named keeps its value.  The first fault is reported: a name that is no option, then
  the values in a fixed order.
-/
import Wikitext.Link.Pattern
import Wikitext.Options.Basic
import Wikitext.Options.Value

namespace Wikitext

inductive OptionsKind where
  | common
  | mediaWiki
deriving DecidableEq, Repr

namespace OptionsKind

def name : OptionsKind → String
  | common => "BaseConverterOptions"
  | mediaWiki => "MediaWikiOptions"

def fieldNames : OptionsKind → List String
  | common => ["html_parser", "strip_comments", "escape_entities", "unknown_tags", "base_uri"]
  | mediaWiki =>
    ["html_parser", "strip_comments", "escape_entities", "unknown_tags", "base_uri",
      "preserve_bold", "preserve_italic", "wiki_uri", "image_namespace"]

end OptionsKind

/-- Why options cannot be made.  A refused value is given as it is shown. -/
inductive OptionsError where
  | unexpectedName (kind : OptionsKind) (name : String)
  | unknownReader (shown : Text)
  | unknownTreatment (shown : Text)
  | noRecognizers (shown : Text)
  | noRecognizer (shown : Text)
  /-- A pattern in a syntax that is not read. -/
  | unreadPattern (shown : Text)
  | badNamespace (shown : Text)
  | namespaceOfKind (kindName : String)
  /-- Options do not change once they are made. -/
  | assignment (name : String)
deriving DecidableEq, Repr

/-- The names that a setting admits, as a message lists them. -/
def OptionsError.choices (names : List String) : Text :=
  '(' :: Text.join [',', ' '] (names.map fun n => Text.quoted n.toList) ++ [')']

def OptionsError.message : OptionsError → Text
  | unexpectedName kind name =>
    kind.name.toList ++ ".__init__() got an unexpected keyword argument '".toList ++ name.toList
      ++ "'".toList
  | unknownReader shown =>
    "html_parser must be one of ".toList ++ choices (HtmlReader.all.map (·.name)) ++ ", got ".toList
      ++ shown
  | unknownTreatment shown =>
    "unknown_tags must be one of ".toList ++ choices (UnknownTags.all.map (·.name))
      ++ ", got ".toList ++ shown
  | noRecognizers shown =>
    "wiki_uri must be a string, pattern, callable or a sequence of them, got ".toList ++ shown
  | noRecognizer shown => "Unsupported wiki_uri entry: ".toList ++ shown
  | unreadPattern shown => "Unsupported pattern: ".toList ++ shown
  | badNamespace shown =>
    "image_namespace must be a non-empty name without ':', got ".toList ++ shown
  | namespaceOfKind kindName =>
    "argument of type '".toList ++ kindName.toList ++ "' is not iterable".toList
  | assignment name => "cannot assign to field ".toList ++ Text.quoted name.toList

abbrev Settings := List (String × Value)

namespace Settings

def find? (settings : Settings) (name : String) : Option Value :=
  (List.find? (·.1 == name) settings).map (·.2)

/-- The first name that is no option of the kind. -/
def unexpected? (settings : Settings) (kind : OptionsKind) : Option String :=
  (settings.map (·.1)).find? fun name => !kind.fieldNames.contains name

/-- Only the settings with names of options of the kind. -/
def restrict (settings : Settings) (kind : OptionsKind) : Settings :=
  settings.filter fun (name, _) => kind.fieldNames.contains name

end Settings

/-! ### Single values -/

/-- A recognizer: an address, a pattern or a function. -/
def Recognizer.ofValue : Value → Except OptionsError Recognizer
  | .text t => .ok (.under t)
  | .pattern source =>
    match Pattern.read? source with
    | some p => .ok (.pattern source p.search)
    | none => .error (.unreadPattern source.quoted)
  | .function f => .ok (.function f)
  | v => .error (.noRecognizer v.shown)

/-- Several recognizers; the first value that is none is reported. -/
def Recognizer.ofValues : List Value → Except OptionsError (List Recognizer)
  | [] => .ok []
  | v :: vs => do
    let r ← Recognizer.ofValue v
    let rs ← Recognizer.ofValues vs
    return r :: rs

/-- Recognizers: a list of them, a single one, or nothing. -/
def Recognizer.listOfValue : Value → Except OptionsError (List Recognizer)
  | .null => .ok []
  | .list vs => Recognizer.ofValues vs
  | .text t => Recognizer.ofValues [.text t]
  | .pattern source => Recognizer.ofValues [.pattern source]
  | .function f => Recognizer.ofValues [.function f]
  | v => .error (.noRecognizers v.shown)

def Value.isColon : Value → Bool
  | .text t => t == [':']
  | _ => false

/-- A namespace: a name without a colon.  A collection without a colon stands for the text
by which it is shown. -/
def namespaceOfValue (v : Value) : Except OptionsError Text :=
  let named (hasColon : Bool) (t : Text) : Except OptionsError Text :=
    if hasColon then .error (.badNamespace v.shown) else .ok t
  if !v.isTrue then .error (.badNamespace v.shown)
  else match v with
    | .text t => named (t.contains ':') t
    | .list vs => named (vs.any Value.isColon) v.shown
    | .record fields => named (fields.any fun (name, _) => name == [':']) v.shown
    | v => .error (.namespaceOfKind v.kindName)

def Base.ofValue? (v : Value) : Option Base :=
  match v with
  | .text t => some (.address t)
  | v => if v.isTrue then some .unusable else none

/-! ### All values -/

/-- Changes the settings of every dialect. -/
def CommonOptions.change (o : CommonOptions) (settings : Settings) :
    Except OptionsError CommonOptions := do
  let reader ← match settings.find? "html_parser" with
    | none => .ok o.reader
    | some v => match v.word? HtmlReader.ofName? with
      | some reader => .ok reader
      | none => .error (.unknownReader v.shown)
  let unknownTags ← match settings.find? "unknown_tags" with
    | none => .ok o.unknownTags
    | some v => match v.word? UnknownTags.ofName? with
      | some unknownTags => .ok unknownTags
      | none => .error (.unknownTreatment v.shown)
  return {
    reader, unknownTags
    stripComments := (settings.find? "strip_comments").elim o.stripComments Value.isTrue
    escapeEntities := (settings.find? "escape_entities").elim o.escapeEntities Value.isTrue
    baseUri := (settings.find? "base_uri").elim o.baseUri Base.ofValue? }

def OptionsKind.checkNames (kind : OptionsKind) (settings : Settings) : Except OptionsError Unit :=
  match settings.unexpected? kind with
  | some name => .error (.unexpectedName kind name)
  | none => .ok ()

/-- Common options with some values changed. -/
def CommonOptions.update (o : CommonOptions) (settings : Settings) :
    Except OptionsError CommonOptions := do
  OptionsKind.common.checkNames settings
  o.change settings

/-- Options with some values changed. -/
def Options.update (o : Options) (settings : Settings) : Except OptionsError Options := do
  OptionsKind.mediaWiki.checkNames settings
  let common ← o.toCommonOptions.change settings
  let recognizers ← match settings.find? "wiki_uri" with
    | none => .ok o.recognizers
    | some v => Recognizer.listOfValue v
  let imageNamespace ← match settings.find? "image_namespace" with
    | none => .ok o.imageNamespace
    | some v => namespaceOfValue v
  return {
    toCommonOptions := common
    recognizers, imageNamespace
    preserveBold := (settings.find? "preserve_bold").elim o.preserveBold Value.isTrue
    preserveItalic := (settings.find? "preserve_italic").elim o.preserveItalic Value.isTrue }

def CommonOptions.make (settings : Settings) : Except OptionsError CommonOptions :=
  CommonOptions.update {} settings

def Options.make (settings : Settings) : Except OptionsError Options :=
  Options.update {} settings

end Wikitext
