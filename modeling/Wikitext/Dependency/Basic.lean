/-
  Wikitext/Dependency/Basic.lean
  ==============================
  **Dependencies** — the packages that a component needs, and whether an environment has
  them in a version that will do.  `Installed.check` looks at all of them before it
  complains, so that one message names everything that is missing.
-/
import Wikitext.Dependency.Version

namespace Wikitext

/-- A package that a component needs: the name it is installed under, the name it is
imported under, and the versions that will do. -/
structure Requirement where
  package : Text
  importName : Text
  specifier : Text
deriving DecidableEq, Repr

/-- A package whose installed version will not do. -/
structure Mismatch where
  package : Text
  required : Text
  installed : Text
deriving DecidableEq, Repr

/-- Packages that a component needs and does not have. -/
structure DependencyError where
  /-- Each with the versions that will do. -/
  missing : List (Text × Text)
  mismatched : List Mismatch
  /-- What would install them. -/
  installCommand : Text
  message : Text
deriving DecidableEq, Repr

namespace DependencyError

/-- The command that installs the packages. -/
def commandFor (missing : List (Text × Text)) (mismatched : List Mismatch) : Text :=
  let wanted := missing.map (fun (package, specifier) => package ++ specifier)
    ++ mismatched.map fun m => m.package ++ m.required
  if wanted = [] then []
  else "pip install ".toList ++ Text.join [' '] (wanted.map fun w => '"' :: w ++ ['"'])

def sentences (component : Text) (missing : List (Text × Text)) (mismatched : List Mismatch)
    (installCommand : Text) : List Text :=
  ['\'' :: component ++ "' requires additional dependencies.".toList]
    ++ (if missing = [] then []
        else ["Missing: ".toList ++ Text.join [',', ' '] (missing.map (·.1)) ++ ['.']])
    ++ mismatched.map (fun m =>
        m.package ++ ' ' :: m.installed ++ " is installed but ".toList ++ m.required
          ++ " is required.".toList)
    ++ (if installCommand = [] then [] else ["Install with: ".toList ++ installCommand])

/-- The error for a component.  A command and a message are made from the packages, unless
they are given. -/
def make (component : Text) (missing : List (Text × Text)) (mismatched : List Mismatch)
    (installCommand : Text) (message : Option Text) : DependencyError :=
  let installCommand := if installCommand = [] then commandFor missing mismatched else installCommand
  { missing, mismatched, installCommand
    message := message.getD
      (Text.join [' '] (sentences component missing mismatched installCommand)) }

end DependencyError

/-- What cannot be read when a version is compared. -/
inductive VersionError where
  | specifier (package : Text) (t : Text)
  | version (t : Text)
deriving DecidableEq, Repr

def VersionError.message : VersionError → Text
  | specifier package t =>
    "Invalid version specifier for ".toList ++ package ++ [':', ' '] ++ t.quoted
  | version t => "Invalid version: ".toList ++ t.quoted

/-- Why a check of dependencies does not pass. -/
inductive DependencyFault where
  | unmet (e : DependencyError)
  | unreadable (e : VersionError)
deriving DecidableEq, Repr

/-- What is installed: the names that can be imported, and the versions of packages. -/
structure Installed where
  importable : List Text
  versions : List (Text × Text)
deriving DecidableEq, Repr

namespace Installed

def version? (i : Installed) (package : Text) : Option Text :=
  ((i.versions.find? (·.1 == package)).map (·.2)).filter (· ≠ [])

/-- Whether the installed version of a package satisfies a specifier, with that version.
Nothing satisfies a specifier if the package is not installed. -/
def meets (i : Installed) (package specifier : Text) :
    Except VersionError (Bool × Option Text) :=
  match i.version? package with
  | none => .ok (false, none)
  | some version =>
    match Specifier.read? specifier, Version.read? version with
    | none, _ => .error (.specifier package specifier)
    | some _, none => .error (.version version)
    | some s, some v => .ok (s.accepts v, some version)

/-- The missing and the mismatched packages among those required. -/
def gaps (i : Installed) :
    List Requirement → Except VersionError (List (Text × Text) × List Mismatch)
  | [] => .ok ([], [])
  | r :: rs =>
    if r.importName ∉ i.importable then do
      let (missing, mismatched) ← i.gaps rs
      return ((r.package, r.specifier) :: missing, mismatched)
    else if r.specifier = [] then i.gaps rs
    else do
      let (ok, version) ← i.meets r.package r.specifier
      let (missing, mismatched) ← i.gaps rs
      if ok then return (missing, mismatched)
      else return (missing, ⟨r.package, r.specifier, version.getD "unknown".toList⟩ :: mismatched)

def check (i : Installed) (component : Text) (required : List Requirement) :
    Except DependencyFault Unit :=
  match i.gaps required with
  | .error e => .error (.unreadable e)
  | .ok ([], []) => .ok ()
  | .ok (missing, mismatched) =>
    .error (.unmet (DependencyError.make component missing mismatched [] none))

end Installed

end Wikitext
