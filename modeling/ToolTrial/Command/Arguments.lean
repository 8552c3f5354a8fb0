import ToolTrial.Path.Basic

/-!
The arguments of the program.  Options stand before and after the name of a command; each level
knows its own, takes every one at most once, and takes no further words.
-/

set_option autoImplicit false
set_option relaxedAutoImplicit false

namespace ToolTrial

/-- What the program is asked to do.  A path that is left out has a default. -/
inductive Command
  | validateManifest (manifest : Path) (out : Option Path)
  | validateRuns (manifest runs : Path) (out : Option Path)
  | score (manifest runs : Path) (out : Option Path)
  | worklist (manifest runs : Path) (out : Option Path)
  | templates (manifest runs outDir : Path) (force : Bool)
  | export (score runValidation : Path) (out : Option Path)
  | gate (manifest runs : Path) (outDir : Option Path) (failOnRunWarnings : Bool)
deriving DecidableEq, Repr

inductive Request
  | run (config : Path) (command : Command)
  | version
  | help
  /-- Arguments that are not understood. -/
  | misuse
deriving DecidableEq, Repr

namespace Arguments

inductive Word
  | long (name : String) (value : Option String)
  | short (letters : List Char)
  | separator
  | plain (s : String)
deriving DecidableEq, Repr

def Word.of (s : String) : Word :=
  match s.toList with
  | ['-', '-'] => .separator
  | '-' :: '-' :: body =>
    let name := String.ofList (body.takeWhile (· != '='))
    match body.dropWhile (· != '=') with
    | [] => .long name none
    | _ :: value => .long name (some (String.ofList value))
  | ['-'] => .plain s
  | '-' :: letters => .short letters
  | _ => .plain s

structure Known where
  name : String
  letter : Option Char
  takesValue : Bool
deriving DecidableEq, Repr

def valued (name : String) : Known := ⟨name, none, true⟩

abbrev Given := List (String × String)

/-- Options with one more, which must not be there yet. -/
def give (given : Given) (name value : String) : Except Request Given :=
  if (given.lookup name).isSome then .error .misuse else .ok (given ++ [(name, value)])

/-- Options with one more that has a value; an empty value is none. -/
def giveValue (given : Given) (name value : String) : Except Request Given :=
  if value.isEmpty then .error .misuse else give given name value

/-- Options after letters, each of which is a flag. -/
def giveLetters (hasVersion : Bool) (known : List Known) : Given → List Char → Except Request Given
  | given, [] => .ok given
  | given, c :: rest =>
    if c = 'h' then .error .help
    else if hasVersion && c == 'V' then .error .version
    else match known.find? fun k => k.letter == some c with
      | some k => do giveLetters hasVersion known (← give given k.name "") rest
      | none => .error .misuse

/-- The options at the front of arguments, and the rest from the first plain word on. -/
def options (hasVersion : Bool) (known : List Known) :
    Given → List String → Except Request (Given × List String)
  | given, [] => .ok (given, [])
  | given, word :: rest =>
    match Word.of word with
    | .plain _ => .ok (given, word :: rest)
    | .separator => if rest.isEmpty then .ok (given, []) else .error .misuse
    | .short letters => do
      options hasVersion known (← giveLetters hasVersion known given letters) rest
    | .long name value =>
      match known.find? fun k => k.name == name with
      | some k =>
        match k.takesValue, value, rest with
        | true, some value, rest => do
          options hasVersion known (← giveValue given name value) rest
        | true, none, next :: rest =>
          match Word.of next with
          | .plain value => do options hasVersion known (← giveValue given name value) rest
          | _ => .error .misuse
        | false, none, rest => do options hasVersion known (← give given name "") rest
        | _, _, _ => .error .misuse
      | none =>
        if value.isSome then .error .misuse
        else if name = "help" then .error .help
        else if hasVersion && name == "version" then .error .version
        else .error .misuse

def config : Known := valued "config"

def knownOf (command : String) : Option (List Known) :=
  match command with
  | "validate-manifest" => some [valued "manifest", valued "out"]
  | "validate-runs" => some [valued "manifest", valued "runs", valued "out"]
  | "score" => some [valued "manifest", valued "runs", valued "out"]
  | "worklist" => some [valued "manifest", valued "runs", valued "out"]
  | "templates" =>
    some [valued "manifest", valued "runs", valued "out-dir", ⟨"force", some 'f', false⟩]
  | "export" => some [valued "score", valued "run-validation", valued "out"]
  | "gate" =>
    some [valued "manifest", valued "runs", valued "out-dir",
      ⟨"fail-on-run-warnings", none, false⟩]
  | _ => none

def path? (given : Given) (name : String) : Option Path :=
  (given.lookup name).map Path.mk

def isSet (given : Given) (name : String) : Bool := (given.lookup name).isSome

def command? (name : String) (given : Given) : Option Command := do
  match name with
  | "validate-manifest" =>
    return .validateManifest (← path? given "manifest") (path? given "out")
  | "validate-runs" =>
    return .validateRuns (← path? given "manifest") (← path? given "runs") (path? given "out")
  | "score" => return .score (← path? given "manifest") (← path? given "runs") (path? given "out")
  | "worklist" =>
    return .worklist (← path? given "manifest") (← path? given "runs") (path? given "out")
  | "templates" =>
    return .templates (← path? given "manifest") (← path? given "runs")
      (← path? given "out-dir") (isSet given "force")
  | "export" =>
    return .export (← path? given "score") (← path? given "run-validation") (path? given "out")
  | "gate" =>
    return .gate (← path? given "manifest") (← path? given "runs") (path? given "out-dir")
      (isSet given "fail-on-run-warnings")
  | _ => none

def defaultConfig : String := "agent-eval.toml"

def helpOn : List String → Request
  | [] => .help
  | [name] => if name == "help" || (knownOf name).isSome then .help else .misuse
  | _ => .misuse

/-- The request after the options of the outer level; those of the inner level win. -/
def inner (outer : Given) : List String → Except Request Request
  | [] => .error .misuse
  | name :: rest =>
    match knownOf name with
    | none => .error (if name = "help" then helpOn rest else .misuse)
    | some known => do
      let (given, further) ← options false (config :: known) [] rest
      if !further.isEmpty then throw .misuse
      let some command := command? name given | throw .misuse
      let file := (given.lookup "config").getD ((outer.lookup "config").getD defaultConfig)
      return .run ⟨file⟩ command

def request (arguments : List String) : Request :=
  let answer := do
    let (outer, rest) ← options true [config] [] arguments
    inner outer rest
  match answer with
  | .ok request => request
  | .error request => request

end Arguments
end ToolTrial
