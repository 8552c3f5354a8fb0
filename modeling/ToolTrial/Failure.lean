import ToolTrial.Disk.Basic
import ToolTrial.Check.Manifest
import ToolTrial.Json.Decode
import ToolTrial.Schema.Basic

/-!
Failures: what stops a command.  A failure has a cause and the activities in which it arose, from
the outside in; its text names them all.
-/

set_option autoImplicit false
set_option relaxedAutoImplicit false

namespace ToolTrial

/-- The stages before which work can be stopped. -/
inductive Stage
  | manifestLoad
  | manifestValidation
  | runLoad
  | runValidation
  | scoring
  | summaryExport
  | gateReport
deriving DecidableEq, Repr

def Stage.name : Stage → String
  | .manifestLoad => "manifest load"
  | .manifestValidation => "manifest validation"
  | .runLoad => "run load"
  | .runValidation => "run validation"
  | .scoring => "scoring"
  | .summaryExport => "summary export"
  | .gateReport => "gate report"

/-- The reasons that come from the rules of this program. -/
inductive Refusal
  /-- A directory that is not there. -/
  | noDirectory (dir : Path)
  /-- A document that is not in memory. -/
  | noDocument (path : Path)
  /-- A path without a directory to write to. -/
  | noParent (path : Path)
  /-- A path that does not end in a name. -/
  | noFileName (path : Path)
  /-- A document that breaks the rules of its schema. -/
  | schema (label : String) (violations : List Schema.Violation)
  /-- A manifest that no stage can work with. -/
  | manifest (faults : List Manifest.Fault)
  /-- A run whose named member is blank. -/
  | blankMember (name : String)
  /-- A run whose duration is negative or not finite. -/
  | badDuration (seconds : Float)
  /-- A run whose identifier an earlier run has. -/
  | duplicateRun (id : String) (earlier later : Path)
  /-- A planned run whose condition the manifest does not have. -/
  | unknownCondition (run condition : String)
  /-- A run identifier that would leave the directory of drafts. -/
  | unsafeDraft (run : String) (dir : Path)
  /-- A setting that has to be something else. -/
  | badSetting (name requirement : String)
  /-- Work that was stopped before a stage, given by its name. -/
  | stopped (stage : String)
deriving DecidableEq

namespace Refusal

def itemized (headline : String) (lines : List String) : String :=
  headline ++ ":\n- " ++ Text.join "\n- " lines

def message : Refusal → String
  | .noDirectory dir => "directory not found: " ++ dir.text
  | .noDocument path => "read " ++ path.text ++ ": not found"
  | .noParent path => "path missing parent " ++ path.text
  | .noFileName path => "path missing file name " ++ path.text
  | .schema label violations =>
    itemized (label ++ " schema validation failed") (violations.map (·.message))
  | .manifest faults => itemized "manifest invariant violations" (faults.map (·.message))
  | .blankMember name => name ++ " must be non-empty"
  | .badDuration seconds =>
    "duration_seconds must be a finite non-negative number (got " ++
      Number.render Number.plain seconds ++ ")"
  | .duplicateRun id earlier later =>
    "duplicate run_id " ++ Text.quoted id ++ " in " ++ earlier.text ++ " and " ++ later.text
  | .unknownCondition run condition =>
    "pending run " ++ Text.quoted run ++ " references unknown condition " ++ Text.quoted condition
  | .unsafeDraft run dir =>
    "run id " ++ Text.quoted run ++ " does not name a file inside " ++ dir.text
  | .badSetting name requirement => name ++ " must be " ++ requirement
  | .stopped stage => "cancelled before " ++ stage

end Refusal

/-- Why a command stops. -/
inductive Cause
  | refusal (r : Refusal)
  /-- A text that is no document. -/
  | malformedJson
  /-- A document that does not stand for what is wanted. -/
  | undecodable (e : Json.DecodeError)
  /-- An operation on the disk that failed. -/
  | disk (f : Fault)
  /-- A text that holds no settings. -/
  | malformedToml
  /-- A text that is no pattern. -/
  | malformedPattern
deriving DecidableEq

def Cause.message : Cause → String
  | .refusal r => r.message
  | .malformedJson => "not a JSON document"
  | .undecodable e => e.message
  | .disk f => f.message
  | .malformedToml => "not a table of settings"
  | .malformedPattern => "not a pattern"

/-- What was being done when something failed. -/
inductive Activity
  | reading (path : Path)
  | parsing (path : Path)
  | decoding (path : Path)
  | walking (dir : Path)
  | creatingDirectory (dir : Path)
  | writingTemporary (path : Path)
  | replacing (path : Path)
  | validatingManifest (path : Path)
  | decodingManifest (path : Path)
  | acceptingManifest (path : Path)
  | loadingRuns (dir : Path)
  | validatingRun (path : Path)
  | decodingRun (path : Path)
  | acceptingRun (path : Path)
  | writingManifestReport
  | writingRunReport
  | writingScoreReport
  | writingWorklist
  | writingDrafts (dir : Path)
  | writingSummary
  | writingGateReport
  | acceptingSettings (path : Path)
  | readingRunFilePattern (pattern : String)
deriving DecidableEq, Repr

def Activity.message : Activity → String
  | .reading path => "read " ++ path.text
  | .parsing path => "parse " ++ path.text
  | .decoding path => "deserialize " ++ path.text
  | .walking dir => "walk " ++ dir.text
  | .creatingDirectory dir => "create directory " ++ dir.text
  | .writingTemporary path => "write temp file " ++ path.text
  | .replacing path => "replace " ++ path.text
  | .validatingManifest path => "validate manifest " ++ path.text
  | .decodingManifest path => "deserialize manifest " ++ path.text
  | .acceptingManifest path => "invalid manifest " ++ path.text
  | .loadingRuns dir => "load runs from " ++ dir.text
  | .validatingRun path => "validate run " ++ path.text
  | .decodingRun path => "deserialize run " ++ path.text
  | .acceptingRun path => "invalid run " ++ path.text
  | .writingManifestReport => "write manifest validation report"
  | .writingRunReport => "write run validation report"
  | .writingScoreReport => "write score report"
  | .writingWorklist => "write worklist"
  | .writingDrafts dir => "write run templates to " ++ dir.text
  | .writingSummary => "write summary"
  | .writingGateReport => "write gate report"
  | .acceptingSettings path => "invalid config " ++ path.text
  | .readingRunFilePattern pattern =>
    "run_file_pattern " ++ Text.quoted pattern ++ " is not a valid regex"

/-- A cause, and the activities around it from the outside in. -/
structure Failure where
  activities : List Activity
  cause : Cause
deriving DecidableEq

namespace Failure

def refuse (r : Refusal) : Failure := ⟨[], .refusal r⟩

def within (activity : Activity) (f : Failure) : Failure :=
  ⟨activity :: f.activities, f.cause⟩

def messageWith (cause : String) (f : Failure) : String :=
  Text.join ": " (f.activities.map Activity.message ++ [cause])

def message (f : Failure) : String := f.messageWith f.cause.message

end Failure
end ToolTrial
