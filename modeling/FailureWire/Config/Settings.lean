import FailureWire.Config.Source
import FailureWire.Conversion.Options
import FailureWire.Log.Level
import FailureWire.Value.Coerce
import FailureWire.Value.Schema

/-!
# Settings

The five settings of a converter: their keys, their defaults, and what values are valid for them. The
greatest depth may be anything that reads as a number. Switches may be given as words. A key that
nothing gives a value has its default.

The schema is `failureConverterConfigSchema`; a switch is its `flag`, a boolean or a `stringbool`.
-/

namespace FailureWire

/-- A setting of a converter. -/
inductive Setting where
  | maxCauseDepth | reuseStoredFailure | encodeCommonAttributes | includeStackTrace | logLevel
deriving DecidableEq, Repr

namespace Setting

def all : List Setting :=
  [.maxCauseDepth, .reuseStoredFailure, .encodeCommonAttributes, .includeStackTrace, .logLevel]

def key : Setting → String
  | .maxCauseDepth => "MAX_CAUSE_DEPTH"
  | .reuseStoredFailure => "REUSE_STORED_FAILURE"
  | .encodeCommonAttributes => "ENCODE_COMMON_ATTRIBUTES"
  | .includeStackTrace => "INCLUDE_STACK_TRACE"
  | .logLevel => "LOG_LEVEL"

def ofKey? (key : String) : Option Setting := all.find? fun s => s.key = key

end Setting

/-- Values for all settings. -/
structure Settings where
  maxCauseDepth : Number := 50
  reuseStoredFailure : Bool := true
  encodeCommonAttributes : Bool := false
  includeStackTrace : Bool := true
  logLevel : LogLevel := .info
deriving DecidableEq, Repr

namespace Settings

/-- The settings where nothing gives a value. -/
def default : Settings := {}

/-- What is wrong with a value; nothing if it is valid, and then what it stands for. -/
abbrev Reading (α : Type) := Except (List Finding) α

/-- A number that must be a positive safe integer. -/
def depthOf (g : Graph) (n : Number) : Reading Number :=
  if n.isFinite then
    let findings := Schema.integerFindings n
    let positive : List Finding :=
      if n.toInt?.isSome && !Number.less 0 n then
        [.here "Too small: expected number to be >0"]
      else []
    match findings ++ positive with
    | [] => .ok n
    | findings => .error findings
  else .error [.expected "number" (g.typeName (.number n))]

/-- A value that must read as a positive safe integer. -/
def readDepth (g : Graph) (v : Value) : Reading Number :=
  match g.castNumber v with
  | .ok n => depthOf g n
  | .error _ => .error [.expected "number" (g.typeName v)]

def trueWords : List String := ["true", "1", "yes", "on", "y", "enabled"]

def falseWords : List String := ["false", "0", "no", "off", "n", "disabled"]

/-- The truth value that a word stands for, in upper or lower case. -/
def flagOfWord? (word : String) : Option Bool :=
  let word := String.ofList (word.toList.map Char.toLower)
  if trueWords.contains word then some true
  else if falseWords.contains word then some false
  else none

def readFlag (v : Value) : Reading Bool :=
  match v.bool? <|> v.text?.bind flagOfWord? with
  | some b => .ok b
  | none => .error [.invalid]

def quoted (s : String) : String := "\"" ++ s ++ "\""

def readLevel (v : Value) : Reading LogLevel :=
  match v.text?.bind LogLevel.ofName? with
  | some l => .ok l
  | none =>
    .error [.here ("Invalid option: expected one of " ++
      "|".intercalate (LogLevel.all.map fun l => quoted l.name))]

/-- The value for a setting: that which is given, or else the default. -/
def readOr {α : Type} (settings : Fields Sourced) (s : Setting) (read : Value → Reading α)
    (otherwise : α) : Reading α :=
  match Fields.get? settings s.key with
  | some given => match read given.value with
    | .ok a => .ok a
    | .error findings => .error (findings.map (·.under (.name s.key)))
  | none => .ok otherwise

/-- What is wrong with a value. -/
def findingsOf {α : Type} : Reading α → List Finding
  | .ok _ => []
  | .error findings => findings

/-- The settings that merged values give, or all that is wrong with them. -/
def read (g : Graph) (merged : Fields Sourced) : Except (List Finding) Settings :=
  let depth := readOr merged .maxCauseDepth (readDepth g) default.maxCauseDepth
  let reuse := readOr merged .reuseStoredFailure readFlag default.reuseStoredFailure
  let encode := readOr merged .encodeCommonAttributes readFlag default.encodeCommonAttributes
  let stack := readOr merged .includeStackTrace readFlag default.includeStackTrace
  let level := readOr merged .logLevel readLevel default.logLevel
  match depth, reuse, encode, stack, level with
  | .ok depth, .ok reuse, .ok encode, .ok stack, .ok level =>
    .ok ⟨depth, reuse, encode, stack, level⟩
  | _, _, _, _, _ =>
    .error (findingsOf depth ++ findingsOf reuse ++ findingsOf encode ++ findingsOf stack ++
      findingsOf level)

def converterOptions (s : Settings) (codec : Codec) : ConverterOptions where
  codec
  maxCauseDepth := .ofNumber s.maxCauseDepth
  reuseStoredFailure := s.reuseStoredFailure
  encodeCommonAttributes := s.encodeCommonAttributes
  includeStackTrace := s.includeStackTrace

end Settings
end FailureWire
