import FailureWire.Config.Settings
import FailureWire.Wire.Format

/-!
# Loaded settings

Settings together with where each of them comes from. Loading fails with an error that names all
sources and says of each invalid key what is wrong with it.

`load` models `loadFailureConverterConfig`; its error is the `ConfigurationError` with the message that zod's
`prettifyError` writes.
-/

namespace FailureWire

/-- Settings, and the values that they were read from. -/
structure LoadedSettings where
  settings : Settings
  merged : Fields Sourced

namespace LoadedSettings

/-- What stands for the source of a setting that no source gives a value. -/
def defaultSource : String := "default"

/-- The name of the source that gives a setting its value. -/
def explain (l : LoadedSettings) (s : Setting) : String :=
  ((Fields.get? l.merged s.key).map (·.source)).getD defaultSource

/-- The names of the sources that the settings come from, each once. -/
def sourcesUsed (l : LoadedSettings) : List String := (Setting.all.map l.explain).eraseDups

/-- The keys with values that are no settings. -/
def unknownKeys (l : LoadedSettings) : List String :=
  (Fields.names l.merged).filter fun key => (Setting.ofKey? key).isNone

/-- What is wrong at a place, in two lines. -/
def findingText (f : Finding) : String :=
  "✖ " ++ f.message ++ "\n  → at " ++ WireFormat.pathText f.path

/-- The error about invalid settings. -/
def errorOf (sources : List ConfigSource) (findings : List Finding) : ThrownError Document :=
  .configuration
    ("Failure converter configuration is invalid:\n" ++
      "\n".intercalate (findings.map findingText))
    (.list (sources.map fun s => .text s.name))

/-- Values that stand in for those that no source gives. -/
def inherited (g : Graph) (sources : List ConfigSource) : Fields Sourced :=
  Setting.all.filterMap fun s =>
    match g.read (ConfigSource.heritage sources) s.key with
    | .undefined => none
    | v => some (s.key, ⟨v, defaultSource⟩)

/-- Loads settings from sources, where later ones override earlier ones. -/
def load (g : Graph) (sources : List ConfigSource) : Except (ThrownError Document) LoadedSettings :=
  let merged := ConfigSource.merge sources
  match Settings.read g (merged ++ inherited g sources) with
  | .ok settings => .ok ⟨settings, merged⟩
  | .error findings => .error (errorOf sources findings)

end LoadedSettings
end FailureWire
