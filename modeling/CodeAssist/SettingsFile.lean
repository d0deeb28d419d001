import CodeAssist.Codec.Settings
import CodeAssist.Error
import CodeAssist.FileSystem
import CodeAssist.Formats

/-!
# Settings files

Settings are loaded from a file, TOML where its extension says so and JSON otherwise; a missing file
stands for the defaults. They are saved as JSON, first under a temporary name and then moved into
place. How the two notations are written and read is given with the formats.
-/

namespace CodeAssist

/-! ### Sound settings -/

/-- Whether a share lies in the unit interval; what is no number does not. -/
def isShare (share : Decimal.Double) : Bool :=
  0.0 ≤ share.toFloat && share.toFloat ≤ 1.0

/-- What is wrong with settings, if anything is. -/
def Settings.fault? (settings : Settings) : Option SettingsFault :=
  if settings.maxModelLen = 0 then some .zeroTokenLimit
  else if !isShare settings.prompt.importsPercent then
    some (.shareOutOfRange "prompt.imports_percent" settings.prompt.importsPercent)
  else if !isShare settings.prompt.suffixPercent then
    some (.shareOutOfRange "prompt.suffix_percent" settings.prompt.suffixPercent)
  else none

namespace SettingsFile

variable (formats : Formats)

/-! ### Loading -/

/-- The settings that a text writes. -/
def decode? (isToml : Bool) (text : String) : Option Settings := do
  if isToml then Codec.decodeSettings formats.toml (← formats.readToml text)
  else Codec.decodeSettings formats.json (← formats.readJson text)

/-- Loads the settings at a path. -/
def load (fs : FileSystem) (path : String) : Except ConfigError Settings :=
  -- Nobody has to write a settings file.
  if !fs.exists? path then .ok {}
  else match fs.readText? path with
    | none => .error (.unreadableFile path)
    | some text =>
      match decode? formats (FilePath.extension? path = some "toml") text with
      | none => .error (.unparsableFile path)
      | some settings =>
        match settings.fault? with
        | some fault => .error (.invalidFile path fault)
        | none => .ok settings

/-! ### Saving -/

/-- The text of a settings file. -/
def encode (settings : Settings) : String :=
  formats.write true (Codec.encodeSettings settings)

/-- The directory that a settings file lies in, none where it lies in the working directory. -/
def directoryOf (path : String) : String :=
  (FilePath.parent? path).getD ""

/-- The name under which settings are written first. -/
def temporaryOf (path : String) : String :=
  FilePath.withExtension path "tmp"

/-- Saves settings at a path. The answer is the file system afterwards, and what went wrong, if
anything did. -/
def save (fs : FileSystem) (path : String) (settings : Settings) :
    FileSystem × Except ConfigError Unit :=
  let temporary := temporaryOf path
  -- What a failed save has done so far stays done.
  let (fs, made) := fs.createDirectories (directoryOf path)
  if !made then (fs, .error (.directoryNotCreated (directoryOf path)))
  else
    let (fs, written) := fs.write temporary (.text (encode formats settings))
    if !written then (fs, .error (.temporaryNotWritten temporary))
    else match fs.rename? temporary path with
      | none => (fs, .error (.temporaryNotRenamed temporary path))
      | some renamed => (renamed, .ok ())

end SettingsFile

end CodeAssist
