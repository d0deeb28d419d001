import CodeAssist.Analysis.Outcome
import CodeAssist.Decimal.Layout

/-!
# Errors

Everything that can go wrong, by its cause, and how it is worded.
-/

namespace CodeAssist

open CodeAssist.Text (Point)

/-! ### Settings -/

/-- What is wrong with settings that were read. -/
inductive SettingsFault where
  /-- A prompt may have no tokens at all. -/
  | zeroTokenLimit
  /-- A share of a budget outside the unit interval, or no number. -/
  | shareOutOfRange (field : String) (value : Decimal.Double)

/-- The wording of a fault. -/
def SettingsFault.message : SettingsFault → String
  | zeroTokenLimit => "max_model_len must be positive"
  | shareOutOfRange field value =>
    field ++ " must be within [0, 1], got " ++ Decimal.plain.render value

/-- Why settings cannot be used, loaded or saved. -/
inductive ConfigError where
  | unsupportedEncoding (name : String)
  | unreadableFile (path : String)
  | unparsableFile (path : String)
  | invalidFile (path : String) (fault : SettingsFault)
  | directoryNotCreated (path : String)
  | temporaryNotWritten (path : String)
  | temporaryNotRenamed (path target : String)

/-- The wording of an error of the settings. -/
def ConfigError.message : ConfigError → String
  | unsupportedEncoding name => "unsupported token encoding: " ++ name
  | unreadableFile path => "failed to read config file '" ++ path ++ "'"
  | unparsableFile path => "failed to parse config file '" ++ path ++ "'"
  | invalidFile path fault => "invalid config file '" ++ path ++ "': " ++ fault.message
  | directoryNotCreated path => "failed to create config directory '" ++ path ++ "'"
  | temporaryNotWritten path => "failed to write temporary config file '" ++ path ++ "'"
  | temporaryNotRenamed path target =>
    "failed to rename temporary config file '" ++ path ++ "' to '" ++ target ++ "'"

/-! ### Requests -/

/-- Why a request has no answer. -/
inductive Error where
  | parse (cause : ParseError)
  /-- A prompt takes more tokens than it may. -/
  | budgetExceeded (used limit : Nat)
  | config (cause : ConfigError)
  /-- A point that lies nowhere in the source. -/
  | invalidCursor (cursor : Point)
  | unreadableSource

/-- The wording of an error. -/
def Error.message : Error → String
  | parse cause => cause.message
  | budgetExceeded used limit =>
    "token budget exceeded: " ++ toString used ++ " tokens required, limit is " ++ toString limit
  | config cause => "config error: " ++ cause.message
  | invalidCursor cursor =>
    "cursor " ++ toString cursor.row ++ ":" ++ toString cursor.column ++ " is outside the source"
  | unreadableSource => "io error"

end CodeAssist
