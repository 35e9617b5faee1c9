import ResumableUpload.Toml.Read
import ResumableUpload.Toml.Write
import ResumableUpload.Wire.ClientConfig
import ResumableUpload.World

/-!
# Settings

How often a failed upload is resumed, and how the server is reached. Settings are kept in a TOML
file, either one that is named or one in the home directory, which is made with the defaults if it
is missing. An access token in the environment goes before the one of the file.
-/

namespace ResumableUpload

/-- The settings of the uploader. -/
structure Settings where
  maxResumeAttempts : UInt32
  client : ClientConfig
  deriving DecidableEq, Repr

/-- Why there are no settings, or why they cannot be kept. -/
inductive SettingsError
  | unreadable (path : String) (fault : FileFault)
  | malformed (path : String)
  | noHome
  | unwritable (fault : FileFault)
  /-- The timeout does not fit an integer of 64 bits with a sign. -/
  | timeoutOutOfRange
  deriving DecidableEq, Repr

namespace SettingsError

/-- What was being done, or else what went wrong. -/
def message : SettingsError → String
  | .unreadable path _ => "reading " ++ path
  | .malformed path => "parsing " ++ path
  | .noHome => "HOME is not set"
  | .unwritable fault => fault.message
  | .timeoutOutOfRange => "out-of-range value for u64 type"

end SettingsError

namespace Settings

/-- The settings where none are given. -/
def default : Settings := ⟨3, .default⟩

/-! ## Reading -/

/-- A value that is a string. -/
def string? : Toml → Option String
  | .string value => some value
  | _ => none

/-- A value that is an integer from zero up to a limit. -/
def natural? (limit : Nat) : Toml → Option Nat
  | .integer n => if 0 ≤ n ∧ n < limit then some n.toNat else none
  | _ => none

/-- A value or, if there is none, the default. -/
def orDefault {α : Type} (read : Toml → Option α) (otherwise : α) : Option Toml → Option α
  | none => some otherwise
  | some value => read value

/-- The settings of the client, from a function that finds each by its name or its place. -/
def client? (find : String → Nat → Option Toml) : Option ClientConfig := do
  let apiUrl ← orDefault string? ClientConfig.default.apiUrl (find "api_url" 0)
  let uploadUrl ← orDefault string? ClientConfig.default.uploadUrl (find "upload_url" 1)
  let accessToken ← orDefault string? ClientConfig.default.accessToken (find "access_token" 2)
  let timeout ← orDefault (natural? UInt64.size) ClientConfig.default.timeoutSeconds.toNat
    (find "timeout_secs" 3)
  let userAgent ← orDefault string? ClientConfig.default.userAgent (find "user_agent" 4)
  pure ⟨apiUrl, uploadUrl, accessToken, timeout.toUInt64, userAgent⟩

/-- The settings of the client, as a table or as a list in the order of the names. -/
def clientOf? : Toml → Option ClientConfig
  | .table _ members => client? fun name _ => members.lookup name
  | .list items => client? fun _ place => items[place]?
  | _ => none

/-- The settings of a TOML table; members with other names do not count. -/
def ofMembers? (members : Toml.Members) : Option Settings := do
  let attempts ← orDefault (natural? UInt32.size) Settings.default.maxResumeAttempts.toNat
    (members.lookup "max_resume_attempts")
  let client ← orDefault clientOf? Settings.default.client (members.lookup "client")
  pure ⟨attempts.toUInt32, client⟩

/-- Reads settings from a text. -/
def read? (text : String) : Option Settings := do ofMembers? (← Toml.read? text)

/-! ## Writing -/

/-- The text of settings. -/
def text? (s : Settings) : Except SettingsError String :=
  if Int64.maxValue.toInt < s.client.timeoutSeconds.toNat then .error .timeoutOutOfRange
  else .ok <|
    "max_resume_attempts = " ++ toString s.maxResumeAttempts ++ "\n\n[client]\n" ++
      "api_url = " ++ Toml.writeString s.client.apiUrl ++ "\n" ++
      "upload_url = " ++ Toml.writeString s.client.uploadUrl ++ "\n" ++
      "access_token = " ++ Toml.writeString s.client.accessToken ++ "\n" ++
      "timeout_secs = " ++ toString s.client.timeoutSeconds ++ "\n" ++
      "user_agent = " ++ Toml.writeString s.client.userAgent ++ "\n"

/-! ## Files -/

/-- Reads settings from a file. -/
def readFrom (path : String) : Program World (Except SettingsError Settings) := do
  match ← World.readText path with
  | .error fault => pure (.error (.unreadable path fault))
  | .ok text =>
    match read? text with
    | none => pure (.error (.malformed path))
    | some settings => pure (.ok settings)

/-- Writes settings to a file. -/
def saveTo (s : Settings) (path : String) : Program World (Except SettingsError Unit) :=
  match s.text? with
  | .error e => pure (.error e)
  | .ok text => do
    match ← World.saveText path text with
    | .error fault => pure (.error (.unwritable fault))
    | .ok () => pure (.ok ())

/-- The file in a home directory. -/
def homePath (home : String) : String :=
  home ++ (if home.isEmpty ∨ home.endsWith "/" then "" else "/") ++ ".config/boxkit/config.toml"

/-- Settings of the file in the home directory, which is made if it is missing. -/
def readHome : Program World (Except SettingsError Settings) := do
  match ← World.environment "HOME" with
  | none => pure (.error .noHome)
  | some home =>
    let path := homePath home
    if ← World.isThere path then readFrom path
    else
      match ← Settings.default.saveTo path with
      | .error e => pure (.error e)
      | .ok () => pure (.ok .default)

/-- The settings of a named file or, if none is named, of the one in the home directory, with the
token of the environment. -/
def load (path : Option String) : Program World (Except SettingsError Settings) := do
  let found ← match path with
    | some path => readFrom path
    | none => readHome
  match found with
  | .error e => pure (.error e)
  | .ok settings => do
    let token ← World.environment ClientConfig.tokenVariable
    pure (.ok { settings with client := settings.client.withToken token })

end Settings

end ResumableUpload
