import ResumableUpload.Command.Arguments

/-!
# The command

Reads the arguments and the settings and uploads the file. The exit code is 0 after an upload and
after help, 1 after a failure and 2 after arguments that are wrong.
-/

namespace ResumableUpload.Command

/-- What the command ends with. -/
inductive Ending
  | uploaded (file : RemoteFile)
  | informed
  | misused
  | unsettled (cause : SettingsError)
  | failed (cause : UploadError)
  deriving DecidableEq, Repr

/-- The exit code. -/
def Ending.code : Ending → Nat
  | .uploaded _ => 0
  | .informed => 0
  | .misused => 2
  | .unsettled _ => 1
  | .failed _ => 1

/-- Runs the command. -/
def run (arguments : List String) : Program World Ending :=
  match Arguments.ofList arguments with
  | .usage => pure .misused
  | .information => pure .informed
  | .upload a => do
    match ← Settings.load a.config with
    | .error e => pure (.unsettled e)
    | .ok settings =>
      match ← a.request.run settings with
      | .error e => pure (.failed e)
      | .ok file => pure (.uploaded file)

end ResumableUpload.Command
