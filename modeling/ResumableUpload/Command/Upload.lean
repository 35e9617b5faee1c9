import ResumableUpload.Client.RemoteSession
import ResumableUpload.Command.Settings
import ResumableUpload.Transfer.Policy

/-!
# Uploading one file

Opens a session for a file, or goes on with one that is open, and drives its upload until the file
is committed or the session is discarded. The file at a path is uploaded under the last name of the
path.
-/

namespace ResumableUpload

/-- The last name of a path: slashes at its end and single dots do not count, and neither the root
nor a step up is a name. -/
def fileName? (path : String) : Option String :=
  let names := (path.toList.splitOn '/').filter fun name => name ≠ [] ∧ name ≠ ['.']
  match names.getLast? with
  | none => none
  | some name => if name = ['.', '.'] then none else some (String.ofList name)

/-- Opens the file at a path, and a session for it in a folder; the upload has not begun. -/
def Client.uploadOfFile (c : Client) (folderId path : String) :
    Program World (Except ClientError (RemoteSession × Uploader)) :=
  match fileName? path with
  | none => pure (.error (.config ("no file name in " ++ path)))
  | some name => do
    match ← World.openFile path with
    | .error fault => pure (.error (.io fault.message))
    | .ok file =>
      match ← c.create folderId file.size name with
      | .error e => pure (.error e)
      | .ok info => pure (.ok (.ofInfo c info, .ofReader file.content file.size))

/-- What to upload, where to, and how often to resume it. -/
structure UploadRequest where
  path : String
  folderId : String
  sessionId : Option String
  resumeAttempts : Option UInt32
  deriving DecidableEq, Repr

/-- Why there is no file. -/
inductive UploadError
  | client (cause : ClientError)
  | transfer (cause : TransferError ClientError)
  | opening (path : String) (fault : FileFault)
  | nameless
  deriving DecidableEq, Repr

def UploadError.message : UploadError → String
  | .client cause => cause.message
  | .transfer cause => cause.message
  | .opening path fault => "opening " ++ path ++ ": " ++ fault.message
  | .nameless => "file name is not valid UTF-8"

namespace UploadRequest

/-- The session to upload to. -/
def openSession (r : UploadRequest) (client : Client) (size : UInt64) (name : String) :
    Program World (Except ClientError SessionInfo) :=
  match r.sessionId with
  | some id => client.look id
  | none => client.create r.folderId size name

/-- How failed attempts are followed by others. -/
def policy (r : UploadRequest) (settings : Settings) : Policy where
  maxAttempts := (r.resumeAttempts.getD settings.maxResumeAttempts).toNat
  backoff := .ofSeconds 2

/-- The first attempt and those that follow. The parts of a session that was open are asked for
first. -/
def attempts (r : UploadRequest) (settings : Settings) (session : Session) (u : Uploader) :
    Program (Transfer ClientError) (Except (TransferError ClientError) RemoteFile × Uploader) := do
  let (first, u) ← if r.sessionId.isSome then u.resume session else u.start session
  (r.policy settings).drive session first u

/-- Uploads a file that is open. -/
def uploadOpen (r : UploadRequest) (settings : Settings) (client : Client) (file : OpenFile)
    (name : String) : Program World (Except UploadError RemoteFile) := do
  match ← r.openSession client file.size name with
  | .error e => pure (.error (.client e))
  | .ok info =>
    let remote := RemoteSession.ofInfo client info
    let u := Uploader.ofReader file.content file.size
    let (result, _) ← remote.perform (r.attempts settings remote.session u)
    pure (result.mapError .transfer)

/-- Uploads the file. Each report goes to whoever follows the upload (`Follower`), and the upload
goes on when it has been heard. -/
def run (r : UploadRequest) (settings : Settings) :
    Program World (Except UploadError RemoteFile) :=
  match Client.ofConfig settings.client with
  | .error e => pure (.error (.client e))
  | .ok client => do
    match ← World.openFile r.path with
    | .error fault => pure (.error (.opening r.path fault))
    | .ok file =>
      match fileName? r.path with
      | none => pure (.error .nameless)
      | some name => r.uploadOpen settings client file name

end UploadRequest

end ResumableUpload
