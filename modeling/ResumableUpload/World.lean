import ResumableUpload.Client.Error
import ResumableUpload.Http.Message
import ResumableUpload.Program
import ResumableUpload.Transfer.Reader
import ResumableUpload.Time.Span
import ResumableUpload.Wire.Progress

/-!
# The world of the uploader

Everything that the uploader can ask of its surroundings: a server that answers requests or does
not, somebody who follows the progress, a clock, a disk and an environment. The uploader is a
program over these questions and nothing else.
-/

namespace ResumableUpload

/-- Why a file cannot be used. -/
inductive FileFault
  | absent
  | exists
  | notDirectory
  | isDirectory
  | nameTooLong
  | nulInPath
  | notText
  | other (cause : String)
  deriving DecidableEq, Repr

def FileFault.message : FileFault → String
  | .absent => "No such file or directory (os error 2)"
  | .exists => "File exists (os error 17)"
  | .notDirectory => "Not a directory (os error 20)"
  | .isDirectory => "Is a directory (os error 21)"
  | .nameTooLong => "File name too long (os error 36)"
  | .nulInPath => "file name contained an unexpected NUL byte"
  | .notText => "stream did not contain valid UTF-8"
  | .other cause => cause

/-- An open file: its size, and its content as a stream. -/
structure OpenFile where
  size : UInt64
  content : Reader
  deriving DecidableEq, Repr

/-- What can be asked of the world. -/
inductive WorldCall
  /-- Send a request and wait so long for the reply; there may be none. -/
  | exchange (request : Http.Request) (timeout : Span)
  /-- Tell whoever follows an upload how far it is; a follower who breaks off does not answer. -/
  | report (progress : Progress)
  /-- Let time pass. -/
  | pause (span : Span)
  /-- Open a file to read it as bytes. -/
  | openFile (path : String)
  /-- Read a whole file as a text. -/
  | readText (path : String)
  /-- Is there anything at this path? -/
  | isThere (path : String)
  /-- Write a file that only its owner may read, in a directory that is made if it is missing. -/
  | saveText (path : String) (text : String)
  /-- The value of an environment variable. -/
  | environment (name : String)
  deriving DecidableEq, Repr

namespace WorldCall

/-- What each question is answered with. -/
def Answer : WorldCall → Type
  | .exchange _ _ => Option Http.Response
  | .report _ => Unit
  | .pause _ => Unit
  | .openFile _ => Except FileFault OpenFile
  | .readText _ => Except FileFault String
  | .isThere _ => Bool
  | .saveText _ _ => Except FileFault Unit
  | .environment _ => Option String

end WorldCall

/-- What the uploader keeps in mind from one page of a list of parts to the next: where the next
page begins and how long it is to be, and the parts of the pages so far, or what has gone wrong. -/
structure Walk where
  offset : UInt64
  limit : UInt64
  parts : Except ClientError (List Part)

/-- The questions of the uploader. The one thing that it repeats is to ask for a page. -/
abbrev World : Signature := ⟨WorldCall, WorldCall.Answer, Walk⟩

namespace World

/-! The exchange as a query, and each other question as a program of its own. -/

def exchange (request : Http.Request) (timeout : Span) : Query World (Option Http.Response) :=
  .ask (S := World) (.exchange request timeout) id

def report (progress : Progress) : Program World Unit :=
  Program.put (S := World) (.report progress)

def pause (span : Span) : Program World Unit := Program.put (S := World) (.pause span)

def openFile (path : String) : Program World (Except FileFault OpenFile) :=
  Program.put (S := World) (.openFile path)

def readText (path : String) : Program World (Except FileFault String) :=
  Program.put (S := World) (.readText path)

def isThere (path : String) : Program World Bool := Program.put (S := World) (.isThere path)

def saveText (path text : String) : Program World (Except FileFault Unit) :=
  Program.put (S := World) (.saveText path text)

def environment (name : String) : Program World (Option String) :=
  Program.put (S := World) (.environment name)

end World

end ResumableUpload
