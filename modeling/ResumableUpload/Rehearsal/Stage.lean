import ResumableUpload.Rehearsal.Disk

/-!
# A world for rehearsals

A server with replies in store, one for each request that reaches it; a disk in memory; an
environment; a clock that nobody has to wait for. What the uploader has asked of it is noted.
-/

namespace ResumableUpload.Rehearsal

/-- A world in memory. A reply that is `none` is a connection closed without one, and so is every
reply after the last. The server has the address 127.0.0.1 and this port number. The journals have
their last entry first. -/
structure Stage where
  serverNumber : UInt16
  replies : List (Option Http.Response)
  requests : List Http.Request
  reports : List Progress
  disk : Disk
  environment : List (String × String)

namespace Stage

/-- Does the request reach the server? -/
def isReached (s : Stage) (r : Http.Request) : Bool :=
  !r.url.secure && r.url.host == .four 2130706433 && r.url.portNumber == s.serverNumber

/-- The reply to a request. -/
def exchange (request : Http.Request) : StateM Stage (Option Http.Response) := do
  let s ← get
  if s.isReached request then
    set { s with requests := request :: s.requests, replies := s.replies.tail }
    pure (s.replies.head?.join.bind Http.Response.received)
  else pure none

/-- Writes a file. -/
def save (path text : String) : StateM Stage (Except FileFault Unit) := do
  let s ← get
  match s.disk.write path (Bytes.ofText text) true with
  | .error fault => pure (.error fault)
  | .ok disk =>
    set { s with disk }
    pure (.ok ())

/-- Answers a question. -/
def answer : (call : WorldCall) → StateM Stage call.Answer
  | .exchange request _ => exchange request
  | .report progress => modify fun s => { s with reports := progress :: s.reports }
  | .pause _ => pure ()
  | .openFile path => do pure ((← get).disk.openFile path)
  | .readText path => do pure ((← get).disk.readText path)
  | .isThere path => do pure ((← get).disk.isThere path)
  | .saveText path text => save path text
  | .environment name => do pure ((← get).environment.lookup name)

/-- Performs a program in this world. -/
def perform {α : Type} (s : Stage) (p : Program World α) : α × Stage :=
  (p.run (m := StateM Stage) answer).run s

end Stage

end ResumableUpload.Rehearsal
