import Std.Async.DNS
import Std.Async.TCP
import ResumableUpload.Command.Run
import ResumableUpload.Http.Transcript
import ResumableUpload.Progress.Throughput

/-!
# The program

Runs the command in the world as it is: servers that speak plain HTTP, files, the environment and
the clock. Progress and errors are lines of the standard error stream.
-/

namespace ResumableUpload.Main

open Std.Async Std.Net

/-! ## The network -/

/-- The addresses of a host. -/
def addresses (host : Host) (number : UInt16) : Async (Array SocketAddress) := do
  match host with
  | .name labels =>
    let found ← DNS.getAddrInfo labels (toString number)
    pure (found.map withNumber)
  | .four address =>
    let byte (i : Nat) : UInt8 := UInt8.ofNat (address >>> (8 * (3 - i)))
    pure #[withNumber (.v4 (IPv4Addr.ofParts (byte 0) (byte 1) (byte 2) (byte 3)))]
  | .six groups =>
    pure #[withNumber (.v6 ⟨Vector.ofFn fun i => UInt16.ofNat (groups.getD i.val 0)⟩)]
where
  withNumber : IPAddr → SocketAddress
    | .v4 addr => .v4 ⟨addr, number⟩
    | .v6 addr => .v6 ⟨addr, number⟩

/-- Everything that a connection still has to say. -/
partial def receiveAll (connection : TCP.Socket.Client) (received : ByteArray) :
    Async ByteArray := do
  match ← connection.recv? 65536 with
  | none => pure received
  | some bytes => receiveAll connection (received ++ bytes)

/-- One exchange over a connection of its own. -/
def exchangeAt (request : Http.Request) (address : SocketAddress) : Async ByteArray := do
  let connection ← TCP.Socket.Client.mk
  connection.connect address
  connection.send ⟨request.transcript.toArray⟩
  receiveAll connection .empty

/-- One exchange with the first address of the host. -/
def exchangeNow (request : Http.Request) : Async (Option Http.Response) := do
  let found ← addresses request.url.host request.url.portNumber
  match found[0]? with
  | none => pure none
  | some address => pure (Http.Response.read? (← exchangeAt request address).toList)

/-- Waits for a task, but not longer than until a time in milliseconds. -/
partial def waitUntil {α : Type} (deadline : Nat) (task : Task (Except IO.Error (Option α))) :
    IO (Option α) := do
  if ← IO.hasFinished task then
    match task.get with
    | .ok answer => pure answer
    | .error _ => pure none
  else if deadline ≤ (← IO.monoMsNow) then pure none
  else do
    IO.sleep 5
    waitUntil deadline task

/-- The reply to a request, if one comes in time. -/
def exchange (request : Http.Request) (timeout : Span) : IO (Option Http.Response) := do
  if request.url.secure then
    IO.eprintln "https is not supported"
    pure none
  else
    let deadline := (← IO.monoMsNow) + timeout.nanoseconds / 1000000
    waitUntil deadline (← IO.asTask (exchangeNow request).block)

/-! ## Files -/

/-- Why a file cannot be used. -/
def faultOf : IO.Error → FileFault
  | .noFileOrDirectory _ _ _ => .absent
  | .alreadyExists _ _ _ => .exists
  | .inappropriateType _ 20 _ => .notDirectory
  | .inappropriateType _ 21 _ => .isDirectory
  | e => .other (toString e)

/-- The answer of an operation on files. -/
def attempt {α : Type} (action : IO α) : IO (Except FileFault α) := do
  try pure (.ok (← action))
  catch e => pure (.error (faultOf e))

/-- Opens a file. -/
def openFile (path : String) : IO (Except FileFault OpenFile) := do
  match ← attempt (IO.FS.readBinFile path) with
  | .error fault => pure (.error fault)
  | .ok bytes => pure (.ok ⟨bytes.size.toUInt64, .ofBytes bytes.toList⟩)

/-- Is there anything at a path? -/
def isThere (path : String) : IO Bool := do
  match ← attempt (IO.FS.Handle.mk path .read) with
  | .error .absent => pure false
  | .error .notDirectory => pure false
  | _ => pure true

/-- The directory that a path leads to. -/
def directoryOf (path : String) : String :=
  String.ofList ((path.toList.reverse.dropWhile (· != '/')).drop 1).reverse

/-- Writes a file that only its owner may read. -/
def saveText (path text : String) : IO (Except FileFault Unit) :=
  attempt do
    let directory := directoryOf path
    if ¬ directory.isEmpty then IO.FS.createDirAll directory
    IO.FS.writeFile path text
    let nobody : IO.AccessRight := ⟨false, false, false⟩
    IO.setAccessRights path ⟨⟨true, true, false⟩, nobody, nobody⟩

/-! ## The command -/

/-- Shows how far an upload is. If the time that remains is no span, the program breaks off. -/
def report (follower : IO.Ref Follower) (progress : Progress) : IO Unit := do
  match (← follower.get).hear progress (← IO.monoNanosNow) with
  | .error _ => throw (IO.userError "the time that remains is too long")
  | .ok (line, heard) =>
    follower.set heard
    line.forM IO.eprintln

/-- Answers a question of the command. -/
def answer (follower : IO.Ref Follower) : (call : WorldCall) → IO call.Answer
  | .exchange request timeout => exchange request timeout
  | .report progress => report follower progress
  | .pause span => IO.sleep (min (span.nanoseconds / 1000000) 4294967295).toUInt32
  | .openFile path => openFile path
  | .readText path => attempt (IO.FS.readFile path)
  | .isThere path => isThere path
  | .saveText path text => saveText path text
  | .environment name => IO.getEnv name

/-- How the command is used. -/
def usage : String :=
  "Usage: boxkit-upload [--folder ID] [--session ID] [--config PATH] [--resume-attempts N] FILE"

/-- Says how the command has ended. -/
def announce : Command.Ending → IO Unit
  | .uploaded file => IO.eprintln ("upload complete: " ++ file.name ++ " " ++ file.id)
  | .informed => IO.println ("boxkit-upload 0.1.0\n" ++ usage)
  | .misused => IO.eprintln usage
  | .unsettled cause => IO.eprintln ("Error: " ++ cause.message)
  | .failed cause => IO.eprintln ("Error: " ++ cause.message)

end ResumableUpload.Main

def main (arguments : List String) : IO UInt32 := do
  let follower ← IO.mkRef ResumableUpload.Follower.fresh
  let ending ← (ResumableUpload.Command.run arguments).run (m := IO)
    (ResumableUpload.Main.answer follower)
  ResumableUpload.Main.announce ending
  pure ending.code.toUInt32
