import ResumableUpload.Command.Upload

/-!
# Command-line arguments

One file, and options with a value, either behind an equals sign or as the next argument. An
argument that begins with a dash is no value unless it is the dash alone. Behind `--` everything is
a file. Arguments are taken from left to right; the value of one is checked before the next one is
looked at, and a request for help or for the version ends the reading.
-/

namespace ResumableUpload

/-- What the command line asks for. -/
structure Arguments where
  file : String
  folder : String
  session : Option String
  config : Option String
  resumeAttempts : Option UInt32
  deriving DecidableEq, Repr

namespace Arguments

/-- What can be given a value. -/
inductive Item
  | file
  | folder
  | session
  | config
  | resumeAttempts
  deriving DecidableEq, Repr

/-- The items with a name. -/
def named? : String → Option Item
  | "folder" => some .folder
  | "session" => some .session
  | "config" => some .config
  | "resume-attempts" => some .resumeAttempts
  | _ => none

/-- What has been given so far. -/
structure Draft where
  file : Option String
  folder : Option String
  session : Option String
  config : Option String
  resumeAttempts : Option UInt32
  deriving DecidableEq, Repr

/-- An item that has been seen but not checked, with its value if that has been seen. -/
structure Pending where
  item : Item
  value : Option String
  deriving DecidableEq, Repr

/-- What the command line comes to. -/
inductive Outcome
  | upload (arguments : Arguments)
  /-- Help or the version has been asked for. -/
  | information
  /-- The arguments are wrong. -/
  | usage
  deriving DecidableEq, Repr

/-- A number of attempts: decimal digits, perhaps behind a sign. -/
def attempts? (text : String) : Option UInt32 :=
  let (negative, digits) := match text.toList with
    | '-' :: rest => (true, rest)
    | '+' :: rest => (false, rest)
    | all => (false, all)
  if digits.isEmpty then none
  else
    match Text.number? 10 digits with
    | none => none
    | some n => if n < UInt32.size ∧ (negative → n = 0) then some n.toUInt32 else none

/-- A path, which is not empty. -/
def path? (text : String) : Option String := if text.isEmpty then none else some text

/-- Takes the value of an item, if it has none yet and the value is right. -/
def Draft.take (d : Draft) (item : Item) (value : String) : Option Draft :=
  match item with
  | .file =>
    if d.file.isSome then none else (path? value).map fun v => { d with file := some v }
  | .folder => if d.folder.isSome then none else some { d with folder := some value }
  | .session => if d.session.isSome then none else some { d with session := some value }
  | .config =>
    if d.config.isSome then none else (path? value).map fun v => { d with config := some v }
  | .resumeAttempts =>
    if d.resumeAttempts.isSome then none
    else (attempts? value).map fun v => { d with resumeAttempts := some v }

/-- Checks what is pending. -/
def Draft.settle (d : Draft) : Option Pending → Option Draft
  | none => some d
  | some ⟨_, none⟩ => none
  | some ⟨item, some value⟩ => d.take item value

/-- The end of the arguments: there must be a file. -/
def Draft.finish (d : Draft) : Outcome :=
  match d.file with
  | none => .usage
  | some file => .upload ⟨file, d.folder.getD "0", d.session, d.config, d.resumeAttempts⟩

/-- The name and the value of an option, from what stands behind its dashes. -/
def splitOption (text : List Char) : String × Option String :=
  match text.takeWhile (· != '='), text.dropWhile (· != '=') with
  | name, [] => (String.ofList name, none)
  | name, _ :: value => (String.ofList name, some (String.ofList value))

/-- How far the reading is. Behind a double dash `onlyFiles` holds. -/
structure State where
  onlyFiles : Bool
  pending : Option Pending
  draft : Draft
  deriving DecidableEq, Repr

namespace State

/-- The item that waits for its value. -/
def waiting (s : State) : Option Item :=
  match s.pending with
  | some ⟨item, none⟩ => some item
  | _ => none

/-- Checks what is pending. -/
def settle (s : State) : Except Outcome Draft :=
  match s.draft.settle s.pending with
  | none => .error .usage
  | some draft => .ok draft

/-- An argument that is no option. -/
def plain (s : State) (argument : String) : Except Outcome State := do
  let draft ← s.settle
  if draft.file.isSome then .error .usage
  else .ok { s with pending := some ⟨.file, some argument⟩, draft }

/-- A request for help or for the version. -/
def inform (s : State) : Except Outcome State := do
  let _ ← s.settle
  .error .information

/-- An option that takes a value. -/
def option (s : State) (item : Item) (value : Option String) : Except Outcome State := do
  let draft ← s.settle
  match value with
  | none => .ok { s with pending := some ⟨item, none⟩, draft }
  | some value =>
    match draft.take item value with
    | none => .error .usage
    | some draft => .ok { s with pending := none, draft }

/-- An option by its long name. -/
def long (s : State) (name : String) (value : Option String) : Except Outcome State :=
  if (name = "help" ∨ name = "version") ∧ value = none then s.inform
  else
    match named? name with
    | some item => s.option item value
    | none => .error .usage

/-- Takes an argument, or ends the reading. -/
def step (s : State) (argument : String) : Except Outcome State :=
  if s.onlyFiles then s.plain argument
  else
    match argument.toList with
    | ['-', '-'] => .ok { s with onlyFiles := true }
    | '-' :: '-' :: text =>
      let (name, value) := splitOption text
      s.long name value
    | '-' :: letter :: _ => if letter = 'h' ∨ letter = 'V' then s.inform else .error .usage
    | _ =>
      match s.waiting with
      | some item => .ok { s with pending := some ⟨item, some argument⟩ }
      | none => s.plain argument

/-- The end of the arguments. -/
def finish (s : State) : Outcome :=
  match s.settle with
  | .error outcome => outcome
  | .ok draft => draft.finish

end State

/-- Before the first argument. -/
def State.initial : State := ⟨false, none, ⟨none, none, none, none, none⟩⟩

/-- Reads a command line without the name of the program. -/
def ofList (arguments : List String) : Outcome :=
  match arguments.foldlM State.step .initial with
  | .error outcome => outcome
  | .ok s => s.finish

/-- The upload that is asked for. -/
def request (a : Arguments) : UploadRequest := ⟨a.file, a.folder, a.session, a.resumeAttempts⟩

end Arguments

end ResumableUpload
