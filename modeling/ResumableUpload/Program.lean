/-!
# Programs that ask questions

A program is done, with a value, or asks a question of the world around it and goes on with the
answer, or repeats a query until one of its turns is the last. What the questions are, and of which
type each one's answer is, a `Signature` says, and also what a program keeps in mind from one turn
to the next. No loop counts its turns: whether it ends is up to the answers.

The same program can be read in three ways. `Program.run` performs it in a monad, given a way to
answer each question there; `Program.interpret` replaces each question by a program that asks other
questions; and `Program.History` is the relation between a program, a list of questions with their
answers, and the value that the program then is done with. Whatever the world does, what a program
does in it until it is done is one of its histories, so a statement about every behaviour of a
server is a statement about all histories. A program that goes on for ever, or waits for ever for an
answer, has none.
-/

namespace ResumableUpload

/-- Questions, the type of each one's answer, and what a program keeps in mind while it repeats a
query. -/
structure Signature where
  Question : Type
  Answer : Question → Type
  Memory : Type

/-- Programs of the signature repeat nothing. -/
class Signature.Loopless (S : Signature) : Prop where
  nothing : S.Memory → False

/-- One question at most, and what its answer comes to. -/
inductive Query (S : Signature) (α : Type)
  | told (value : α)
  | ask (question : S.Question) (next : S.Answer question → α)

/-- A program that asks questions of a signature and ends with a value. -/
inductive Program (S : Signature) (α : Type)
  | done (value : α)
  | ask (question : S.Question) (next : S.Answer question → Program S α)
  /-- Each turn says what the next one is to remember, or what is left to remember after it. -/
  | loop (turn : S.Memory → Query S (ForInStep S.Memory)) (memory : S.Memory)
      (next : S.Memory → Program S α)

namespace Query

variable {S : Signature} {α β : Type}

/-- The query, and then a function of what it comes to. -/
def map (f : α → β) : Query S α → Query S β
  | .told value => .told (f value)
  | .ask question next => .ask question fun answer => f (next answer)

/-- The program of one query. -/
def program : Query S α → Program S α
  | .told value => .done value
  | .ask question next => .ask question fun answer => .done (next answer)

/-- Performs a query in a monad that answers its question. -/
def run {m : Type → Type} [Monad m] (answer : (q : S.Question) → m (S.Answer q)) :
    Query S α → m α
  | .told value => pure value
  | .ask question next => do pure (next (← answer question))

end Query

namespace Program

variable {S T : Signature} {α β γ : Type}

/-- Goes on with another program when the first one is done. -/
def bind (p : Program S α) (f : α → Program S β) : Program S β :=
  match p with
  | .done value => f value
  | .ask question next => .ask question fun answer => (next answer).bind f
  | .loop turn memory next => .loop turn memory fun last => (next last).bind f

instance : Monad (Program S) where
  pure := .done
  bind := bind

/-- The program of one question. -/
def put (question : S.Question) : Program S (S.Answer question) := .ask question .done

theorem bind_done (p : Program S α) : p.bind .done = p := by
  induction p with
  | done _ => rfl
  | ask _ _ ih => simp only [bind]; congr; funext answer; exact ih answer
  | loop _ _ _ ih => simp only [bind]; congr; funext last; exact ih last

theorem bind_assoc (p : Program S α) (f : α → Program S β) (g : β → Program S γ) :
    (p.bind f).bind g = p.bind fun a => (f a).bind g := by
  induction p with
  | done _ => rfl
  | ask _ _ ih => simp only [bind]; congr; funext answer; exact ih answer
  | loop _ _ _ ih => simp only [bind]; congr; funext last; exact ih last

instance : LawfulMonad (Program S) :=
  LawfulMonad.mk' (Program S) bind_done (fun _ _ => rfl) bind_assoc

/-! ## Performing a program -/

/-- Performs the turns of a loop in a monad, until one is the last. -/
def runLoop {m : Type → Type} [Monad m] (answer : (q : S.Question) → m (S.Answer q))
    (turn : S.Memory → Query S (ForInStep S.Memory)) (memory : S.Memory) : m S.Memory :=
  have : Nonempty S.Memory := ⟨memory⟩
  repeatM (fun memory => do
    match ← (turn memory).run answer with
    | .yield memory => pure (Sum.inl memory)
    | .done last => pure (Sum.inr last)) memory

/-- Performs a program in a monad that answers its questions. -/
def run {m : Type → Type} [Monad m] (answer : (q : S.Question) → m (S.Answer q)) :
    Program S α → m α
  | .done value => pure value
  | .ask question next => do run answer (next (← answer question))
  | .loop turn memory next => do run answer (next (← runLoop answer turn memory))

/-- The program with each question replaced by a program. -/
def interpret [S.Loopless] (meaning : (q : S.Question) → Program T (S.Answer q)) :
    Program S α → Program T α
  | .done value => .done value
  | .ask question next => (meaning question).bind fun answer => interpret meaning (next answer)
  | .loop _ memory _ => (Signature.Loopless.nothing memory).elim

/-! ## Histories -/

/-- A question and its answer. -/
structure Event (S : Signature) where
  question : S.Question
  answer : S.Answer question

end Program

/-- The query may ask this, if anything, and be answered so; then it comes to the value. -/
inductive Query.Asked {S : Signature} {α : Type} :
    Query S α → List (Program.Event S) → α → Prop
  | told (value : α) : Asked (.told value) [] value
  | ask (question : S.Question) (next : S.Answer question → α) (answer : S.Answer question) :
      Asked (.ask question next) [⟨question, answer⟩] (next answer)

namespace Program

variable {S : Signature} {α β : Type}

/-- The turns of a loop may ask these questions, from what is remembered first to what is remembered
last. -/
inductive Turned (turn : S.Memory → Query S (ForInStep S.Memory)) :
    S.Memory → List (Event S) → S.Memory → Prop
  | last {memory last : S.Memory} {events : List (Event S)}
      (hturn : (turn memory).Asked events (.done last)) : Turned turn memory events last
  | again {memory memory' last : S.Memory} {first rest : List (Event S)}
      (hturn : (turn memory).Asked first (.yield memory'))
      (hrest : Turned turn memory' rest last) : Turned turn memory (first ++ rest) last

/-- The program may ask these questions, in this order, and be given these answers; then it is done
with the value. -/
inductive History : Program S α → List (Event S) → α → Prop
  | done (value : α) : History (.done value) [] value
  | ask (question : S.Question) (next : S.Answer question → Program S α)
      (answer : S.Answer question) {events : List (Event S)} {value : α}
      (rest : History (next answer) events value) :
      History (.ask question next) (⟨question, answer⟩ :: events) value
  | loop {turn : S.Memory → Query S (ForInStep S.Memory)} {memory last : S.Memory}
      {next : S.Memory → Program S α} {events rest : List (Event S)} {value : α}
      (hturned : Turned turn memory events last) (hrest : History (next last) rest value) :
      History (.loop turn memory next) (events ++ rest) value

theorem history_done_iff {value result : α} {events : List (Event S)} :
    History (.done value) events result ↔ events = [] ∧ result = value := by
  constructor
  · intro h; cases h; exact ⟨rfl, rfl⟩
  · rintro ⟨rfl, rfl⟩; exact .done _

theorem history_ask_iff {question : S.Question} {next : S.Answer question → Program S α}
    {events : List (Event S)} {result : α} :
    History (.ask question next) events result ↔
      ∃ answer rest, events = ⟨question, answer⟩ :: rest ∧ History (next answer) rest result := by
  constructor
  · intro h
    cases h with
    | ask _ _ answer rest => exact ⟨answer, _, rfl, rest⟩
  · rintro ⟨answer, rest, rfl, h⟩; exact .ask _ _ _ h

theorem history_loop_iff {turn : S.Memory → Query S (ForInStep S.Memory)} {memory : S.Memory}
    {next : S.Memory → Program S α} {events : List (Event S)} {result : α} :
    History (.loop turn memory next) events result ↔
      ∃ turned last rest, events = turned ++ rest ∧ Turned turn memory turned last ∧
        History (next last) rest result := by
  constructor
  · intro h
    cases h with
    | loop hturned hrest => exact ⟨_, _, _, rfl, hturned, hrest⟩
  · rintro ⟨turned, last, rest, rfl, hturned, hrest⟩; exact .loop hturned hrest

/-- A query is one program among others. -/
theorem history_program_iff {q : Query S α} {events : List (Event S)} {result : α} :
    History q.program events result ↔ q.Asked events result := by
  cases q with
  | told value =>
    rw [Query.program, history_done_iff]
    constructor
    · rintro ⟨rfl, rfl⟩; exact .told _
    · rintro ⟨⟩; exact ⟨rfl, rfl⟩
  | ask question next =>
    rw [Query.program, history_ask_iff]
    constructor
    · rintro ⟨answer, _, rfl, hrest⟩
      obtain ⟨rfl, rfl⟩ := history_done_iff.1 hrest
      exact .ask question next answer
    · intro h
      cases h with
      | ask _ _ answer => exact ⟨answer, [], rfl, .done _⟩

/-- A history of two programs, one after the other, is a history of each. -/
theorem history_bind_iff {p : Program S α} {f : α → Program S β} {events : List (Event S)}
    {result : β} :
    History (p.bind f) events result ↔
      ∃ before value after, events = before ++ after ∧ History p before value ∧
        History (f value) after result := by
  induction p generalizing events with
  | done value =>
    constructor
    · intro h; exact ⟨[], value, events, rfl, .done _, h⟩
    · rintro ⟨before, value', after, rfl, h, h'⟩
      obtain ⟨rfl, rfl⟩ := history_done_iff.1 h
      exact h'
  | ask question next ih =>
    simp only [bind]
    constructor
    · intro h
      obtain ⟨answer, rest, rfl, tail⟩ := history_ask_iff.1 h
      obtain ⟨before, value, after, rfl, first, second⟩ := (ih answer).1 tail
      exact ⟨⟨question, answer⟩ :: before, value, after, rfl, .ask _ _ _ first, second⟩
    · rintro ⟨before, value, after, rfl, first, second⟩
      obtain ⟨answer, rest, rfl, tail⟩ := history_ask_iff.1 first
      exact .ask _ _ _ ((ih answer).2 ⟨rest, value, after, rfl, tail, second⟩)
  | loop turn memory next ih =>
    simp only [bind, history_loop_iff]
    constructor
    · rintro ⟨turned, last, rest, rfl, hturned, hrest⟩
      obtain ⟨before, value, after, rfl, first, second⟩ := (ih last).1 hrest
      exact ⟨turned ++ before, value, after, (List.append_assoc _ _ _).symm,
        ⟨turned, last, before, rfl, hturned, first⟩, second⟩
    · rintro ⟨_, value, after, rfl, ⟨turned, last, before, rfl, hturned, first⟩, second⟩
      exact ⟨turned, last, before ++ after, List.append_assoc _ _ _, hturned,
        (ih last).2 ⟨before, value, after, rfl, first, second⟩⟩

end Program

end ResumableUpload
