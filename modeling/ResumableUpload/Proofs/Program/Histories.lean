import ResumableUpload.Program

/-!
# Reading histories

The histories of a program that is put together with `do`, one rule for each way to put it
together. Rewriting with these rules turns a history of such a program into histories of its parts.

A program that repeats nothing has a history whatever it is answered (`exists_history`), so what is
shown of all its histories is not shown of none. A program with a loop may go on for ever with some
answers, and whether it ends with the answers that it gets (`Ends`) is shown of its parts: of a loop
by something that gets less with every turn (`exists_turned`).
-/

namespace ResumableUpload

/-! ## Queries -/

namespace Query

variable {S : Signature} {α β : Type} {events : List (Program.Event S)}

theorem asked_told_iff {value result : α} :
    (Query.told value : Query S α).Asked events result ↔ events = [] ∧ result = value := by
  constructor
  · intro h
    cases h
    exact ⟨rfl, rfl⟩
  · rintro ⟨rfl, rfl⟩
    exact .told _

theorem asked_ask_iff {question : S.Question} {next : S.Answer question → α} {result : α} :
    (Query.ask question next).Asked events result ↔
      ∃ answer, events = [⟨question, answer⟩] ∧ result = next answer := by
  constructor
  · intro h
    cases h with
    | ask _ _ answer => exact ⟨answer, rfl, rfl⟩
  · rintro ⟨answer, rfl, rfl⟩
    exact .ask _ _ answer

/-- A query, and then a function of what it comes to. -/
theorem asked_map_iff {q : Query S α} {f : α → β} {result : β} :
    (q.map f).Asked events result ↔ ∃ value, q.Asked events value ∧ result = f value := by
  cases q with
  | told value =>
    simp only [map, asked_told_iff]
    constructor
    · rintro ⟨hevents, rfl⟩
      exact ⟨value, ⟨hevents, rfl⟩, rfl⟩
    · rintro ⟨_, ⟨hevents, rfl⟩, hresult⟩
      exact ⟨hevents, hresult⟩
  | ask question next =>
    simp only [map, asked_ask_iff]
    constructor
    · rintro ⟨answer, hevents, rfl⟩
      exact ⟨_, ⟨answer, hevents, rfl⟩, rfl⟩
    · rintro ⟨_, ⟨answer, hevents, rfl⟩, hresult⟩
      exact ⟨answer, hevents, hresult⟩

end Query

namespace Program

variable {S T : Signature} {α β : Type}

/-! ## Programs -/

/-- A program that only answers asks nothing. -/
theorem history_pure_iff {value result : α} {events : List (Event S)} :
    History (pure value : Program S α) events result ↔ events = [] ∧ result = value :=
  history_done_iff

/-- Two programs, one after the other. -/
theorem history_do_iff {p : Program S α} {f : α → Program S β} {events : List (Event S)}
    {result : β} :
    History (p >>= f) events result ↔
      ∃ before value after, events = before ++ after ∧ History p before value ∧
        History (f value) after result :=
  history_bind_iff

/-- One question. -/
theorem history_put_iff {question : S.Question} {events : List (Event S)}
    {answer : S.Answer question} :
    History (put question) events answer ↔ events = [⟨question, answer⟩] := by
  constructor
  · intro h
    obtain ⟨answer, _, rfl, hrest⟩ := history_ask_iff.1 h
    obtain ⟨rfl, rfl⟩ := history_done_iff.1 hrest
    rfl
  · rintro rfl
    exact .ask _ _ _ (.done answer)

/-- One question, and then a program that depends on the answer. -/
theorem history_put_do_iff {question : S.Question} {f : S.Answer question → Program S β}
    {events : List (Event S)} {result : β} :
    History (put question >>= f) events result ↔
      ∃ answer rest, events = ⟨question, answer⟩ :: rest ∧ History (f answer) rest result :=
  history_ask_iff

/-- A program, and then a function of its value. -/
theorem history_do_pure_iff {p : Program S α} {f : α → β} {events : List (Event S)} {result : β} :
    History (do return f (← p)) events result ↔
      ∃ value, History p events value ∧ result = f value := by
  rw [history_do_iff]
  constructor
  · rintro ⟨_, value, _, rfl, h, hrest⟩
    obtain ⟨rfl, rfl⟩ := history_pure_iff.1 hrest
    rw [List.append_nil]
    exact ⟨value, h, rfl⟩
  · rintro ⟨value, h, rfl⟩
    exact ⟨events, value, [], (List.append_nil events).symm, h, .done _⟩

/-- Each answer is the one that is given to the question after what went before. -/
def Follows (answer : List (Event S) → (question : S.Question) → S.Answer question)
    (before : List (Event S)) : List (Event S) → Prop
  | [] => True
  | event :: rest =>
    event.answer = answer before event.question ∧ Follows answer (before ++ [event]) rest

/-- What a program asks, and what it is done with, if its questions are answered so. -/
def trace [S.Loopless] (answer : List (Event S) → (question : S.Question) → S.Answer question) :
    List (Event S) → Program S α → List (Event S) × α
  | _, .done value => ([], value)
  | before, .ask question next =>
    let event : Event S := ⟨question, answer before question⟩
    let (events, result) := trace answer (before ++ [event]) (next event.answer)
    (event :: events, result)
  | _, .loop _ memory _ => (Signature.Loopless.nothing memory).elim

/-- The trace is the one history of the program in which the questions are answered so. -/
theorem trace_eq_iff [S.Loopless]
    {answer : List (Event S) → (question : S.Question) → S.Answer question}
    {before events : List (Event S)} {p : Program S α} {result : α} :
    trace answer before p = (events, result) ↔
      History p events result ∧ Follows answer before events := by
  induction p generalizing before events with
  | done value =>
    constructor
    · rintro ⟨⟩
      exact ⟨.done result, trivial⟩
    · rintro ⟨h, -⟩
      obtain ⟨rfl, rfl⟩ := history_done_iff.1 h
      rfl
  | ask question next ih =>
    constructor
    · rintro ⟨⟩
      obtain ⟨hrest, hfollows⟩ := (ih (answer before question)).1 rfl
      exact ⟨.ask question next _ hrest, rfl, hfollows⟩
    · rintro ⟨h, hfollows⟩
      obtain ⟨given, rest, rfl, hrest⟩ := history_ask_iff.1 h
      obtain ⟨hgiven, hfollows⟩ := hfollows
      obtain rfl : given = answer before question := hgiven
      simp only [trace, (ih _).2 ⟨hrest, hfollows⟩]
  | loop _ memory => exact (Signature.Loopless.nothing memory).elim

/-- Whatever answers the questions, a program that repeats nothing comes to an end. -/
theorem exists_history [S.Loopless]
    (answer : List (Event S) → (question : S.Question) → S.Answer question)
    (before : List (Event S)) (p : Program S α) :
    ∃ events result, History p events result ∧ Follows answer before events :=
  ⟨_, _, trace_eq_iff.1 rfl⟩

/-! ## Coming to an end -/

variable {answer : List (Event S) → (question : S.Question) → S.Answer question}
  {before events : List (Event S)}

/-- If its questions are answered so after what went before, the program is done sometime. -/
def Ends (answer : List (Event S) → (question : S.Question) → S.Answer question)
    (before : List (Event S)) (p : Program S α) : Prop :=
  ∃ events result, History p events result ∧ Follows answer before events

theorem follows_append_iff {rest : List (Event S)} :
    Follows answer before (events ++ rest) ↔
      Follows answer before events ∧ Follows answer (before ++ events) rest := by
  induction events generalizing before with
  | nil => simp [Follows]
  | cons event events ih => simp [Follows, ih, and_assoc]

/-- A query asks at most once, so it comes to something. -/
theorem exists_asked (answer : List (Event S) → (question : S.Question) → S.Answer question)
    (before : List (Event S)) (q : Query S α) :
    ∃ events value, q.Asked events value ∧ Follows answer before events := by
  cases q with
  | told value => exact ⟨[], value, .told value, trivial⟩
  | ask question next =>
    exact ⟨_, _, .ask question next (answer before question), rfl, trivial⟩

theorem ends_program (q : Query S α) : Ends answer before q.program := by
  obtain ⟨events, value, hasked, hfollows⟩ := exists_asked answer before q
  exact ⟨events, value, history_program_iff.2 hasked, hfollows⟩

theorem ends_pure (value : α) : Ends answer before (pure value : Program S α) :=
  ⟨[], value, .done value, trivial⟩

theorem ends_put (question : S.Question) : Ends answer before (put question) :=
  ⟨[⟨question, answer before question⟩], _, history_put_iff.2 rfl, rfl, trivial⟩

/-- Two programs, one after the other, end if each of them does. -/
theorem Ends.bind {p : Program S α} {f : α → Program S β} (h : Ends answer before p)
    (hf : ∀ events value, History p events value → Follows answer before events →
      Ends answer (before ++ events) (f value)) : Ends answer before (p >>= f) := by
  obtain ⟨first, value, hfirst, hfollows⟩ := h
  obtain ⟨rest, result, hrest, hfollows'⟩ := hf first value hfirst hfollows
  exact ⟨first ++ rest, result, history_do_iff.2 ⟨first, value, rest, rfl, hfirst, hrest⟩,
    follows_append_iff.2 ⟨hfollows, hfollows'⟩⟩

/-- The turns of a loop come to a last one if something gets less with each turn but the last. -/
theorem exists_turned {turn : S.Memory → Query S (ForInStep S.Memory)}
    (invariant : List (Event S) → S.Memory → Prop) (left : List (Event S) → S.Memory → Nat)
    (hstep : ∀ before memory events memory', invariant before memory →
      (turn memory).Asked events (.yield memory') → Follows answer before events →
      invariant (before ++ events) memory' ∧ left (before ++ events) memory' < left before memory)
    {memory : S.Memory} (h : invariant before memory) :
    ∃ events last, Turned turn memory events last ∧ Follows answer before events := by
  induction hleft : left before memory using Nat.strongRecOn generalizing before memory with
  | ind n ih =>
    obtain ⟨first, step, hasked, hfollows⟩ := exists_asked answer before (turn memory)
    cases step with
    | done last => exact ⟨first, last, .last hasked, hfollows⟩
    | yield memory' =>
      obtain ⟨hinvariant, hless⟩ := hstep before memory first memory' h hasked hfollows
      obtain ⟨rest, last, hturned, hfollows'⟩ := ih _ (hleft ▸ hless) hinvariant rfl
      exact ⟨first ++ rest, last, .again hasked hturned, follows_append_iff.2 ⟨hfollows, hfollows'⟩⟩

/-- An interpreted program ends if what each question means does. -/
theorem ends_interpret [T.Loopless]
    {meaning : (question : T.Question) → Program S (T.Answer question)}
    (h : ∀ before question, Ends answer before (meaning question)) (p : Program T α) :
    Ends answer before (p.interpret meaning) := by
  induction p generalizing before with
  | done value => exact ends_pure value
  | ask question next ih => exact (h before question).bind fun _ value _ _ => ih value
  | loop _ memory => exact (Signature.Loopless.nothing memory).elim

end Program

end ResumableUpload
