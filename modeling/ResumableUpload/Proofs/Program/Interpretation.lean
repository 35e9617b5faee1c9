import ResumableUpload.Proofs.Program.Histories

/-!
# Histories of interpreted programs

When each question of a program is replaced by a program, a history of the whole is a history of
the program with each answer brought about by a history of what the question means
(`Program.history_interpret_iff`). So what is shown of the program for all answers, and of each
meaning, can be put together.
-/

namespace ResumableUpload.Program

variable {S T : Signature} {α : Type}
  {meaning : (question : S.Question) → Program T (S.Answer question)}
  {asked before after : List (Event S)} {events : List (Event T)}

/-- Each of the answers is brought about by what its question means, one after the other. -/
inductive Realised (meaning : (question : S.Question) → Program T (S.Answer question)) :
    List (Event S) → List (Event T) → Prop
  | nil : Realised meaning [] []
  | cons {event : Event S} {asked : List (Event S)} {first rest : List (Event T)}
      (hfirst : History (meaning event.question) first event.answer)
      (hrest : Realised meaning asked rest) : Realised meaning (event :: asked) (first ++ rest)

/-- The histories of an interpreted program. -/
theorem history_interpret_iff [S.Loopless] {p : Program S α} {result : α} :
    History (p.interpret meaning) events result ↔
      ∃ asked, History p asked result ∧ Realised meaning asked events := by
  induction p generalizing events with
  | done value =>
    constructor
    · intro h
      obtain ⟨rfl, rfl⟩ := history_done_iff.1 h
      exact ⟨[], .done _, .nil⟩
    · rintro ⟨asked, h, hrealised⟩
      obtain ⟨rfl, rfl⟩ := history_done_iff.1 h
      cases hrealised
      exact .done _
  | ask question next ih =>
    simp only [interpret, history_bind_iff, ih]
    constructor
    · rintro ⟨first, answer, rest, rfl, hfirst, asked, h, hrealised⟩
      exact ⟨⟨question, answer⟩ :: asked, .ask question next answer h, .cons hfirst hrealised⟩
    · rintro ⟨_, h, hrealised⟩
      obtain ⟨answer, asked, rfl, hnext⟩ := history_ask_iff.1 h
      cases hrealised with
      | cons hfirst hrest => exact ⟨_, answer, _, rfl, hfirst, asked, hnext, hrest⟩
  | loop _ memory => exact (Signature.Loopless.nothing memory).elim

/-- Answers that follow one another are brought about one after the other. -/
theorem realised_append_iff :
    Realised meaning (before ++ after) events ↔
      ∃ first rest, events = first ++ rest ∧ Realised meaning before first ∧
        Realised meaning after rest := by
  induction before generalizing events with
  | nil =>
    constructor
    · intro h
      exact ⟨[], events, rfl, .nil, h⟩
    · rintro ⟨_, rest, rfl, hnil, h⟩
      cases hnil
      exact h
  | cons event before ih =>
    constructor
    · intro h
      cases h with
      | @cons _ _ first rest hfirst hrest =>
        obtain ⟨middle, rest, rfl, hbefore, hafter⟩ := ih.1 hrest
        exact ⟨first ++ middle, rest, (List.append_assoc first middle rest).symm,
          .cons hfirst hbefore, hafter⟩
    · rintro ⟨_, rest, rfl, hbefore, hafter⟩
      cases hbefore with
      | @cons _ _ first middle hfirst hbefore =>
        rw [List.append_assoc]
        exact .cons hfirst (ih.2 ⟨middle, rest, rfl, hbefore, hafter⟩)

end ResumableUpload.Program
