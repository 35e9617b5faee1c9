import ResumableUpload.Proofs.Transfer.Committing

/-!
# Honest sessions

An honest session lists exactly the parts that it holds, in any order, keeps a part that it has
taken, and answers with a record of what it was sent. It may fail all the same, and a part whose
transfer fails it may hold or not (`Honest`). What it does with a second part of one offset is left
open: it may keep either record or both (`Takes`).

Each answer that is a failure is a fault (`faults`). The failing reads of the stream are counted in
the stream (`Reader.failures`).
-/

namespace ResumableUpload

/-- What a session holds when it has taken a part: what it held at other offsets, and a record of
the part. -/
structure Takes (bytes : Bytes) (offset : Nat) (held held' : List Part) : Prop where
  keeps : ∀ p ∈ held, p.offset.toNat ≠ offset → p ∈ held'
  holds : ∃ p ∈ held', p.Echoes bytes offset
  only : ∀ p ∈ held', p ∈ held ∨ p.Echoes bytes offset

variable {ε : Type}

/-- What an honest session may answer, and what it holds before and after. -/
inductive Honest : List Part → Transfer.Event ε → List Part → Prop
  | listed {held listing : List Part} (hlisting : listing.Perm held) :
      Honest held (.listed (.ok listing)) held
  | unlisted {held : List Part} {cause : ε} :
      Honest held (.listed (.error (.session cause))) held
  | taken {held held' : List Part} {bytes : Bytes} {offset : Nat} {fileSize : UInt64} {p : Part}
      (hechoes : p.Echoes bytes offset) (htakes : Takes bytes offset held held') :
      Honest held (.sent bytes offset fileSize (.ok p)) held'
  /-- The part does not arrive. -/
  | refused {held : List Part} {bytes : Bytes} {offset : Nat} {fileSize : UInt64} {cause : ε} :
      Honest held (.sent bytes offset fileSize (.error (.session cause))) held
  /-- The part arrives, and the answer does not. -/
  | lost {held held' : List Part} {bytes : Bytes} {offset : Nat} {fileSize : UInt64} {cause : ε}
      (htakes : Takes bytes offset held held') :
      Honest held (.sent bytes offset fileSize (.error (.session cause))) held'
  | committed {held : List Part} {digest : Sha1.Digest} {parts : List Part} {file : RemoteFile} :
      Honest held (.committed digest parts (.ok file)) held
  | uncommitted {held : List Part} {digest : Sha1.Digest} {parts : List Part} {cause : ε} :
      Honest held (.committed digest parts (.error (.session cause))) held
  | discarded {held held' : List Part} {answer : Except (TransferError ε) Bool} :
      Honest held (.discarded answer) held'
  | reported {held : List Part} {progress : Progress} : Honest held (.reported progress) held
  | paused {held : List Part} {span : Span} : Honest held (.paused span) held

/-- Honest answers, one after the other. -/
inductive Honestly : List Part → List (Transfer.Event ε) → List Part → Prop
  | nil {held : List Part} : Honestly held [] held
  | cons {held held' held'' : List Part} {event : Transfer.Event ε}
      {rest : List (Transfer.Event ε)} (hfirst : Honest held event held')
      (hrest : Honestly held' rest held'') : Honestly held (event :: rest) held''

/-- Honest answers to some questions and then to some others. -/
theorem honestly_append_iff {held held' : List Part} {before after : List (Transfer.Event ε)} :
    Honestly held (before ++ after) held' ↔
      ∃ between, Honestly held before between ∧ Honestly between after held' := by
  induction before generalizing held with
  | nil =>
    constructor
    · intro h
      exact ⟨held, .nil, h⟩
    · rintro ⟨_, ⟨⟩, h⟩
      exact h
  | cons event rest ih =>
    constructor
    · intro h
      cases h with
      | cons hfirst hrest =>
        obtain ⟨between, hbefore, hafter⟩ := ih.1 hrest
        exact ⟨between, .cons hfirst hbefore, hafter⟩
    · rintro ⟨between, hbefore, hafter⟩
      cases hbefore with
      | cons hfirst hrest => exact .cons hfirst (ih.2 ⟨between, hrest, hafter⟩)

section

variable {held held' : List Part} {bytes : Bytes} {offset : Nat} {fileSize : UInt64}
  {rest : List (Transfer.Event ε)}

/-- A report changes nothing. -/
theorem Honestly.of_reported {progress : Progress}
    (h : Honestly held (.reported progress :: rest) held') : Honestly held rest held' := by
  cases h with
  | cons hfirst hrest =>
    cases hfirst
    exact hrest

/-- A pause changes nothing. -/
theorem Honestly.of_paused {span : Span} (h : Honestly held (.paused span :: rest) held') :
    Honestly held rest held' := by
  cases h with
  | cons hfirst hrest =>
    cases hfirst
    exact hrest

/-- A session that answers with a record has taken the part. -/
theorem Honestly.of_sent_ok {p : Part}
    (h : Honestly held (.sent bytes offset fileSize (.ok p) :: rest) held') :
    p.Echoes bytes offset ∧
      ∃ between, Takes bytes offset held between ∧ Honestly between rest held' := by
  cases h with
  | cons hfirst hrest =>
    cases hfirst with
    | taken hechoes htakes => exact ⟨hechoes, _, htakes, hrest⟩

/-- A session that fails to take a part may have taken it. -/
theorem Honestly.of_sent_error {e : TransferError ε}
    (h : Honestly held [.sent bytes offset fileSize (.error e)] held') :
    e.isResumable = true ∧ (held' = held ∨ Takes bytes offset held held') := by
  cases h with
  | cons hfirst hrest =>
    cases hrest
    cases hfirst with
    | refused => exact ⟨rfl, .inl rfl⟩
    | lost htakes => exact ⟨rfl, .inr htakes⟩

/-- A session that fails to commit holds what it held. -/
theorem Honestly.of_committed_error {digest : Sha1.Digest} {parts : List Part}
    {e : TransferError ε} (h : Honestly held [.committed digest parts (.error e)] held') :
    e.isResumable = true ∧ held' = held := by
  cases h with
  | cons hfirst hrest =>
    cases hrest
    cases hfirst
    exact ⟨rfl, rfl⟩

/-- A session that fails to list holds what it held. -/
theorem Honestly.of_listed_error {e : TransferError ε}
    (h : Honestly held [.listed (.error e)] held') : e.isResumable = true ∧ held' = held := by
  cases h with
  | cons hfirst hrest =>
    cases hrest
    cases hfirst
    exact ⟨rfl, rfl⟩

/-- A session that lists its parts lists all of them and nothing else. -/
theorem Honestly.of_listed_ok {listing : List Part}
    (h : Honestly held (.listed (.ok listing) :: rest) held') :
    listing.Perm held ∧ Honestly held rest held' := by
  cases h with
  | cons hfirst hrest =>
    cases hfirst with
    | listed hlisting => exact ⟨hlisting, hrest⟩

end

/-! ## Faults -/

/-- A failure to list, to take or to commit. -/
def Transfer.Event.isFault : Transfer.Event ε → Bool
  | ⟨.listParts, .error _⟩ => true
  | ⟨.sendPart _ _ _, .error _⟩ => true
  | ⟨.commit _ _, .error _⟩ => true
  | _ => false

/-- How many of the answers are failures. -/
def faults (events : List (Transfer.Event ε)) : Nat := events.countP (·.isFault)

theorem faults_append (before after : List (Transfer.Event ε)) :
    faults (before ++ after) = faults before + faults after :=
  List.countP_append

/-- A pause is no fault. -/
theorem faults_paused {span : Span} (rest : List (Transfer.Event ε)) :
    faults (.paused span :: rest) = faults rest := by
  apply List.countP_cons_of_neg
  exact Bool.false_ne_true

/-! ## What is held of the parts -/

/-- A record of the part at an index is held. -/
def Layout.Held (l : Layout) (i : Nat) (held : List Part) : Prop :=
  ∃ p ∈ held, p.offset.toNat = i * l.partSize

variable {l : Layout} {held held' : List Part} {i j : Nat}

/-- When a part of the layout is taken, it is held, and so is every part that was held before; and
what is held stays on the grid. -/
theorem Takes.holds_parts (h : Takes (l.piece j).chunk (j * l.partSize) held held')
    (hj : j < l.count) (hlength : l.reach (j + 1) ≤ l.content.length)
    (hgrid : ∀ p ∈ held, p.OnGrid l.size l.partSize) :
    (∀ p ∈ held', p.OnGrid l.size l.partSize) ∧ l.Held j held' ∧
      ∀ i, l.Held i held → l.Held i held' := by
  obtain ⟨q, hq, hechoes⟩ := h.holds
  have hheld : l.Held j held' := ⟨q, hq, (Layout.onGrid_of_echoes hj hlength hechoes).1⟩
  refine ⟨fun p hp => ?_, hheld, ?_⟩
  · rcases h.only p hp with hold | hnew
    · exact hgrid p hold
    · exact (Layout.onGrid_of_echoes hj hlength hnew).2
  · rintro i ⟨p, hp, hoffset⟩
    by_cases hij : p.offset.toNat = j * l.partSize
    · obtain rfl := l.mul_inj (hoffset.symm.trans hij)
      exact hheld
    · exact ⟨p, h.keeps p hp hij, hoffset⟩

end ResumableUpload
