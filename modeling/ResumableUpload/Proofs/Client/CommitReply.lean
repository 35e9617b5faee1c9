import ResumableUpload.Proofs.Client.Calls
import ResumableUpload.Proofs.Text.Numbers
import ResumableUpload.Proofs.Wire.RoundTrip

/-!
# What a reply to a commit is taken for

A commit that the server has only accepted is no file, whatever the reply holds, but a failure with
a hint when to try again; one that it has granted is a file if the reply names one; and all else is
a failure without a hint. The session of an upload hands all of this on
(`RemoteSession.commit_reply_is_classified`).

The hint is a number of seconds that a header spells (`Text.SpellsSeconds`), with or without blanks
around it. A header with other than plain characters spells nothing, so the only blanks that count
are the space and the tab.
-/

namespace ResumableUpload

open Program (History history_do_pure_iff)

/-- The text is a number below `2 ^ 64` in decimal digits, perhaps behind a plus sign, between
spaces and tabs. -/
def Text.SpellsSeconds (text : String) (n : Nat) : Prop :=
  ∃ left sign digits right, text.toList = left ++ (sign ++ digits) ++ right ∧
    (∀ c ∈ left ++ right, c = ' ' ∨ c = '\t') ∧ (sign = [] ∨ sign = ['+']) ∧
    digits ≠ [] ∧ (∀ c ∈ digits, c.isDigit) ∧ Nat.ofDigitChars 10 digits 0 = n ∧ n < UInt64.size

namespace Http.Response

/-- The first header of that name asks for a wait of so many seconds. -/
def AsksFor (r : Response) (n : Nat) : Prop :=
  ∃ value, header? "retry-after" r.headers = some value ∧ Text.SpellsSeconds value n

/-- When to try again: after so many seconds as the reply asks for, or else after five. -/
def RetryAfter (r : Response) (wait : Span) : Prop :=
  (∃ n, r.AsksFor n ∧ wait = .ofSeconds n) ∨ (∀ n, ¬r.AsksFor n) ∧ wait = .ofSeconds 5

end Http.Response

namespace RemoteSession

open Client (granting granted_built_iff granted_unbuilt_iff)
open Text

variable {s : RemoteSession} {response : Http.Response} {text : String} {n : Nat} {wait : Span}

/-! ## The hint -/

/-- The characters that a header may have to be read as a text. -/
def isPlain (c : Char) : Bool := c == '\t' || (' ' ≤ c && c < '\x7f')

/-- A plain blank is a space or a tab. -/
theorem eq_of_isBlank {c : Char} (hplain : isPlain c) (hblank : isBlank c) :
    c = ' ' ∨ c = '\t' := by
  simp only [isPlain, Bool.or_eq_true, beq_iff_eq, Bool.and_eq_true, decide_eq_true_eq] at hplain
  rcases hplain with rfl | ⟨hlow, hhigh⟩
  · exact .inr rfl
  · have hlow : 32 ≤ c.toNat := hlow
    have hhigh : c.toNat < 127 := hhigh
    simp [isBlank, blankRanges] at hblank
    exact .inl (Char.toNat_inj.1 (show c.toNat = 32 by omega))

theorem isPlain_of_isDigit {c : Char} (hdigit : c.isDigit) : isPlain c := by
  have hrange : 48 ≤ c.toNat ∧ c.toNat ≤ 57 := Char.isDigit_iff_toNat.1 hdigit
  have hlow : ' ' ≤ c := show 32 ≤ c.toNat by omega
  have hhigh : c < '\x7f' := show c.toNat < 127 by omega
  simp [isPlain, hlow, hhigh]

/-- Digits without a sign are read if there is one and their number has 64 bits. -/
theorem number?_eq_some_iff {digits : List Char} :
    (if digits.isEmpty ∨ ¬digits.all Char.isDigit then none
      else (number? 10 digits).filter (· < UInt64.size)) = some n ↔
      digits ≠ [] ∧ (∀ c ∈ digits, c.isDigit) ∧ Nat.ofDigitChars 10 digits 0 = n ∧
        n < UInt64.size := by
  by_cases hread : digits.isEmpty ∨ ¬digits.all Char.isDigit
  · rw [if_pos hread]
    refine iff_of_false nofun fun ⟨hsome, hdigits, _⟩ => ?_
    rcases hread with hempty | hother
    · exact hsome (List.isEmpty_iff.1 hempty)
    · exact hother (List.all_eq_true.2 hdigits)
  · rw [if_neg hread]
    obtain ⟨hsome, hall⟩ := not_or.1 hread
    have hdigits := List.all_eq_true.1 (Decidable.not_not.1 hall)
    rw [number?_of_digits hdigits, Option.filter_eq_some_iff, Option.some.injEq, decide_eq_true_eq]
    exact ⟨fun h => ⟨fun hempty => hsome (List.isEmpty_iff.2 hempty), hdigits, h⟩, fun h => h.2.2⟩

/-- What is read as a number of seconds is digits, perhaps behind a plus sign. -/
theorem seconds?_eq_some_iff :
    seconds? text = some n ↔ ∃ sign digits, text.toList = sign ++ digits ∧
      (sign = [] ∨ sign = ['+']) ∧ digits ≠ [] ∧ (∀ c ∈ digits, c.isDigit) ∧
      Nat.ofDigitChars 10 digits 0 = n ∧ n < UInt64.size := by
  unfold seconds?
  generalize text.toList = cs
  simp only [number?_eq_some_iff]
  split
  next rest =>
    constructor
    · exact fun h => ⟨['+'], rest, rfl, .inr rfl, h⟩
    · rintro ⟨_, digits, hcs, rfl | rfl, hsome, hdigits, hrest⟩
      · -- A plus sign is no digit.
        rw [List.nil_append] at hcs
        subst hcs
        cases hdigits _ List.mem_cons_self
      · cases hcs
        exact ⟨hsome, hdigits, hrest⟩
  next hunsigned =>
    constructor
    · exact fun h => ⟨[], cs, rfl, .inl rfl, h⟩
    · rintro ⟨_, digits, rfl, rfl | rfl, h⟩
      · exact h
      · exact absurd rfl (hunsigned digits)

/-- The value of the header is read as a number of seconds exactly if it spells it. -/
theorem hinted_eq_some_iff :
    (if text.toList.all isPlain then seconds? (Text.trim text) else none) = some n ↔
      SpellsSeconds text n := by
  constructor
  · intro h
    split at h
    next hplain =>
      obtain ⟨sign, digits, htrim, hsign⟩ := seconds?_eq_some_iff.1 h
      obtain ⟨left, right, htext, hblank⟩ := exists_trimChars_eq text.toList
      rw [Text.trim, String.toList_ofList] at htrim
      refine ⟨left, sign, digits, right, htrim ▸ htext, fun c hc => ?_, hsign⟩
      have hmem : c ∈ text.toList := by
        rw [htext, List.append_assoc]
        rcases List.mem_append.1 hc with hc | hc
        · exact List.mem_append_left _ hc
        · exact List.mem_append_right _ (List.mem_append_right _ hc)
      exact eq_of_isBlank (List.all_eq_true.1 hplain c hmem) (hblank c hc)
    next => cases h
  · rintro ⟨left, sign, digits, right, htext, hblank, hsign, hsome, hdigits, hvalue⟩
    have hcore : ∀ c ∈ sign ++ digits, isPlain c ∧ isBlank c = false := by
      refine List.forall_mem_append.2
        ⟨?_, fun c hc => ⟨isPlain_of_isDigit (hdigits c hc), isBlank_of_isDigit (hdigits c hc)⟩⟩
      rcases hsign with rfl | rfl
      · exact nofun
      · exact List.forall_mem_singleton.2 ⟨rfl, rfl⟩
    have hends : ∀ c ∈ left ++ right, isPlain c ∧ isBlank c := by
      intro c hc
      rcases hblank c hc with rfl | rfl
      · exact ⟨rfl, rfl⟩
      · exact ⟨rfl, rfl⟩
    have hplain : text.toList.all isPlain := by
      obtain ⟨hleft, hright⟩ := List.forall_mem_append.1 hends
      rw [htext, List.all_append, List.all_append, Bool.and_eq_true, Bool.and_eq_true]
      exact ⟨⟨List.all_eq_true.2 fun c hc => (hleft c hc).1,
        List.all_eq_true.2 fun c hc => (hcore c hc).1⟩,
        List.all_eq_true.2 fun c hc => (hright c hc).1⟩
    have htrim : (Text.trim text).toList = sign ++ digits := by
      rw [Text.trim, String.toList_ofList, htext]
      exact trimChars_append (fun c hc => (hends c hc).2) (fun c hc => (hcore c hc).2)
        (List.append_ne_nil_of_right_ne_nil _ hsome)
    rw [if_pos hplain]
    exact seconds?_eq_some_iff.2 ⟨sign, digits, htrim, hsign, hsome, hdigits, hvalue⟩

/-- The hint is what the reply asks for, or else five seconds. -/
theorem retryHint_eq_iff : retryHint response = wait ↔ response.RetryAfter wait := by
  let hint := (Http.header? "retry-after" response.headers).bind fun text =>
    if text.toList.all isPlain then seconds? (Text.trim text) else none
  have hask : ∀ n, response.AsksFor n ↔ hint = some n := by
    intro n
    rw [Option.bind_eq_some_iff]
    exact exists_congr fun value => and_congr_right fun _ => hinted_eq_some_iff.symm
  have hhint : retryHint response = (hint.map Span.ofSeconds).getD defaultRetry := rfl
  rw [hhint, Http.Response.RetryAfter]
  simp only [hask]
  cases hint with
  | none => simp [defaultRetry, eq_comm]
  | some n => simp [eq_comm]

/-! ## The outcome -/

/-- What a reply to a commit comes to. -/
def commitReply (response : Http.Response) : Except ClientError RemoteFile :=
  if response.isSuccess then commitOutcome response
  else .error (.ofReply response.status response.body)

theorem isSuccess_iff :
    response.isSuccess = true ↔ 200 ≤ response.status ∧ response.status < 300 := by
  rw [Http.Response.isSuccess, Bool.and_eq_true, decide_eq_true_eq, decide_eq_true_eq]

/-- What an upload is told of a commit that has been answered. -/
theorem history_meaning_commit_iff {digest : Sha1.Digest} {parts : List Part}
    {request : Http.Request} {out : Except (TransferError ClientError) RemoteFile} :
    History (s.meaning (.commit digest parts))
        [World.Event.exchanged request s.client.timeout (some response)] out ↔
      s.commitRequest digest parts = .ok request ∧ out = asTransfer (commitReply response) := by
  show History (do return asTransfer (← s.commit digest parts)) _ _ ↔ _
  rw [history_do_pure_iff]
  simp only [history_commit_iff]
  have hreply : (granting (some response)).bind commitOutcome = commitReply response := by
    rw [granting, Client.granted, commitReply]
    split <;> rfl
  generalize s.commitRequest digest parts = built
  cases built with
  | error e =>
    simp only [granted_unbuilt_iff]
    exact ⟨nofun, nofun⟩
  | ok built =>
    simp only [granted_built_iff]
    constructor
    · rintro ⟨_, ⟨_, ⟨reply, heq, rfl⟩, rfl⟩, rfl⟩
      cases heq
      exact ⟨rfl, congrArg asTransfer hreply⟩
    · rintro ⟨hbuilt, rfl⟩
      cases hbuilt
      exact ⟨_, ⟨_, ⟨some response, rfl, rfl⟩, rfl⟩, congrArg asTransfer hreply.symm⟩

end RemoteSession

/-- A refusal is told with its status. -/
theorem ClientError.exists_ofReply_eq (status : Nat) (body : String) :
    ∃ code message, ofReply status body = .api status code message := by
  unfold ofReply
  split
  · split
    · exact ⟨_, _, rfl⟩
    · exact ⟨_, _, rfl⟩
  · exact ⟨_, _, rfl⟩

/-- The hint of a failure is that of a pending commit. -/
theorem TransferError.retryAfter_eq_some_iff {e : TransferError ClientError} {wait : Span} :
    e.retryAfter = some wait ↔ e = .session (.commitPending wait) := by
  cases e with
  | session cause => cases cause <;> simp [retryAfter, Fault.retryAfter, ClientError.retryAfter]
  | _ => simp [retryAfter]

namespace RemoteSession

variable {s : RemoteSession} {response : Http.Response} {file : RemoteFile} {cause : ClientError}
  {wait : Span}

/-- A granted commit fails because it is pending, or because its reply does not name a file. -/
theorem commitOutcome_eq_error (h : commitOutcome response = .error cause) :
    response.status = 202 ∧ cause = .commitPending (retryHint response) ∨
      response.status ≠ 202 ∧
        (cause = .http .decode ∨ cause = .unexpectedResponse "commit returned no file") := by
  unfold commitOutcome Client.readBody at h
  split at h
  next haccepted =>
    cases h
    exact .inl ⟨haccepted, rfl⟩
  next hstatus =>
    refine .inr ⟨hstatus, ?_⟩
    cases hdecode : FileList.codec.decode response.body with
    | error e =>
      rw [hdecode] at h
      cases h
      exact .inl rfl
    | ok files =>
      rw [hdecode] at h
      cases hentries : files.entries with
      | nil =>
        simp only [hentries, Except.error.injEq] at h
        exact .inr h.symm
      | cons first rest => simp [hentries] at h

/-- What a failed commit is told as. -/
theorem commitReply_eq_error (h : commitReply response = .error cause) :
    response.isSuccess = false ∧ (∃ code message, cause = .api response.status code message) ∨
      response.isSuccess = true ∧ response.status = 202 ∧
        cause = .commitPending (retryHint response) ∨
      response.isSuccess = true ∧ response.status ≠ 202 ∧
        (cause = .http .decode ∨ cause = .unexpectedResponse "commit returned no file") := by
  rw [commitReply] at h
  cases hsuccess : response.isSuccess with
  | false =>
    obtain ⟨code, message, hreply⟩ := ClientError.exists_ofReply_eq response.status response.body
    rw [hsuccess, hreply] at h
    cases h
    exact .inl ⟨rfl, code, message, rfl⟩
  | true =>
    rw [hsuccess] at h
    rcases commitOutcome_eq_error h with h | h
    · exact .inr (.inl ⟨rfl, h⟩)
    · exact .inr (.inr ⟨rfl, h⟩)

/-- A reply comes to a file exactly if it grants the commit, and not only accepts it, and names the
file first. -/
theorem commitReply_eq_ok_iff :
    commitReply response = .ok file ↔ (200 ≤ response.status ∧ response.status < 300) ∧
      response.status ≠ 202 ∧ ∃ files, FileList.codec.decode response.body = .ok files ∧
        files.entries.head? = some file := by
  rw [← isSuccess_iff, commitReply]
  cases response.isSuccess with
  | false => simp
  | true => simp [commitOutcome_eq_ok_iff]

/-- A reply comes to a pending commit exactly if it accepts the commit, whatever its body. -/
theorem commitReply_eq_pending_iff :
    commitReply response = .error (.commitPending wait) ↔
      response.status = 202 ∧ response.RetryAfter wait := by
  rw [← retryHint_eq_iff]
  constructor
  · intro h
    rcases commitReply_eq_error h with
      ⟨-, _, _, hother⟩ | ⟨-, hstatus, hwait⟩ | ⟨-, -, hother | hother⟩
    · cases hother
    · cases hwait
      exact ⟨hstatus, rfl⟩
    · cases hother
    · cases hother
  · rintro ⟨hstatus, rfl⟩
    have hsuccess : response.isSuccess = true := isSuccess_iff.2 (by omega)
    rw [commitReply, hsuccess, if_pos rfl, commitOutcome, if_pos hstatus]

/-- For each reply to the request for a commit there is one answer to the upload. It has a hint
exactly if the status is 202, whatever the body: so many seconds as the reply asks for, or else
five. It is a file exactly if the status is another one that grants the request and the body names
the file first. Every other answer is a failure of the session, which is a refusal, with the status,
exactly if the status does not grant the request. -/
theorem commit_reply_is_classified (s : RemoteSession) (digest : Sha1.Digest) (parts : List Part)
    (response : Http.Response) :
    ∃ answer : Except (TransferError ClientError) RemoteFile,
      (∀ request out, History (s.meaning (.commit digest parts))
          [World.Event.exchanged request s.client.timeout (some response)] out ↔
        s.commitRequest digest parts = .ok request ∧ out = answer) ∧
      (∀ wait, (∃ e, answer = .error e ∧ e.retryAfter = some wait) ↔
        response.status = 202 ∧ response.RetryAfter wait) ∧
      (∀ file, answer = .ok file ↔ (200 ≤ response.status ∧ response.status < 300) ∧
        response.status ≠ 202 ∧ ∃ files, FileList.codec.decode response.body = .ok files ∧
          files.entries.head? = some file) ∧
      ∀ e, answer = .error e → ∃ cause, e = .session cause ∧
        ((∃ status code message, cause = .api status code message) ↔
          ¬(200 ≤ response.status ∧ response.status < 300)) ∧
        ∀ status code message, cause = .api status code message → status = response.status := by
  refine ⟨asTransfer (commitReply response), fun request out => history_meaning_commit_iff,
    fun wait => ?_, fun file => ?_, fun e he => ?_⟩
  · rw [← commitReply_eq_pending_iff]
    cases commitReply response with
    | ok file => simp [asTransfer, Except.mapError]
    | error cause => simp [asTransfer, Except.mapError, TransferError.retryAfter_eq_some_iff]
  · rw [← commitReply_eq_ok_iff]
    cases commitReply response with
    | ok first => simp [asTransfer, Except.mapError]
    | error cause => simp [asTransfer, Except.mapError]
  · cases hreply : commitReply response with
    | ok file =>
      rw [hreply] at he
      cases he
    | error cause =>
      rw [hreply] at he
      cases he
      rw [← isSuccess_iff]
      refine ⟨cause, rfl, ?_⟩
      rcases commitReply_eq_error hreply with
        ⟨hsuccess, code, message, rfl⟩ | ⟨hsuccess, -, rfl⟩ | ⟨hsuccess, -, rfl | rfl⟩ <;>
      simp [hsuccess]

/-- A commit is accepted, with a hint of seven seconds and a second one behind it. The body names a
file all the same, but it is none that the upload is told of. -/
theorem accepted_commit_is_pending :
    let client : Client := ⟨"https://upload.example/api/2.0", "token", "agent", .ofSeconds 60⟩
    let s : RemoteSession := .ofInfo client ⟨"one", "upload_session", 1, 1, 0, none, none⟩
    let files : FileList := ⟨1, [⟨"f", "file", "one.bin", some 1, "", none, none, none⟩]⟩
    let response : Http.Response :=
      ⟨202, [("retry-after", " +07\t"), ("retry-after", "9")], FileList.codec.encode files⟩
    FileList.codec.decode response.body = .ok files ∧
    ∃ request, History (s.meaning (.commit (Sha1.hash []) []))
      [World.Event.exchanged request client.timeout (some response)]
      (Except.error (.session (.commitPending (.ofSeconds 7)))) := by
  intro client s files response
  have hbody : FileList.codec.decode response.body = .ok files :=
    Codec.lossless_of_keeps FileList.understands.reads (by decide) FileList.keeps files
  obtain ⟨request, hrequest, -⟩ := s.exists_commitRequest (by decide +kernel) (Sha1.hash []) []
  have hasks : response.AsksFor 7 := by
    refine ⟨" +07\t", rfl, [' '], ['+'], ['0', '7'], ['\t'], rfl, ?_, .inr rfl, by simp, ?_, rfl, ?_⟩
    · simp
    · simp
    · decide
  obtain ⟨answer, hanswer, hhint, -⟩ :=
    commit_reply_is_classified s (Sha1.hash []) [] response
  obtain ⟨e, rfl, hwait⟩ := (hhint (.ofSeconds 7)).2 ⟨rfl, .inl ⟨7, hasks, rfl⟩⟩
  obtain rfl := TransferError.retryAfter_eq_some_iff.1 hwait
  exact ⟨hbody, request, (hanswer request _).2 ⟨hrequest, rfl⟩⟩

end RemoteSession

end ResumableUpload
