import ResumableUpload.Proofs.Client.Exchanges
import ResumableUpload.Proofs.Json.Lists
import ResumableUpload.Proofs.Wire.RoundTrip

/-!
# What a refusal says

A refusal of a server may have any body. If the body reads as an error that says something
(`ErrorBody.Speaks`), its code and its message are those of the error; if it does not, or if there
is neither a code nor a message in it, nothing of it is lost, because then the whole body is the
message. The status is that of the refusal, whatever status the body names.

Main statement: `ClientError.refusal_keeps_its_information`. Of a body that is JSON it also tells
when it reads as an error: if it is an object or a list with the fields of one
(`ErrorBody.IsTold`). A text that does not begin as one of these never does.
-/

namespace ResumableUpload

open Json

/-! ## Bodies that read as an error -/

namespace ErrorBody

variable {b : ErrorBody} {body : String}

/-- There is a code or a message. -/
def Speaks (b : ErrorBody) : Prop := b.code ≠ "" ∨ b.message ≠ ""

instance : Decidable b.Speaks := inferInstanceAs (Decidable (_ ∨ _))

/-- The text is an object or a list with the fields of the error. -/
def IsTold (b : ErrorBody) (body : String) : Prop :=
  fields.Told (b.kind, b.status, b.code, b.message, b.requestId, ()) body

/-- A body that is a value reads as the error whose fields it tells. -/
theorem decode_eq_ok_iff {tree : Tree} (h : IsText tree body) (b : ErrorBody) :
    codec.decode body = .ok b ↔ b.IsTold body :=
  Codec.decode_record_iff_told fits (fun _ => rfl) (fun _ => rfl) h b

/-- The code and the message of an object are the strings that stand there under these names. -/
theorem says_of_decode {members : List (String × List Char)} (hobject : IsObject members body)
    (h : codec.decode body = .ok b) :
    Says "code" members b.code ∧ Says "message" members b.message := by
  obtain ⟨-, -, hcode, hmessage, -⟩ := (Codec.decode_record_eq_ok_iff fits (fun _ => rfl)
    (fun _ => rfl) hobject b).1 h
  exact ⟨(Field.gets_textOrEmpty_iff hobject _ _ _).1 hcode,
    (Field.gets_textOrEmpty_iff hobject _ _ _).1 hmessage⟩

/-- A text that begins neither as an object nor as a list reads as no error. -/
theorem decode_ne_of_begins (h : ∀ c ∈ (skipBlank body.toList).head?, c ≠ '\x7b' ∧ c ≠ '[')
    (b : ErrorBody) : codec.decode body ≠ .ok b := by
  intro hread
  obtain ⟨c, hc, hbracket⟩ := Codec.begins_of_decode_record hread
  exact hbracket.elim (h c hc).1 (h c hc).2

/-- The empty body reads as no error. -/
theorem ne_empty_of_decode (h : codec.decode body = .ok b) : body ≠ "" := by
  rintro rfl
  refine decode_ne_of_begins ?_ b h
  intro c hc
  cases hc

end ErrorBody

/-! ## The error of a refusal -/

namespace ClientError

variable {b : ErrorBody} {body : String}

/-- An error that says something is handed on. -/
theorem ofReply_of_speaks (status : Nat) (hread : ErrorBody.codec.decode body = .ok b)
    (h : b.Speaks) : ofReply status body = .api status b.code b.message := by
  have hsays : ¬(b.code.isEmpty ∧ b.message.isEmpty) := by
    intro hempty
    obtain ⟨hcode, hmessage⟩ := hempty
    exact h.elim (· (String.isEmpty_iff.1 hcode)) (· (String.isEmpty_iff.1 hmessage))
  simp only [ofReply, hread, if_neg hsays]

/-- The fields of an error can also stand in a list, and those behind its last item are left out. -/
example : ofReply 400 "[\"error\",409,\"bad_digest\"]" = .api 400 "bad_digest" "" := by
  decide +kernel

/-- Without one, the body is handed on. -/
theorem ofReply_of_silent (status : Nat)
    (h : ∀ b, ErrorBody.codec.decode body = .ok b → ¬b.Speaks) :
    ofReply status body = .api status "" body := by
  unfold ofReply
  split
  next b hread =>
    obtain ⟨hcode, hmessage⟩ := not_or.1 (h b hread)
    rw [Decidable.not_not.1 hcode, Decidable.not_not.1 hmessage]
    rfl
  next => rfl

/-- An error that is written comes back from any refusal, also if it names another status. -/
theorem ofReply_encode (status : Nat) (h : b.Speaks) :
    ofReply status (ErrorBody.codec.encode b) = .api status b.code b.message :=
  have hkept : ErrorBody.codec.Lossless :=
    Codec.lossless_of_keeps ErrorBody.understands.reads (by decide) ErrorBody.keeps
  ofReply_of_speaks status (hkept b) h

/-- The error of a refusal has its status. Code and message are those of the body exactly if the
body reads as an error that has one of them; else there is no code, and the message is the whole
body. So both are empty for the empty body only. A body that is a value reads as the errors whose
fields it tells, and those of an object are what it says under their names; a text that begins
neither as an object nor as a list never reads. This error, and no other, is what a request comes to
that is refused with this body. -/
theorem refusal_keeps_its_information (status : Nat) (body : String) :
    (∃ code message, ofReply status body = .api status code message ∧
      ((∃ b, ErrorBody.codec.decode body = .ok b ∧ b.code = code ∧ b.message = message) ↔
        ∃ b, ErrorBody.codec.decode body = .ok b ∧ b.Speaks) ∧
      ((¬∃ b, ErrorBody.codec.decode body = .ok b ∧ b.Speaks) → code = "" ∧ message = body) ∧
      (code = "" ∧ message = "" ↔ body = "")) ∧
    (∀ tree, IsText tree body → ∀ b, ErrorBody.codec.decode body = .ok b ↔ b.IsTold body) ∧
    (∀ members, IsObject members body → ∀ b, ErrorBody.codec.decode body = .ok b →
      Says "code" members b.code ∧ Says "message" members b.message) ∧
    ((∀ c ∈ (skipBlank body.toList).head?, c ≠ '\x7b' ∧ c ≠ '[') →
      ∀ b, ErrorBody.codec.decode body ≠ .ok b) ∧
    ∀ (c : Client) (request : Http.Request) (response : Http.Response),
      response.isSuccess = false → response.status = status → response.body = body →
      ∀ out, (c.sendGranted (.ok request)).Asked
        [World.Event.exchanged request c.timeout (some response)] out ↔
          out = .error (ofReply status body) := by
  refine ⟨?informed, fun tree h => ErrorBody.decode_eq_ok_iff h,
    fun members hobject b => ErrorBody.says_of_decode hobject,
    fun hbegins b => ErrorBody.decode_ne_of_begins hbegins b, ?refused⟩
  case informed =>
    by_cases hspeaks : ∃ b, ErrorBody.codec.decode body = .ok b ∧ b.Speaks
    · obtain ⟨b, hread, hb⟩ := hspeaks
      refine ⟨b.code, b.message, ofReply_of_speaks status hread hb, ?_, ?_, ?_⟩
      · exact iff_of_true ⟨b, hread, rfl, rfl⟩ ⟨b, hread, hb⟩
      · exact fun hsilent => absurd ⟨b, hread, hb⟩ hsilent
      · refine iff_of_false ?_ (ErrorBody.ne_empty_of_decode hread)
        intro hempty
        exact hb.elim (· hempty.1) (· hempty.2)
    · have hsilent : ∀ b, ErrorBody.codec.decode body = .ok b → ¬b.Speaks :=
        fun b hread hb => hspeaks ⟨b, hread, hb⟩
      refine ⟨"", body, ofReply_of_silent status hsilent, ?_, fun _ => ⟨rfl, rfl⟩, by simp⟩
      refine iff_of_false ?_ hspeaks
      intro h
      obtain ⟨b, hread, -, hmessage⟩ := h
      -- Such an error would say nothing, and so the body would be empty; but then it does not read.
      have hempty : b.message = "" := Decidable.not_not.1 (not_or.1 (hsilent b hread)).2
      exact ErrorBody.ne_empty_of_decode hread (hmessage.symm.trans hempty)
  case refused =>
    intro c request response hrefused hstatus htext out
    rw [Client.asked_refused_iff hrefused, hstatus, htext]

/-- An error with another status than the refusal, and with a member that is unknown; and the plain
text of another refusal. -/
theorem refusals_with_and_without_an_error :
    let client : Client := ⟨"https://upload.example", "token", "agent", .ofSeconds 60⟩
    let gone := "\x7b\"status\":500,\"code\":\"gone\",\"help\":null\x7d"
    let text := "Bad Gateway"
    ErrorBody.codec.decode gone = .ok ⟨"", 500, "gone", "", ""⟩ ∧
    (∃ members, IsObject members gone ∧ Says "code" members "gone" ∧ Says "message" members "") ∧
    (∀ b, ErrorBody.codec.decode text ≠ .ok b) ∧
    ∃ request,
      (client.sendGranted (.ok request)).Asked
        [World.Event.exchanged request client.timeout (some ⟨410, [], gone⟩)]
        (.error (.api 410 "gone" "")) ∧
      (client.sendGranted (.ok request)).Asked
        [World.Event.exchanged request client.timeout (some ⟨502, [], text⟩)]
        (.error (.api 502 "" text)) := by
  intro client gone text
  have hread : ErrorBody.codec.decode gone = .ok ⟨"", 500, "gone", "", ""⟩ :=
    eq_ok_of_toOption (by decide +kernel)
  have hzeros : Digits ['0', '0'] :=
    List.forall_mem_cons.2 ⟨rfl, List.forall_mem_singleton.2 rfl⟩
  have hwhole : WholeText ['5', '0', '0'] := .digits rfl (by decide) hzeros
  have hnumber : ∃ tree, Spells tree ['5', '0', '0'] :=
    ⟨_, .positive ⟨_, .parts hwhole .none .none⟩⟩
  have hobject : IsObject [("status", ['5', '0', '0']), ("code", writeString "gone"),
      ("help", ['n', 'u', 'l', 'l'])] gone :=
    .blanks blank_nil (objectText_cons lead_nil "status" ⟨rfl, hnumber⟩ <|
      objectText_cons lead_comma "code" ⟨rfl, _, spells_written "gone"⟩ <|
      objectText_cons lead_comma "help" ⟨rfl, _, .nullWord⟩ objectText_nil) blank_nil
  have hbegins : ∀ c ∈ (skipBlank text.toList).head?, c ≠ '\x7b' ∧ c ≠ '[' := by
    have hhead : (skipBlank text.toList).head? = some 'B' := by decide +kernel
    rw [hhead]
    rintro _ ⟨⟩
    decide
  obtain ⟨request, -⟩ : ∃ request, client.request? .get "https://upload.example" [] [] [] =
    .ok request := Client.exists_request?_iff.2 (by decide +kernel)
  obtain ⟨-, -, hsays, -, hgone⟩ := refusal_keeps_its_information 410 gone
  obtain ⟨-, -, -, hunlike, htext⟩ := refusal_keeps_its_information 502 text
  have hsilent := hunlike hbegins
  refine ⟨hread, ⟨_, hobject, hsays _ hobject _ hread⟩, hsilent, request, ?_, ?_⟩
  · rw [hgone client request ⟨410, [], gone⟩ rfl rfl (by decide +kernel),
      ofReply_of_speaks 410 hread (by decide)]
  · rw [htext client request ⟨502, [], text⟩ rfl rfl (by decide +kernel),
      ofReply_of_silent 502 fun b hb => absurd hb (hsilent b)]

end ClientError

end ResumableUpload
