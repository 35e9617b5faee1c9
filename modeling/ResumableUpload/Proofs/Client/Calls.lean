import ResumableUpload.Proofs.Client.Walk
import ResumableUpload.Proofs.Program.Interpretation
import ResumableUpload.Proofs.Transfer.Course

/-!
# The calls of a session on a server

What the calls of an upload come to on a server. Each of the four calls of a session sends requests
of one method only, and a call that is not for the list of parts sends one request at most
(`RemoteSession.requests_meaning`). So the methods of the requests tell which calls were made
(`Realised.exists_call`), and a commit that yields a file is a request that the server has granted
with that file (`RemoteSession.commits_of_ok`).
-/

namespace ResumableUpload

open Program (History Realised Ends history_put_iff history_do_pure_iff history_program_iff
  ends_program ends_pure ends_put ends_interpret)
open Query (asked_map_iff)

/-- The method of the requests that a call sends. -/
def TransferCall.method? : TransferCall → Option Http.Method
  | .listParts => some .get
  | .sendPart _ _ _ => some .put
  | .commit _ _ => some .post
  | .discard => some .delete
  | .report _ => none
  | .pause _ => none

/-! ## The calls -/

namespace RemoteSession

open Client (Sent Granted Fetched asked_send_iff asked_sendGranted_iff asked_fetch_iff
  granted_built_iff granted_unbuilt_iff bind_granting_eq_ok_iff)

variable {s : RemoteSession} {events : List World.Event}

theorem history_sendPart_iff {bytes : Bytes} {offset : Nat} {fileSize : UInt64}
    {out : Except ClientError Part} :
    History (s.sendPart bytes offset fileSize) events out ↔
      ∃ reply, Fetched s.client PartReply.codec (s.partRequest bytes offset fileSize) events reply ∧
        out = reply.map (·.part) := by
  rw [sendPart, history_program_iff, asked_map_iff]
  simp only [asked_fetch_iff]

theorem history_commit_iff {digest : Sha1.Digest} {parts : List Part}
    {out : Except ClientError RemoteFile} :
    History (s.commit digest parts) events out ↔
      ∃ reply, Granted s.client (s.commitRequest digest parts) events reply ∧
        out = reply.bind commitOutcome := by
  rw [commit, history_program_iff, asked_map_iff]
  simp only [asked_sendGranted_iff]

theorem history_discard_iff {out : Except ClientError Bool} :
    History s.discard events out ↔
      ∃ reply, Sent s.client s.discardRequest events reply ∧ out = reply.map (·.isSuccess) := by
  rw [discard, history_program_iff, asked_map_iff]
  simp only [asked_send_iff]

/-- If its address reads, a part can be sent. -/
theorem exists_partRequest (h : (Url.read? (s.endpoint (·.uploadPart) "")).isSome) (bytes : Bytes)
    (offset : Nat) (fileSize : UInt64) :
    ∃ request, s.partRequest bytes offset fileSize = .ok request ∧ request.method = .put := by
  obtain ⟨request, h⟩ := Client.exists_request?_iff.2 h
  exact ⟨request, h, Client.method_of_request? h⟩

/-- If its address reads, the commit can be sent. -/
theorem exists_commitRequest (h : (Url.read? (s.endpoint (·.commit) "/commit")).isSome)
    (digest : Sha1.Digest) (parts : List Part) :
    ∃ request, s.commitRequest digest parts = .ok request ∧ request.method = .post := by
  obtain ⟨request, h⟩ := Client.exists_request?_iff.2 h
  exact ⟨request, h, Client.method_of_request? h⟩

/-- The requests for the pages of the list are all for something that is there. -/
theorem Walked.method_eq {offset limit : UInt64} {result : Except ClientError (List Part)}
    (h : Walked s offset limit events result) :
    ∀ request ∈ requests events, request.method = .get := by
  induction h with
  | failed hpage => exact Client.method_of_mem_requests hpage.requests_eq
  | misled hpage => exact Client.method_of_mem_requests hpage.requests_eq
  | last hpage => exact Client.method_of_mem_requests hpage.requests_eq
  | more hpage _ _ _ ih =>
    rw [requests_append]
    exact List.forall_mem_append.2 ⟨Client.method_of_mem_requests hpage.requests_eq, ih⟩

/-- The request of a call that is not for the list of parts, if it has one and it can be built. -/
def request? (s : RemoteSession) : TransferCall → Option Http.Request
  | .listParts => none
  | .sendPart bytes offset fileSize => (s.partRequest bytes offset fileSize).toOption
  | .commit digest parts => (s.commitRequest digest parts).toOption
  | .discard => s.discardRequest.toOption
  | .report _ => none
  | .pause _ => none

/-- A call sends its request and nothing else; only the list of parts takes several. -/
theorem requests_meaning {call : TransferCall} {answer : call.Answer ClientError}
    (h : History (s.meaning call) events answer) (hcall : call ≠ .listParts) :
    requests events = (s.request? call).toList := by
  cases call with
  | listParts => exact absurd rfl hcall
  | sendPart bytes offset fileSize =>
    obtain ⟨result, hsend, -⟩ := history_do_pure_iff.1 h
    obtain ⟨reply, hfetched, -⟩ := history_sendPart_iff.1 hsend
    exact hfetched.requests_eq
  | commit digest parts =>
    obtain ⟨result, hcommit, -⟩ := history_do_pure_iff.1 h
    obtain ⟨reply, hgranted, -⟩ := history_commit_iff.1 hcommit
    exact hgranted.requests_eq
  | discard =>
    obtain ⟨result, hdiscard, -⟩ := history_do_pure_iff.1 h
    obtain ⟨reply, hsent, -⟩ := history_discard_iff.1 hdiscard
    exact hsent.requests_eq
  | report progress =>
    rw [history_put_iff.1 h]
    rfl
  | pause span =>
    rw [history_put_iff.1 h]
    rfl

/-- The request of a call has the method of the call. -/
theorem method_of_call {call : TransferCall} {request : Http.Request}
    (h : s.request? call = some request) : call.method? = some request.method := by
  have hmethod : ∀ {method url headers body pairs},
      (s.client.request? method url headers body pairs).toOption = some request →
      some method = some request.method :=
    fun h => congrArg some (Client.method_of_request? (eq_ok_of_toOption h)).symm
  cases call with
  | listParts => cases h
  | sendPart => exact hmethod h
  | commit => exact hmethod h
  | discard => exact hmethod h
  | report => cases h
  | pause => cases h

/-- What a call sends has the method of the call. -/
theorem method_of_meaning {call : TransferCall} {answer : call.Answer ClientError}
    (h : History (s.meaning call) events answer) :
    ∀ request ∈ requests events, call.method? = some request.method := by
  intro request hmem
  by_cases hcall : call = .listParts
  · subst hcall
    obtain ⟨result, hlist, -⟩ := history_do_pure_iff.1 h
    rw [(history_listParts_iff.1 hlist).method_eq request hmem]
    rfl
  · rw [requests_meaning h hcall, Option.mem_toList] at hmem
    exact method_of_call hmem

/-! ## Whether the calls end -/

section

variable {answer : List World.Event → (question : WorldCall) → question.Answer}

/-- Every call ends if listing the parts does. -/
theorem ends_meaning (h : ∀ before, Ends answer before s.listParts) (before : List World.Event)
    (call : TransferCall) : Ends answer before (s.meaning call) := by
  cases call with
  | listParts => exact (h before).bind fun _ _ _ _ => ends_pure _
  | sendPart => exact (ends_program _).bind fun _ _ _ _ => ends_pure _
  | commit => exact (ends_program _).bind fun _ _ _ _ => ends_pure _
  | discard => exact (ends_program _).bind fun _ _ _ _ => ends_pure _
  | report => exact ends_put _
  | pause => exact ends_put _

/-- Whatever an upload asks of its session, it ends if listing the parts does. -/
theorem ends_perform {α : Type} (h : ∀ before, Ends answer before s.listParts)
    (p : Program (Transfer ClientError) α) (before : List World.Event) :
    Ends answer before (s.perform p) :=
  ends_interpret (ends_meaning h) p

end

/-! ## The two calls that end a session -/

/-- The exchange commits parts, and the server has granted it with the file: not only accepted it,
and the file is the first that the reply names. -/
def Commits (s : RemoteSession) (file : RemoteFile) (event : World.Event) : Prop :=
  ∃ digest parts request response files, s.commitRequest digest parts = .ok request ∧
    request.method = .post ∧
    event = .exchanged request s.client.timeout (some response) ∧ response.isSuccess = true ∧
    response.status ≠ 202 ∧ FileList.codec.decode response.body = .ok files ∧
    files.entries.head? = some file

/-- The outcome of a commit is a file. -/
theorem commitOutcome_eq_ok_iff {response : Http.Response} {file : RemoteFile} :
    commitOutcome response = .ok file ↔ response.status ≠ 202 ∧
      ∃ files, FileList.codec.decode response.body = .ok files ∧
        files.entries.head? = some file := by
  unfold commitOutcome Client.readBody
  by_cases haccepted : response.status = 202
  · simp [haccepted]
  · rw [if_neg haccepted]
    cases hdecode : FileList.codec.decode response.body with
    | error e => simp
    | ok files =>
      cases hentries : files.entries with
      | nil => simp [hentries]
      | cons first rest => simp [hentries, haccepted]

theorem asTransfer_eq_ok_iff {α : Type} {result : Except ClientError α} {value : α} :
    asTransfer result = .ok value ↔ result = .ok value := by
  cases result <;> simp [asTransfer, Except.mapError]

/-- A commit that yields a file is one exchange, granted with it. -/
theorem commits_of_ok {digest : Sha1.Digest} {parts : List Part} {file : RemoteFile}
    (h : History (s.meaning (.commit digest parts)) events (Except.ok file)) :
    ∃ event, events = [event] ∧ s.Commits file event := by
  obtain ⟨result, hcommit, hresult⟩ := history_do_pure_iff.1 h
  obtain ⟨reply, hgranted, rfl⟩ := history_commit_iff.1 hcommit
  have hfile := asTransfer_eq_ok_iff.1 hresult.symm
  cases hbuilt : s.commitRequest digest parts with
  | error e =>
    rw [hbuilt, granted_unbuilt_iff] at hgranted
    obtain ⟨-, rfl⟩ := hgranted
    cases hfile
  | ok request =>
    rw [hbuilt, granted_built_iff] at hgranted
    obtain ⟨_, rfl, rfl⟩ := hgranted
    obtain ⟨response, rfl, hsuccess, houtcome⟩ := bind_granting_eq_ok_iff.1 hfile
    obtain ⟨hstatus, files, hdecode, hhead⟩ := commitOutcome_eq_ok_iff.1 houtcome
    exact ⟨_, rfl, digest, parts, request, response, files, hbuilt,
      Client.method_of_request? hbuilt, rfl, hsuccess, hstatus, hdecode, hhead⟩

/-- Discarding the session sends its request, if the address reads. -/
theorem requests_discard {answer : TransferCall.discard.Answer ClientError}
    (h : History (s.meaning .discard) events answer)
    (haddress : (Url.read? (s.endpoint (·.abort) "")).isSome) :
    ∃ request, s.discardRequest = .ok request ∧ requests events = [request] := by
  obtain ⟨request, hrequest⟩ := Client.exists_request?_iff.2 haddress
  refine ⟨request, hrequest, ?_⟩
  rw [requests_meaning h nofun, request?, discardRequest, hrequest]
  rfl

/-! ## Several calls -/

variable {asked : List (Transfer.Event ClientError)}

/-- Every request belongs to a call of its method. -/
theorem exists_call_of_mem (h : Realised s.meaning asked events) :
    ∀ request ∈ requests events,
      ∃ event ∈ asked, event.question.method? = some request.method := by
  induction h with
  | nil => exact nofun
  | @cons event asked first rest hfirst _ ih =>
    intro request hmem
    rw [requests_append] at hmem
    rcases List.mem_append.1 hmem with hmem | hmem
    · exact ⟨event, List.mem_cons_self, method_of_meaning hfirst request hmem⟩
    · obtain ⟨event, hevent, hmethod⟩ := ih request hmem
      exact ⟨event, List.mem_cons_of_mem _ hevent, hmethod⟩

/-- There are no more requests of a method than calls of it, unless it is that of the listing. -/
theorem countP_requests_le {method : Http.Method} (hmethod : method ≠ .get)
    (h : Realised s.meaning asked events) :
    (requests events).countP (·.method = method) ≤
      asked.countP (·.question.method? = some method) := by
  induction h with
  | nil => exact Nat.le_refl 0
  | @cons event asked first rest hfirst _ ih =>
    have hone : (requests first).countP (·.method = method) ≤
        if event.question.method? = some method then 1 else 0 := by
      split
      · rename_i hcall
        have hlist : event.question ≠ .listParts := by
          intro heq
          rw [heq] at hcall
          exact hmethod (Option.some.inj hcall).symm
        rw [requests_meaning hfirst hlist]
        exact Nat.le_trans List.countP_le_length Option.length_toList_le
      · rename_i hcall
        rw [Nat.le_zero, List.countP_eq_zero]
        intro request hmem heq
        rw [method_of_meaning hfirst request hmem, of_decide_eq_true heq] at hcall
        exact hcall rfl
    rw [requests_append, List.countP_append, List.countP_cons]
    simp only [decide_eq_true_eq]
    omega

end RemoteSession

end ResumableUpload
