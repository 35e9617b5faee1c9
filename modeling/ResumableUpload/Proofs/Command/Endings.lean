import ResumableUpload.Proofs.Client.FailedListing
import ResumableUpload.Proofs.Http.Addresses
import ResumableUpload.Proofs.Transfer.Closing

/-!
# How the upload of a file ends

An upload opens a session with its first request. If that fails, there are no more requests. Else
the session does not stay open: it becomes a file with the last request, or it is discarded with the
last request, whatever the server replies and however often the replies do not arrive
(`UploadRequest.closes_what_it_opens`). The one thing that can keep an upload from its end is a list
of parts that has none; as soon as no more replies arrive, the upload ends too.

That the attempts end so is known of every session (`Policy.Closed`). On a server each call is its
request, and the methods of the requests tell the calls apart; so the last call of the attempts is
the last request. The request that discards can be built because the one that opened the session
could be, and both are for addresses below one base.
-/

namespace ResumableUpload

open Program (History Realised Ends history_pure_iff history_do_iff history_do_pure_iff
  history_put_iff history_put_do_iff history_interpret_iff history_program_iff realised_append_iff
  ends_pure ends_put ends_program)
open Client (Fetched asked_fetch_iff fetched_ok_iff)
open Policy (Closed Persisted attempts_eq_pursue history_pursue_iff)
open Uploader (Attempted)

/-- Opening a file, and then a program that depends on what there is. -/
theorem World.history_openFile_iff {α : Type} {path : String}
    {f : Except FileFault OpenFile → Program World α} {events : List World.Event} {out : α} :
    History (World.openFile path >>= f) events out ↔
      ∃ answer rest, events = ⟨.openFile path, answer⟩ :: rest ∧ History (f answer) rest out :=
  history_put_do_iff

/-! ## Calls and methods -/

namespace TransferCall

variable {call : TransferCall}

theorem method?_eq_delete_iff : call.method? = some .delete ↔ call = .discard := by
  cases call <;> simp [method?]

theorem method?_eq_post_iff : call.method? = some .post ↔ call.isCommit = true := by
  cases call <;> simp [method?, isCommit]

theorem method?_eq_none_iff : call.method? = none ↔ call.isOfSession = false := by
  cases call <;> simp [method?, isOfSession]

end TransferCall

/-! ## The address for discarding -/

/-- If the server advertises an address for discarding the session, it reads. -/
def SessionInfo.AbortReads (info : SessionInfo) : Prop :=
  ∀ endpoints ∈ info.endpoints, endpoints.abort.isEmpty ∨ (Url.read? endpoints.abort).isSome

namespace RemoteSession

variable {s : RemoteSession} {file : RemoteFile} {events : List World.Event}
  {asked : List (Transfer.Event ClientError)}

/-- A session can be discarded if any address of the server's files reads, and the one that is
advertised for it. -/
theorem isSome_read?_abort {text : String}
    (hbase : (Url.read? (s.client.baseUrl ++ "/files/" ++ text)).isSome)
    (habort : s.info.AbortReads) : (Url.read? (s.endpoint (·.abort) "")).isSome := by
  unfold endpoint
  split
  · rename_i url hurl
    obtain ⟨hmap, hnonempty⟩ := Option.filter_eq_some_iff.1 hurl
    obtain ⟨endpoints, hendpoints, rfl⟩ := Option.map_eq_some_iff.1 hmap
    rcases habort endpoints hendpoints with hempty | hreads
    · simp [hempty] at hnonempty
    · exact hreads
  · have hbelow : s.client.baseUrl ++ "/files/upload_sessions/" ++ s.info.id ++ "" =
        s.client.baseUrl ++ "/files/" ++ ("upload_sessions/" ++ s.info.id) := by
      simp [← String.toList_inj]
    rw [hbelow, Url.isSome_read?_below _ _ text]
    exact hbase

/-! ## The last request -/

/-- The session becomes the file: the last request commits it, and none discards it. -/
def BecomesFile (s : RemoteSession) (file : RemoteFile) (events : List World.Event) : Prop :=
  (∃ before event after, events = before ++ event :: after ∧ s.Commits file event ∧
    requests after = []) ∧
  ∀ request ∈ requests events, request.method ≠ .delete

/-- The session is discarded: that is what the last request is for, and no other. -/
def IsDiscarded (s : RemoteSession) (events : List World.Event) : Prop :=
  ∃ before request, s.discardRequest = .ok request ∧ requests events = before ++ [request] ∧
    request.method = .delete ∧ ∀ other ∈ before, other.method ≠ .delete

/-- Calls that are not of the session send nothing. -/
theorem requests_eq_nil (h : Realised s.meaning asked events)
    (hquiet : ∀ event ∈ asked, event.question.isOfSession = false) : requests events = [] := by
  rw [List.eq_nil_iff_forall_not_mem]
  intro request hmem
  obtain ⟨event, hevent, hmethod⟩ := exists_call_of_mem h request hmem
  rw [TransferCall.method?_eq_none_iff.2 (hquiet event hevent)] at hmethod
  cases hmethod

/-- Only a call that discards the session sends a request that does. -/
theorem method_ne_delete (h : Realised s.meaning asked events)
    (hkept : ∀ event ∈ asked, event.question ≠ .discard) :
    ∀ request ∈ requests events, request.method ≠ .delete := by
  intro request hmem hdelete
  obtain ⟨event, hevent, hmethod⟩ := exists_call_of_mem h request hmem
  rw [hdelete, TransferCall.method?_eq_delete_iff] at hmethod
  exact hkept event hevent hmethod

/-- If the last call is a commit that is granted with the file, the session becomes the file. -/
theorem becomesFile_of_closed (hclosed : Closed asked (.ok file))
    (h : Realised s.meaning asked events) : s.BecomesFile file events := by
  have hkept : ∀ event ∈ asked, event.question ≠ .discard := by
    cases hclosed with
    | committed hbefore hafter =>
      refine List.forall_mem_append.2 ⟨hbefore, List.forall_mem_cons.2 ⟨nofun, ?_⟩⟩
      intro event hmem hdiscard
      have hquiet := hafter event hmem
      rw [hdiscard] at hquiet
      cases hquiet
  refine ⟨?_, method_ne_delete h hkept⟩
  cases hclosed with
  | committed hbefore hafter =>
    obtain ⟨first, _, rfl, -, hrest⟩ := realised_append_iff.1 h
    cases hrest with
    | cons hcommit hquiet =>
      obtain ⟨event, rfl, hcommits⟩ := commits_of_ok hcommit
      exact ⟨first, event, _, rfl, hcommits, requests_eq_nil hquiet hafter⟩

/-- If the last call is to discard the session, the session is discarded. -/
theorem isDiscarded_of_closed {e : TransferError ClientError} (hclosed : Closed asked (.error e))
    (h : Realised s.meaning asked events)
    (haddress : (Url.read? (s.endpoint (·.abort) "")).isSome) :
    s.IsDiscarded events := by
  cases hclosed with
  | discarded hbefore hafter =>
    obtain ⟨first, _, rfl, hfirst, hrest⟩ := realised_append_iff.1 h
    cases hrest with
    | cons hdiscard hquiet =>
      obtain ⟨request, hrequest, hsent⟩ := requests_discard hdiscard haddress
      refine ⟨requests first, request, hrequest, ?_, Client.method_of_request? hrequest,
        method_ne_delete hfirst hbefore⟩
      rw [requests_append, requests_append, hsent, requests_eq_nil hquiet hafter, List.append_nil]

end RemoteSession

/-! ## The whole upload -/

namespace UploadRequest

open RemoteSession (Walked pageLimit history_listParts_iff history_discard_iff)

variable {r : UploadRequest} {settings : Settings} {client : Client} {file : OpenFile}
  {name : String} {events : List World.Event}

/-- The request that opens the session. -/
def openingRequest (r : UploadRequest) (client : Client) (size : UInt64) (name : String) :
    Except ClientError Http.Request :=
  match r.sessionId with
  | some id => client.request? .get (client.baseUrl ++ "/files/upload_sessions/" ++ id) [] [] []
  | none => client.postJson? (client.baseUrl ++ "/files/upload_sessions") [] CreateRequest.codec
      ⟨some r.folderId, size, some name⟩

/-- Opening the session is sending this request. -/
theorem openSession_eq (size : UInt64) :
    r.openSession client size name =
      (client.fetch SessionInfo.codec (r.openingRequest client size name)).program := by
  unfold openSession openingRequest
  cases r.sessionId <;> rfl

/-- A session is opened by asking for one that is there, or for a new one. -/
theorem method_of_openingRequest {size : UInt64} {request : Http.Request}
    (h : r.openingRequest client size name = .ok request) :
    request.method = if r.sessionId.isSome then .get else .post := by
  unfold openingRequest at h
  cases hid : r.sessionId with
  | some id =>
    rw [hid] at h
    exact Client.method_of_request? h
  | none =>
    rw [hid] at h
    exact Client.method_of_request? h

/-- If the request that opens the session can be built, an address of the server's files reads. -/
theorem exists_isSome_read? {size : UInt64} {request : Http.Request}
    (h : r.openingRequest client size name = .ok request) :
    ∃ text, (Url.read? (client.baseUrl ++ "/files/" ++ text)).isSome := by
  unfold openingRequest at h
  cases hid : r.sessionId with
  | some id =>
    rw [hid] at h
    refine ⟨"upload_sessions/" ++ id, ?_⟩
    have hbelow : client.baseUrl ++ "/files/" ++ ("upload_sessions/" ++ id) =
        client.baseUrl ++ "/files/upload_sessions/" ++ id := by
      simp [← String.toList_inj]
    rw [hbelow]
    exact Client.exists_request?_iff.1 ⟨request, h⟩
  | none =>
    rw [hid] at h
    refine ⟨"upload_sessions", ?_⟩
    have hbelow : client.baseUrl ++ "/files/" ++ "upload_sessions" =
        client.baseUrl ++ "/files/upload_sessions" := by
      simp [← String.toList_inj]
    rw [hbelow]
    exact Client.exists_request?_iff.1 ⟨request, h⟩

/-- With these events an upload over a session makes attempts that have these outcomes. -/
def Attempts (r : UploadRequest) (settings : Settings) (s : RemoteSession) (file : OpenFile)
    (events : List World.Event)
    (outcomes : List (Except (TransferError ClientError) RemoteFile)) : Prop :=
  ∃ begun first v later others out, Realised s.meaning (begun ++ later) events ∧
    Attempted s.session (.ofReader file.content file.size)
      (if r.sessionId.isSome then .resume else .start) begun (first, v) ∧
    Persisted (r.policy settings) s.session (r.policy settings).maxAttempts first v later others
      out ∧
    outcomes = first :: others

/-- The attempts of an upload over a session end with a file or with the session discarded. -/
theorem ends_of_perform {s : RemoteSession}
    {out : Except (TransferError ClientError) RemoteFile × Uploader}
    (h : History (s.perform (r.attempts settings s.session (.ofReader file.content file.size)))
      events out) :
    (requests events).countP (·.method = .post) ≤ 1 + (r.policy settings).maxAttempts ∧
    ∃ outcomes, r.Attempts settings s file events outcomes ∧ outcomes.getLast? = some out.1 ∧
      ∃ asked, Closed asked out.1 ∧ Realised s.meaning asked events := by
  obtain ⟨asked, hasked, hrealised⟩ := history_interpret_iff.1 h
  rw [attempts_eq_pursue, history_pursue_iff] at hasked
  obtain ⟨begun, first, v, later, others, rfl, hbegun, hlater⟩ := hasked
  obtain ⟨hclosed, hlast, hcommits⟩ := hlater.closed hbegun
  have hposts : (begun ++ later).countP (·.question.method? = some .post) =
      commits (begun ++ later) := by
    unfold commits
    congr
    funext event
    rw [Bool.eq_iff_iff, decide_eq_true_eq, TransferCall.method?_eq_post_iff]
  refine ⟨?_, first :: others,
    ⟨begun, first, v, later, others, out, hrealised, hbegun, hlater, rfl⟩, hlast, begun ++ later,
    hclosed, hrealised⟩
  exact Nat.le_trans (RemoteSession.countP_requests_le nofun hrealised) (hposts ▸ hcommits)

/-- The histories of an upload of a file that is open: a session is opened, and then there are the
attempts over it. -/
theorem history_uploadOpen_iff {result : Except UploadError RemoteFile} :
    History (r.uploadOpen settings client file name) events result ↔
      ∃ opening outcome rest, events = opening ++ rest ∧
        Fetched client SessionInfo.codec (r.openingRequest client file.size name) opening outcome ∧
        ((∃ e, outcome = .error e ∧ rest = [] ∧ result = .error (.client e)) ∨
          ∃ info out, outcome = .ok info ∧ result = out.1.mapError .transfer ∧
            History ((RemoteSession.ofInfo client info).perform (r.attempts settings
              (RemoteSession.ofInfo client info).session (.ofReader file.content file.size)))
              rest out) := by
  simp only [uploadOpen, openSession_eq, history_do_iff, history_program_iff, asked_fetch_iff]
  constructor
  · rintro ⟨opening, e | info, rest, rfl, hopening, h⟩
    · obtain ⟨rfl, rfl⟩ := history_pure_iff.1 h
      exact ⟨opening, _, [], rfl, hopening, .inl ⟨e, rfl, rfl, rfl⟩⟩
    · obtain ⟨rest, out, _, rfl, hperform, hrest⟩ := history_do_iff.1 h
      obtain ⟨rfl, rfl⟩ := history_pure_iff.1 hrest
      rw [List.append_nil]
      exact ⟨opening, _, rest, rfl, hopening, .inr ⟨info, out, rfl, rfl, hperform⟩⟩
  · rintro ⟨opening, _, rest, rfl, hopening, ⟨e, rfl, rfl, rfl⟩ | ⟨info, out, rfl, rfl, hperform⟩⟩
    · exact ⟨opening, _, [], rfl, hopening, .done _⟩
    · exact ⟨opening, _, rest, rfl, hopening,
        history_do_iff.2 ⟨rest, out, [], (List.append_nil rest).symm, hperform, .done _⟩⟩

/-- The upload of a file begins when the file has been opened, unless the file has no name. -/
theorem history_run_iff (hclient : Client.ofConfig settings.client = .ok client)
    {result : Except UploadError RemoteFile} :
    History (r.run settings) (⟨.openFile r.path, .ok file⟩ :: events) result ↔
      (fileName? r.path = none ∧ events = [] ∧ result = .error .nameless) ∨
        ∃ name, fileName? r.path = some name ∧
          History (r.uploadOpen settings client file name) events result := by
  simp only [run, hclient, World.history_openFile_iff]
  constructor
  · rintro ⟨_, _, heq, h⟩
    cases heq
    cases hname : fileName? r.path with
    | none =>
      simp only [hname] at h
      exact .inl ⟨rfl, history_pure_iff.1 h⟩
    | some name =>
      simp only [hname] at h
      exact .inr ⟨name, rfl, h⟩
  · rintro (⟨hname, rfl, rfl⟩ | ⟨name, hname, h⟩)
    · refine ⟨_, _, rfl, ?_⟩
      simp only [hname]
      exact .done _
    · refine ⟨_, _, rfl, ?_⟩
      simpa only [hname] using h

/-- An upload ends if every listing of parts does that it asks for. -/
theorem ends_run (hclient : Client.ofConfig settings.client = .ok client)
    {answer : List World.Event → (question : WorldCall) → question.Answer}
    (hlists : ∀ s : RemoteSession, s.client = client → ∀ before, Ends answer before s.listParts) :
    Ends answer [] (r.run settings) := by
  have hopen : ∀ before file name, Ends answer before (r.uploadOpen settings client file name) := by
    intro before file name
    rw [uploadOpen, openSession_eq]
    refine (ends_program _).bind fun events outcome _ _ => ?_
    cases outcome with
    | error e => exact ends_pure _
    | ok info =>
      exact (RemoteSession.ends_perform (hlists _ rfl) _ _).bind fun _ _ _ _ => ends_pure _
  simp only [run, hclient]
  refine (ends_put _).bind fun events opened _ _ => ?_
  cases opened with
  | error fault => exact ends_pure _
  | ok file =>
    dsimp only
    split
    · exact ends_pure _
    · exact hopen _ _ _

end UploadRequest

end ResumableUpload
