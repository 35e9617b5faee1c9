import ResumableUpload.Proofs.Client.Calls
import ResumableUpload.Proofs.Transfer.Rounds

/-!
# Listings that fail

A page of the list of parts can fail in four ways: there is no reply, the server refuses, its reply
does not read, or it reports a length for its pages that is none (`RemoteSession.PageFails`). These
are all the ways (`RemoteSession.pageFails_iff`).

Main statement: a failed page is the last thing that a listing asks for, and its error is the result
of the listing, however many pages were good before. A resumption then ends with this error in the
state in which it began; it has asked the server for nothing but pages, has reported nothing, and
has been told of no part (`failed_listing_changes_nothing`).
-/

namespace ResumableUpload

open Program (History Realised Ends history_do_pure_iff history_interpret_iff)

namespace RemoteSession

open Client (Fetched granted_of_refusal granted_of_success granting granting_some readBody
  fetched_built_iff fetched_ok_iff)

variable {s : RemoteSession} {offset limit : UInt64} {event : World.Event}
  {events : List World.Event} {e : ClientError} {out : Except ClientError PartsPage}
  {result : Except ClientError (List Part)}

/-! ## Pages that fail -/

/-- How the request for a page of a length fails, if there is such a reply, or none. -/
inductive PageFails (limit : UInt64) : Option Http.Response → ClientError → Prop
  | dropped : PageFails limit none (.http .request)
  | refused {response : Http.Response} (hrefused : response.isSuccess = false) :
      PageFails limit (some response) (.ofReply response.status response.body)
  | unreadable {response : Http.Response} {cause : Json.ReadError}
      (hgranted : response.isSuccess = true)
      (hdecode : PartsPage.codec.decode response.body = .error cause) :
      PageFails limit (some response) (.http .decode)
  | misleading {response : Http.Response} {page : PartsPage} {reported : Int64}
      (hgranted : response.isSuccess = true)
      (hdecode : PartsPage.codec.decode response.body = .ok page)
      (hlimit : page.limit = some reported) (hreported : reported.toInt ≤ 0) :
      PageFails limit (some response) (.invalidPaging ("server reported limit " ++
        toString reported.toInt ++ " for a request of " ++ toString limit))

/-- The page reports a length that is none. -/
theorem pageLength_eq_error_iff {page : PartsPage} :
    pageLength page limit = .error e ↔ ∃ reported, page.limit = some reported ∧
      reported.toInt ≤ 0 ∧ e = .invalidPaging ("server reported limit " ++
        toString reported.toInt ++ " for a request of " ++ toString limit) := by
  unfold pageLength
  cases hlimit : page.limit with
  | none => simp
  | some reported =>
    by_cases hpos : 0 < reported.toInt
    · simp [hpos, Int.not_le.2 hpos]
    · simp [hpos, Int.not_lt.1 hpos, eq_comm]

/-- A page fails in one of the four ways, or it is read and has a length. -/
theorem pageFails_iff {reply : Option Http.Response} :
    PageFails limit reply e ↔
      ((granting reply).bind (readBody PartsPage.codec)).bind (pageLength · limit) = .error e := by
  constructor
  · intro h
    cases h with
    | dropped => rfl
    | refused hrefused =>
      rw [granting_some, granted_of_refusal hrefused]
      rfl
    | unreadable hgranted hdecode =>
      simp only [granting_some, granted_of_success hgranted, Except.bind, readBody, hdecode]
    | misleading hgranted hdecode hlimit hreported =>
      simp only [granting_some, granted_of_success hgranted, Except.bind, readBody, hdecode]
      exact pageLength_eq_error_iff.2 ⟨_, hlimit, hreported, rfl⟩
  · intro h
    cases reply with
    | none =>
      cases h
      exact .dropped
    | some response =>
      cases hsuccess : response.isSuccess with
      | false =>
        rw [granting_some, granted_of_refusal hsuccess] at h
        cases h
        exact .refused hsuccess
      | true =>
        simp only [granting_some, granted_of_success hsuccess, Except.bind, readBody] at h
        cases hdecode : PartsPage.codec.decode response.body with
        | error cause =>
          rw [hdecode] at h
          cases h
          exact .unreadable hsuccess hdecode
        | ok page =>
          rw [hdecode] at h
          obtain ⟨reported, hlimit, hreported, rfl⟩ := pageLength_eq_error_iff.1 h
          exact .misleading hsuccess hdecode hlimit hreported

/-- The event is the request for a page. -/
def AsksForPage (s : RemoteSession) (event : World.Event) : Prop :=
  ∃ offset limit request reply, s.pageRequest offset limit = .ok request ∧
    event = .exchanged request s.client.timeout reply

/-- The event is the request for a page, and it fails. -/
def FailsPage (s : RemoteSession) (e : ClientError) (event : World.Event) : Prop :=
  ∃ offset limit request reply, s.pageRequest offset limit = .ok request ∧
    event = .exchanged request s.client.timeout reply ∧ PageFails limit reply e

/-! ## The walk -/

/-- A page that is fetched is asked for with its request. -/
theorem asksForPage_of_fetched
    (h : Fetched s.client PartsPage.codec (s.pageRequest offset limit) events out) :
    ∀ event ∈ events, s.AsksForPage event := by
  cases hrequest : s.pageRequest offset limit with
  | error cause =>
    rw [hrequest] at h
    simp [h.eq_nil_of_unbuilt]
  | ok request =>
    rw [hrequest] at h
    obtain ⟨reply, rfl, -⟩ := fetched_built_iff.1 h
    exact List.forall_mem_singleton.2 ⟨offset, limit, request, reply, hrequest, rfl⟩

/-- A walk asks for nothing but pages. -/
theorem Walked.asksForPage (h : Walked s offset limit events result) :
    ∀ event ∈ events, s.AsksForPage event := by
  induction h with
  | failed hpage => exact asksForPage_of_fetched hpage
  | misled hpage => exact asksForPage_of_fetched hpage
  | last hpage => exact asksForPage_of_fetched hpage
  | more hpage _ _ _ ih => exact List.forall_mem_append.2 ⟨asksForPage_of_fetched hpage, ih⟩

/-- A page that fails is the only thing that is exchanged for it, and either it is not read or it
has no length. -/
theorem FailsPage.of_fetched (h : s.FailsPage e event)
    (hpage : Fetched s.client PartsPage.codec (s.pageRequest offset limit) events out)
    (hmem : event ∈ events) : events = [event] ∧ out.bind (pageLength · limit) = .error e := by
  obtain ⟨offset', limit', request, reply, hrequest, rfl, hfails⟩ := h
  cases hrequest' : s.pageRequest offset limit with
  | error cause =>
    rw [hrequest'] at hpage
    rw [hpage.eq_nil_of_unbuilt] at hmem
    cases hmem
  | ok request' =>
    rw [hrequest'] at hpage
    obtain ⟨reply', rfl, rfl⟩ := fetched_built_iff.1 hpage
    cases List.mem_singleton.1 hmem
    obtain ⟨rfl, rfl⟩ := pageRequest_inj hrequest hrequest'
    exact ⟨rfl, pageFails_iff.1 hfails⟩

/-- A walk ends with the page that fails, and with its error. -/
theorem Walked.ends_with_failure (h : Walked s offset limit events result)
    (hmem : event ∈ events) (hfails : s.FailsPage e event) :
    result = .error e ∧ ∃ before, events = before ++ [event] := by
  induction h with
  | failed hpage =>
    obtain ⟨rfl, hout⟩ := hfails.of_fetched hpage hmem
    cases hout
    exact ⟨rfl, [], rfl⟩
  | misled hpage hlength =>
    obtain ⟨rfl, hout⟩ := hfails.of_fetched hpage hmem
    cases hlength.symm.trans hout
    exact ⟨rfl, [], rfl⟩
  | last hpage hlength =>
    obtain ⟨-, hout⟩ := hfails.of_fetched hpage hmem
    cases hlength.symm.trans hout
  | @more offset limit length first rest page result hpage hlength _ _ ih =>
    rcases List.mem_append.1 hmem with hmem | hmem
    · obtain ⟨-, hout⟩ := hfails.of_fetched hpage hmem
      cases hlength.symm.trans hout
    · obtain ⟨rfl, before, rfl⟩ := ih hmem
      exact ⟨rfl, first ++ before, (List.append_assoc _ _ _).symm⟩

section

variable {answer : List World.Event → (question : WorldCall) → question.Answer} {n : Nat}

/-- If a page is asked for after so many other requests, it fails. -/
def FailsAfter (s : RemoteSession) (n : Nat)
    (answer : List World.Event → (question : WorldCall) → question.Answer) : Prop :=
  ∀ before offset limit request, (requests before).length = n →
    s.pageRequest offset limit = .ok request →
    ∃ e, PageFails limit (answer before (.exchange request s.client.timeout)) e

/-- With each page that does not fail, the one that does comes nearer. -/
theorem FailsAfter.ends (h : s.FailsAfter n answer) {before : List World.Event}
    (hbefore : (requests before).length ≤ n) : Ends answer before s.listParts := by
  refine ends_listParts (fun before _ => (requests before).length ≤ n)
    (fun before _ => n - (requests before).length) ?_ hbefore
  intro before w events page length hle hfollows hpage hlength hmore w' _ _
  obtain ⟨request, response, hrequest, rfl, hsuccess, hdecode⟩ := fetched_ok_iff.1 hpage
  obtain ⟨hreply, -⟩ := hfollows
  have hreply : some response = answer before (.exchange request s.client.timeout) := hreply
  have hlt : (requests before).length < n := by
    refine Nat.lt_of_le_of_ne hle fun heq => ?_
    obtain ⟨e, hfails⟩ := h before w.offset w.limit request heq hrequest
    rw [← hreply, pageFails_iff, granting_some, granted_of_success hsuccess] at hfails
    simp only [Except.bind, readBody, hdecode, hlength] at hfails
    cases hfails
  rw [requests_append, List.length_append]
  change (requests before).length + 1 ≤ n ∧ n - ((requests before).length + 1) < _
  omega

/-- No replies arrive any more after so many requests. -/
def FallsSilent (n : Nat)
    (answer : List World.Event → (question : WorldCall) → question.Answer) : Prop :=
  ∀ before request timeout, n ≤ (requests before).length →
    answer before (.exchange request timeout) = none

/-- A page that is asked for in silence fails. -/
theorem FallsSilent.ends (h : FallsSilent n answer) (before : List World.Event) :
    Ends answer before s.listParts := by
  have hfails : s.FailsAfter (max n (requests before).length) answer := by
    intro before' offset limit request hlength _
    rw [h before' request s.client.timeout (hlength ▸ Nat.le_max_left _ _)]
    exact ⟨_, .dropped⟩
  exact hfails.ends (Nat.le_max_right _ _)

end

/-! ## The resumption -/

/-- A request for a page belongs to a listing. -/
theorem exists_listed_of_asksForPage {asked : List (Transfer.Event ClientError)}
    (h : Realised s.meaning asked events) (hmem : event ∈ events) (hpage : s.AsksForPage event) :
    ∃ answer, Transfer.Event.listed answer ∈ asked := by
  obtain ⟨_, _, request, reply, hrequest, rfl⟩ := hpage
  have hrequests : request ∈ requests events := List.mem_filterMap.2 ⟨_, hmem, rfl⟩
  obtain ⟨⟨question, answer⟩, hasked, hmethod⟩ := exists_call_of_mem h request hrequests
  rw [Client.method_of_request? hrequest] at hmethod
  cases question with
  | listParts => exact ⟨answer, hasked⟩
  | _ => cases hmethod

/-- A resumption whose listing fails ends with the listing, in the same state. -/
theorem resume_of_unlisted {u : Uploader} (hactive : u.aborted = false)
    (h : History s.listParts events (.error e)) :
    History (s.perform (u.resume s.session)) events (.error (.session e), u) := by
  have htold : Realised s.meaning [Transfer.Event.listed (.error (.session e))] (events ++ []) :=
    .cons (history_do_pure_iff.2 ⟨Except.error e, h, rfl⟩) .nil
  rw [List.append_nil] at htold
  exact history_interpret_iff.2 ⟨_, Uploader.history_attempt_iff.2 (.unlisted hactive), htold⟩

/-- A resumption whose listing fails is told of the failure and of nothing else. -/
theorem resume_of_failsPage {u : Uploader} (hactive : u.aborted = false)
    {asked : List (Transfer.Event ClientError)}
    {out : Except (TransferError ClientError) RemoteFile × Uploader}
    (h : History (u.resume s.session) asked out) (hrealised : Realised s.meaning asked events)
    (hmem : event ∈ events) (hfails : s.FailsPage e event) :
    asked = [.listed (.error (.session e))] ∧ out = (.error (.session e), u) ∧
      History s.listParts events (.error e) := by
  have hattempted : Uploader.Attempted s.session u .resume asked out :=
    Uploader.history_attempt_iff.1 h
  cases hattempted with
  | aborted _ habort =>
    rw [hactive] at habort
    cases habort
  | unlisted =>
    cases hrealised with
    | cons hfirst hrest =>
      cases hrest
      rw [List.append_nil] at hmem ⊢
      obtain ⟨result, hlist, hanswer⟩ := history_do_pure_iff.1 hfirst
      obtain ⟨rfl, -⟩ := (history_listParts_iff.1 hlist).ends_with_failure hmem hfails
      cases hanswer
      exact ⟨rfl, rfl, hlist⟩
  | resume _ hfinish =>
    cases hrealised with
    | cons hfirst hrest =>
      rcases List.mem_append.1 hmem with hmem | hmem
      · -- The listing has failed, so that there is none to go on with.
        obtain ⟨result, hlist, hanswer⟩ := history_do_pure_iff.1 hfirst
        obtain ⟨rfl, -⟩ := (history_listParts_iff.1 hlist).ends_with_failure hmem hfails
        cases hanswer
      · obtain ⟨offset, limit, request, reply, hrequest, hevent, -⟩ := hfails
        obtain ⟨answer, hlisted⟩ := exists_listed_of_asksForPage hrest hmem
          ⟨offset, limit, request, reply, hrequest, hevent⟩
        exact absurd hlisted (hfinish.listed_notMem answer)

/-- A listing asks for nothing after a page that fails: if it asks for such a page, its result is
the error of that page, however many pages were good before; and if the request after so many others
fails, it does come to an end. In whatever state an upload is resumed that has not been given up,
the resumption comes to an end if its listings do. If its listing fails, or if it asks for a page
that fails, it ends with this error, as one of the session, in the same state; it asks the server
for nothing but the pages up to that one, reports nothing, and is told of the failure only, not of
any part. -/
theorem failed_listing_changes_nothing (s : RemoteSession) :
    (∀ answer n, s.FailsAfter n answer → Ends answer [] s.listParts) ∧
    (∀ (events : List World.Event) (result), History s.listParts events result →
      ∀ event ∈ events, ∀ e, s.FailsPage e event →
        result = .error e ∧ (∃ before, events = before ++ [event]) ∧
        ∀ event ∈ events, s.AsksForPage event) ∧
    ∀ u : Uploader, u.aborted = false →
      (∀ answer, (∀ before, Ends answer before s.listParts) →
        Ends answer [] (s.perform (u.resume s.session))) ∧
      (∀ (events : List World.Event) (e), History s.listParts events (.error e) →
        History (s.perform (u.resume s.session)) events (.error (.session e), u)) ∧
      ∀ (events : List World.Event)
          (out : Except (TransferError ClientError) RemoteFile × Uploader),
        History (s.perform (u.resume s.session)) events out →
        ∀ event ∈ events, ∀ e, s.FailsPage e event →
          out = (.error (.session e), u) ∧ (∃ before, events = before ++ [event]) ∧
          (∀ event ∈ events, s.AsksForPage event) ∧
          ∀ asked, Realised s.meaning asked events → History (u.resume s.session) asked out →
            asked = [Transfer.Event.listed (.error (.session e))] := by
  have hlisting : ∀ (events : List World.Event) (result), History s.listParts events result →
      ∀ event ∈ events, ∀ e, s.FailsPage e event →
        result = .error e ∧ (∃ before, events = before ++ [event]) ∧
        ∀ event ∈ events, s.AsksForPage event := by
    intro events result h event hmem e hfails
    have hwalked := history_listParts_iff.1 h
    obtain ⟨hresult, hlast⟩ := hwalked.ends_with_failure hmem hfails
    exact ⟨hresult, hlast, hwalked.asksForPage⟩
  refine ⟨fun answer n hfails => hfails.ends (Nat.zero_le n), hlisting, ?_⟩
  intro u hactive
  refine ⟨fun answer hends => ends_perform hends _ [],
    fun events e hlist => resume_of_unlisted hactive hlist, ?_⟩
  intro events out h event hmem e hfails
  obtain ⟨asked, hresume, hrealised⟩ := history_interpret_iff.1 h
  obtain ⟨-, hout, hlist⟩ := resume_of_failsPage hactive hresume hrealised hmem hfails
  obtain ⟨-, hlast, hasks⟩ := hlisting events _ hlist event hmem e hfails
  refine ⟨hout, hlast, hasks, fun asked hrealised hresume => ?_⟩
  exact (resume_of_failsPage hactive hresume hrealised hmem hfails).1

/-- The first page of three is good. The second brings a part, and reports that its length is zero.
The upload that is resumed stays as it is. -/
theorem second_page_has_no_length :
    let s : RemoteSession :=
      ⟨⟨"http://up", "token", "agent", .ofSeconds 60⟩,
        ⟨"one", "upload_session", 3, 1, 0, none, none⟩, none⟩
    let u : Uploader := .ofReader (.ofBytes [1, 2, 3]) 3
    let e : ClientError := .invalidPaging "server reported limit 0 for a request of 1"
    ∃ first second, s.pageRequest 0 1000 = .ok first ∧ s.pageRequest 1 1 = .ok second ∧
      let failing : World.Event :=
        .exchanged second s.client.timeout (some ⟨200, [], "[[[\"b\",1,1]],3,0,1]"⟩)
      let events : List World.Event :=
        [.exchanged first s.client.timeout (some ⟨200, [], "[[[\"a\",0,1]],3,1,0]"⟩), failing]
      u.aborted = false ∧ s.FailsPage e failing ∧ History s.listParts events (.error e) ∧
        History (s.perform (u.resume s.session)) events (.error (.session e), u) ∧
        ∀ event ∈ events, s.AsksForPage event := by
  intro s u e
  have haddress : (Url.read? (s.endpoint (·.listParts) "/parts")).isSome := by
    dsimp only [s]
    decide +kernel
  obtain ⟨first, hfirst⟩ : ∃ first, s.pageRequest 0 1000 = .ok first :=
    Client.exists_request?_iff.2 haddress
  obtain ⟨second, hsecond⟩ : ∃ second, s.pageRequest 1 1 = .ok second :=
    Client.exists_request?_iff.2 haddress
  refine ⟨first, second, hfirst, hsecond, ?_⟩
  intro failing events
  let good : PartsPage := ⟨[⟨"a", 0, 1, ""⟩], 3, some 1, some 0⟩
  let bad : PartsPage := ⟨[⟨"b", 1, 1, ""⟩], 3, some 0, some 1⟩
  have hgood : PartsPage.codec.decode "[[[\"a\",0,1]],3,1,0]" = .ok good :=
    eq_ok_of_toOption (by decide +kernel)
  have hbad : PartsPage.codec.decode "[[[\"b\",1,1]],3,0,1]" = .ok bad :=
    eq_ok_of_toOption (by decide +kernel)
  have hlength : pageLength good 1000 = .ok 1 := rfl
  have hmore : ¬good.IsLast 0 1 := by
    unfold PartsPage.IsLast
    decide
  have hzero : (0 : Int64).toInt ≤ 0 := by decide
  have hfails : s.FailsPage e failing :=
    ⟨1, 1, second, _, hsecond, rfl, .misleading rfl hbad rfl hzero⟩
  have hrest : Walked s 1 1 [failing] (.error e) :=
    .misled (fetched_ok_iff.2 ⟨second, _, hsecond, rfl, rfl, hbad⟩)
      (pageLength_eq_error_iff.2 ⟨0, rfl, hzero, rfl⟩)
  have hwalk : Walked s 0 1000 events (.error e) :=
    .more (fetched_ok_iff.2 ⟨first, _, hfirst, rfl, rfl, hgood⟩) hlength hmore hrest
  have hlist : History s.listParts events (.error e) := history_listParts_iff.2 hwalk
  have hactive : u.aborted = false := rfl
  have hmem : failing ∈ events := List.mem_cons_of_mem _ (List.mem_singleton_self _)
  obtain ⟨-, -, hclaim⟩ := failed_listing_changes_nothing s
  obtain ⟨-, hresumption, hchecked⟩ := hclaim u hactive
  have hresume := hresumption events e hlist
  obtain ⟨-, -, hasks, -⟩ := hchecked events _ hresume failing hmem e hfails
  exact ⟨hactive, hfails, hlist, hresume, hasks⟩

end RemoteSession

end ResumableUpload
