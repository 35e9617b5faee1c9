import ResumableUpload.Client.Client
import ResumableUpload.Proofs.Program.Histories

/-!
# Exchanges of a client with its server

What a request comes to, as relations: it is sent or cannot be built (`Client.Sent`), it is granted
or not (`Client.Granted`), and the reply reads or not (`Client.Fetched`). Each is proved equal to
what the query that sends the request can ask and come to. However a request ends, it is all that is
sent (`Client.Sent.requests_eq`). One that can be built is exchanged once, and what comes of it is
told by the reply, or by its absence (`Client.granted_built_iff`, `Client.fetched_built_iff`).
-/

namespace ResumableUpload

namespace World

/-- A question to the world, with its answer. -/
abbrev Event := Program.Event World

/-- A request, with the reply if there is one. -/
abbrev Event.exchanged (request : Http.Request) (timeout : Span) (reply : Option Http.Response) :
    Event :=
  ⟨.exchange request timeout, reply⟩

/-- The request that is sent to a server. -/
def Event.request? : Event → Option Http.Request
  | ⟨.exchange request _, _⟩ => some request
  | _ => none

end World

/-- The requests that are sent, in the order in which they are sent. -/
def requests (events : List World.Event) : List Http.Request := events.filterMap (·.request?)

theorem requests_append (before after : List World.Event) :
    requests (before ++ after) = requests before ++ requests after :=
  List.filterMap_append

open Query (asked_told_iff asked_ask_iff asked_map_iff)

/-- An exchange, and then a function of the reply. -/
theorem World.asked_exchange_iff {α : Type} {request : Http.Request} {timeout : Span}
    {f : Option Http.Response → α} {events : List World.Event} {out : α} :
    ((World.exchange request timeout).map f).Asked events out ↔
      ∃ reply, events = [.exchanged request timeout reply] ∧ out = f reply :=
  asked_ask_iff

/-- What there is of a result is the result. -/
theorem eq_ok_of_toOption {ε α : Type} {result : Except ε α} {value : α}
    (h : result.toOption = some value) : result = .ok value := by
  cases result with
  | error e => cases h
  | ok value => exact congrArg Except.ok (Option.some.inj h)

/-- What is sent has been built. -/
theorem eq_ok_of_mem_requests {built : Except ClientError Http.Request} {events : List World.Event}
    {request : Http.Request} (h : requests events = built.toOption.toList)
    (hmem : request ∈ requests events) : built = .ok request := by
  rw [h, Option.mem_toList] at hmem
  exact eq_ok_of_toOption hmem

namespace Client

/-! ## Building a request -/

section

variable {c : Client} {method : Http.Method} {url : String} {headers : List Http.Header}
  {body : Bytes} {pairs : List (String × String)}

/-- A request has the method that it is built with. -/
theorem method_of_request? {request : Http.Request}
    (h : c.request? method url headers body pairs = .ok request) : request.method = method := by
  unfold request? at h
  split at h
  · cases h
  · cases h
    rfl

/-- A request has the body and, behind what every request carries, the headers that it is built
with. -/
theorem headers_of_request? {request : Http.Request}
    (h : c.request? method url headers body pairs = .ok request) :
    (∃ who, request.headers =
      ("authorization", who) :: ("user-agent", c.userAgent) :: headers) ∧ request.body = body := by
  unfold request? at h
  split at h
  · cases h
  · cases h
    exact ⟨⟨_, rfl⟩, rfl⟩

/-- A request can be built exactly if its address reads. -/
theorem exists_request?_iff :
    (∃ request, c.request? method url headers body pairs = .ok request) ↔
      (Url.read? url).isSome := by
  unfold request?
  cases Url.read? url with
  | none => simp
  | some url => simp

/-- What is sent has the method that the request is built with. -/
theorem method_of_mem_requests {events : List World.Event}
    (h : requests events = (c.request? method url headers body pairs).toOption.toList) :
    ∀ request ∈ requests events, request.method = method :=
  fun _ hmem => method_of_request? (eq_ok_of_mem_requests h hmem)

end

/-! ## Sending a request -/

variable {c : Client} {request : Except ClientError Http.Request} {events : List World.Event}

/-- What sending a request comes to. -/
inductive Sent (c : Client) : Except ClientError Http.Request → List World.Event →
    Except ClientError Http.Response → Prop
  /-- The request cannot be built. -/
  | unbuilt (e : ClientError) : Sent c (.error e) [] (.error e)
  | unanswered (request : Http.Request) :
      Sent c (.ok request) [.exchanged request c.timeout none] (.error (.http .request))
  | answered (request : Http.Request) (response : Http.Response) :
      Sent c (.ok request) [.exchanged request c.timeout (some response)] (.ok response)

theorem asked_send_iff {out : Except ClientError Http.Response} :
    (c.send request).Asked events out ↔ Sent c request events out := by
  cases request with
  | error e =>
    rw [send, asked_told_iff]
    constructor
    · rintro ⟨rfl, rfl⟩
      exact .unbuilt e
    · rintro ⟨⟩
      exact ⟨rfl, rfl⟩
  | ok request =>
    rw [send, World.asked_exchange_iff]
    constructor
    · rintro ⟨_ | response, rfl, rfl⟩
      · exact .unanswered request
      · exact .answered request response
    · rintro (_ | _ | ⟨_, response⟩)
      · exact ⟨none, rfl, rfl⟩
      · exact ⟨some response, rfl, rfl⟩

/-- What is sent is the request, if there is one, and nothing else. -/
theorem Sent.requests_eq {out : Except ClientError Http.Response}
    (h : Sent c request events out) : requests events = request.toOption.toList := by
  cases h <;> rfl

theorem granted_of_success {response : Http.Response} (h : response.isSuccess = true) :
    granted response = .ok response :=
  if_pos h

theorem granted_of_refusal {response : Http.Response} (h : response.isSuccess = false) :
    granted response = .error (.ofReply response.status response.body) :=
  if_neg (Bool.eq_false_iff.1 h)

/-- What sending a request that has to be granted comes to. -/
inductive Granted (c : Client) (request : Except ClientError Http.Request)
    (events : List World.Event) : Except ClientError Http.Response → Prop
  | failed {e : ClientError} (hsent : Sent c request events (.error e)) :
      Granted c request events (.error e)
  | refused {response : Http.Response} (hsent : Sent c request events (.ok response))
      (hrefused : response.isSuccess = false) :
      Granted c request events (.error (.ofReply response.status response.body))
  | granted {response : Http.Response} (hsent : Sent c request events (.ok response))
      (hgranted : response.isSuccess = true) : Granted c request events (.ok response)

theorem asked_sendGranted_iff {out : Except ClientError Http.Response} :
    (c.sendGranted request).Asked events out ↔ Granted c request events out := by
  simp only [sendGranted, asked_map_iff, asked_send_iff]
  constructor
  · rintro ⟨e | response, hsent, rfl⟩
    · exact .failed hsent
    · cases hsuccess : response.isSuccess with
      | false =>
        rw [Except.bind, granted_of_refusal hsuccess]
        exact .refused hsent hsuccess
      | true =>
        rw [Except.bind, granted_of_success hsuccess]
        exact .granted hsent hsuccess
  · intro h
    cases h with
    | failed hsent => exact ⟨_, hsent, rfl⟩
    | refused hsent hrefused => exact ⟨_, hsent, (granted_of_refusal hrefused).symm⟩
    | granted hsent hgranted => exact ⟨_, hsent, (granted_of_success hgranted).symm⟩

/-- Granted or not, what is sent is the request and nothing else. -/
theorem Granted.requests_eq {out : Except ClientError Http.Response}
    (h : Granted c request events out) : requests events = request.toOption.toList := by
  cases h with
  | failed hsent => exact hsent.requests_eq
  | refused hsent => exact hsent.requests_eq
  | granted hsent => exact hsent.requests_eq

/-- What a request that has to be granted comes to with such a reply, or without one. -/
def granting : Option Http.Response → Except ClientError Http.Response
  | none => .error (.http .request)
  | some response => granted response

theorem granting_some (response : Http.Response) : granting (some response) = granted response :=
  rfl

/-- A request that can be built is exchanged once, and the reply decides. -/
theorem granted_built_iff {r : Http.Request} {out : Except ClientError Http.Response} :
    Granted c (.ok r) events out ↔
      ∃ reply, events = [.exchanged r c.timeout reply] ∧ out = granting reply := by
  constructor
  · intro h
    cases h with
    | failed hsent =>
      cases hsent with
      | unanswered => exact ⟨none, rfl, rfl⟩
    | refused hsent hrefused =>
      cases hsent with
      | answered => exact ⟨some _, rfl, (granted_of_refusal hrefused).symm⟩
    | granted hsent hgranted =>
      cases hsent with
      | answered => exact ⟨some _, rfl, (granted_of_success hgranted).symm⟩
  · rintro ⟨reply, rfl, rfl⟩
    cases reply with
    | none => exact .failed (.unanswered r)
    | some response =>
      cases hsuccess : response.isSuccess with
      | false =>
        rw [granting_some, granted_of_refusal hsuccess]
        exact .refused (.answered r response) hsuccess
      | true =>
        rw [granting_some, granted_of_success hsuccess]
        exact .granted (.answered r response) hsuccess

/-- Without a request, nothing is exchanged. -/
theorem granted_unbuilt_iff {e : ClientError} {out : Except ClientError Http.Response} :
    Granted c (.error e) events out ↔ events = [] ∧ out = .error e := by
  constructor
  · intro h
    cases h with
    | failed hsent =>
      cases hsent
      exact ⟨rfl, rfl⟩
    | refused hsent => cases hsent
    | granted hsent => cases hsent
  · rintro ⟨rfl, rfl⟩
    exact .failed (.unbuilt e)

/-- A refusal comes to the error that its status and its body tell. -/
theorem asked_refused_iff {r : Http.Request} {response : Http.Response}
    {out : Except ClientError Http.Response} (h : response.isSuccess = false) :
    (c.sendGranted (.ok r)).Asked [World.Event.exchanged r c.timeout (some response)] out ↔
      out = .error (.ofReply response.status response.body) := by
  rw [asked_sendGranted_iff, granted_built_iff, ← granted_of_refusal h, ← granting_some]
  constructor
  · intro hreply
    obtain ⟨reply, heq, hout⟩ := hreply
    cases heq
    exact hout
  · intro hout
    exact ⟨some response, rfl, hout⟩

/-- What sending a request and reading the reply comes to. -/
def Fetched {α : Type} (c : Client) (codec : Codec α) (request : Except ClientError Http.Request)
    (events : List World.Event) (out : Except ClientError α) : Prop :=
  ∃ reply, Granted c request events reply ∧ out = reply.bind (readBody codec)

theorem asked_fetch_iff {α : Type} {codec : Codec α} {out : Except ClientError α} :
    (c.fetch codec request).Asked events out ↔ Fetched c codec request events out := by
  simp only [fetch, asked_map_iff, asked_sendGranted_iff, Fetched]

/-- Whether the reply reads or not, what is sent is the request and nothing else. -/
theorem Fetched.requests_eq {α : Type} {codec : Codec α} {out : Except ClientError α}
    (h : Fetched c codec request events out) : requests events = request.toOption.toList := by
  obtain ⟨_, hgranted, -⟩ := h
  exact hgranted.requests_eq

/-- What is fetched with such a reply, or without one. -/
theorem fetched_built_iff {α : Type} {codec : Codec α} {out : Except ClientError α}
    {r : Http.Request} : Fetched c codec (.ok r) events out ↔
      ∃ reply, events = [.exchanged r c.timeout reply] ∧
        out = (granting reply).bind (readBody codec) := by
  simp only [Fetched, granted_built_iff]
  constructor
  · rintro ⟨_, ⟨reply, hevents, rfl⟩, hout⟩
    exact ⟨reply, hevents, hout⟩
  · rintro ⟨reply, hevents, hout⟩
    exact ⟨_, ⟨reply, hevents, rfl⟩, hout⟩

theorem Fetched.eq_nil_of_unbuilt {α : Type} {codec : Codec α} {out : Except ClientError α}
    {e : ClientError} (h : Fetched c codec (.error e) events out) : events = [] := by
  obtain ⟨_, hgranted, -⟩ := h
  exact (granted_unbuilt_iff.1 hgranted).1

/-- What comes of a request is a value only if a reply grants it. -/
theorem bind_granting_eq_ok_iff {α : Type} {f : Http.Response → Except ClientError α}
    {reply : Option Http.Response} {value : α} : (granting reply).bind f = .ok value ↔
      ∃ response, reply = some response ∧ response.isSuccess = true ∧ f response = .ok value := by
  cases reply with
  | none => exact ⟨nofun, nofun⟩
  | some response =>
    cases hsuccess : response.isSuccess with
    | false => simp [granting_some, granted_of_refusal hsuccess, Except.bind, hsuccess]
    | true => simp [granting_some, granted_of_success hsuccess, Except.bind, hsuccess]

theorem readBody_eq_ok_iff {α : Type} {codec : Codec α} {response : Http.Response} {value : α} :
    readBody codec response = .ok value ↔ codec.decode response.body = .ok value := by
  unfold readBody
  cases codec.decode response.body <;> simp

/-- A value has been read from a reply that was granted. -/
theorem fetched_ok_iff {α : Type} {codec : Codec α} {value : α} :
    Fetched c codec request events (.ok value) ↔
      ∃ r response, request = .ok r ∧ events = [.exchanged r c.timeout (some response)] ∧
        response.isSuccess = true ∧ codec.decode response.body = .ok value := by
  cases request with
  | error e =>
    constructor
    · rintro ⟨_, hgranted, hvalue⟩
      obtain ⟨-, rfl⟩ := granted_unbuilt_iff.1 hgranted
      cases hvalue
    · rintro ⟨_, _, hrequest, -⟩
      cases hrequest
  | ok r =>
    rw [fetched_built_iff]
    constructor
    · rintro ⟨reply, rfl, hvalue⟩
      obtain ⟨response, rfl, hsuccess, hread⟩ := bind_granting_eq_ok_iff.1 hvalue.symm
      exact ⟨r, response, rfl, rfl, hsuccess, readBody_eq_ok_iff.1 hread⟩
    · rintro ⟨_, response, ⟨⟩, rfl, hsuccess, hdecode⟩
      exact ⟨some response, rfl, (bind_granting_eq_ok_iff.2
        ⟨response, rfl, hsuccess, readBody_eq_ok_iff.2 hdecode⟩).symm⟩

end Client

end ResumableUpload
