import Mathlib.Data.List.Forall2
import ResumableUpload.Proofs.Client.Walk

/-!
# How far a walk over pages gets

The next page of a listing is asked for where the server says that this one ends. So whether a walk
gets on is up to the server: a request asks for a larger offset than the one before exactly if the
page in between does not claim to end where it was asked to begin, or before
(`Visit.lt_stop_iff`). As long as no page falls back like that, each page takes the walk nearer to
the total, and it ends (`ServesForward.ends`). A server that sends one page over and over is asked
without end (`Walked.not_brings_all`, `exists_walked_of_same`).
-/

namespace ResumableUpload

/-! ## Pages -/

namespace PartsPage

/-- The length of the page is one, if it is reported. -/
def Measured (page : PartsPage) : Prop := ∀ reported ∈ page.limit, 0 < reported.toInt

/-- The length that the page reports, or else the one that it was asked for. -/
def length (page : PartsPage) (limit : UInt64) : UInt64 :=
  (page.limit.map Int64.toUInt64).getD limit

variable {page : PartsPage} {limit : UInt64}

theorem Measured.pageLength_eq (h : page.Measured) (limit : UInt64) :
    RemoteSession.pageLength page limit = .ok (page.length limit) := by
  unfold RemoteSession.pageLength length
  cases hlimit : page.limit with
  | none => rfl
  | some reported => exact if_pos (h reported hlimit)

theorem Measured.length_pos (h : page.Measured) (hlimit : 0 < limit) : 0 < page.length limit := by
  unfold length
  cases hreported : page.limit with
  | none => exact hlimit
  | some reported =>
    have hpos := h reported hreported
    have hsame := toNat_toUInt64_eq hpos
    exact UInt64.lt_iff_toNat_lt.2 (Int.ofNat_lt.1 (hsame ▸ hpos))

/-- A page that is asked for with the length it has keeps that length. -/
theorem length_length (page : PartsPage) (limit : UInt64) :
    page.length (page.length limit) = page.length limit := by
  unfold length
  cases page.limit <;> rfl

end PartsPage

/-- The event is a request that is granted with this page. -/
def World.Event.Brings (event : World.Event) (page : PartsPage) : Prop :=
  ∃ request timeout response, event = .exchanged request timeout (some response) ∧
    response.isSuccess = true ∧ PartsPage.codec.decode response.body = .ok page

/-- A request brings one page only. -/
theorem World.Event.Brings.unique {event : World.Event} {page page' : PartsPage}
    (h : event.Brings page) (h' : event.Brings page') : page = page' := by
  obtain ⟨_, _, _, rfl, -, hdecode⟩ := h
  obtain ⟨_, _, _, heq, -, hdecode'⟩ := h'
  cases heq
  exact Except.ok.inj (hdecode.symm.trans hdecode')

namespace RemoteSession

open Client (Fetched fetched_built_iff fetched_ok_iff bind_granting_eq_ok_iff readBody_eq_ok_iff)
open Program (History Ends)

variable {s : RemoteSession} {offset limit : UInt64} {events : List World.Event}
  {result : Except ClientError (List Part)}

/-- What can be asked for is asked for. -/
theorem ne_nil_of_fetched {out : Except ClientError PartsPage}
    (haddress : ∃ request, s.pageRequest offset limit = .ok request)
    (h : Fetched s.client PartsPage.codec (s.pageRequest offset limit) events out) :
    events ≠ [] := by
  obtain ⟨request, hrequest⟩ := haddress
  rw [hrequest] at h
  obtain ⟨reply, rfl, -⟩ := fetched_built_iff.1 h
  exact List.cons_ne_nil _ _

/-- A page that is brought is fetched, in one exchange. -/
theorem page_of_fetched {out : Except ClientError PartsPage} {event : World.Event}
    {page : PartsPage}
    (h : Fetched s.client PartsPage.codec (s.pageRequest offset limit) events out)
    (hmem : event ∈ events) (hpage : event.Brings page) : events = [event] ∧ out = .ok page := by
  cases hrequest : s.pageRequest offset limit with
  | error e =>
    rw [hrequest] at h
    rw [h.eq_nil_of_unbuilt] at hmem
    cases hmem
  | ok request =>
    rw [hrequest] at h
    obtain ⟨reply, rfl, rfl⟩ := fetched_built_iff.1 h
    obtain rfl := List.mem_singleton.1 hmem
    obtain ⟨_, _, response, heq, hsuccess, hdecode⟩ := hpage
    cases heq
    exact ⟨rfl, bind_granting_eq_ok_iff.2 ⟨response, rfl, hsuccess, readBody_eq_ok_iff.2 hdecode⟩⟩

/-! ## The route of a walk -/

/-- A page of a walk, with the offset and the length that it was asked for. -/
structure Visit where
  offset : UInt64
  limit : UInt64
  page : PartsPage

namespace Visit

/-- The length of the page. -/
def length (v : Visit) : UInt64 := v.page.length v.limit

/-- Where the next page is asked for. -/
def stop (v : Visit) : UInt64 := pageStop v.page v.offset v.length

/-- The walk ends with this page. -/
def IsLast (v : Visit) : Prop := v.page.IsLast v.offset v.length

/-- The page claims to end where it was asked to begin, or before. -/
def FallsBack (v : Visit) : Prop :=
  ∃ begin ∈ v.page.offset, begin.toNat + v.length.toNat ≤ v.offset.toNat

/-- The page claims to end at an offset, a number of 64 bits. -/
def Fits (v : Visit) : Prop :=
  (v.page.offset.getD v.offset).toNat + v.length.toNat < UInt64.size

/-- The next page is asked for at a larger offset unless this one falls back. -/
theorem lt_stop_iff {v : Visit} (hpos : 0 < v.length) (hfits : v.Fits) :
    v.offset < v.stop ↔ ¬v.FallsBack := by
  have hlength := UInt64.lt_iff_toNat_lt.1 hpos
  unfold Fits at hfits
  unfold FallsBack
  rw [UInt64.lt_iff_toNat_lt, stop, pageStop, UInt64.toNat_add, Nat.mod_eq_of_lt hfits]
  cases v.page.offset with
  | none => simpa using hlength
  | some begin => simp

end Visit

/-- The route of a walk from an offset on: each next page is asked for where the page before it ends
and of that page's length, and only with the last page the walk may end. -/
inductive Route : (offset limit : UInt64) → List Visit → Prop
  | nil {offset limit : UInt64} : Route offset limit []
  | cons {offset limit : UInt64} {page : PartsPage} {rest : List Visit}
      (hpos : 0 < page.length limit)
      (hmore : rest ≠ [] → ¬page.IsLast offset (page.length limit))
      (hrest : Route (pageStop page offset (page.length limit)) (page.length limit) rest) :
      Route offset limit (⟨offset, limit, page⟩ :: rest)

/-- The event is the request for the page, and brings it. -/
def Visit.Is (s : RemoteSession) (v : Visit) (event : World.Event) : Prop :=
  Fetched s.client PartsPage.codec (s.pageRequest v.offset v.limit) [event] (.ok v.page)

theorem Visit.Is.brings {v : Visit} {event : World.Event} (h : v.Is s event) :
    event.Brings v.page := by
  obtain ⟨request, response, -, heq, hsuccess, hdecode⟩ := fetched_ok_iff.1 h
  cases heq
  exact ⟨request, s.client.timeout, response, rfl, hsuccess, hdecode⟩

variable {visits : List Visit} {total : Nat}

/-- A request asks for a larger offset than the one before unless the page in between falls back. -/
theorem Route.isChain (h : Route offset limit visits) :
    visits.IsChain fun v w => v.Fits → (v.offset < w.offset ↔ ¬v.FallsBack) := by
  induction h with
  | nil => exact .nil
  | @cons offset limit page rest hpos hmore hrest ih =>
    cases hrest with
    | nil => exact .singleton _
    | cons => exact .cons_cons (Visit.lt_stop_iff (v := ⟨offset, limit, page⟩) hpos) ih

/-- A walk on which no page falls back visits no more pages than there are offsets up to the largest
total that it is told. -/
theorem Route.length_le (h : Route offset limit visits) (hfits : ∀ v ∈ visits, v.Fits)
    (hgo : ∀ v ∈ visits, ¬v.FallsBack) (htotal : ∀ v ∈ visits, v.page.totalCount.toNat ≤ total) :
    visits.length ≤ max 1 (total - offset.toNat) := by
  induction h with
  | nil => exact Nat.zero_le _
  | @cons offset limit page rest hpos hmore hrest ih =>
    obtain ⟨hsum, hfits⟩ := List.forall_mem_cons.1 hfits
    obtain ⟨hfirst, hgo⟩ := List.forall_mem_cons.1 hgo
    obtain ⟨hbound, htotal⟩ := List.forall_mem_cons.1 htotal
    by_cases hend : rest = []
    · rw [hend]
      exact Nat.le_max_left _ _
    · have hstep : offset < pageStop page offset (page.length limit) :=
        (Visit.lt_stop_iff (v := ⟨offset, limit, page⟩) hpos hsum).2 hfirst
      have hnear : pageStop page offset (page.length limit) < page.totalCount :=
        UInt64.not_le.1 fun hle => hmore hend (.inr hle)
      rw [UInt64.lt_iff_toNat_lt] at hstep hnear
      have hlater := ih hfits hgo htotal
      simp only [List.length_cons] at hbound ⊢
      omega

/-- If there is a request for each page, a walk asks for one. -/
theorem Walked.ne_nil (h : Walked s offset limit events result)
    (haddress : ∀ offset limit, ∃ request, s.pageRequest offset limit = .ok request) :
    events ≠ [] := by
  cases h with
  | failed hpage => exact ne_nil_of_fetched (haddress _ _) hpage
  | misled hpage => exact ne_nil_of_fetched (haddress _ _) hpage
  | last hpage => exact ne_nil_of_fetched (haddress _ _) hpage
  | more hpage => exact List.append_ne_nil_of_left_ne_nil (ne_nil_of_fetched (haddress _ _) hpage) _

/-- As long as a walk is brought pages of some length, it takes a route; and if it is brought
nothing else, its result is the parts of all pages. -/
theorem Walked.exists_route {all rest : List World.Event} (h : Walked s offset limit all result)
    (haddress : ∀ offset limit, ∃ request, s.pageRequest offset limit = .ok request)
    (hsplit : all = events ++ rest)
    (hpages : ∀ event ∈ events, ∃ page, event.Brings page ∧ page.Measured) (hlimit : 0 < limit) :
    ∃ visits, List.Forall₂ (Visit.Is s) visits events ∧ Route offset limit visits ∧
      (rest = [] → result = .ok (visits.flatMap (·.page.entries))) := by
  induction events generalizing offset limit all result with
  | nil => exact ⟨[], .nil, .nil, fun hrest => absurd (hsplit.trans hrest) (h.ne_nil haddress)⟩
  | cons event events ih =>
    have hmem : event ∈ all := hsplit ▸ List.mem_cons_self
    obtain ⟨⟨page, hbrings, hmeasured⟩, hpages⟩ := List.forall_mem_cons.1 hpages
    have hpos := hmeasured.length_pos hlimit
    cases h with
    | failed hpage => cases (page_of_fetched hpage hmem hbrings).2
    | misled hpage hlength =>
      cases (page_of_fetched hpage hmem hbrings).2
      cases hlength.symm.trans (hmeasured.pageLength_eq limit)
    | last hpage hlength hlast =>
      obtain ⟨rfl, hout⟩ := page_of_fetched hpage hmem hbrings
      cases hout
      obtain ⟨rfl, rfl⟩ := List.append_eq_nil_iff.1 (List.cons.inj hsplit).2.symm
      exact ⟨[⟨offset, limit, page⟩], .cons hpage .nil, .cons hpos (absurd rfl) .nil,
        fun _ => by simp⟩
    | @more _ _ length first later _ result hpage hlength hmore hwalk =>
      have hfirst : event ∈ first := by
        obtain ⟨head, tail, rfl⟩ := List.exists_cons_of_ne_nil
          (ne_nil_of_fetched (haddress offset limit) hpage)
        rw [List.cons_append, List.cons_append] at hsplit
        exact (List.cons.inj hsplit).1 ▸ List.mem_cons_self
      obtain ⟨rfl, hout⟩ := page_of_fetched hpage hfirst hbrings
      cases hout
      cases hlength.symm.trans (hmeasured.pageLength_eq limit)
      obtain ⟨visits, hvisits, hroute, hresult⟩ := ih hwalk (List.cons.inj hsplit).2 hpages hpos
      refine ⟨⟨offset, limit, page⟩ :: visits, .cons hpage hvisits,
        .cons hpos (fun _ => hmore) hroute, fun hrest => ?_⟩
      rw [hresult hrest]
      rfl

/-! ## Walks that end, and walks that do not -/

variable {answer : List World.Event → (question : WorldCall) → question.Answer}
  {before : List World.Event}

/-- Every request for a page below a total, and the request for the first page, is granted with a
page of some length that does not fall back, and that tells of no larger total. -/
def ServesForward (s : RemoteSession) (total : Nat)
    (answer : List World.Event → (question : WorldCall) → question.Answer) : Prop :=
  ∀ before offset limit request, s.pageRequest offset limit = .ok request → 0 < limit →
    offset = 0 ∨ offset.toNat < total → ∃ page : PartsPage, page.Measured ∧
      page.totalCount.toNat ≤ total ∧ Visit.Fits ⟨offset, limit, page⟩ ∧
      ¬Visit.FallsBack ⟨offset, limit, page⟩ ∧
      Visit.Is s ⟨offset, limit, page⟩ (.exchanged request s.client.timeout
        (answer before (.exchange request s.client.timeout)))

/-- Each page that does not fall back takes the walk nearer to the total. -/
theorem ServesForward.ends (h : s.ServesForward total answer)
    (haddress : ∀ offset limit, ∃ request, s.pageRequest offset limit = .ok request) :
    Ends answer before s.listParts := by
  refine ends_listParts (fun _ w => 0 < w.limit ∧ (w.offset = 0 ∨ w.offset.toNat < total))
    (fun _ w => total - w.offset.toNat) ?_ ⟨by decide, .inl rfl⟩
  intro before w events fetched length hinvariant hfollows hpage hlength hmore w' hstop hnext
  obtain ⟨hlimit, hoffset⟩ := hinvariant
  obtain ⟨request, hrequest⟩ := haddress w.offset w.limit
  rw [hrequest] at hpage
  obtain ⟨reply, rfl, -⟩ := fetched_built_iff.1 hpage
  obtain ⟨hreply, -⟩ := hfollows
  obtain rfl : reply = answer before (.exchange request s.client.timeout) := hreply
  obtain ⟨page, hmeasured, htotal, hfits, hgo, hserved⟩ :=
    h before w.offset w.limit request hrequest hlimit hoffset
  rw [← hrequest] at hpage
  cases (page_of_fetched hpage List.mem_cons_self hserved.brings).2
  obtain rfl := Except.ok.inj (hlength.symm.trans (hmeasured.pageLength_eq w.limit))
  have hpos := hmeasured.length_pos hlimit
  have hstep : w.offset < pageStop page w.offset (page.length w.limit) :=
    (Visit.lt_stop_iff (v := ⟨w.offset, w.limit, page⟩) hpos hfits).2 hgo
  have hnear : pageStop page w.offset (page.length w.limit) < page.totalCount :=
    UInt64.not_le.1 fun hle => hmore (.inr hle)
  rw [UInt64.lt_iff_toNat_lt, ← hstop] at hstep hnear
  exact ⟨⟨hnext ▸ hpos, .inr (by omega)⟩, by omega⟩

section

variable {page : PartsPage} {begin : UInt64}

/-- A page that has parts and claims to end before the total is not the last one, wherever it was
asked to begin. -/
theorem not_isLast_of_short (hentries : page.entries ≠ []) (hoffset : page.offset = some begin)
    {length : UInt64} (hshort : begin + length < page.totalCount) (offset : UInt64) :
    ¬page.IsLast offset length := by
  rintro (hempty | hle)
  · exact hentries (List.isEmpty_iff.1 hempty)
  · rw [pageStop, hoffset, Option.getD_some] at hle
    exact UInt64.not_le.2 hshort hle

/-- A walk that ends has not been brought such a page each time. -/
theorem Walked.not_brings_all (h : Walked s offset limit events result)
    (haddress : ∀ offset limit, ∃ request, s.pageRequest offset limit = .ok request)
    (hmeasured : page.Measured) (hentries : page.entries ≠ []) (hoffset : page.offset = some begin)
    (hshort : begin + page.length limit < page.totalCount) :
    ¬∀ event ∈ events, event.Brings page := by
  intro hsame
  induction h with
  | @failed offset limit events e hpage =>
    obtain ⟨event, hmem⟩ := List.exists_mem_of_ne_nil _ (ne_nil_of_fetched (haddress _ _) hpage)
    cases (page_of_fetched hpage hmem (hsame event hmem)).2
  | @misled offset limit events _ e hpage hlength =>
    obtain ⟨event, hmem⟩ := List.exists_mem_of_ne_nil _ (ne_nil_of_fetched (haddress _ _) hpage)
    cases (page_of_fetched hpage hmem (hsame event hmem)).2
    cases hlength.symm.trans (hmeasured.pageLength_eq limit)
  | @last offset limit length events _ hpage hlength hlast =>
    obtain ⟨event, hmem⟩ := List.exists_mem_of_ne_nil _ (ne_nil_of_fetched (haddress _ _) hpage)
    cases (page_of_fetched hpage hmem (hsame event hmem)).2
    cases hlength.symm.trans (hmeasured.pageLength_eq limit)
    exact not_isLast_of_short hentries hoffset hshort offset hlast
  | @more offset limit length first rest _ result hpage hlength hmore _ ih =>
    obtain ⟨hfirst, hrest⟩ := List.forall_mem_append.1 hsame
    obtain ⟨event, hmem⟩ := List.exists_mem_of_ne_nil _ (ne_nil_of_fetched (haddress _ _) hpage)
    cases (page_of_fetched hpage hmem (hfirst event hmem)).2
    cases hlength.symm.trans (hmeasured.pageLength_eq limit)
    exact ih (by rwa [PartsPage.length_length]) hrest

/-- As long as such a page comes, it is asked for once more: if it comes so many times and then
nothing, there are so many requests and one. -/
theorem exists_walked_of_same {response : Http.Response}
    (haddress : ∀ offset limit, ∃ request, s.pageRequest offset limit = .ok request)
    (hsuccess : response.isSuccess = true)
    (hdecode : PartsPage.codec.decode response.body = .ok page)
    (hmeasured : page.Measured) (hentries : page.entries ≠ []) (hoffset : page.offset = some begin)
    (n : Nat) {offset limit : UInt64} (hshort : begin + page.length limit < page.totalCount) :
    ∃ requests : List Http.Request, requests.length = n ∧
      ∃ last, Walked s offset limit
        (requests.map (.exchanged · s.client.timeout (some response)) ++
          [.exchanged last s.client.timeout none]) (.error (.http .request)) := by
  induction n generalizing offset limit with
  | zero =>
    obtain ⟨last, hlast⟩ := haddress offset limit
    refine ⟨[], rfl, last, .failed ?_⟩
    rw [hlast]
    exact fetched_built_iff.2 ⟨none, rfl, rfl⟩
  | succ n ih =>
    obtain ⟨request, hrequest⟩ := haddress offset limit
    have hpage : Fetched s.client PartsPage.codec (s.pageRequest offset limit) _ (.ok page) :=
      fetched_ok_iff.2 ⟨request, response, hrequest, rfl, hsuccess, hdecode⟩
    have hsame : begin + page.length (page.length limit) < page.totalCount := by
      rwa [PartsPage.length_length]
    obtain ⟨requests, hlength, last, hwalked⟩ := ih hsame
    exact ⟨request :: requests, congrArg (· + 1) hlength, last,
      .more hpage (hmeasured.pageLength_eq limit)
        (not_isLast_of_short hentries hoffset hshort offset) hwalked⟩

end

/-- Take a server that answers requests for parts with pages of some length. A request asks for a
larger offset than the one before exactly if the page in between does not claim to end where it was
asked to begin, or before, as long as that end is a number of 64 bits; if no page does, there are no
more requests than the largest total that a page reports, or one. If there are only such pages, the
listing ends, and its result is the parts of all pages. A page that has parts and claims to end
before the total is asked for without end if it comes each time: no listing that ends is brought
nothing else, and however often it has come, there is one more request. -/
theorem advances_unless_page_falls_back (s : RemoteSession)
    (haddress : (Url.read? (s.endpoint (·.listParts) "/parts")).isSome) :
    (∀ (events rest : List World.Event) (result), History s.listParts (events ++ rest) result →
      (∀ event ∈ events, ∃ page, event.Brings page ∧ page.Measured) →
      ∃ visits, List.Forall₂ (Visit.Is s) visits events ∧ Route 0 pageLimit visits ∧
        visits.IsChain (fun v w => v.Fits → (v.offset < w.offset ↔ ¬v.FallsBack)) ∧
        (rest = [] → result = .ok (visits.flatMap (·.page.entries))) ∧
        ((∀ v ∈ visits, v.Fits) → (∀ v ∈ visits, ¬v.FallsBack) →
          ∀ total, (∀ v ∈ visits, v.page.totalCount.toNat ≤ total) →
            events.length ≤ max 1 total)) ∧
    (∀ answer total, s.ServesForward total answer → Ends answer [] s.listParts) ∧
    ∀ (response : Http.Response) (page : PartsPage) (begin : UInt64), response.isSuccess = true →
      PartsPage.codec.decode response.body = .ok page → page.Measured → page.entries ≠ [] →
      page.offset = some begin → begin + page.length pageLimit < page.totalCount →
      (∀ (events : List World.Event) (result), History s.listParts events result →
        ¬∀ event ∈ events, event.Brings page) ∧
      ∀ n, ∃ requests : List Http.Request, requests.length = n ∧
        ∃ last, History s.listParts
          (requests.map (World.Event.exchanged · s.client.timeout (some response)) ++
            [World.Event.exchanged last s.client.timeout none]) (.error (.http .request)) := by
  have hrequest := exists_pageRequest haddress
  refine ⟨?route, fun answer total hserved => hserved.ends hrequest, ?endless⟩
  case route =>
    intro events rest result h hpages
    obtain ⟨visits, hvisits, hroute, hresult⟩ :=
      (history_listParts_iff.1 h).exists_route hrequest rfl hpages (by decide)
    refine ⟨visits, hvisits, hroute, hroute.isChain, hresult, fun hfits hgo total htotal => ?_⟩
    rw [← hvisits.length_eq]
    exact hroute.length_le hfits hgo htotal
  case endless =>
    intro response page begin hsuccess hdecode hmeasured hentries hoffset hshort
    constructor
    · intro events result h
      exact (history_listParts_iff.1 h).not_brings_all hrequest hmeasured hentries hoffset hshort
    · intro n
      obtain ⟨requests, hlength, last, hwalked⟩ :=
        exists_walked_of_same hrequest hsuccess hdecode hmeasured hentries hoffset n hshort
      exact ⟨requests, hlength, last, history_listParts_iff.2 hwalked⟩

/-- A server that holds three parts answers the second request with the first page once more: the
third request is the second one again, and the first part is listed twice. If that page came each
time, the walk would not end. -/
theorem asks_for_one_page_twice :
    let s : RemoteSession :=
      ⟨⟨"http://up", "token", "agent", .ofSeconds 60⟩,
        ⟨"one", "upload_session", 3, 1, 0, none, none⟩, none⟩
    let page : PartsPage := ⟨[⟨"a", 0, 1, ""⟩], 3, some 1, some 0⟩
    ∃ first second, s.pageRequest 0 1000 = .ok first ∧ s.pageRequest 1 1 = .ok second ∧
      let events : List World.Event :=
        [.exchanged first s.client.timeout (some ⟨200, [], "[[[\"a\",0,1]],3,1,0]"⟩),
          .exchanged second s.client.timeout (some ⟨200, [], "[[[\"a\",0,1]],3,1,0]"⟩),
          .exchanged second s.client.timeout (some ⟨200, [], "[[],3]"⟩)]
      History s.listParts events (.ok (page.entries ++ page.entries)) ∧
        (∃ visits, List.Forall₂ (Visit.Is s) visits events ∧ Route 0 1000 visits) ∧
        (∀ (events : List World.Event) (result), History s.listParts events result →
          ¬∀ event ∈ events, event.Brings page) ∧
        ∀ n, ∃ requests : List Http.Request, requests.length = n ∧
          ∃ last, History s.listParts
            (requests.map (World.Event.exchanged · s.client.timeout
              (some ⟨200, [], "[[[\"a\",0,1]],3,1,0]"⟩)) ++
              [World.Event.exchanged last s.client.timeout none]) (.error (.http .request)) := by
  intro s page
  have haddress : (Url.read? (s.endpoint (·.listParts) "/parts")).isSome := by
    dsimp only [s]
    decide +kernel
  obtain ⟨first, hfirst⟩ := exists_pageRequest haddress 0 1000
  obtain ⟨second, hsecond⟩ := exists_pageRequest haddress 1 1
  refine ⟨first, second, hfirst, hsecond, ?_⟩
  intro events
  let empty : PartsPage := ⟨[], 3, none, none⟩
  have hpage : PartsPage.codec.decode "[[[\"a\",0,1]],3,1,0]" = .ok page :=
    eq_ok_of_toOption (by decide +kernel)
  have hempty : PartsPage.codec.decode "[[],3]" = .ok empty := eq_ok_of_toOption (by decide +kernel)
  have hmeasured : page.Measured := by rintro _ ⟨⟩; decide
  have hunmeasured : empty.Measured := by rintro _ ⟨⟩
  have hpages : ∀ event ∈ events, ∃ page, event.Brings page ∧ page.Measured := by
    simp only [events, List.forall_mem_cons]
    exact ⟨⟨page, ⟨_, _, _, rfl, rfl, hpage⟩, hmeasured⟩,
      ⟨page, ⟨_, _, _, rfl, rfl, hpage⟩, hmeasured⟩,
      ⟨empty, ⟨_, _, _, rfl, rfl, hempty⟩, hunmeasured⟩, List.forall_mem_nil _⟩
  have hlast : Walked s 1 1 events.tail.tail (.ok empty.entries) :=
    .last (fetched_ok_iff.2 ⟨second, _, hsecond, rfl, rfl, hempty⟩) (hunmeasured.pageLength_eq 1)
      (.inl rfl)
  have hagain : Walked s 1 1 events.tail
      (.ok (page.entries ++ empty.entries)) :=
    .more (fetched_ok_iff.2 ⟨second, _, hsecond, rfl, rfl, hpage⟩) (hmeasured.pageLength_eq 1)
      (by unfold PartsPage.IsLast; decide) hlast
  have hwalk : Walked s 0 1000 events
      (.ok (page.entries ++ (page.entries ++ empty.entries))) :=
    .more (fetched_ok_iff.2 ⟨first, _, hfirst, rfl, rfl, hpage⟩) (hmeasured.pageLength_eq 1000)
      (by unfold PartsPage.IsLast; decide) hagain
  have hlist : History s.listParts events (.ok (page.entries ++ page.entries)) :=
    history_listParts_iff.2 hwalk
  have hclaim := advances_unless_page_falls_back s haddress
  obtain ⟨visits, hvisits, hroute, -⟩ :=
    hclaim.1 events [] _ (events.append_nil.symm ▸ hlist) hpages
  exact ⟨hlist, ⟨visits, hvisits, hroute⟩,
    hclaim.2.2 ⟨200, [], _⟩ page 0 rfl hpage hmeasured (List.cons_ne_nil _ _) rfl (by decide)⟩

end RemoteSession

end ResumableUpload
