import ResumableUpload.Proofs.Client.Walk
import ResumableUpload.Proofs.Wire.RoundTrip

/-!
# Pages of an honest server

A server pages honestly if each page is a piece of the one list that it holds, beginning where it
was asked to, of a length that it reports or that it was asked for. The length may change from page
to page. The walk over honest pages ends and yields the list (`RemoteSession.lists_every_part`):
what is still missing before a page is what the page and the walk after it yield, and it gets less
with every page.
-/

namespace ResumableUpload

/-- The page is the piece of a list that begins at the offset and has the length, or what there is
of it. It reports its length unless it is the one that was asked for. -/
structure PartsPage.Honest (held : List Part) (offset limit length : UInt64) (page : PartsPage) :
    Prop where
  length_pos : 0 < length.toNat
  stop_lt : offset.toNat + length.toNat < UInt64.size
  entries_eq : page.entries = (held.drop offset.toNat).take length.toNat
  total_eq : page.totalCount.toNat = held.length
  limit_eq : (page.limit.map Int64.toInt).getD limit.toNat = length.toNat
  offset_eq : page.offset.getD offset = offset

namespace PartsPage.Honest

variable {held : List Part} {offset limit length : UInt64} {page : PartsPage}

/-- The length that it was asked for, or the one that it reports, is taken for its length. -/
theorem pageLength_eq (h : page.Honest held offset limit length) :
    RemoteSession.pageLength page limit = .ok length := by
  have hlimit := h.limit_eq
  have hpos := h.length_pos
  unfold RemoteSession.pageLength
  cases hreported : page.limit with
  | none =>
    simp only [hreported, Option.map_none, Option.getD_none] at hlimit
    exact congrArg Except.ok (UInt64.toNat_inj.1 (Int.ofNat_inj.1 hlimit))
  | some reported =>
    simp only [hreported, Option.map_some, Option.getD_some] at hlimit
    have hreported : 0 < reported.toInt := by omega
    have hsame := toNat_toUInt64_eq hreported
    simp only [if_pos hreported]
    exact congrArg Except.ok (UInt64.toNat_inj.1 (by omega))

theorem stop_eq (h : page.Honest held offset limit length) :
    (RemoteSession.pageStop page offset length).toNat = offset.toNat + length.toNat := by
  rw [RemoteSession.pageStop, h.offset_eq, UInt64.toNat_add, Nat.mod_eq_of_lt h.stop_lt]

/-- The walk ends with the page that reaches the end of the list. -/
theorem isLast_iff (h : page.Honest held offset limit length) :
    page.IsLast offset length ↔ held.length ≤ offset.toNat + length.toNat := by
  have hpos := h.length_pos
  rw [PartsPage.IsLast, UInt64.le_iff_toNat_le, h.stop_eq, h.total_eq, h.entries_eq,
    List.isEmpty_iff, List.take_eq_nil_iff, List.drop_eq_nil_iff]
  omega

end PartsPage.Honest

namespace RemoteSession

open Client (Fetched fetched_built_iff fetched_ok_iff bind_granting_eq_ok_iff readBody_eq_ok_iff)
open Program (History Follows Ends follows_append_iff)

variable {s : RemoteSession} {held : List Part} {offset limit length : UInt64}
  {event : World.Event} {events : List World.Event} {result : Except ClientError (List Part)}

/-- The event is the request for this page, granted with an honest one of this length. -/
def IsPage (s : RemoteSession) (held : List Part) (offset limit length : UInt64)
    (event : World.Event) : Prop :=
  ∃ request response page, s.pageRequest offset limit = .ok request ∧
    event = .exchanged request s.client.timeout (some response) ∧ response.isSuccess = true ∧
    PartsPage.codec.decode response.body = .ok page ∧ page.Honest held offset limit length

/-- A request for a page of the list is granted with an honest page, of whatever length. -/
def PagesHonestly (s : RemoteSession) (held : List Part) (event : World.Event) : Prop :=
  ∀ offset limit request, s.pageRequest offset limit = .ok request →
    ∀ timeout reply, event = .exchanged request timeout reply →
      ∃ response page length, reply = some response ∧ response.isSuccess = true ∧
        PartsPage.codec.decode response.body = .ok page ∧ page.Honest held offset limit length

/-- A request for a page that is granted with an honest one is no request for another page. -/
theorem IsPage.pagesHonestly (h : s.IsPage held offset limit length event) :
    s.PagesHonestly held event := by
  obtain ⟨request, response, page, hrequest, rfl, hgranted, hdecode, hpage⟩ := h
  intro offset' limit' request' hrequest' timeout reply hevent
  cases hevent
  obtain ⟨rfl, rfl⟩ := pageRequest_inj hrequest hrequest'
  exact ⟨response, page, length, rfl, hgranted, hdecode, hpage⟩

/-- The requests for all pages from an offset on: each next one asks for the page that begins where
the one before ends, and the last one reaches the end of the list. -/
inductive Pages (s : RemoteSession) (held : List Part) : (offset limit : UInt64) →
    List World.Event → Prop
  | last {offset limit length : UInt64} {event : World.Event}
      (hpage : s.IsPage held offset limit length event)
      (hlast : held.length ≤ offset.toNat + length.toNat) :
      Pages s held offset limit [event]
  | more {offset limit length : UInt64} {event : World.Event} {rest : List World.Event}
      (hpage : s.IsPage held offset limit length event)
      (hmore : offset.toNat + length.toNat < held.length)
      (hrest : Pages s held (offset + length) length rest) :
      Pages s held offset limit (event :: rest)

/-- Each page takes at least one part off what is missing. -/
theorem Pages.length_le (h : Pages s held offset limit events) :
    events.length ≤ max 1 (held.length - offset.toNat) := by
  induction h with
  | last => exact Nat.le_max_left _ _
  | @more offset limit length event rest hpage hmore _ ih =>
    obtain ⟨_, _, _, _, _, _, _, hhonest⟩ := hpage
    have hpos := hhonest.length_pos
    have hstop : (offset + length).toNat = offset.toNat + length.toNat := by
      rw [UInt64.toNat_add, Nat.mod_eq_of_lt hhonest.stop_lt]
    rw [List.length_cons]
    omega

/-- What is fetched from an honest server is an honest page. -/
theorem honest_of_fetched {request : Http.Request} {out : Except ClientError PartsPage}
    (hrequest : s.pageRequest offset limit = .ok request)
    (hpage : Fetched s.client PartsPage.codec (s.pageRequest offset limit) events out)
    (hhonest : ∀ event ∈ events, s.PagesHonestly held event) :
    ∃ page length event, out = .ok page ∧ page.Honest held offset limit length ∧
      events = [event] ∧ s.IsPage held offset limit length event := by
  rw [hrequest] at hpage
  obtain ⟨reply, rfl, rfl⟩ := fetched_built_iff.1 hpage
  obtain ⟨response, page, length, rfl, hsuccess, hdecode, hhonest⟩ :=
    hhonest _ List.mem_cons_self offset limit request hrequest _ reply rfl
  have hread := bind_granting_eq_ok_iff.2
    ⟨response, rfl, hsuccess, readBody_eq_ok_iff.2 hdecode⟩
  exact ⟨page, length, _, hread, hhonest, rfl, request, response, page, hrequest, rfl, hsuccess,
    hdecode, hhonest⟩

/-- A walk over honest pages yields what is missing. -/
theorem Walked.eq_of_honest (h : Walked s offset limit events result)
    (hrequest : ∀ offset limit, ∃ request, s.pageRequest offset limit = .ok request)
    (hhonest : ∀ event ∈ events, s.PagesHonestly held event) :
    result = .ok (held.drop offset.toNat) ∧ Pages s held offset limit events := by
  induction h with
  | @failed offset limit events e hpage =>
    obtain ⟨request, hrequest⟩ := hrequest offset limit
    obtain ⟨_, _, _, hok, -⟩ := honest_of_fetched hrequest hpage hhonest
    cases hok
  | @misled offset limit events page e hpage hlength =>
    obtain ⟨request, hrequest⟩ := hrequest offset limit
    obtain ⟨_, length, _, hok, hpage, -⟩ := honest_of_fetched hrequest hpage hhonest
    cases hok
    rw [hpage.pageLength_eq] at hlength
    cases hlength
  | @last offset limit length events page hpage hlength hlast =>
    obtain ⟨request, hrequest⟩ := hrequest offset limit
    obtain ⟨_, length', event, hok, hpage, rfl, hevent⟩ :=
      honest_of_fetched hrequest hpage hhonest
    cases hok
    cases hlength.symm.trans hpage.pageLength_eq
    have hend := hpage.isLast_iff.1 hlast
    refine ⟨?_, .last hevent hend⟩
    have hrest : (held.drop offset.toNat).length ≤ length.toNat := by
      rw [List.length_drop]
      omega
    rw [hpage.entries_eq, List.take_of_length_le hrest]
  | @more offset limit length first rest page result hpage hlength hmore hwalk ih =>
    obtain ⟨request, hrequest'⟩ := hrequest offset limit
    obtain ⟨_, length', event, hok, hpage, rfl, hevent⟩ :=
      honest_of_fetched hrequest' hpage fun event h => hhonest event (List.mem_append_left _ h)
    cases hok
    cases hlength.symm.trans hpage.pageLength_eq
    rw [hpage.isLast_iff] at hmore
    have hstop := hpage.stop_eq
    have hnext : pageStop page offset length = offset + length := by
      rw [pageStop, hpage.offset_eq]
    obtain ⟨rfl, hpages⟩ := ih fun event h => hhonest event (List.mem_append_right _ h)
    refine ⟨?_, .more hevent (by omega) (hnext ▸ hpages)⟩
    rw [hpage.entries_eq, hstop, ← List.drop_drop]
    exact congrArg Except.ok (List.take_append_drop length.toNat (held.drop offset.toNat))

/-- Every request for a page at which the list has parts, and the request for the first page, is
granted with an honest page, of whatever length. -/
def ServesHonestly (s : RemoteSession) (held : List Part)
    (answer : List World.Event → (question : WorldCall) → question.Answer) : Prop :=
  ∀ before offset limit request, s.pageRequest offset limit = .ok request →
    offset = 0 ∨ offset.toNat < held.length → ∃ length, s.IsPage held offset limit length
      (.exchanged request s.client.timeout (answer before (.exchange request s.client.timeout)))

/-- A page of one part, or of what there is of it. -/
def single (held : List Part) (offset : UInt64) : PartsPage where
  entries := (held.drop offset.toNat).take 1
  totalCount := held.length.toUInt64
  limit := some 1
  offset := none

theorem honest_single (hsize : held.length < UInt64.size) {offset : UInt64}
    (hoffset : offset = 0 ∨ offset.toNat < held.length) (limit : UInt64) :
    (single held offset).Honest held offset limit 1 where
  length_pos := by decide
  stop_lt := by
    rcases hoffset with rfl | hlt
    · decide
    · exact Nat.lt_of_le_of_lt hlt hsize
  entries_eq := rfl
  total_eq := Nat.mod_eq_of_lt hsize
  limit_eq := rfl
  offset_eq := rfl

/-- There are servers that page honestly, by one part at a time. -/
theorem exists_servesHonestly (s : RemoteSession) (held : List Part)
    (hsize : held.length < UInt64.size) :
    ∃ answer, s.ServesHonestly held answer := by
  have hreads := Codec.lossless_of_keeps PartsPage.understands.reads (by decide) PartsPage.keeps
  have hreply : ∀ question : WorldCall, ∃ reply : question.Answer, ∀ offset limit request,
      s.pageRequest offset limit = .ok request → question = .exchange request s.client.timeout →
      offset = 0 ∨ offset.toNat < held.length →
      ∃ length, s.IsPage held offset limit length ⟨question, reply⟩ := by
    intro question
    cases question with
    | exchange request timeout =>
      by_cases hpage : ∃ offset limit, s.pageRequest offset limit = .ok request
      · obtain ⟨offset, limit, hrequest⟩ := hpage
        let response : Http.Response := ⟨200, [], PartsPage.codec.encode (single held offset)⟩
        refine ⟨some response, ?_⟩
        rintro offset' limit' _ hrequest' ⟨⟩ hoffset
        obtain ⟨rfl, rfl⟩ := pageRequest_inj hrequest hrequest'
        exact ⟨1, request, response, single held offset, hrequest, rfl, rfl, hreads _,
          honest_single hsize hoffset limit⟩
      · refine ⟨none, ?_⟩
        rintro offset limit _ hrequest ⟨⟩
        exact absurd ⟨offset, limit, hrequest⟩ hpage
    | report => exact ⟨(), fun _ _ _ _ h => nomatch h⟩
    | pause => exact ⟨(), fun _ _ _ _ h => nomatch h⟩
    | openFile => exact ⟨.error .absent, fun _ _ _ _ h => nomatch h⟩
    | readText => exact ⟨.error .absent, fun _ _ _ _ h => nomatch h⟩
    | isThere => exact ⟨false, fun _ _ _ _ h => nomatch h⟩
    | saveText => exact ⟨.ok (), fun _ _ _ _ h => nomatch h⟩
    | environment => exact ⟨none, fun _ _ _ _ h => nomatch h⟩
  choose answer hanswer using hreply
  exact ⟨fun _ => answer, fun _ offset limit request hrequest => hanswer _ offset limit request
    hrequest rfl⟩

section

variable {answer : List World.Event → (question : WorldCall) → question.Answer}
  {before : List World.Event}

/-- A page that the list has, or the first one, is served. -/
theorem ServesHonestly.of_fetched {out : Except ClientError PartsPage}
    (h : s.ServesHonestly held answer) (hoffset : offset = 0 ∨ offset.toNat < held.length)
    (hpage : Fetched s.client PartsPage.codec (s.pageRequest offset limit) events out)
    (hfollows : Follows answer before events) : ∀ event ∈ events, s.PagesHonestly held event := by
  cases hrequest : s.pageRequest offset limit with
  | error e =>
    rw [hrequest] at hpage
    simp [hpage.eq_nil_of_unbuilt]
  | ok request =>
    rw [hrequest] at hpage
    obtain ⟨reply, rfl, -⟩ := fetched_built_iff.1 hpage
    obtain ⟨hreply, -⟩ := hfollows
    obtain rfl : reply = answer before (.exchange request s.client.timeout) := hreply
    obtain ⟨length, hserved⟩ := h before offset limit request hrequest hoffset
    exact List.forall_mem_singleton.2 hserved.pagesHonestly

/-- Behind an honest page that is not the last one, there is more of the list. -/
theorem stop_lt_of_served {page : PartsPage} (h : s.ServesHonestly held answer)
    (hrequest : ∀ offset limit, ∃ request, s.pageRequest offset limit = .ok request)
    (hoffset : offset = 0 ∨ offset.toNat < held.length)
    (hpage : Fetched s.client PartsPage.codec (s.pageRequest offset limit) events (.ok page))
    (hfollows : Follows answer before events) (hlength : pageLength page limit = .ok length)
    (hmore : ¬page.IsLast offset length) :
    offset.toNat < (pageStop page offset length).toNat ∧
      (pageStop page offset length).toNat < held.length := by
  obtain ⟨request, hrequest⟩ := hrequest offset limit
  obtain ⟨_, _, _, hok, hhonest, -⟩ :=
    honest_of_fetched hrequest hpage (h.of_fetched hoffset hpage hfollows)
  cases hok
  cases hlength.symm.trans hhonest.pageLength_eq
  rw [hhonest.isLast_iff] at hmore
  have hstop := hhonest.stop_eq
  have hpos := hhonest.length_pos
  omega

/-- Every page of a walk is served. -/
theorem ServesHonestly.of_walked (h : s.ServesHonestly held answer)
    (hrequest : ∀ offset limit, ∃ request, s.pageRequest offset limit = .ok request)
    (hwalked : Walked s offset limit events result)
    (hoffset : offset = 0 ∨ offset.toNat < held.length) (hfollows : Follows answer before events) :
    ∀ event ∈ events, s.PagesHonestly held event := by
  induction hwalked generalizing before with
  | failed hpage => exact h.of_fetched hoffset hpage hfollows
  | misled hpage => exact h.of_fetched hoffset hpage hfollows
  | last hpage => exact h.of_fetched hoffset hpage hfollows
  | more hpage hlength hmore _ ih =>
    obtain ⟨hfirst, hrest⟩ := follows_append_iff.1 hfollows
    obtain ⟨-, hlt⟩ := stop_lt_of_served h hrequest hoffset hpage hfirst hlength hmore
    exact List.forall_mem_append.2 ⟨h.of_fetched hoffset hpage hfirst, ih (.inr hlt) hrest⟩

/-- What is missing gets less with each page that is served, but for the last one. -/
theorem ServesHonestly.ends (h : s.ServesHonestly held answer)
    (hrequest : ∀ offset limit, ∃ request, s.pageRequest offset limit = .ok request)
    (before : List World.Event) : Ends answer before s.listParts := by
  refine ends_listParts (fun _ w => w.offset = 0 ∨ w.offset.toNat < held.length)
    (fun _ w => held.length - w.offset.toNat) ?_ (.inl rfl)
  intro before w events page length hoffset hfollows hpage hlength hmore w' hw' _
  have hstop := stop_lt_of_served h hrequest hoffset hpage hfollows hlength hmore
  rw [← hw'] at hstop
  exact ⟨.inr hstop.2, by omega⟩

end

/-- If the address of the list reads and the server pages honestly, the result is every part that it
holds, in order; the first page is asked for at the offset 0 and each other one where the page
before it ends, and there are no more pages than parts, or one. With a server that grants each page
that the list has, the listing does come to this end. -/
theorem lists_every_part (s : RemoteSession) (held : List Part)
    (haddress : (Url.read? (s.endpoint (·.listParts) "/parts")).isSome) :
    (∀ answer, s.ServesHonestly held answer →
      ∃ events, History s.listParts events (.ok held) ∧ Follows answer [] events ∧
        Pages s held 0 pageLimit events) ∧
    ∀ events result, History s.listParts events result →
      (∀ event ∈ events, s.PagesHonestly held event) →
      result = .ok held ∧ Pages s held 0 pageLimit events ∧
        events.length ≤ max 1 held.length := by
  have hrequest := exists_pageRequest haddress
  refine ⟨fun answer hserved => ?_, fun events result h hhonest => ?_⟩
  · obtain ⟨events, result, h, hfollows⟩ := hserved.ends hrequest []
    have hwalked := history_listParts_iff.1 h
    have hhonest := hserved.of_walked hrequest hwalked (.inl rfl) hfollows
    obtain ⟨rfl, hpages⟩ := hwalked.eq_of_honest hrequest hhonest
    exact ⟨events, h, hfollows, hpages⟩
  · obtain ⟨rfl, hpages⟩ := (history_listParts_iff.1 h).eq_of_honest hrequest hhonest
    exact ⟨rfl, hpages, hpages.length_le⟩

/-- Three parts on two pages. The server keeps its pages to two parts, which only the first page
says; the second page says where it begins, and the first does not. From a server that keeps its
pages to one part, they come as well. -/
theorem lists_three_parts :
    let held : List Part := [⟨"a", 0, 1, ""⟩, ⟨"b", 1, 1, ""⟩, ⟨"c", 2, 1, ""⟩]
    let s : RemoteSession :=
      ⟨⟨"http://up", "token", "agent", .ofSeconds 60⟩,
        ⟨"one", "upload_session", 3, 1, 0, none, none⟩, none⟩
    ∃ first second, s.pageRequest 0 1000 = .ok first ∧ s.pageRequest 2 2 = .ok second ∧
      let events : List World.Event :=
        [.exchanged first s.client.timeout (some ⟨200, [], "[[[\"a\",0,1],[\"b\",1,1]],3,2]"⟩),
          .exchanged second s.client.timeout (some ⟨200, [], "[[[\"c\",2,1]],3,null,2]"⟩)]
      (History s.listParts events (.ok held) ∧ Pages s held 0 1000 events) ∧
      ∃ answer, s.ServesHonestly held answer ∧
        ∃ events, History s.listParts events (.ok held) ∧ Follows answer [] events := by
  intro held s
  have haddress : (Url.read? (s.endpoint (·.listParts) "/parts")).isSome := by
    dsimp only [s]
    decide +kernel
  obtain ⟨url, hurl⟩ := Option.isSome_iff_exists.1 haddress
  obtain ⟨first, hfirst⟩ : ∃ first, s.pageRequest 0 1000 = .ok first := by
    simp only [pageRequest, Client.request?, hurl]
    exact ⟨_, rfl⟩
  obtain ⟨second, hsecond⟩ : ∃ second, s.pageRequest 2 2 = .ok second := by
    simp only [pageRequest, Client.request?, hurl]
    exact ⟨_, rfl⟩
  refine ⟨first, second, hfirst, hsecond, ?_⟩
  intro events
  let front : PartsPage := ⟨[⟨"a", 0, 1, ""⟩, ⟨"b", 1, 1, ""⟩], 3, some 2, none⟩
  let back : PartsPage := ⟨[⟨"c", 2, 1, ""⟩], 3, none, some 2⟩
  have hfront : PartsPage.codec.decode "[[[\"a\",0,1],[\"b\",1,1]],3,2]" = .ok front :=
    eq_ok_of_toOption (by decide +kernel)
  have hback : PartsPage.codec.decode "[[[\"c\",2,1]],3,null,2]" = .ok back :=
    eq_ok_of_toOption (by decide +kernel)
  have hfrontHonest : front.Honest held 0 1000 2 :=
    ⟨by decide, by decide, rfl, rfl, by decide, rfl⟩
  have hbackHonest : back.Honest held 2 2 2 := ⟨by decide, by decide, rfl, rfl, rfl, by decide⟩
  have hhonest : ∀ event ∈ events, s.PagesHonestly held event := by
    intro event hmem
    rcases List.mem_pair.1 hmem with rfl | rfl
    · exact IsPage.pagesHonestly ⟨first, _, front, hfirst, rfl, rfl, hfront, hfrontHonest⟩
    · exact IsPage.pagesHonestly ⟨second, _, back, hsecond, rfl, rfl, hback, hbackHonest⟩
  have hlast : Walked s 2 2 events.tail (.ok back.entries) :=
    .last (fetched_ok_iff.2 ⟨second, _, hsecond, rfl, rfl, hback⟩) hbackHonest.pageLength_eq
      (hbackHonest.isLast_iff.2 (by decide))
  have hwalk : Walked s 0 1000 events
      (.ok (front.entries ++ back.entries)) :=
    .more (fetched_ok_iff.2 ⟨first, _, hfirst, rfl, rfl, hfront⟩) hfrontHonest.pageLength_eq
      (fun h => absurd (hfrontHonest.isLast_iff.1 h) (by decide)) hlast
  have hlist : History s.listParts events (.ok held) := history_listParts_iff.2 hwalk
  obtain ⟨hends, hall⟩ := lists_every_part s held haddress
  obtain ⟨-, hpages, -⟩ := hall _ _ hlist hhonest
  obtain ⟨answer, hserved⟩ := exists_servesHonestly s held (by decide)
  obtain ⟨_, hlisted, hfollows, -⟩ := hends answer hserved
  exact ⟨⟨hlist, hpages⟩, answer, hserved, _, hlisted, hfollows⟩

end RemoteSession

end ResumableUpload
