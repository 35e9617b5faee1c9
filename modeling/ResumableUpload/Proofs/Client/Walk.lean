import Mathlib.Data.List.Basic
import ResumableUpload.Client.RemoteSession
import ResumableUpload.Proofs.Client.Exchanges

/-!
# Walking over the pages of a listing

The list of parts comes in pages. What a walk over them comes to is a relation
(`RemoteSession.Walked`), with one constructor for each way in which the walk goes on or ends, and
is proved equal to the histories of listing the parts. It says nothing about the server, and a walk
that goes on for ever is none. That a walk does end is shown by something that gets less with every
page (`RemoteSession.ends_listParts`).

The request for a page tells which page that is (`RemoteSession.pageRequest_inj`).
-/

namespace ResumableUpload

/-- The walk ends with this page: it is empty, or it reaches the total. -/
def PartsPage.IsLast (page : PartsPage) (offset length : UInt64) : Prop :=
  page.entries.isEmpty ∨ page.totalCount ≤ RemoteSession.pageStop page offset length

namespace RemoteSession

open Client (Fetched asked_fetch_iff)
open Program (History Turned Ends Follows history_loop_iff history_done_iff exists_turned)
open Query (asked_map_iff)

variable {s : RemoteSession} {offset limit : UInt64} {events : List World.Event}
  {result : Except ClientError (List Part)}

/-! ## The walk -/

/-- A walk from an offset on, and what it yields. -/
inductive Walked (s : RemoteSession) : (offset limit : UInt64) → List World.Event →
    Except ClientError (List Part) → Prop
  | failed {offset limit : UInt64} {events : List World.Event} {e : ClientError}
      (hpage : Fetched s.client PartsPage.codec (s.pageRequest offset limit) events (.error e)) :
      Walked s offset limit events (.error e)
  /-- The length that the page reports is none. -/
  | misled {offset limit : UInt64} {events : List World.Event} {page : PartsPage}
      {e : ClientError}
      (hpage : Fetched s.client PartsPage.codec (s.pageRequest offset limit) events (.ok page))
      (hlength : pageLength page limit = .error e) :
      Walked s offset limit events (.error e)
  | last {offset limit length : UInt64} {events : List World.Event} {page : PartsPage}
      (hpage : Fetched s.client PartsPage.codec (s.pageRequest offset limit) events (.ok page))
      (hlength : pageLength page limit = .ok length) (hlast : page.IsLast offset length) :
      Walked s offset limit events (.ok page.entries)
  /-- The next page begins where this one ends. -/
  | more {offset limit length : UInt64} {first rest : List World.Event} {page : PartsPage}
      {result : Except ClientError (List Part)}
      (hpage : Fetched s.client PartsPage.codec (s.pageRequest offset limit) first (.ok page))
      (hlength : pageLength page limit = .ok length) (hmore : ¬ page.IsLast offset length)
      (hrest : Walked s (pageStop page offset length) length rest result) :
      Walked s offset limit (first ++ rest) (result.map (page.entries ++ ·))

/-- A turn of the walk asks for a page. -/
theorem asked_turnPage_iff {w : Walk} {step : ForInStep Walk} :
    (s.turnPage w).Asked events step ↔
      ∃ reply, Fetched s.client PartsPage.codec (s.pageRequest w.offset w.limit) events reply ∧
        step = walkOn w reply := by
  rw [turnPage, asked_map_iff]
  simp only [asked_fetch_iff]

/-- What a page makes of a walk, once its length is known. -/
theorem walkOn_page {w : Walk} {page : PartsPage} {length : UInt64}
    (hlength : pageLength page w.limit = .ok length) :
    walkOn w (.ok page) =
      let w' : Walk :=
        ⟨pageStop page w.offset length, length, w.parts.map (· ++ page.entries)⟩
      if page.entries.isEmpty ∨ page.totalCount ≤ w'.offset then .done w' else .yield w' := by
  simp only [walkOn, hlength]

theorem walkOn_misled {w : Walk} {page : PartsPage} {e : ClientError}
    (hlength : pageLength page w.limit = .error e) :
    walkOn w (.ok page) = .done { w with parts := .error e } := by
  simp only [walkOn, hlength]

/-- The walk goes on behind a page that has a length and is not the last one. -/
theorem walkOn_eq_yield_iff {w w' : Walk} {reply : Except ClientError PartsPage} :
    walkOn w reply = .yield w' ↔ ∃ page length, reply = .ok page ∧
      pageLength page w.limit = .ok length ∧ ¬ page.IsLast w.offset length ∧
      w' = ⟨pageStop page w.offset length, length, w.parts.map (· ++ page.entries)⟩ := by
  constructor
  · intro h
    cases reply with
    | error e => cases h
    | ok page =>
      cases hlength : pageLength page w.limit with
      | error e => cases (walkOn_misled hlength).symm.trans h
      | ok length =>
        rw [walkOn_page hlength] at h
        dsimp only at h
        split at h
        · cases h
        · next hmore =>
          cases h
          exact ⟨page, length, rfl, hlength, hmore, rfl⟩
  · rintro ⟨page, length, rfl, hlength, hmore, rfl⟩
    rw [walkOn_page hlength]
    exact if_neg hmore

/-- Else it is over, with an error or with the parts of this page too. -/
theorem walkOn_eq_done_iff {w last : Walk} {reply : Except ClientError PartsPage} :
    walkOn w reply = .done last ↔
      (∃ e, reply.bind (pageLength · w.limit) = .error e ∧ last = { w with parts := .error e }) ∨
      ∃ page length, reply = .ok page ∧ pageLength page w.limit = .ok length ∧
        page.IsLast w.offset length ∧
        last = ⟨pageStop page w.offset length, length, w.parts.map (· ++ page.entries)⟩ := by
  constructor
  · intro h
    cases reply with
    | error e =>
      cases h
      exact .inl ⟨e, rfl, rfl⟩
    | ok page =>
      cases hlength : pageLength page w.limit with
      | error e =>
        cases (walkOn_misled hlength).symm.trans h
        exact .inl ⟨e, hlength, rfl⟩
      | ok length =>
        rw [walkOn_page hlength] at h
        dsimp only at h
        split at h
        · next hlast =>
          cases h
          exact .inr ⟨page, length, rfl, hlength, hlast, rfl⟩
        · cases h
  · rintro (⟨e, herror, rfl⟩ | ⟨page, length, rfl, hlength, hlast, rfl⟩)
    · cases reply with
      | error e' =>
        cases herror
        rfl
      | ok page => exact walkOn_misled herror
    · rw [walkOn_page hlength]
      exact if_pos hlast

/-- A page that fails, whether it is not read or has no length, ends the walk. -/
theorem Walked.of_error {reply : Except ClientError PartsPage} {e : ClientError}
    (hpage : Fetched s.client PartsPage.codec (s.pageRequest offset limit) events reply)
    (herror : reply.bind (pageLength · limit) = .error e) :
    Walked s offset limit events (.error e) := by
  cases reply with
  | error e' =>
    cases herror
    exact .failed hpage
  | ok page => exact .misled hpage herror

/-- The turns of a walk, whose parts so far go before those to come. -/
theorem Walked.of_turned {w last : World.Memory} (h : Turned s.turnPage w events last)
    {parts : List Part} (hparts : w.parts = .ok parts) :
    ∃ walked, Walked s w.offset w.limit events walked ∧
      last.parts = walked.map (parts ++ ·) := by
  induction h generalizing parts with
  | last hturn =>
    obtain ⟨reply, hpage, hdone⟩ := asked_turnPage_iff.1 hturn
    rcases walkOn_eq_done_iff.1 hdone.symm with
      ⟨e, herror, rfl⟩ | ⟨page, length, rfl, hlength, hlast, rfl⟩
    · exact ⟨_, .of_error hpage herror, rfl⟩
    · exact ⟨_, .last hpage hlength hlast, by rw [hparts]; rfl⟩
  | @again w _ _ _ _ hturn _ ih =>
    obtain ⟨reply, hpage, hyield⟩ := asked_turnPage_iff.1 hturn
    obtain ⟨page, length, rfl, hlength, hmore, rfl⟩ := walkOn_eq_yield_iff.1 hyield.symm
    have hparts' : w.parts.map (· ++ page.entries) = .ok (parts ++ page.entries) := by
      rw [hparts]
      rfl
    obtain ⟨walked, hrest, hresult⟩ := ih hparts'
    refine ⟨_, .more hpage hlength hmore hrest, hresult.trans ?_⟩
    cases walked with
    | error e => rfl
    | ok rest => simp only [Except.map, List.append_assoc]

theorem Walked.turned (h : Walked s offset limit events result) (parts : List Part) :
    ∃ last, Turned (S := World) s.turnPage ⟨offset, limit, .ok parts⟩ events last ∧
      last.parts = result.map (parts ++ ·) := by
  have hend : ∀ {offset limit events reply last} {parts : List Part},
      Fetched s.client PartsPage.codec (s.pageRequest offset limit) events reply →
      walkOn ⟨offset, limit, .ok parts⟩ reply = .done last →
      Turned (S := World) s.turnPage ⟨offset, limit, .ok parts⟩ events last :=
    fun hpage hdone => .last (asked_turnPage_iff.2 ⟨_, hpage, hdone.symm⟩)
  induction h generalizing parts with
  | failed hpage => exact ⟨_, hend hpage (walkOn_eq_done_iff.2 (.inl ⟨_, rfl, rfl⟩)), rfl⟩
  | misled hpage hlength =>
    exact ⟨_, hend hpage (walkOn_eq_done_iff.2 (.inl ⟨_, hlength, rfl⟩)), rfl⟩
  | last hpage hlength hlast =>
    exact ⟨_, hend hpage (walkOn_eq_done_iff.2 (.inr ⟨_, _, rfl, hlength, hlast, rfl⟩)), rfl⟩
  | @more _ _ _ _ _ page result hpage hlength hmore _ ih =>
    have hyield := walkOn_eq_yield_iff (w := ⟨_, _, .ok parts⟩) |>.2
      ⟨page, _, rfl, hlength, hmore, rfl⟩
    obtain ⟨last, hturned, hparts⟩ := ih (parts ++ page.entries)
    refine ⟨last, .again (asked_turnPage_iff.2 ⟨_, hpage, hyield.symm⟩) hturned, hparts.trans ?_⟩
    cases result with
    | error e => rfl
    | ok rest => simp only [Except.map, List.append_assoc]

/-- The histories of listing the parts. -/
theorem history_listParts_iff :
    History s.listParts events result ↔ Walked s 0 pageLimit events result := by
  have hnone : ∀ walked : Except ClientError (List Part), walked.map ([] ++ ·) = walked := by
    rintro (e | parts) <;> rfl
  rw [listParts, history_loop_iff]
  constructor
  · rintro ⟨turned, last, _, rfl, hturned, hrest⟩
    obtain ⟨rfl, rfl⟩ := history_done_iff.1 hrest
    obtain ⟨walked, hwalked, hparts⟩ := Walked.of_turned hturned rfl
    rw [List.append_nil, hparts, hnone]
    exact hwalked
  · intro h
    obtain ⟨last, hturned, hparts⟩ := h.turned []
    rw [hnone] at hparts
    exact ⟨events, last, [], (List.append_nil events).symm, hturned, hparts ▸ .done _⟩

/-- A listing ends if something gets less with every page that is not the last. -/
theorem ends_listParts {answer : List World.Event → (question : WorldCall) → question.Answer}
    {before : List World.Event} (invariant : List World.Event → Walk → Prop)
    (left : List World.Event → Walk → Nat)
    (hstep : ∀ before w events page length, invariant before w → Follows answer before events →
      Fetched s.client PartsPage.codec (s.pageRequest w.offset w.limit) events (.ok page) →
      pageLength page w.limit = .ok length → ¬ page.IsLast w.offset length →
      ∀ w' : Walk, w'.offset = pageStop page w.offset length → w'.limit = length →
      invariant (before ++ events) w' ∧ left (before ++ events) w' < left before w)
    (h : invariant before ⟨0, pageLimit, .ok []⟩) : Ends answer before s.listParts := by
  have hturns : ∀ before w events w', invariant before w →
      (s.turnPage w).Asked events (.yield w') → Follows answer before events →
      invariant (before ++ events) w' ∧ left (before ++ events) w' < left before w := by
    intro before w events w' hinvariant hasked hfollows
    obtain ⟨reply, hpage, hyield⟩ := asked_turnPage_iff.1 hasked
    obtain ⟨page, length, rfl, hlength, hmore, rfl⟩ := walkOn_eq_yield_iff.1 hyield.symm
    exact hstep before w events page length hinvariant hfollows hpage hlength hmore _ rfl rfl
  obtain ⟨events, last, hturned, hfollows⟩ := exists_turned invariant left hturns h
  refine ⟨events, last.parts, history_loop_iff.2 ?_, hfollows⟩
  exact ⟨events, last, [], (List.append_nil events).symm, hturned, .done _⟩

end RemoteSession

/-! ## What a request asks for -/

/-- Two numbers of the same digits are the same. -/
theorem toDigits_inj {m n : Nat} (h : Nat.toDigits 10 m = Nat.toDigits 10 n) : m = n := by
  have hread := congrArg (fun digits => Nat.ofDigitChars 10 digits 0) h
  simpa using hread

/-- The digits of a number do not separate pairs. -/
theorem ampersand_notMem_toDigits (n : Nat) : '&' ∉ Nat.toDigits 10 n := by
  intro h
  exact absurd (Nat.isDigit_of_mem_toDigits (by decide) (by decide) h) (by decide)

/-- The query of an address tells which page is asked for. -/
theorem Url.withPairs_inj {u : Url} {offset limit offset' limit' : Nat}
    (h : u.withPairs [("offset", toString offset), ("limit", toString limit)] =
      u.withPairs [("offset", toString offset'), ("limit", toString limit')]) :
    offset = offset' ∧ limit = limit' := by
  have hadded :
      ("&".intercalate ["offset=" ++ toString offset, "limit=" ++ toString limit]).toList =
        ("&".intercalate ["offset=" ++ toString offset', "limit=" ++ toString limit']).toList := by
    unfold Url.withPairs at h
    split at h
    · simpa using congrArg Url.query h
    · simpa using congrArg Url.query h
  have hdigits : Nat.toDigits 10 offset ++ '&' :: ("limit=".toList ++ Nat.toDigits 10 limit) =
      Nat.toDigits 10 offset' ++ '&' :: ("limit=".toList ++ Nat.toDigits 10 limit') := by
    simpa using hadded
  have hrest : '&' ∉ "limit=".toList ++ Nat.toDigits 10 limit := by
    simp [ampersand_notMem_toDigits]
  obtain ⟨hoffset, -, hlimit⟩ :=
    (List.append_cons_inj_of_notMem (ampersand_notMem_toDigits offset) hrest).1 hdigits
  exact ⟨toDigits_inj hoffset, toDigits_inj (List.append_cancel_left hlimit)⟩

namespace RemoteSession

variable {s : RemoteSession}

/-- If the address of the list reads, there is a request for each page. -/
theorem exists_pageRequest (h : (Url.read? (s.endpoint (·.listParts) "/parts")).isSome)
    (offset limit : UInt64) : ∃ request, s.pageRequest offset limit = .ok request :=
  Client.exists_request?_iff.2 h

/-- A request is for one page only. -/
theorem pageRequest_inj {request : Http.Request}
    {offset limit offset' limit' : UInt64} (h : s.pageRequest offset limit = .ok request)
    (h' : s.pageRequest offset' limit' = .ok request) : offset = offset' ∧ limit = limit' := by
  unfold pageRequest Client.request? at h h'
  split at h
  · cases h
  · rename_i url hurl
    rw [hurl] at h'
    cases h
    have hurls := congrArg Http.Request.url (Except.ok.inj h')
    obtain ⟨hoffset, hlimit⟩ := Url.withPairs_inj hurls.symm
    exact ⟨UInt64.toNat_inj.1 hoffset, UInt64.toNat_inj.1 hlimit⟩

end RemoteSession

/-! ## What a page reports -/

/-- A positive number of 64 bits is the same without a sign. -/
theorem toNat_toUInt64_eq {n : Int64} (h : 0 < n.toInt) : n.toUInt64.toNat = n.toInt := by
  have hle : 0 ≤ n := Int64.le_iff_toInt_le.2 (Int.le_of_lt h)
  rw [Int64.toNat_toUInt64_of_le hle, Int64.toInt_eq_toNatClampNeg hle]

end ResumableUpload
