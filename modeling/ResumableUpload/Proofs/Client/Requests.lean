import ResumableUpload.Proofs.Bytes.Base64
import ResumableUpload.Proofs.Client.Calls
import ResumableUpload.Proofs.Transfer.InStep
import ResumableUpload.Proofs.Transfer.Sending
import ResumableUpload.Proofs.Wire.Commit

/-!
# What the requests of an upload say

A request that sends a part names a range and a digest, and a request that commits names a digest
and parts. What they say agrees with what they carry and with the upload (`requests_agree`): the
range and the body are of one part of the content, the digest of a part is that of the body, and
what is committed is the digest and the records that the upload has.

Each request belongs to a call, and the requests before it are those of the calls before
(`exists_call_of_request`). Which calls an upload makes does not depend on the server. So the
theorem is put together from what one call sends and from what an upload asks for, whatever it is
answered.
-/

namespace ResumableUpload

open Program (History Realised history_interpret_iff)

/-! ## Requests -/

namespace Http.Request

/-- The digest header is the base64 text of the digest. -/
def CarriesDigest (request : Request) (digest : Sha1.Digest) : Prop :=
  ∃ text, header? "digest" request.headers = some ("sha=" ++ text) ∧
    Base64.decode text = some digest.toList

theorem CarriesDigest.of_header {request : Request} {digest : Sha1.Digest}
    (h : header? "digest" request.headers = some digest.header) : request.CarriesDigest digest :=
  ⟨_, h, Base64.decode_encode _⟩

/-- The request carries the bytes of the content from `first` to `last`, both among them, and says
so, of a file of so many bytes. -/
structure SendsRange (request : Request) (content : Bytes) (first last total : Nat) : Prop where
  range_eq : header? "content-range" request.headers =
    some ("bytes " ++ toString first ++ "-" ++ toString last ++ "/" ++ toString total)
  first_le : first ≤ last
  last_lt : last < total
  length_eq : request.body.length = last - first + 1
  body_eq : request.body = content.slice first (last - first + 1)
  digest : request.CarriesDigest (Sha1.hash request.body)

/-- The request carries the parts and the digest of the file that is to be made of them. -/
structure CommitsParts (request : Request) (digest : Sha1.Digest) (parts : List Part) : Prop where
  digest : request.CarriesDigest digest
  parts : ∃ text, request.body = Bytes.ofText text ∧
    CommitRequest.partsCodec.decode text = .ok parts

end Http.Request

/-- What stands at a place of two lists stands there in the first of them or in the second. -/
theorem append_eq_append_cons_iff {α : Type} {xs ys before after : List α} {x : α} :
    xs ++ ys = before ++ x :: after ↔
      (∃ later, xs = before ++ x :: later ∧ after = later ++ ys) ∨
        ∃ earlier, before = xs ++ earlier ∧ ys = earlier ++ x :: after := by
  rw [List.append_eq_append_iff, or_comm]
  simp only [List.cons_eq_append_iff]
  constructor
  · rintro (⟨_, rfl, ⟨rfl, rfl⟩ | ⟨later, rfl, rfl⟩⟩ | hsecond)
    · exact .inr ⟨[], by simp, rfl⟩
    · exact .inl ⟨later, rfl, rfl⟩
    · exact .inr hsecond
  · rintro (⟨later, rfl, rfl⟩ | hsecond)
    · exact .inl ⟨x :: later, rfl, .inr ⟨later, rfl, rfl⟩⟩
    · exact .inr hsecond

/-- A commit passes the digest and the records that the upload has at the end of the attempt. -/
theorem Uploader.Played.exists_commit {ε : Type} {session : Session} {moves : List Move}
    {u w : Uploader} {front back : List (Transfer.Event ε)} {digest : Sha1.Digest}
    {parts : List Part} {answer : Except (TransferError ε) RemoteFile}
    (h : Played session moves u (front ++ .committed digest parts answer :: back) w) :
    ∃ taken closing v, taken <+: moves ∧ closing <+: back ∧
      Played session taken u (front ++ .committed digest parts answer :: closing) v ∧
      digest = v.digest.finish ∧ parts = v.committed := by
  generalize hasked : front ++ .committed digest parts answer :: back = asked at h
  induction h generalizing front with
  | nil => simp at hasked
  | @cons m moves u v w first rest hmove _ ih =>
    rcases append_eq_append_cons_iff.1 hasked.symm with ⟨closing, rfl, rfl⟩ | ⟨between, rfl, rfl⟩
    · have hone := Played.cons hmove (.nil v)
      rw [List.append_nil] at hone
      refine ⟨[m], closing, v, List.prefix_append [m] moves, List.prefix_append closing rest, hone,
        ?_⟩
      generalize hfirst : front ++ .committed digest parts answer :: closing = first at hmove
      have hmem : .committed digest parts answer ∈ first :=
        hfirst ▸ List.mem_append_right front List.mem_cons_self
      cases hmove with
      | attempt hattempted =>
        obtain ⟨_, hfinish, hmem⟩ := hattempted.finish_of_committed hmem
        exact ⟨(hfinish.of_committed hmem).1, (hfinish.of_committed hmem).2.1⟩
      | abortFailed => cases List.mem_singleton.1 hmem
      | aborted => rcases List.mem_pair.1 hmem with heq | heq <;> cases heq
    · obtain ⟨taken, closing, v, htaken, hclosing, hplayed, heq⟩ := ih rfl
      refine ⟨m :: taken, closing, v, List.cons_prefix_cons.2 ⟨rfl, htaken⟩, hclosing, ?_, heq⟩
      rw [List.append_assoc]
      exact .cons hmove hplayed

namespace RemoteSession

variable {s : RemoteSession} {request : Http.Request}

/-- A part that is not empty is sent with its range and its digest. -/
theorem sendsRange_of_partRequest {bytes : Bytes} {offset : Nat} {fileSize : UInt64}
    (h : s.partRequest bytes offset fileSize = .ok request) {content : Bytes}
    (hpos : 0 < bytes.length) (hend : offset + bytes.length ≤ fileSize.toNat)
    (hbytes : bytes = content.slice offset bytes.length) :
    request.SendsRange content offset (offset + bytes.length - 1) fileSize.toNat := by
  obtain ⟨⟨who, hheaders⟩, rfl⟩ := Client.headers_of_request? h
  have hlength : offset + request.body.length - 1 - offset + 1 = request.body.length := by omega
  refine ⟨?_, by omega, by omega, hlength.symm, by rwa [hlength], .of_header ?_⟩
  · rw [hheaders]
    simp [Http.header?, List.lookup_cons, contentRange]
    rfl
  · rw [hheaders]
    simp [Http.header?, List.lookup_cons]

/-- A commit carries what it is made with. -/
theorem commitsParts_of_commitRequest {digest : Sha1.Digest} {parts : List Part}
    (h : s.commitRequest digest parts = .ok request) : request.CommitsParts digest parts := by
  obtain ⟨⟨who, hheaders⟩, hbody⟩ := Client.headers_of_request? h
  have hdigest : request.CarriesDigest digest := by
    refine .of_header ?_
    rw [hheaders]
    simp [Http.header?, List.lookup_cons]
  exact ⟨hdigest, _, hbody, CommitRequest.decode_parts ⟨parts, s.attributes⟩⟩

/-! ## The calls behind requests -/

variable {asked : List (Transfer.Event ClientError)} {events : List World.Event}

/-- What is exchanged for the calls in `front` and then for those in `back` comes in this order, and
the requests for the calls in `front` are these. -/
def Divides (s : RemoteSession) (events : List World.Event)
    (front : List (Transfer.Event ClientError)) (sent : List Http.Request)
    (back : List (Transfer.Event ClientError)) : Prop :=
  ∃ first rest, events = first ++ rest ∧ Realised s.meaning front first ∧ requests first = sent ∧
    Realised s.meaning back rest

/-- Every request but one for the list of parts is the request of a call, and the requests before it
are those of the calls before. -/
theorem exists_call_of_request (h : Realised s.meaning asked events)
    {earlier later : List Http.Request} (hsplit : requests events = earlier ++ request :: later)
    (hmethod : request.method ≠ .get) :
    ∃ front event back, asked = front ++ event :: back ∧
      s.Divides events front earlier (event :: back) ∧
      s.request? event.question = some request := by
  induction h generalizing earlier with
  | nil => simp [requests] at hsplit
  | @cons event asked first rest hfirst hrest ih =>
    rw [requests_append] at hsplit
    rcases append_eq_append_cons_iff.1 hsplit with ⟨later, hhere, -⟩ | ⟨between, rfl, hthere⟩
    · have hmem : request ∈ requests first := hhere ▸ List.mem_append_right _ List.mem_cons_self
      have hcall : event.question ≠ .listParts := by
        intro hlist
        have heq := method_of_meaning hfirst request hmem
        rw [hlist] at heq
        exact hmethod (Option.some.inj heq).symm
      have hone := requests_meaning hfirst hcall
      rw [hhere] at hone
      cases hrequest : s.request? event.question with
      | none => simp [hrequest] at hone
      | some request =>
        rw [hrequest, Option.toList_some, List.append_eq_singleton_iff] at hone
        obtain ⟨rfl, ⟨⟩⟩ | ⟨rfl, ⟨⟩⟩ := hone
        exact ⟨[], event, asked, rfl, ⟨[], first ++ rest, rfl, .nil, rfl, .cons hfirst hrest⟩,
          hrequest⟩
    · obtain ⟨front, call, back, rfl, ⟨before, after, rfl, hfront, rfl, hback⟩, hrequest⟩ :=
        ih hthere
      exact ⟨event :: front, call, back, rfl, ⟨first ++ before, after,
        (List.append_assoc first before after).symm, .cons hfirst hfront,
        requests_append first before, hback⟩, hrequest⟩

/-! ## All requests -/

/-- The request that sends a part of a layout is for the range of that part. -/
theorem exists_sendsRange {l : Layout} {event : Transfer.Event ClientError}
    (hsends : event.SendsPieceOf l) (hrequest : s.request? event.question = some request)
    (hmethod : request.method = .put) :
    ∃ first last, l.partSize ∣ first ∧ request.SendsRange l.content first last l.size := by
  have hcall := method_of_call hrequest
  rw [hmethod] at hcall
  obtain ⟨call, answer⟩ := event
  cases call with
  | sendPart bytes offset fileSize =>
    obtain ⟨rfl, i, hi, rfl, hbytes, hlength⟩ := hsends
    have hpos : 0 < bytes.length := hlength ▸ Layout.partLength_pos l hi
    have hend : i * l.partSize + bytes.length ≤ l.size := by
      rw [hlength, ← l.reach_succ hi]
      exact l.reach_le_size
    have hslice : bytes = l.content.slice (i * l.partSize) bytes.length := by
      rw [hlength]
      exact hbytes
    exact ⟨_, _, Nat.dvd_mul_left _ i,
      sendsRange_of_partRequest (eq_ok_of_toOption hrequest) hpos hend hslice⟩
  | _ => cases hcall

/-- In any sequence of attempts and aborts of an upload over a session on a server that fits,
whatever the server replies: each request that sends a part carries one part of the content, which
begins at a multiple of the length of parts, and its range and its digest are those of its body.
Each request that commits is that of a commit of the run, at the same place: the requests before it
are those of the calls before. It carries the digest and the records that this commit passes, and
these are what the upload has at the end of the attempt. -/
theorem requests_agree (s : RemoteSession) {fileSize : UInt64} (hfits : s.session.Fits fileSize)
    {reader : Reader} {moves : List Move} {u : Uploader}
    (h : History (s.perform (Uploader.play s.session moves (.ofReader reader fileSize))) events u) :
    (∀ request ∈ requests events, request.method = .put →
      ∃ first last, s.session.partSize.toNat ∣ first ∧
        request.SendsRange reader.content first last fileSize.toNat) ∧
    ∃ asked : List (Transfer.Event ClientError),
      History (Uploader.play s.session moves (.ofReader reader fileSize)) asked u ∧
      Realised s.meaning asked events ∧
      ∀ earlier request later, requests events = earlier ++ request :: later →
        request.method = .post →
        ∃ (front closing back : List (Transfer.Event ClientError)) (taken : List Move)
          (v : Uploader) (answer : Except (TransferError ClientError) RemoteFile),
          asked = front ++ .committed v.digest.finish v.committed answer :: back ∧
          s.Divides events front earlier (.committed v.digest.finish v.committed answer :: back) ∧
          taken <+: moves ∧ closing <+: back ∧
          History (Uploader.play s.session taken (.ofReader reader fileSize))
            (front ++ Transfer.Event.committed v.digest.finish v.committed answer :: closing) v ∧
          request.CommitsParts v.digest.finish v.committed := by
  obtain ⟨asked, hplay, hrealised⟩ := history_interpret_iff.1 h
  have hplayed := Uploader.history_play_iff.1 hplay
  have hsound := Uploader.sound_ofReader (hfits.layout reader)
  obtain ⟨-, hsends⟩ := (Uploader.kept_sound (l := hfits.layout reader) rfl hfits.2.symm).of_played
    hplayed ⟨0, hsound⟩ fun _ _ => trivial
  refine ⟨fun request hmem hmethod => ?_, asked, hplay, hrealised,
    fun earlier request later hsplit hmethod => ?_⟩
  · obtain ⟨earlier, later, hsplit⟩ := List.append_of_mem hmem
    obtain ⟨_, event, _, rfl, -, hrequest⟩ :=
      exists_call_of_request hrealised hsplit (by simp [hmethod])
    exact exists_sendsRange (hsends event (List.mem_append_right _ List.mem_cons_self)) hrequest
      hmethod
  · obtain ⟨front, event, back, rfl, hdivides, hrequest⟩ :=
      exists_call_of_request hrealised hsplit (by simp [hmethod])
    have hcall := method_of_call hrequest
    rw [hmethod] at hcall
    obtain ⟨call, answer⟩ := event
    cases call with
    | commit digest parts =>
      obtain ⟨taken, closing, v, htaken, hclosing, hcut, rfl, rfl⟩ := hplayed.exists_commit
      exact ⟨front, closing, back, taken, v, answer, rfl, hdivides, htaken, hclosing,
        Uploader.history_play_iff.2 hcut,
        commitsParts_of_commitRequest (eq_ok_of_toOption hrequest)⟩
    | _ => cases hcall

/-- Three bytes in one part, which is shorter than parts may be. The server takes it, and the commit
is not answered. -/
theorem requests_of_three_bytes :
    let s : RemoteSession :=
      ⟨⟨"http://up", "token", "agent", .ofSeconds 60⟩,
        ⟨"one", "upload_session", 1, 4, 0, none, none⟩, some .null⟩
    let reader : Reader := .ofBytes [1, 2, 3]
    s.session.Fits 3 ∧ ∃ (events : List World.Event) (u : Uploader) (put post : Http.Request),
      History (s.perform (Uploader.play s.session [.attempt .start] (.ofReader reader 3)))
        events u ∧
      requests events = [put, post] ∧ put.method = .put ∧ post.method = .post ∧
      (∃ first last, 4 ∣ first ∧ put.SendsRange [1, 2, 3] first last 3) ∧
      ∃ digest parts, post.CommitsParts digest parts := by
  intro s reader
  let record : Part := ⟨"a", 0, 3, ""⟩
  let silence : TransferError ClientError := .session (.http .request)
  let read : Uploader :=
    { Uploader.ofReader reader 3 with content := some ⟨⟨[.data [] none], [3]⟩, 3, [], false⟩ }
  have hfits : s.session.Fits 3 := by decide
  obtain ⟨v, hturn⟩ : ∃ v : Uploader, Uploader.Turn s.session (.ofReader reader 3)
      [.sent [1, 2, 3] 0 3 (.ok record), v.accounted s.session] (.ok (), v) :=
    ⟨_, @Uploader.Turn.stored _ _ _ ⟨0, [1, 2, 3]⟩ _ read (by cbv) (by cbv)⟩
  have hfinish : Uploader.Finish s.session (.ofReader reader 3) _ (.error silence, v) :=
    .refused (Geometry.check_eq_ok_iff.2 hfits) (.more hturn (.done v))
  have hplay := Uploader.history_play_iff.2 (.cons (.attempt (.start rfl hfinish)) (.nil v))
  have hupload : (Url.read? (s.endpoint (·.uploadPart) "")).isSome := by
    dsimp only [s]
    decide +kernel
  have hclose : (Url.read? (s.endpoint (·.commit) "/commit")).isSome := by
    dsimp only [s]
    decide +kernel
  obtain ⟨put, hput, hputMethod⟩ := exists_partRequest hupload [1, 2, 3] 0 3
  obtain ⟨post, hpost, hpostMethod⟩ := exists_commitRequest hclose v.digest.finish v.committed
  have hreply : PartReply.codec.decode "[[\"a\",0,3]]" = .ok ⟨record⟩ :=
    eq_ok_of_toOption (by decide +kernel)
  have hsent : History (s.meaning (.sendPart [1, 2, 3] 0 3))
      [World.Event.exchanged put s.client.timeout (some ⟨200, [], "[[\"a\",0,3]]"⟩)]
      (Except.ok record) :=
    Program.history_do_pure_iff.2 ⟨_, history_sendPart_iff.2
      ⟨_, Client.fetched_ok_iff.2 ⟨put, _, hput, rfl, rfl, hreply⟩, rfl⟩, rfl⟩
  have hcommit : History (s.meaning (.commit v.digest.finish v.committed))
      [World.Event.exchanged post s.client.timeout none] (Except.error silence) :=
    Program.history_do_pure_iff.2 ⟨_, history_commit_iff.2
      ⟨_, .failed (hpost ▸ .unanswered post), rfl⟩, rfl⟩
  have hreported : ∀ progress, History (s.meaning (.report progress)) [⟨.report progress, ()⟩] () :=
    fun _ => Program.history_put_iff.2 rfl
  have hperform : History
      (s.perform (Uploader.play s.session [.attempt .start] (.ofReader reader 3))) _ v :=
    history_interpret_iff.2 ⟨_, hplay,
      .cons hsent (.cons (hreported _) (.cons (hreported _) (.cons hcommit .nil)))⟩
  obtain ⟨hputs, asked, -, -, hposts⟩ := requests_agree s hfits hperform
  obtain ⟨_, _, _, _, _, _, -, -, -, -, -, hcommits⟩ :=
    hposts [put] post [] rfl hpostMethod
  exact ⟨hfits, _, v, put, post, hperform, rfl, hputMethod, hpostMethod,
    hputs put List.mem_cons_self hputMethod, _, _, hcommits⟩

end RemoteSession

end ResumableUpload
