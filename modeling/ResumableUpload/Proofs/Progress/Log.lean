import ResumableUpload.Progress.Tracker

/-!
# A tracker and the log of its uses

A tracker is shared. Whoever holds it adds listeners, records snapshots, forgets sessions and hands
out reporters, through which the uploads report on their own. The log lists these uses in the order
in which the tracker sees them.

Main statement: the tracker is a function of its log (`tracker_refines_log`). The snapshot that it
has for a session is the last one of the log that was not forgotten, its active sessions are those
whose last snapshot is of an upload on its way, and each listener was told exactly the snapshots
that came after it.
-/

namespace ResumableUpload

/-! ## Uses -/

/-- A use of a shared tracker. Reporters are numbered in the order in which they are handed out. -/
inductive Tracker.Use (κ : Type)
  | listen (listener : κ)
  | handOut
  | report (reporter : Nat) (progress : Progress)
  | record (progress : Progress)
  | forget (sessionId : String)

namespace Tracker

variable {κ : Type}

namespace Use

/-- What a use does to a tracker, and what each listener is told. A reporter records for the tracker
that it comes from, whichever reporter it is. -/
def apply (t : Tracker κ) : Use κ → List (κ × Progress) × Tracker κ
  | .listen listener => ([], t.listen listener)
  | .handOut => ([], t)
  | .report _ progress => t.record progress
  | .record progress => t.record progress
  | .forget sessionId => ([], t.forget sessionId)

/-- The listener that a use adds. -/
def listener? : Use κ → Option κ
  | .listen listener => some listener
  | _ => none

/-- The snapshot that a use brings. -/
def snapshot? : Use κ → Option Progress
  | .report _ progress => some progress
  | .record progress => some progress
  | _ => none

/-- Does the use forget a session? -/
def isForget : Use κ → Bool
  | .forget _ => true
  | _ => false

/-- The session that a use touches: it brings a snapshot of the session, or forgets it. -/
def session? : Use κ → Option String
  | .report _ progress => some progress.sessionId
  | .record progress => some progress.sessionId
  | .forget sessionId => some sessionId
  | _ => none

end Use

/-- What each use of the log tells the listeners, use by use, and the tracker that it leaves. -/
def run (t : Tracker κ) : List (Use κ) → List (List (κ × Progress)) × Tracker κ
  | [] => ([], t)
  | use :: log =>
    let (told, t) := use.apply t
    let (rest, t) := run t log
    (told :: rest, t)

/-- The listeners that a log adds, in order. -/
def listenersOf (log : List (Use κ)) : List κ := log.filterMap Use.listener?

/-- The snapshots that a log brings, in order. -/
def snapshotsOf (log : List (Use κ)) : List Progress := log.filterMap Use.snapshot?

/-- The snapshot is the last one of the session in the log, and the session was not forgotten
since. -/
def LastOf (log : List (Use κ)) (sessionId : String) (p : Progress) : Prop :=
  ∃ before use after, log = before ++ use :: after ∧ use.snapshot? = some p ∧
    p.sessionId = sessionId ∧ ∀ later ∈ after, later.session? ≠ some sessionId

/-- What the listener numbered `j` was told, in order. Each use tells the listeners in the order in
which they were added, so that the listener has the place `j` wherever it is told something. -/
def received (j : Nat) (deliveries : List (List (κ × Progress))) : List (κ × Progress) :=
  deliveries.filterMap (·[j]?)

/-! ## One use -/

section Use

variable {t : Tracker κ} {use : Use κ} {id : String}

theorem Use.session?_eq_of_snapshot? {p : Progress} (h : use.snapshot? = some p) :
    use.session? = some p.sessionId := by
  cases use with
  | report reporter progress => cases h; rfl
  | record progress => cases h; rfl
  | listen listener => cases h
  | handOut => cases h
  | forget sessionId => cases h

/-- Only the session of the snapshot changes. -/
theorem latest?_record (p : Progress) :
    (t.record p).2.latest? id = if p.sessionId = id then some p else t.latest? id := by
  simp [record, latest?, Std.ExtTreeMap.getElem?_insert]

theorem latest?_forget (sessionId : String) :
    (t.forget sessionId).latest? id = if sessionId = id then none else t.latest? id := by
  simp [forget, latest?, Std.ExtTreeMap.getElem?_erase]

/-- A use that touches a session leaves its own snapshot of it, or none. Every other session keeps
what it has. -/
theorem Use.latest?_apply :
    (use.apply t).2.latest? id =
      if use.session? = some id then use.snapshot? else t.latest? id := by
  cases use with
  | report reporter progress => simp [apply, session?, snapshot?, latest?_record]
  | record progress => simp [apply, session?, snapshot?, latest?_record]
  | forget sessionId => simp [apply, session?, snapshot?, latest?_forget]
  | listen listener => rfl
  | handOut => rfl

theorem Use.listeners_apply : (use.apply t).2.listeners = t.listeners ++ use.listener?.toList := by
  cases use with
  | listen listener => rfl
  | _ => exact (List.append_nil _).symm

/-- Every listener is told the snapshot, in the order in which the listeners were added. -/
theorem Use.told_apply :
    (use.apply t).1 = use.snapshot?.toList.flatMap fun p => t.listeners.map (·, p) := by
  cases use with
  | report reporter progress => exact (List.append_nil _).symm
  | record progress => exact (List.append_nil _).symm
  | _ => rfl

end Use

/-! ## The latest snapshots -/

section Latest

variable {log : List (Use κ)} {use : Use κ} {id : String} {p : Progress}

theorem LastOf.sessionId_eq (h : LastOf log id p) : p.sessionId = id := by
  obtain ⟨_, _, _, _, _, hid, _⟩ := h
  exact hid

theorem not_lastOf_nil : ¬ LastOf ([] : List (Use κ)) id p := by
  intro h
  obtain ⟨before, use, after, hlog, _⟩ := h
  simp at hlog

/-- The last use decides if it touches the session; if not, the log before it does. -/
theorem lastOf_concat_iff :
    LastOf (log ++ [use]) id p ↔
      if use.session? = some id then use.snapshot? = some p else LastOf log id p := by
  unfold LastOf
  constructor
  · intro h
    obtain ⟨before, entry, after, hlog, hp, hid, hafter⟩ := h
    obtain rfl | ⟨after, last, rfl⟩ := after.eq_nil_or_concat
    · obtain ⟨rfl, heq⟩ := List.append_inj' hlog rfl
      obtain rfl := List.singleton_inj.mp heq
      rw [if_pos ((Use.session?_eq_of_snapshot? hp).trans (congrArg some hid))]
      exact hp
    · rw [List.concat_eq_append, ← List.cons_append, ← List.append_assoc] at hlog
      obtain ⟨rfl, heq⟩ := List.append_inj' hlog rfl
      obtain rfl := List.singleton_inj.mp heq
      rw [if_neg (hafter use (by simp))]
      exact ⟨before, entry, after, rfl, hp, hid, fun later h => hafter later (by simp [h])⟩
  · intro h
    split at h
    next ht =>
      have hid : p.sessionId = id :=
        Option.some.inj ((Use.session?_eq_of_snapshot? h).symm.trans ht)
      exact ⟨log, use, [], rfl, h, hid, by simp⟩
    next ht =>
      obtain ⟨before, entry, after, rfl, hp, hid, hafter⟩ := h
      refine ⟨before, entry, after ++ [use], by simp, hp, hid, ?_⟩
      intro later hlater
      obtain hlater | rfl := by simpa using hlater
      · exact hafter later hlater
      · exact ht

end Latest

/-! ## Where the tracker stands -/

/-- The tracker has what the log says: its latest snapshots and its listeners. -/
structure Mirrors (log : List (Use κ)) (t : Tracker κ) : Prop where
  latest : ∀ id p, t.latest? id = some p ↔ LastOf log id p
  listeners : t.listeners = listenersOf log

section Mirrors

variable {before log : List (Use κ)} {t : Tracker κ}

theorem mirrors_empty : Mirrors [] (empty : Tracker κ) := by
  refine ⟨fun id p => ?_, rfl⟩
  simp [latest?, empty, not_lastOf_nil]

theorem Mirrors.apply (h : Mirrors log t) (use : Use κ) :
    Mirrors (log ++ [use]) (use.apply t).2 := by
  constructor
  · intro id p
    rw [lastOf_concat_iff, Use.latest?_apply]
    by_cases ht : use.session? = some id
    · rw [if_pos ht, if_pos ht]
    · rw [if_neg ht, if_neg ht]
      exact h.latest id p
  · rw [Use.listeners_apply, h.listeners]
    simp [listenersOf, List.filterMap_cons]
    cases use.listener? <;> rfl

theorem Mirrors.run (h : Mirrors before t) : Mirrors (before ++ log) (t.run log).2 := by
  induction log generalizing before t with
  | nil => simpa [Tracker.run] using h
  | cons use log ih => simpa [Tracker.run] using ih (h.apply use)

theorem mirrors_run : Mirrors log (empty.run log).2 := mirrors_empty.run

end Mirrors

/-! ## The active sessions -/

/-- The values of a map are those of its entries. -/
theorem values_eq_map_toList (t : Tracker κ) : t.latest.values = t.latest.toList.map Prod.snd := by
  have h : t.latest.values = t.latest.foldr (fun _ p values => p :: values) [] := rfl
  rw [h, Std.ExtTreeMap.foldr_eq_foldr_toList, List.foldr_cons_eq_append, List.append_nil]

section Active

variable {log : List (Use κ)} {t : Tracker κ}

/-- The snapshots stand under the names of their sessions, so that the active sessions are names of
the map. -/
theorem Mirrors.active_eq (h : Mirrors log t) :
    t.active = (t.latest.toList.filter fun entry => entry.2.status.isActive).map Prod.fst := by
  unfold active
  rw [values_eq_map_toList, List.filter_map, List.map_map]
  apply List.map_congr_left
  intro entry hentry
  have hmem := (List.mem_filter.mp hentry).1
  have hlatest : t.latest? entry.1 = some entry.2 :=
    Std.ExtTreeMap.mem_toList_iff_getElem?_eq_some.mp hmem
  exact ((h.latest _ _).mp hlatest).sessionId_eq

theorem Mirrors.nodup_active (h : Mirrors log t) : t.active.Nodup := by
  rw [h.active_eq]
  have hkeys : (t.latest.toList.map Prod.fst).Nodup := by
    rw [Std.ExtTreeMap.map_fst_toList_eq_keys]
    exact Std.ExtTreeMap.nodup_keys
  exact hkeys.sublist (List.filter_sublist.map _)

theorem isActive_iff (status : Status) :
    status.isActive = true ↔ status = .inProgress ∨ status = .committing := by
  cases status <;> decide

theorem Mirrors.mem_active_iff (h : Mirrors log t) (id : String) :
    id ∈ t.active ↔
      ∃ p, LastOf log id p ∧ (p.status = .inProgress ∨ p.status = .committing) := by
  rw [h.active_eq]
  simp only [List.mem_map, List.mem_filter, Prod.exists, exists_and_right, exists_eq_right,
    Std.ExtTreeMap.mem_toList_iff_getElem?_eq_some, isActive_iff]
  apply exists_congr
  intro p
  rw [← h.latest]
  rfl

end Active

/-! ## What the listeners are told -/

section Told

variable {t : Tracker κ} {log before after : List (Use κ)}

theorem run_append :
    t.run (before ++ after) =
      ((t.run before).1 ++ ((t.run before).2.run after).1, ((t.run before).2.run after).2) := by
  induction before generalizing t with
  | nil => rfl
  | cons use before ih => simp [run, ih]

theorem length_run : (t.run log).1.length = log.length := by
  induction log generalizing t with
  | nil => rfl
  | cons use log ih => simp [run, ih]

theorem received_append (j : Nat) (xs ys : List (List (κ × Progress))) :
    received j (xs ++ ys) = received j xs ++ received j ys :=
  List.filterMap_append

/-- A listener that is there is told every snapshot. -/
theorem received_run {j : Nat} {listener : κ} (h : t.listeners[j]? = some listener) :
    received j (t.run log).1 = (snapshotsOf log).map (listener, ·) := by
  induction log generalizing t with
  | nil => rfl
  | cons use log ih =>
    have hnext : (use.apply t).2.listeners[j]? = some listener := by
      rw [Use.listeners_apply, List.getElem?_append_left (List.getElem?_eq_some_iff.mp h).1]
      exact h
    have hrest := ih hnext
    unfold received snapshotsOf at hrest ⊢
    simp only [run, List.filterMap_cons, Use.told_apply]
    cases use.snapshot? with
    | none => simpa using hrest
    | some p => simpa [h] using hrest

/-- A listener that is not yet there is told nothing. -/
theorem received_run_eq_nil {j : Nat} (h : t.listeners.length + (listenersOf log).length ≤ j) :
    received j (t.run log).1 = [] := by
  induction log generalizing t with
  | nil => rfl
  | cons use log ih =>
    have hnext : (use.apply t).2.listeners.length + (listenersOf log).length ≤ j := by
      rw [Use.listeners_apply]
      simp only [listenersOf, List.filterMap_cons] at h ⊢
      cases hl : use.listener? <;> simp [hl] at h ⊢ <;> omega
    have hnow : (use.apply t).1[j]? = none := by
      rw [Use.told_apply]
      cases use.snapshot? with
      | none => rfl
      | some p => simp; omega
    simpa [run, received, hnow] using ih hnext

/-- What is told depends on the listeners alone: forgetting a session tells nobody anything. -/
theorem flatten_run_filter {t' : Tracker κ} (h : t'.listeners = t.listeners) :
    (t'.run (log.filter (!·.isForget))).1.flatten = (t.run log).1.flatten := by
  induction log generalizing t t' with
  | nil => rfl
  | cons use log ih =>
    have hnext : (use.apply t').2.listeners = (use.apply t).2.listeners := by
      rw [Use.listeners_apply, Use.listeners_apply, h]
    by_cases hf : use.isForget = true
    · have hkept : (use.apply t).2.listeners = t.listeners ∧ (use.apply t).1 = [] := by
        cases use with
        | forget sessionId => exact ⟨rfl, rfl⟩
        | _ => cases hf
      simp [run, hf, hkept.2, ih (h.trans hkept.1.symm)]
    · simp [run, hf, ih hnext, Use.told_apply, h]

end Told

/-- A tracker is what its log says. Its snapshot of a session is the last one that was recorded or
reported since the session was last forgotten, and it has none if there is no such snapshot. Its
active sessions are, each once, those for which that snapshot is in progress or committing. A use
tells its snapshot to the listeners there are, in the order in which they were added; so each
listener was told exactly the snapshots after it, in their order, and what is told is the same if
nothing is ever forgotten. -/
theorem tracker_refines_log :
    (∀ log : List (Use κ),
      (∀ id p, (empty.run log).2.latest? id = some p ↔ LastOf log id p) ∧
      (∀ id, (empty.run log).2.latest? id = none ↔ ∀ p, ¬ LastOf log id p) ∧
      (empty.run log).2.active.Nodup ∧
      (∀ id, id ∈ (empty.run log).2.active ↔
        ∃ p, LastOf log id p ∧ (p.status = .inProgress ∨ p.status = .committing)) ∧
      (empty.run (log.filter (!·.isForget))).1.flatten = (empty.run log).1.flatten) ∧
    (∀ (before after : List (Use κ)) (use : Use κ),
      (empty.run (before ++ use :: after)).1[before.length]? =
        some (use.snapshot?.toList.flatMap fun p => (listenersOf before).map (·, p))) ∧
    ∀ (before after : List (Use κ)) (listener : κ),
      received (listenersOf before).length
        (empty.run (before ++ .listen listener :: after)).1 =
          (snapshotsOf after).map (listener, ·) := by
  refine ⟨fun log => ?_, fun before after use => ?_, fun before after listener => ?_⟩
  · have hm : Mirrors log (empty.run log).2 := mirrors_run
    refine ⟨hm.latest, fun id => ?_, hm.nodup_active, hm.mem_active_iff, flatten_run_filter rfl⟩
    rw [Option.eq_none_iff_forall_ne_some]
    exact forall_congr' fun p => not_congr (hm.latest id p)
  · have hm : Mirrors before (empty.run before).2 := mirrors_run
    rw [run_append, List.getElem?_append_right (Nat.le_of_eq length_run), length_run, Nat.sub_self]
    simp only [run, List.getElem?_cons_zero, Use.told_apply, hm.listeners]
  · have hm : Mirrors before (empty.run before).2 := mirrors_run
    have hthere : ((Use.listen listener).apply (empty.run before).2).2.listeners[
        (listenersOf before).length]? = some listener := by
      rw [Use.listeners_apply, hm.listeners]
      simp [Use.listener?]
    have hbefore : received (listenersOf before).length (empty.run before).1 = [] :=
      received_run_eq_nil (by simp [empty])
    rw [run_append, received_append, hbefore, List.nil_append, ← received_run hthere]
    simp [run, received, Use.apply]

/-- A snapshot that comes after the session was forgotten is the one that counts. -/
example : LastOf [Use.report (κ := Nat) 0 ⟨"a", .inProgress, 8, 2, 1, 4⟩, .forget "a",
    .report 1 ⟨"a", .committing, 8, 8, 4, 4⟩, .record ⟨"b", .pending, 1, 0, 0, 1⟩] "a"
    ⟨"a", .committing, 8, 8, 4, 4⟩ :=
  ⟨[_, _], _, [_], rfl, rfl, rfl, by simp [Use.session?]⟩

end Tracker

end ResumableUpload
