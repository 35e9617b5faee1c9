import Std.Data.ExtTreeMap
import ResumableUpload.Wire.Progress

/-!
# Following many uploads

A tracker is told the progress of any number of uploads. It keeps the latest snapshot of each
session, and passes every snapshot on to its listeners, in the order in which they were added.
Sessions are in the order of their names.
-/

namespace ResumableUpload

/-- The listeners, in the order in which they were added, and the latest snapshots. -/
structure Tracker (κ : Type) where
  listeners : List κ
  latest : Std.ExtTreeMap String Progress

namespace Tracker

variable {κ : Type}

/-- A tracker that has been told nothing. -/
def empty : Tracker κ := ⟨[], ∅⟩

/-- Adds a listener behind the others. -/
def listen (t : Tracker κ) (listener : κ) : Tracker κ :=
  { t with listeners := t.listeners ++ [listener] }

/-- Takes a snapshot: the tracker with it, and what each listener is told. -/
def record (t : Tracker κ) (progress : Progress) : List (κ × Progress) × Tracker κ :=
  (t.listeners.map fun listener => (listener, progress),
    { t with latest := t.latest.insert progress.sessionId progress })

/-- The latest snapshot of a session. -/
def latest? (t : Tracker κ) (sessionId : String) : Option Progress := t.latest[sessionId]?

/-- Forgets a session. -/
def forget (t : Tracker κ) (sessionId : String) : Tracker κ :=
  { t with latest := t.latest.erase sessionId }

/-- The sessions that are transferring or committing. -/
def active (t : Tracker κ) : List String :=
  (t.latest.values.filter fun p => p.status.isActive).map Progress.sessionId

end Tracker

end ResumableUpload
