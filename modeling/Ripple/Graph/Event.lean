import Ripple.Time.Instant

/-!
# Events

An event is an entry of the audit trail: something that was asked of the graph and was
done, with the instant at which it was done.
-/

namespace Ripple

/-- An entry of the audit trail. -/
inductive Event where
  /-- A file was stored. -/
  | fileRecorded (nodeId filePath : String) (timestamp : Instant)
  /-- The impact of a file was analyzed. -/
  | impactAnalyzed (filePath : String) (depth : UInt32) (impactedCount : Nat)
      (timestamp : Instant)
  /-- A search was performed. -/
  | searchPerformed (query : String) (limit : UInt64) (resultCount : Nat) (timestamp : Instant)
deriving DecidableEq

namespace Event

/-- The instant of an event. -/
def timestamp : Event → Instant
  | .fileRecorded _ _ t | .impactAnalyzed _ _ _ t | .searchPerformed _ _ _ t => t

/-- The name of the kind of an event. -/
def name : Event → String
  | .fileRecorded .. => "file_recorded"
  | .impactAnalyzed .. => "impact_analyzed"
  | .searchPerformed .. => "search_performed"

/-- The file that an event concerns. -/
def filePath? : Event → Option String
  | .fileRecorded _ path _ | .impactAnalyzed path _ _ _ => some path
  | .searchPerformed .. => none

end Event

end Ripple
