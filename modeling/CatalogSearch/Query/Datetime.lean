import CatalogSearch.Error
import CatalogSearch.Field.Registry
import CatalogSearch.Query.Predicate
import CatalogSearch.Text

/-!
# Datetime filters

A datetime filter is one instant, or an interval whose ends are separated by a slash. An end that is
empty or two dots is open, and at most one of them is.
-/

namespace CatalogSearch

/-- A condition on the instant of a record. -/
inductive DatetimeFilter where
  | instant (moment : Timestamp)
  /-- From `start` on, up to and including `stop`. -/
  | interval (start stop : Option Timestamp)
deriving DecidableEq

namespace DatetimeFilter

/-- The instant that a text says. -/
def instant? (s : String) : Except TemporalFault Timestamp :=
  (Timestamp.ofText s).mapError (.notATimestamp s)

/-- The end of an interval that a text says. -/
def bound? (s : String) : Except TemporalFault (Option Timestamp) :=
  let s := Text.trim s
  if s = "" ∨ s = ".." then .ok none else (instant? s).map some

/-- The interval between two ends. -/
def between? : Option Timestamp → Option Timestamp → Except TemporalFault DatetimeFilter
  | none, none => .error .bothEndsOpen
  | some start, some stop =>
    if stop.rank < start.rank then .error .startAfterEnd
    else .ok (interval (some start) (some stop))
  | start, stop => .ok (interval start stop)

/-- The filter that a trimmed text says. -/
def ofTrimmed? (s : String) : Except TemporalFault DatetimeFilter :=
  match Text.splitFirst? '/' s with
  | none => (instant? s).map instant
  | some (start, stop) => do
    let start ← bound? start
    let stop ← bound? stop
    between? start stop

/-- The filter that a text says. -/
def ofText? (s : String) : Except SearchError DatetimeFilter :=
  (ofTrimmed? (Text.trim s)).mapError (.invalidTemporalRange s)

/-- A comparison of the instant of a record. -/
def comparison (operator : Operator) (t : Timestamp) : Comparison :=
  ⟨FieldRegistry.temporalField, operator, .timestamp t⟩

/-- The comparisons that say the same as a filter. -/
def comparisons : DatetimeFilter → List Comparison
  | instant t => [comparison .eq t]
  | interval start stop =>
    (start.map (comparison .ge)).toList ++ (stop.map (comparison .le)).toList

end DatetimeFilter

end CatalogSearch
