import RecordService.Store.Scan

/-!
# Paged scans

The gateway bounds the size of a page. A scan that the store refuses is told apart from one that
the store could not answer: a page is never short for that reason.
-/

namespace RecordService

/-- The limits of scans. -/
structure ScanLimits where
  /-- The size of a page when none is asked for. -/
  defaultSize : Nat := 100
  maxSize : Nat := 10000
  deriving DecidableEq, Repr

/-- Why there is no page. -/
inductive ScanError
  | invalidPageSize (requested max : Nat)
  /-- The store refused the scan. -/
  | rejected (why : StoreError)
  /-- The store failed. -/
  | incomplete (why : StoreError)
  deriving DecidableEq, Repr

namespace ScanError

/-- The text of a scan error. -/
def message : ScanError → String
  | invalidPageSize requested max =>
    "maxRecords must be between 1 and " ++ toString max ++ ", got " ++ toString requested
  | rejected why => "scan rejected: " ++ why.message
  | incomplete why => "scan failed before completion: " ++ why.message

/-- The scan error of a store error. -/
def ofStore (why : StoreError) : ScanError :=
  match why with
  | .timeout _ | .unavailable _ | .server _ => incomplete why
  | _ => rejected why

end ScanError

namespace ScanLimits

/-- The size of a page, if it is within the limits. -/
def pageSize (limits : ScanLimits) (requested : Option Nat) : Except ScanError Nat :=
  let size := requested.getD limits.defaultSize
  if 1 ≤ size ∧ size ≤ limits.maxSize then .ok size
  else .error (.invalidPageSize size limits.maxSize)

/-- One page of the selected records. An empty token counts as none. -/
def scan (limits : ScanLimits) (s : Store) (now : Instant) (selection : Selection)
    (bins : Option (List String)) (requested : Option Nat) (token : Option String) :
    Except ScanError ScanPage :=
  (limits.pageSize requested).bind fun size =>
    (s.scan now { selection, size, resume := token.filter (· ≠ ""), bins }).mapError
      ScanError.ofStore

end ScanLimits
end RecordService
