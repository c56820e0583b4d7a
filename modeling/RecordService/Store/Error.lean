/-!
# Errors of the store

Only a timeout can leave it open whether a write was applied (`StoreError.inDoubt`).
-/

namespace RecordService

/-- Why the store refuses a call or cannot answer it. -/
inductive StoreError
  | namespaceNotFound (ns : String)
  | recordNotFound
  | filteredOut
  | nodeNotFound (node : String)
  | jobNotFound (job : Nat)
  | recordExists
  | generationMismatch (expected actual : UInt32)
  | invalidExpression (reason : String)
  | invalidResumeToken (reason : String)
  | parameter (reason : String)
  | timeout (inDoubt : Bool)
  | unavailable (reason : String)
  | server (reason : String)
  deriving DecidableEq, Repr

namespace StoreError

/-- The text of a store error. -/
def message : StoreError → String
  | namespaceNotFound ns => "namespace not found: " ++ ns
  | recordNotFound => "record not found"
  | filteredOut => "record filtered out by predicate"
  | nodeNotFound node => "node not found: " ++ node
  | jobNotFound job => "job not found: " ++ toString job
  | recordExists => "record already exists"
  | generationMismatch expected actual =>
    "generation mismatch: expected " ++ toString expected.toNat ++ ", actual " ++
      toString actual.toNat
  | invalidExpression reason => "invalid expression: " ++ reason
  | invalidResumeToken reason => "invalid resume token: " ++ reason
  | parameter reason => "parameter error: " ++ reason
  | timeout inDoubt => "timeout (in doubt: " ++ (if inDoubt then "true" else "false") ++ ")"
  | unavailable reason => "store unavailable: " ++ reason
  | server reason => "server error: " ++ reason

/-- Whether a write may have been applied all the same. -/
def inDoubt : StoreError → Bool
  | timeout doubt => doubt
  | _ => false

end StoreError
end RecordService
