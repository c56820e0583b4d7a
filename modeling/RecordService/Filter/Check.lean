import RecordService.Filter.Expression

/-!
# Checking filters

Not every expression makes sense as a filter. `Expression.check` accepts those whose root and
whose operands of conjunctions, disjunctions and negations are predicates, whose compared operands
are bins, literals or the generation, and whose nesting is bounded.
-/

namespace RecordService

/-- Why an expression is no filter. -/
inductive FilterFault
  | tooDeep
  | badOperands
  | noOperand
  | notPredicates
  | notNegatable
  | emptyName
  | badRoot
  deriving DecidableEq, Repr

namespace Expression

/-- How deep below the root a node may lie. -/
def maxDepth : Nat := 64

end Expression

/-- The text of a filter fault. -/
def FilterFault.message : FilterFault → String
  | tooDeep => "expression nested deeper than " ++ toString Expression.maxDepth
  | badOperands => "comparison operands must be bins, literals or metadata"
  | noOperand => "logical combinator needs at least one operand"
  | notPredicates => "logical operands must be predicates"
  | notNegatable => "negated operand must be a predicate"
  | emptyName => "bin name must not be empty"
  | badRoot => "expression root must be a predicate"

namespace Expression

/-- Whether an expression is made to be true or false. -/
def isPredicate : Expression → Bool
  | compare .. | and _ | or _ | not _ | binExists _ => true
  | bin _ kind => kind == .bool
  | literal v => v.bool?.isSome
  | generation => false

/-- Whether an expression may be compared with another. -/
def isOperand : Expression → Bool
  | bin .. | generation | literal _ => true
  | _ => false

mutual

/-- Checks an expression that lies `depth` levels below the root. -/
def checkAt (depth : Nat) : Expression → Except FilterFault Unit
  | compare _ left right =>
    if maxDepth < depth then .error .tooDeep
    else if !left.isOperand || !right.isOperand then .error .badOperands
    else (checkAt (depth + 1) left).bind fun _ => checkAt (depth + 1) right
  | and operands | or operands =>
    if maxDepth < depth then .error .tooDeep
    else if operands.isEmpty then .error .noOperand
    else checkItems (depth + 1) operands
  | not operand =>
    if maxDepth < depth then .error .tooDeep
    else if !operand.isPredicate then .error .notNegatable
    else checkAt (depth + 1) operand
  | bin name _ | binExists name =>
    if maxDepth < depth then .error .tooDeep
    else if name = "" then .error .emptyName
    else .ok ()
  | generation | literal _ => if maxDepth < depth then .error .tooDeep else .ok ()

/-- Checks the operands of a conjunction or disjunction. -/
def checkItems (depth : Nat) : List Expression → Except FilterFault Unit
  | [] => .ok ()
  | e :: rest =>
    if !e.isPredicate then .error .notPredicates
    else (checkAt depth e).bind fun _ => checkItems depth rest

end

/-- Checks a whole expression. -/
def check (e : Expression) : Except FilterFault Unit :=
  (checkAt 0 e).bind fun _ => if e.isPredicate then .ok () else .error .badRoot

end Expression
end RecordService
