import ScriptForge.Pipeline.Directive

/-!
# Retry budgets

Each feedback loop has a counter of attempts with a cap of at least one. An attempt is counted until
the cap is reached; a loop whose counter has reached its cap is exhausted. Counting an attempt of
one loop leaves the counter of the other as it is.
-/

namespace ScriptForge.Pipeline

open Json

/-- A counter with a cap. -/
structure Counter where
  used : Nat
  max : Nat
  deriving DecidableEq, Repr

namespace Counter

/-- The counter that starts at zero; a cap of zero counts as one. -/
def ofCap (cap : Nat) : Counter := ⟨0, Nat.max cap 1⟩

/-- The counter after one more attempt. -/
def record (counter : Counter) : Counter :=
  { counter with used := min (counter.used + 1) counter.max }

/-- Whether no attempt is left. -/
def exhausted (counter : Counter) : Bool :=
  counter.max ≤ counter.used

def toJson (counter : Counter) : Json :=
  .obj [("used", .nat counter.used), ("max", .nat counter.max)]

def ofJson? : Json → Option Counter :=
  record? do return ⟨← field "used" word32?, ← field "max" word32?⟩

end Counter

/-- The counters of the two feedback loops. -/
structure Budget where
  review : Counter
  validation : Counter
  deriving DecidableEq, Repr

namespace Budget

/-- The budget with these caps and nothing used. -/
def ofCaps (reviewCap validationCap : Nat) : Budget :=
  ⟨.ofCap reviewCap, .ofCap validationCap⟩

/-- The counter of a loop. -/
def counter (budget : Budget) : Rejection → Counter
  | .review => budget.review
  | .validation => budget.validation

/-- The budget after one more attempt of a loop. -/
def record (budget : Budget) : Rejection → Budget
  | .review => { budget with review := budget.review.record }
  | .validation => { budget with validation := budget.validation.record }

/-- How many attempts of a loop are counted. -/
def used (budget : Budget) (rejection : Rejection) : Nat :=
  (budget.counter rejection).used

/-- How many attempts of a loop are allowed. -/
def max (budget : Budget) (rejection : Rejection) : Nat :=
  (budget.counter rejection).max

/-- Whether no attempt of a loop is left. -/
def exhausted (budget : Budget) (rejection : Rejection) : Bool :=
  (budget.counter rejection).exhausted

def toJson (budget : Budget) : Json :=
  .obj [("functional", budget.review.toJson), ("syntax", budget.validation.toJson)]

def ofJson? : Json → Option Budget :=
  record? do return ⟨← field "functional" Counter.ofJson?, ← field "syntax" Counter.ofJson?⟩

end Budget

end ScriptForge.Pipeline
