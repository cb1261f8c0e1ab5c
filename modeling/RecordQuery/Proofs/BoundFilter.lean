import RecordQuery.Column.Memory
import RecordQuery.Proofs.Binding
import RecordQuery.Proofs.Filtering

/-!
# Filters by a bound predicate

A filter by a captured predicate whose second parameter is bound to a value keeps the rows that the
predicate holds of together with the value: binding first and calling afterwards is calling with the
value.
-/

namespace RecordQuery

namespace Captured

variable {d : Directory} {c : Captured}

/-- Does the predicate of two parameters hold of a row and a value? -/
def holds (d : Directory) (c : Captured) (v row : Value) : Except Error Bool := do
  (← c.call d [row, v]).truthy

/-- The bound predicate holds of a row where the predicate holds of the row and the value. -/
theorem test_bind (hc : c.WellFormed) (harity : c.arity = 2) {v : Value} {s : Substituted Captured}
    (hs : c.bind d.catalog 1 v = .ok s) :
    (Predicate.captured s.result).test d = c.holds d v := by
  funext row
  have hlength : 1 < c.params.length := by
    rw [← arity, harity]
    omega
  have hcall : s.result.call d [row] = c.call d (insertAt [row] 1 v) :=
    call_bind hc hlength hs harity.symm
  simp only [Predicate.test, Predicate.call, hcall, insertAt]
  rfl

end Captured

open Captured

namespace Captured

end Captured
end RecordQuery
