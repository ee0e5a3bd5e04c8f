import Spreadsheet.Formula.Expr

/-!
# Induction on formulas

The arguments of a call are a list of formulas inside a formula. The induction principle below
hands out one hypothesis for every argument, and `induction` uses it from here on.
-/

namespace Spreadsheet.Expr

/-- Induction on a formula. The hypotheses for the arguments of a call are given by membership,
so a property of formulas never has to be stated a second time for lists of them. -/
@[elab_as_elim, induction_eliminator]
theorem induction {motive : Expr → Prop}
    (number : ∀ n, motive (.number n))
    (text : ∀ s, motive (.text s))
    (boolean : ∀ b, motive (.boolean b))
    (cell : ∀ r, motive (.cell r))
    (range : ∀ first second, motive (.range first second))
    (lost : motive .lost)
    (binary : ∀ op left right, motive left → motive right → motive (.binary op left right))
    (negate : ∀ operand, motive operand → motive (.negate operand))
    (call : ∀ name args, (∀ e ∈ args, motive e) → motive (.call name args))
    (e : Expr) : motive e := by
  refine Expr.rec (motive_2 := fun args => ∀ e ∈ args, motive e) number text boolean cell range
    lost binary negate call ?_ ?_ e
  · intro e h
    cases h
  · intro head tail hhead htail e h
    rcases List.mem_cons.mp h with rfl | h
    · exact hhead
    · exact htail e h

end Spreadsheet.Expr
