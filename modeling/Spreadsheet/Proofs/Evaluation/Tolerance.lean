import Spreadsheet.Evaluation.Expr
import Spreadsheet.Proofs.Formula.Mentions

/-!
# Comparing two evaluations

Two evaluations of one formula differ only in how cells are read. Whatever relates the results
of reading relates the results of evaluating, as long as the relation respects that the first
failure wins. The relations of this kind are given by a tolerance: which failures may give way
to anything, and which failures count as the same.

The main statement compares the readings of those cells only that the formula mentions, which
is also what makes the graph of references sound.
-/

namespace Spreadsheet

/-- A way to compare a result with another one that may stand in its place. -/
structure Tolerance where
  /-- Failures in whose place anything may stand. -/
  yields : Failure → Prop
  /-- Failures that count as the same. -/
  same : Failure → Failure → Prop
  same_refl : ∀ f, same f f

namespace Tolerance

variable {α β : Type} {T : Tolerance}

/-- Whether the second result may stand in place of the first. A value has to be the same. -/
def Admits (T : Tolerance) : Except Failure α → Except Failure α → Prop
  | .ok v, y => y = .ok v
  | .error f, y => T.yields f ∨ ∃ g, y = .error g ∧ T.same f g

@[simp] theorem admits_ok {v : α} {y : Except Failure α} : T.Admits (.ok v) y ↔ y = .ok v :=
  Iff.rfl

theorem Admits.refl (x : Except Failure α) : T.Admits x x := by
  cases x with
  | ok v => rfl
  | error f => exact .inr ⟨f, rfl, T.same_refl f⟩

theorem Admits.of_yields {f : Failure} (h : T.yields f) (y : Except Failure α) :
    T.Admits (.error f) y :=
  .inl h

/-- A computation that goes on with related results stays related: a failure that yields is
passed on, and it yields after the step as well. -/
theorem Admits.bind {x y : Except Failure α} {f g : α → Except Failure β} (h : T.Admits x y)
    (next : ∀ v, T.Admits (f v) (g v)) : T.Admits (x >>= f) (y >>= g) := by
  cases x with
  | ok v =>
      rw [admits_ok] at h
      subst h
      exact next v
  | error f =>
      rcases h with yields | ⟨g, rfl, same⟩
      · exact .inl yields
      · exact .inr ⟨g, rfl, same⟩

theorem Admits.map {x y : Except Failure α} (h : T.Admits x y) (f : α → β) :
    T.Admits (x.map f) (y.map f) := by
  cases x with
  | ok v =>
      rw [admits_ok] at h
      subst h
      rfl
  | error f =>
      rcases h with yields | ⟨g, rfl, same⟩
      · exact .inl yields
      · exact .inr ⟨g, rfl, same⟩

theorem Admits.mapM {f g : α → Except Failure β} {as : List α}
    (h : ∀ a ∈ as, T.Admits (f a) (g a)) : T.Admits (as.mapM f) (as.mapM g) := by
  induction as with
  | nil => exact Admits.refl _
  | cons a as ih =>
      simp only [List.mapM_cons]
      refine (h a List.mem_cons_self).bind fun v => ?_
      refine Admits.bind (ih fun b hb => h b (List.mem_cons_of_mem a hb)) fun vs => ?_
      exact Admits.refl _

/-- Whether a tolerance admits what becomes of references outside the extent: both evaluations
treat them alike, or they fail in the first one and such failures yield. -/
def AdmitsOutside (T : Tolerance) (strict strict' : Bool) : Prop :=
  strict = strict' ∨ strict = true ∧ ∀ fault, T.yields (.invalidReference fault)

/-- Results are compared exactly. -/
def exact : Tolerance where
  yields _ := False
  same f g := f = g
  same_refl _ := rfl

theorem eq_of_exact_admits {x y : Except Failure α} (h : exact.Admits x y) : x = y := by
  cases x with
  | ok v => exact h.symm
  | error f =>
      rcases h with ⟨⟨⟩⟩ | ⟨g, rfl, rfl⟩
      rfl

end Tolerance

namespace Expr

variable {T : Tolerance} {s t : Surroundings}

/-- All operands of a list are related if each of them is. -/
theorem evalAll_admits {args : List Expr} (h : ∀ e ∈ args, T.Admits (e.eval s) (e.eval t)) :
    T.Admits (evalAll s args) (evalAll t args) := by
  induction args with
  | nil => exact Tolerance.Admits.refl _
  | cons e es ih =>
      simp only [evalAll]
      refine (h e List.mem_cons_self).bind fun v => ?_
      refine (ih fun e he => h e (List.mem_cons_of_mem _ he)).bind fun vs => ?_
      exact Tolerance.Admits.refl _

/-- Both evaluations choose the same branch, because the condition is a value when one is
chosen at all. -/
theorem evalChoice_admits {args : List Expr} (h : ∀ e ∈ args, T.Admits (e.eval s) (e.eval t)) :
    T.Admits (evalChoice s args) (evalChoice t args) := by
  unfold evalChoice
  split
  · next condition yes no =>
      refine (h condition (by simp)).bind fun operand => ?_
      refine (Tolerance.Admits.refl operand.value).bind fun v => ?_
      split
      · exact h yes (by simp)
      · exact h no (by simp)
  · exact Tolerance.Admits.refl _

end Expr

namespace Surroundings

variable {T : Tolerance} {s t : Surroundings}

theorem cell_admits (extent : s.extent = t.extent) (outside : T.AdmitsOutside s.strict t.strict)
    {a : Address} (h : s.extent.contains a → T.Admits (s.read a) (t.read a)) :
    T.Admits (s.cell a) (t.cell a) := by
  unfold cell
  rw [← extent]
  split
  · next inside => exact h inside
  · obtain strict | ⟨strict, yields⟩ := outside
    · rw [← strict]
      exact Tolerance.Admits.refl _
    · rw [if_pos strict]
      exact .of_yields (yields _) _

theorem inside_admits (extent : s.extent = t.extent)
    (outside : T.AdmitsOutside s.strict t.strict) (covered : Option Range)
    (h : ∀ a ∈ (covered.map Range.cells).getD [], T.Admits (s.read a) (t.read a)) :
    T.Admits (s.inside covered) (t.inside covered) := by
  cases covered with
  | none => exact Tolerance.Admits.refl _
  | some r => exact Tolerance.Admits.mapM fun a ha => cell_admits extent outside fun _ => h a ha

theorem range_admits (extent : s.extent = t.extent) (outside : T.AdmitsOutside s.strict t.strict)
    {r : Range} (h : ∀ a ∈ ((r.intersection s.extent).map Range.cells).getD [],
      T.Admits (s.read a) (t.read a)) :
    T.Admits (s.range r) (t.range r) := by
  have inside := inside_admits extent outside _ h
  unfold range
  rw [← extent]
  dsimp only
  obtain strict | ⟨strict, yields⟩ := outside
  · rw [← strict]
    split
    · exact Tolerance.Admits.refl _
    · exact inside
  · by_cases whole : r.intersection s.extent = some r
    · simpa [whole] using inside
    · rw [if_pos ⟨strict, whole⟩]
      exact .of_yields (yields _) _

end Surroundings

namespace Expr

variable {T : Tolerance} {s t : Surroundings}

/-- If the readings of all cells that a formula mentions are related, then so are the results of
the formula. -/
theorem eval_admits (extent : s.extent = t.extent) (outside : T.AdmitsOutside s.strict t.strict)
    (e : Expr) (h : ∀ a ∈ e.mentions (some s.extent), T.Admits (s.read a) (t.read a)) :
    T.Admits (e.eval s) (e.eval t) := by
  induction e with
  | number n => exact Tolerance.Admits.refl _
  | text s => exact Tolerance.Admits.refl _
  | boolean b => exact Tolerance.Admits.refl _
  | lost => exact Tolerance.Admits.refl _
  | cell r =>
      simp only [eval]
      refine (Surroundings.cell_admits extent outside fun inside => ?_).map _
      exact h r.address (by simp [mentions, inside])
  | range first second =>
      simp only [eval]
      exact (Surroundings.range_admits extent outside h).map _
  | binary op left right hleft hright =>
      simp only [eval]
      simp only [mentions, List.mem_append] at h
      refine (hleft fun a ha => h a (.inl ha)).bind fun l => ?_
      refine (Tolerance.Admits.refl l.value).bind fun l => ?_
      refine (hright fun a ha => h a (.inr ha)).bind fun r => ?_
      exact Tolerance.Admits.refl _
  | negate operand ih =>
      simp only [eval]
      exact (ih h).bind fun v => Tolerance.Admits.refl _
  | call name args ih =>
      have each : ∀ e ∈ args, T.Admits (e.eval s) (e.eval t) := fun e he =>
        ih e he fun a ha => h a (mem_mentionsAll.mpr ⟨e, he, ha⟩)
      simp only [eval]
      refine (Tolerance.Admits.refl (Function.resolve name args.length)).bind fun f => ?_
      split
      · exact evalChoice_admits each
      · exact (evalAll_admits each).bind fun operands => Tolerance.Admits.refl _

/-- The same for the single value that a formula evaluates to. -/
theorem value_admits (extent : s.extent = t.extent) (outside : T.AdmitsOutside s.strict t.strict)
    (e : Expr) (h : ∀ a ∈ e.mentions (some s.extent), T.Admits (s.read a) (t.read a)) :
    T.Admits (e.value s) (e.value t) :=
  (eval_admits extent outside e h).bind fun _ => Tolerance.Admits.refl _

/-- A formula evaluates to the same value if the cells that it mentions read the same. -/
theorem value_congr {extent : Range} {strict : Bool}
    {read read' : Address → Except Failure Value} (e : Expr)
    (h : ∀ a ∈ e.mentions (some extent), read a = read' a) :
    e.value ⟨extent, strict, read⟩ = e.value ⟨extent, strict, read'⟩ := by
  refine Tolerance.eq_of_exact_admits (value_admits ?_ ?_ e fun a ha => ?_)
  · rfl
  · exact .inl rfl
  · show Tolerance.exact.Admits (read a) (read' a)
    rw [h a ha]
    exact Tolerance.Admits.refl _

end Expr

end Spreadsheet
