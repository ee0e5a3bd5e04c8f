import Mathlib.Data.List.Forall2
import Spreadsheet.Evaluation.Expr
import Spreadsheet.Proofs.Formula.Targets

/-!
# Evaluations that are told apart by nothing but empty values

A formula and the same formula with its references redirected are evaluated side by side, each
against its own surroundings. If what the targets read is alike, then so are the results: the
same value, or failures with the same code. Ranges may hold more or fewer empty values on one
side, because a range as a single value fails anyway and every function skips empty values.
-/

namespace Spreadsheet

/-- Whether two results are both failures with the same code, or are both related values. -/
inductive Alike {α β : Type} (R : α → β → Prop) : Except Failure α → Except Failure β → Prop
  | ok {v : α} {w : β} : R v w → Alike R (.ok v) (.ok w)
  | error {f g : Failure} : f.code = g.code → Alike R (.error f) (.error g)

namespace Alike

variable {α β α' β' : Type} {R : α → β → Prop} {R' : α' → β' → Prop}
  {x : Except Failure α} {y : Except Failure β}

theorem refl {R : α → α → Prop} (reflexive : ∀ v, R v v) (x : Except Failure α) : Alike R x x := by
  cases x with
  | ok v => exact .ok (reflexive v)
  | error f => exact .error rfl

theorem symm (h : Alike R x y) : Alike (fun w v => R v w) y x := by
  cases h with
  | ok related => exact .ok related
  | error same => exact .error same.symm

theorem trans {γ : Type} {S : β → γ → Prop} {T : α → γ → Prop} {z : Except Failure γ}
    (h : Alike R x y) (h' : Alike S y z) (comp : ∀ u v w, R u v → S v w → T u w) :
    Alike T x z := by
  cases h with
  | ok related =>
      cases h' with
      | ok related' => exact .ok (comp _ _ _ related related')
  | error same =>
      cases h' with
      | error same' => exact .error (same.trans same')

theorem bind (h : Alike R x y) {f : α → Except Failure α'} {g : β → Except Failure β'}
    (next : ∀ v w, R v w → Alike R' (f v) (g w)) : Alike R' (x >>= f) (y >>= g) := by
  cases h with
  | ok related => exact next _ _ related
  | error same => exact .error same

theorem map (h : Alike R x y) {f : α → α'} {g : β → β'} (next : ∀ v w, R v w → R' (f v) (g w)) :
    Alike R' (x.map f) (y.map g) := by
  cases h with
  | ok related => exact .ok (next _ _ related)
  | error same => exact .error same

end Alike

/-! ### Empty values -/

/-- The values among `vs` that are not empty. -/
def filled (vs : List Value) : List Value :=
  vs.filter fun v => !v.isEmpty

/-- Whether two lists of values differ in empty ones only. -/
def SameFilled (vs ws : List Value) : Prop :=
  filled vs = filled ws

theorem filled_append (vs ws : List Value) : filled (vs ++ ws) = filled vs ++ filled ws :=
  List.filter_append _ _

theorem SameFilled.cons {vs ws : List Value} (h : SameFilled vs ws) (v : Value) :
    SameFilled (v :: vs) (v :: ws) := by
  rw [SameFilled, ← List.singleton_append, filled_append, h, ← filled_append]
  rfl

/-! ### Lists with empty values -/

section Lists

variable {α β : Type} {f : α → Except Failure Value} {g : β → Except Failure Value}
  {move : α → Option β} {keep : β → Bool} {xs : List α} {ys : List β}

/-- What is left out of a list reads as empty, and the rest is moved. -/
theorem Alike.mapM_filterMap (dropped : ∀ x ∈ xs, move x = none → f x = .ok .empty)
    (moved : ∀ x ∈ xs, ∀ y, move x = some y → Alike Eq (f x) (g y)) :
    Alike SameFilled (xs.mapM f) ((xs.filterMap move).mapM g) := by
  induction xs with
  | nil => exact .ok rfl
  | cons x xs ih =>
      have rest := ih (fun z hz => dropped z (List.mem_cons_of_mem x hz))
        fun z hz => moved z (List.mem_cons_of_mem x hz)
      cases h : move x with
      | none =>
          rw [List.filterMap_cons_none h, List.mapM_cons, dropped x List.mem_cons_self h,
            ← bind_pure (List.mapM g (List.filterMap move xs))]
          exact rest.bind fun vs ws same => .ok same
      | some y =>
          rw [List.filterMap_cons_some h, List.mapM_cons, List.mapM_cons]
          refine (moved x List.mem_cons_self y h).bind fun v w same => ?_
          subst same
          exact rest.bind fun vs ws same => .ok (same.cons v)

/-- Two lists read alike if one of them is the other one moved, up to what reads as empty. -/
theorem Alike.mapM_moved (same : xs.filterMap move = ys.filter keep)
    (dropped : ∀ x ∈ xs, move x = none → f x = .ok .empty)
    (moved : ∀ x ∈ xs, ∀ y, move x = some y → Alike Eq (f x) (g y))
    (added : ∀ y ∈ ys, keep y = false → g y = .ok .empty) :
    Alike SameFilled (xs.mapM f) (ys.mapM g) := by
  have left : Alike SameFilled (xs.mapM f) ((xs.filterMap move).mapM g) :=
    Alike.mapM_filterMap dropped moved
  have right : Alike SameFilled (ys.mapM g) ((ys.filterMap (Option.guard keep)).mapM g) := by
    apply Alike.mapM_filterMap
    · intro y hy out
      exact added y hy (by simpa [Option.guard] using out)
    · intro y _ z kept
      rw [(Option.guard_eq_some_iff.mp kept).1]
      exact Alike.refl (fun _ => rfl) (g z)
  rw [List.filterMap_eq_filter, ← same] at right
  exact left.trans right.symm fun _ _ _ h h' => h.trans h'.symm

end Lists

/-! ### Operands -/

/-- Whether two operands are the same value, or the values of two ranges that differ in empty ones
only. -/
inductive Operand.Similar : Operand → Operand → Prop
  | single (v : Value) : Similar (.single v) (.single v)
  | many {vs ws : List Value} : SameFilled vs ws → Similar (.many vs) (.many ws)

namespace Operand.Similar

variable {l r : Operand}

theorem refl (operand : Operand) : operand.Similar operand := by
  cases operand with
  | single v => exact .single v
  | many vs => exact .many rfl

/-- A range is no single value, however many values it holds. -/
theorem value (h : l.Similar r) : Alike Eq l.value r.value := by
  cases h with
  | single v => exact .ok rfl
  | many _ => exact .error rfl

theorem values (h : l.Similar r) : SameFilled l.values r.values := by
  cases h with
  | single v => rfl
  | many same => exact same

end Operand.Similar

namespace Aggregate

variable {args args' : List Operand}

theorem sameFilled_values (h : List.Forall₂ Operand.Similar args args') :
    SameFilled (values args) (values args') := by
  induction h with
  | nil => rfl
  | cons first _ ih =>
      rw [SameFilled, values, values, List.flatMap_cons, List.flatMap_cons, filled_append,
        filled_append, first.values]
      exact congrArg _ ih

/-- An empty value is no number. -/
theorem numbers_eq (args : List Operand) :
    numbers args = (filled (values args)).filterMap Value.number? := by
  rw [numbers, filled, List.filterMap_filter]
  refine List.filterMap_congr fun v _ => ?_
  cases v <;> rfl

theorem count_eq (vs : List Value) : count vs = (filled vs).length :=
  List.countP_eq_length_filter

end Aggregate

/-- No function makes a difference between arguments whose values differ in empty ones only, however
they are spread over the arguments. -/
theorem Function.aggregate_eq_of_sameFilled (f : Function) {args args' : List Operand}
    (same : SameFilled (Aggregate.values args) (Aggregate.values args')) :
    f.aggregate args = f.aggregate args' := by
  have numbers : Aggregate.numbers args = Aggregate.numbers args' := by
    rw [Aggregate.numbers_eq, Aggregate.numbers_eq, same]
  have count : Aggregate.count (Aggregate.values args) = Aggregate.count (Aggregate.values args') := by
    rw [Aggregate.count_eq, Aggregate.count_eq, same]
  unfold Function.aggregate
  rw [numbers, count]

theorem Function.aggregate_congr (f : Function) {args args' : List Operand}
    (h : List.Forall₂ Operand.Similar args args') : f.aggregate args = f.aggregate args' :=
  f.aggregate_eq_of_sameFilled (Aggregate.sameFilled_values h)

/-! ### Formulas -/

/-- Whether what a target reads is like what the redirected target reads. -/
def Target.ReadsAlike (f : Formula.Redirection) (s t : Surroundings) : Target → Prop
  | lone r => ∃ r', f.lone r = some r' ∧ Alike Eq (s.cell r.address) (t.cell r'.address)
  | pair first second => ∃ moved, f.pair first second = some moved ∧
      Alike SameFilled (s.range (first.rectangle second)) (t.range (moved.1.rectangle moved.2))

namespace Expr

variable {f : Formula.Redirection} {s t : Surroundings}

/-- The results of two formulas side by side. -/
def EvalAlike (s t : Surroundings) (e e' : Expr) : Prop :=
  Alike Operand.Similar (e.eval s) (e'.eval t)

theorem evalAll_alike {args args' : List Expr} (h : List.Forall₂ (EvalAlike s t) args args') :
    Alike (List.Forall₂ Operand.Similar) (evalAll s args) (evalAll t args') := by
  induction h with
  | nil => exact .ok .nil
  | cons first _ ih =>
      simp only [evalAll]
      refine first.bind fun v w similar => ?_
      exact ih.bind fun vs ws all => .ok (.cons similar all)

/-- Similar conditions are the same single value, so both sides choose the same branch. -/
theorem evalChoice_alike {args args' : List Expr} (h : List.Forall₂ (EvalAlike s t) args args') :
    Alike Operand.Similar (evalChoice s args) (evalChoice t args') := by
  have choose {c y n c' y' n' : Expr} (condition : EvalAlike s t c c') (yes : EvalAlike s t y y')
      (no : EvalAlike s t n n') :
      Alike Operand.Similar (evalChoice s [c, y, n]) (evalChoice t [c', y', n']) := by
    simp only [evalChoice]
    refine condition.bind fun _ _ similar => similar.value.bind fun v w same => ?_
    subst same
    split
    · exact yes
    · exact no
  match args, args', h with
  | [_, _, _], [_, _, _], .cons condition (.cons yes (.cons no .nil)) =>
      exact choose condition yes no
  | [], [], _ => exact .error rfl
  | [_], [_], _ => exact .error rfl
  | [_, _], [_, _], _ => exact .error rfl
  | _ :: _ :: _ :: _ :: _, _ :: _ :: _ :: _ :: _, _ => exact .error rfl

theorem congruence_evalAlike (s t : Surroundings) : Congruence (EvalAlike s t) where
  number n := .ok (.single _)
  text _ := .ok (.single _)
  boolean b := .ok (.single _)
  binary {op left left' right right'} hleft hright := by
    simp only [EvalAlike, eval]
    refine hleft.bind fun _ _ similar => similar.value.bind fun l l' same => ?_
    subst same
    refine hright.bind fun _ _ similar => similar.value.bind fun r r' same => ?_
    subst same
    exact Alike.refl Operand.Similar.refl _
  negate {operand operand'} h := by
    simp only [EvalAlike, eval]
    refine h.bind fun _ _ similar => similar.value.bind fun v w same => ?_
    subst same
    exact Alike.refl Operand.Similar.refl _
  call {name args args'} h := by
    simp only [EvalAlike, eval, h.length_eq]
    refine (Alike.refl (fun _ => rfl) (Function.resolve name args'.length)).bind fun g g' same => ?_
    subst same
    split
    · exact evalChoice_alike h
    · refine (evalAll_alike h).bind fun vs ws similar => ?_
      rw [Function.applyAggregate, Function.applyAggregate, g.aggregate_congr similar]
      exact Alike.refl Operand.Similar.refl _

/-- A formula and the redirected formula have results that are alike if their targets read alike. -/
theorem eval_alike (e : Expr) (h : ∀ target ∈ e.targets, target.ReadsAlike f s t) :
    EvalAlike s t e (e.redirect f) := by
  have cong := congruence_evalAlike s t
  induction e with
  | number n =>
      rw [redirect]
      exact cong.number n
  | text s =>
      rw [redirect]
      exact cong.text s
  | boolean b =>
      rw [redirect]
      exact cong.boolean b
  | lost =>
      rw [redirect]
      exact .error rfl
  | cell r =>
      obtain ⟨r', moved, alike⟩ := h (.lone r) (by simp [targets])
      rw [redirect, moved]
      simp only [EvalAlike, Option.elim_some, eval]
      exact alike.map fun v w same => same ▸ .single v
  | range first second =>
      obtain ⟨moved, same, alike⟩ := h (.pair first second) (by simp [targets])
      rw [redirect, same]
      simp only [EvalAlike, Option.elim_some, eval]
      exact alike.map fun v w same => .many same
  | binary op left right hleft hright =>
      rw [redirect]
      exact cong.binary (hleft fun target mem => h target (List.mem_append_left _ mem))
        (hright fun target mem => h target (List.mem_append_right _ mem))
  | negate operand ih =>
      rw [redirect]
      exact cong.negate (ih h)
  | call name args ih =>
      rw [redirect]
      rw [targets, targetsAll_eq_flatMap] at h
      refine cong.call (List.forall₂_map_right_iff.mpr (List.forall₂_same.mpr fun e he => ?_))
      exact ih e he fun target mem => h target (List.mem_flatMap.mpr ⟨e, he, mem⟩)

/-- The same for the single values of the two formulas. -/
theorem value_alike (e : Expr) (h : ∀ target ∈ e.targets, target.ReadsAlike f s t) :
    Alike Eq (e.value s) ((e.redirect f).value t) :=
  (eval_alike e h).bind fun _ _ similar => similar.value

end Expr

end Spreadsheet
