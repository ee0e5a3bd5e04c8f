import Spreadsheet.Proofs.Decimal.Negation
import Spreadsheet.Proofs.Evaluation.Origin
import Spreadsheet.Proofs.Evaluation.Solution
import Spreadsheet.Proofs.Formula.Written
import Spreadsheet.Proofs.Sheet.FromText

/-!
# Finite numbers

No operator and no aggregate results in an infinite number or in no number, whatever it is applied
to: it fails instead. The negative of a finite number is finite. So where a cell shows a number that
is not finite, no computation has gone beyond the range of doubles. The number comes from a formula
in which it is written: the numbers of a text are not checked when they are read, and references,
minus signs and conditions hand them on.
-/

namespace Spreadsheet

/-! ### Operators and aggregates -/

/-- Whether a value is no number, or a finite one. -/
def Value.IsFinite (v : Value) : Prop :=
  ∀ n ∈ v.number?, n.isFinite

/-- Whether all values of an operand are finite. -/
def Operand.IsFinite (operand : Operand) : Prop :=
  ∀ v ∈ operand.values, v.IsFinite

theorem Value.isFinite_number {n : Float} : (number n).IsFinite ↔ n.isFinite := by
  simp [IsFinite, number?]

theorem Value.isFinite_of_number? {v : Value} (h : v.number? = none) : v.IsFinite := by
  simp [IsFinite, h]

theorem Operand.isFinite_single {v : Value} : (single v).IsFinite ↔ v.IsFinite := by
  simp [IsFinite]

theorem Operand.IsFinite.value {operand : Operand} {v : Value} (h : operand.IsFinite)
    (single : operand.value = .ok v) : v.IsFinite := by
  cases operand with
  | single w =>
      cases single
      exact isFinite_single.mp h
  | many vs => cases single

/-- What an operator computes is finite, or it is refused. -/
theorem BinaryOp.finite_cases (op : BinaryOp) (left right result : Float) :
    (∃ v, op.finite left right result = .ok v ∧ v.IsFinite) ∨
      ∃ f, op.finite left right result = .error f ∧ f.code = .eval := by
  unfold finite
  split
  · next finite => exact .inl ⟨_, rfl, Value.isFinite_number.mpr finite⟩
  · exact .inr ⟨_, rfl, rfl⟩

/-- An operator gives a finite value or fails, whatever it is applied to. -/
theorem BinaryOp.apply_cases (op : BinaryOp) (left right : Value) :
    (∃ v, op.apply left right = .ok v ∧ v.IsFinite) ∨
      ∃ f, op.apply left right = .error f ∧ (f = .divisionByZero ∨ f.code = .eval) := by
  have computed (l r n : Float) : (∃ v, op.finite l r n = .ok v ∧ v.IsFinite) ∨
      ∃ f, op.finite l r n = .error f ∧ (f = .divisionByZero ∨ f.code = .eval) := by
    rcases op.finite_cases l r n with done | ⟨f, failed, code⟩
    · exact .inl done
    · exact .inr ⟨f, failed, .inr code⟩
  have compared (b : Bool) : (Value.boolean b).IsFinite := Value.isFinite_of_number? rfl
  unfold apply
  split
  · next l r _ _ =>
      cases op with
      | add | subtract | multiply | power => exact computed l r _
      | divide =>
          rw [applyNumbers]
          split
          · exact .inr ⟨_, rfl, .inl rfl⟩
          · exact computed l r _
      | equal | notEqual | less | lessEqual | greater | greaterEqual =>
          exact .inl ⟨_, rfl, compared _⟩
  · unfold applyOthers
    split
    · split
      · exact .inl ⟨_, rfl, Value.isFinite_of_number? rfl⟩
      · exact .inr ⟨_, rfl, .inr rfl⟩
    · exact .inl ⟨_, rfl, compared _⟩
    · exact .inl ⟨_, rfl, compared _⟩
    · exact .inr ⟨_, rfl, .inr rfl⟩

/-- An aggregate gives a finite number or fails, whatever it is applied to. -/
theorem Function.applyAggregate_cases (f : Function) (args : List Operand) :
    (∃ n, f.applyAggregate args = .ok (.single (.number n)) ∧ n.isFinite) ∨
      ∃ failure, f.applyAggregate args = .error failure ∧ failure.code = .eval := by
  unfold applyAggregate Aggregate.finite
  split
  · next finite => exact .inl ⟨_, rfl, finite⟩
  · exact .inr ⟨_, rfl, rfl⟩

theorem BinaryOp.isFinite_apply {op : BinaryOp} {left right v : Value}
    (h : op.apply left right = .ok v) : v.IsFinite := by
  rcases op.apply_cases left right with ⟨w, done, finite⟩ | ⟨f, failed, -⟩
  · rw [h] at done
    cases done
    exact finite
  · rw [h] at failed
    cases failed

theorem Function.isFinite_applyAggregate {f : Function} {args : List Operand} {operand : Operand}
    (h : f.applyAggregate args = .ok operand) : operand.IsFinite := by
  rcases f.applyAggregate_cases args with ⟨n, done, finite⟩ | ⟨failure, failed, -⟩
  · rw [h] at done
    cases done
    exact Operand.isFinite_single.mpr (Value.isFinite_number.mpr finite)
  · rw [h] at failed
    cases failed

theorem Value.IsFinite.negate {v w : Value} (h : v.IsFinite) (negated : v.negate = .ok w) :
    w.IsFinite := by
  unfold Value.negate at negated
  split at negated
  · next n operand =>
      cases negated
      rw [isFinite_number, Decimal.isFinite_neg]
      cases v with
      | number m =>
          cases operand
          exact isFinite_number.mp h
      | empty =>
          cases operand
          decide
      | boolean | text => cases operand
  · cases negated

/-! ### Formulas -/

theorem map_eq_ok {α β : Type} {x : Except Failure α} {g : α → β} {b : β} (h : x.map g = .ok b) :
    ∃ a, x = .ok a ∧ g a = b := by
  cases x with
  | ok a => exact ⟨a, rfl, Except.ok.inj h⟩
  | error f => cases h

theorem isFinite_of_mapM {read : Address → Except Failure Value} {as : List Address}
    {vs : List Value} (h : as.mapM read = .ok vs)
    (finite : ∀ a ∈ as, ∀ v, read a = .ok v → v.IsFinite) : ∀ v ∈ vs, v.IsFinite := by
  induction as generalizing vs with
  | nil =>
      cases h
      simp
  | cons a as ih =>
      rw [List.mapM_cons] at h
      obtain ⟨v, first, h⟩ := Formula.bind_eq_ok h
      obtain ⟨ws, behind, h⟩ := Formula.bind_eq_ok h
      cases h
      rw [List.forall_mem_cons]
      exact ⟨finite a List.mem_cons_self v first,
        ih behind fun b hb => finite b (List.mem_cons_of_mem a hb)⟩

namespace Surroundings

variable {s : Surroundings}

/-- Outside the extent nothing but empty values is read. -/
theorem isFinite_cell {a : Address} {v : Value} (h : s.cell a = .ok v)
    (finite : s.extent.contains a → s.read a = .ok v → v.IsFinite) : v.IsFinite := by
  unfold cell at h
  split at h
  · next inside => exact finite inside h
  · split at h
    · cases h
    · cases h
      exact Value.isFinite_of_number? rfl

theorem isFinite_range {r : Range} {vs : List Value} (h : s.range r = .ok vs)
    (finite : ∀ a ∈ ((r.intersection s.extent).map Range.cells).getD [], ∀ v,
      s.read a = .ok v → v.IsFinite) : ∀ v ∈ vs, v.IsFinite := by
  unfold range at h
  dsimp only at h
  split at h
  · cases h
  · cases covered : r.intersection s.extent with
    | none =>
        rw [covered] at h
        cases h
        simp
    | some inner =>
        rw [covered] at h finite
        refine isFinite_of_mapM h fun a ha v read => ?_
        exact isFinite_cell read fun _ => finite a ha v

end Surroundings

namespace Expr

variable {s : Surroundings}

/-- A condition evaluates to what one of its branches evaluates to. -/
theorem exists_of_evalChoice {args : List Expr} {operand : Operand}
    (h : evalChoice s args = .ok operand) : ∃ e ∈ args, e.eval s = .ok operand := by
  unfold evalChoice at h
  split at h
  · next condition yes no =>
      obtain ⟨operand', -, h⟩ := Formula.bind_eq_ok h
      obtain ⟨v, -, h⟩ := Formula.bind_eq_ok h
      split at h
      · exact ⟨yes, by simp, h⟩
      · exact ⟨no, by simp, h⟩
  · cases h

/-- A formula evaluates to finite values if the numbers that are written in it and those that it
reads are finite. -/
theorem isFinite_eval (e : Expr) {operand : Operand} (h : e.eval s = .ok operand)
    (written : ∀ n, .number n ∈ e.leaves → n.isFinite)
    (reads : ∀ a ∈ e.mentions (some s.extent), ∀ v, s.read a = .ok v → v.IsFinite) :
    operand.IsFinite := by
  induction e generalizing operand with
  | number n =>
      cases h
      exact Operand.isFinite_single.mpr (Value.isFinite_number.mpr (written n (by simp [leaves])))
  | text t =>
      cases h
      exact Operand.isFinite_single.mpr (Value.isFinite_of_number? rfl)
  | boolean b =>
      cases h
      exact Operand.isFinite_single.mpr (Value.isFinite_of_number? rfl)
  | lost => cases h
  | cell r =>
      obtain ⟨v, read, rfl⟩ := map_eq_ok h
      refine Operand.isFinite_single.mpr (Surroundings.isFinite_cell read fun inside => ?_)
      exact reads r.address (by simp [mentions, inside]) v
  | range first second =>
      obtain ⟨vs, read, rfl⟩ := map_eq_ok h
      exact Surroundings.isFinite_range read reads
  | binary op left right _ _ =>
      simp only [eval] at h
      obtain ⟨_, -, h⟩ := Formula.bind_eq_ok h
      obtain ⟨l, -, h⟩ := Formula.bind_eq_ok h
      obtain ⟨_, -, h⟩ := Formula.bind_eq_ok h
      obtain ⟨r, -, h⟩ := Formula.bind_eq_ok h
      obtain ⟨v, applied, h⟩ := Formula.bind_eq_ok h
      cases h
      exact Operand.isFinite_single.mpr (BinaryOp.isFinite_apply applied)
  | negate operand' ih =>
      simp only [eval] at h
      obtain ⟨inner, found, h⟩ := Formula.bind_eq_ok h
      obtain ⟨v, single, h⟩ := Formula.bind_eq_ok h
      obtain ⟨w, negated, h⟩ := Formula.bind_eq_ok h
      cases h
      rw [leaves] at written
      have finite : inner.IsFinite := ih found written reads
      exact Operand.isFinite_single.mpr ((finite.value single).negate negated)
  | call name args ih =>
      simp only [eval] at h
      obtain ⟨f, -, h⟩ := Formula.bind_eq_ok h
      split at h
      · obtain ⟨e, he, found⟩ := exists_of_evalChoice h
        refine ih e he found (fun n hn => written n ?_) fun a ha => reads a ?_
        · rw [leaves]
          exact List.mem_flatMap_of_mem he hn
        · exact mem_mentionsAll.mpr ⟨e, he, ha⟩
      · obtain ⟨operands, -, h⟩ := Formula.bind_eq_ok h
        exact Function.isFinite_applyAggregate h

theorem isFinite_value {e : Expr} {v : Value} (h : e.value s = .ok v)
    (written : ∀ n, .number n ∈ e.leaves → n.isFinite)
    (reads : ∀ a ∈ e.mentions (some s.extent), ∀ v, s.read a = .ok v → v.IsFinite) :
    v.IsFinite := by
  obtain ⟨operand, found, single⟩ := Formula.bind_eq_ok h
  exact (isFinite_eval e found written reads).value single

end Expr

/-! ### Sheets -/

namespace Sheet

variable {s : Sheet} {options : Options} {settled : Outcomes} {a b : Address} {v : Value} {c : Cell}

/-- Whether all numbers that a sheet stores are finite. -/
def StoresFinite (s : Sheet) : Prop :=
  ∀ a v, s.get a = some (.literal v) → v.IsFinite

/-- Whether a number is written in the formula of a cell that is beyond the range of doubles. -/
def Overflows (s : Sheet) (a : Address) : Prop :=
  ∃ source tree, s.get a = some (.formula source tree) ∧
    ∃ n, .number n ∈ Formula.tokenize source ∧ ¬ n.isFinite

/-- Whether references lead from a cell to a formula with such a number. -/
def LeadsToOverflow (s : Sheet) (a : Address) : Prop :=
  ∃ b, Relation.ReflTransGen s.Reads a b ∧ s.Overflows b

theorem Overflows.leadsToOverflow (h : s.Overflows a) : s.LeadsToOverflow a :=
  ⟨a, .refl, h⟩

theorem Reads.leadsToOverflow (reads : s.Reads a b) (h : s.LeadsToOverflow b) :
    s.LeadsToOverflow a := by
  obtain ⟨c, path, overflows⟩ := h
  exact ⟨c, path.head reads, overflows⟩

theorem storesFinite_blank (id name : String) (rows cols : Nat) :
    (blank id name rows cols).StoresFinite := by
  intro a v stored
  simp [blank, get] at stored

theorem StoresFinite.insert (h : s.StoresFinite) (hc : ∀ v, c = .literal v → v.IsFinite) :
    StoresFinite { s with cells := s.cells.insert a c } := by
  intro b v stored
  rw [get, Std.ExtTreeMap.getElem?_insert] at stored
  split at stored
  · exact hc v (Option.some.inj stored)
  · exact h b v stored

/-- Whether all settled values are finite, up to those of cells that lead to an overflow. -/
def SettlesFinite (s : Sheet) (settled : Outcomes) : Prop :=
  ∀ b v, settled[b]? = some (.value v) → ¬ s.LeadsToOverflow b → v.IsFinite

theorem settlesFinite_empty : s.SettlesFinite ∅ := by
  intro b v found
  simp at found

section Reading

variable (stores : s.StoresFinite) (texts : s.FromText)

include stores texts

/-- Following a cell gives a finite value if no number beyond the range is written in its formula
and what it reads is finite. -/
theorem isFinite_of_follow {read : Address → Except Failure Value}
    (h : s.follow options read a = .ok v) (none : ¬ s.Overflows a)
    (reads : ∀ b, s.Reads a b → ∀ v, read b = .ok v → v.IsFinite) : v.IsFinite := by
  rw [follow] at h
  split at h
  · cases h
    exact Value.isFinite_of_number? rfl
  · next stored =>
      cases h
      exact stores a v stored
  · cases h
  · next source tree stored =>
      have parsed := texts a _ stored source tree rfl
      refine Expr.isFinite_value h (fun n hn => ?_) fun b hb =>
        reads b ((mem_readsOf stored).mpr hb)
      by_contra infinite
      exact none ⟨source, tree, stored, n, Formula.number_mem_of_leaves parsed hn, infinite⟩

/-- A reader gets finite values, whatever is on its chain. -/
theorem SettlesFinite.of_read (before : s.SettlesFinite settled) (room : Nat)
    {chain : List Address} (h : s.read options settled room chain a = .ok v)
    (none : ¬ s.LeadsToOverflow a) : v.IsFinite := by
  revert v none
  refine read_induction (motive := fun _ a x =>
    ∀ {v}, x = .ok v → ¬ s.LeadsToOverflow a → v.IsFinite) ?_ ?_ ?_ ?_ room chain a
  · intro chain a outcome found v shown none
    cases outcome with
    | value w =>
        cases shown
        exact before a v found none
    | error code message => cases shown
  · intro chain a _ v shown
    cases shown
  · intro chain a v shown
    cases shown
  · intro chain a read ih v followed none
    refine isFinite_of_follow stores texts followed (mt Overflows.leadsToOverflow none) ?_
    intro b reads w read
    exact ih b read (mt reads.leadsToOverflow none)

/-- A cell that is evaluated shows a finite value. -/
theorem SettlesFinite.of_evaluateWith (before : s.SettlesFinite settled)
    (h : s.evaluateWith options settled a = .value v) (none : ¬ s.LeadsToOverflow a) :
    v.IsFinite := by
  refine isFinite_of_follow stores texts (evaluateWith_eq_value_iff.mp h)
    (mt Overflows.leadsToOverflow none) ?_
  intro b reads w read
  exact before.of_read stores texts _ read (mt reads.leadsToOverflow none)

end Reading

end Sheet

namespace Evaluator

open Sheet

variable {e : Evaluator} {s : Sheet} {options : Options} {a : Address} {v : Value}

/-- Whether a cell shows a value, alone or in a pass over the whole sheet. -/
def Shows (e : Evaluator) (s : Sheet) (a : Address) (v : Value) : Prop :=
  s.evaluate e.options a = .value v ∨ (e.evaluateSheet s).1[a]? = some (.value v)

section Passes

variable (stores : s.StoresFinite) (texts : s.FromText)

include stores texts

/-- A pass settles finite values. -/
theorem settlesFinite_settleAll (cells : List Address) :
    s.SettlesFinite (settleAll s options cells) := by
  induction cells with
  | nil => exact settlesFinite_empty
  | cons c cells ih =>
      intro b v found none
      rw [settleAll, List.foldr_cons, getElem?_settle, ← settleAll] at found
      split at found
      · next here =>
          rw [← here.1] at none
          exact ih.of_evaluateWith stores texts (Option.some.inj found) none
      · exact ih b v found none

theorem Shows.isFinite (h : e.Shows s a v) (none : ¬ s.LeadsToOverflow a) : v.IsFinite := by
  rcases h with alone | found
  · exact settlesFinite_empty.of_evaluateWith stores texts alone none
  · rw [evaluateSheet_outcomes] at found
    exact settlesFinite_settleAll stores texts (e.passed s) a v found none

/-- On a sheet that stores finite numbers only, a cell shows a number that is not finite only if
references lead from it to a formula in which such a number is written. No operator and no aggregate
makes one, whatever it is applied to: where the result is beyond the range of doubles, it fails with
the code of a failed evaluation. -/
theorem shows_finite (e : Evaluator) :
    (∀ a n, e.Shows s a (.number n) → n.isFinite ∨ s.LeadsToOverflow a) ∧
    (∀ op left right, (∃ v, BinaryOp.apply op left right = .ok v ∧ v.IsFinite) ∨
      ∃ f, op.apply left right = .error f ∧ (f = .divisionByZero ∨ f.code = .eval)) ∧
    (∀ f args, (∃ n, Function.applyAggregate f args = .ok (.single (.number n)) ∧ n.isFinite) ∨
      ∃ failure, f.applyAggregate args = .error failure ∧ failure.code = .eval) := by
  refine ⟨fun a n shows => ?_, BinaryOp.apply_cases, Function.applyAggregate_cases⟩
  by_cases leads : s.LeadsToOverflow a
  · exact .inr leads
  · exact .inl (Value.isFinite_number.mp (shows.isFinite stores texts leads))

end Passes

end Evaluator

/-- A formula whose only number has 310 digits and is more than any finite double. -/
def Formula.astronomic : String :=
  String.ofList ('=' :: '1' :: List.replicate 309 '0')

theorem Formula.toList_astronomic :
    astronomic.toList = '=' :: '1' :: List.replicate 309 '0' :=
  String.toList_ofList

theorem Formula.tokenize_astronomic : tokenize astronomic = [.number (1 / 0), .finish] := by
  simp only [tokenize, toList_astronomic]
  decide +kernel

theorem Cell.ofFormula_astronomic :
    ofFormula Formula.astronomic = .formula Formula.astronomic (.number (1 / 0)) := by
  rw [ofFormula_eq_formula_iff, Formula.parse, Formula.tokenize_astronomic]
  rfl

theorem Cell.ofFormula_ne_literal (source : String) (v : Value) :
    ofFormula source ≠ .literal v := by
  unfold ofFormula
  cases Formula.parse source <;> simp

/-- A sheet on which a number beyond the range of doubles is negated and computed with. -/
def Sheet.astronomic : Sheet :=
  { Sheet.blank "astronomic" "Astronomic" 1 4 with
    cells := ((((∅ : AddressMap Cell).insert ⟨0, 0⟩ (.literal (.number 2))).insert ⟨0, 1⟩
      (.ofFormula Formula.astronomic)).insert ⟨0, 2⟩ (.ofFormula "=IF(A1,-B1,0)")).insert ⟨0, 3⟩
      (.ofFormula "=B1-A1") }

theorem Sheet.storesFinite_astronomic : Sheet.astronomic.StoresFinite := by
  have written (source : String) (v : Value) (same : Cell.ofFormula source = .literal v) :
      v.IsFinite := absurd same (Cell.ofFormula_ne_literal source v)
  refine ((((storesFinite_blank "astronomic" "Astronomic" 1 4).insert ?_).insert
    (written _)).insert (written _)).insert (written _)
  rintro v ⟨⟩
  exact Value.isFinite_number.mpr (by decide)

theorem Sheet.fromText_astronomic : Sheet.astronomic.FromText :=
  ((((fromText_blank "astronomic" "Astronomic" 1 4).insert (Cell.fromText_literal _)).insert
    (Cell.fromText_ofFormula _)).insert (Cell.fromText_ofFormula _)).insert
    (Cell.fromText_ofFormula _)

/-- The number is handed on through a condition and a minus sign, but no operator computes with
it. -/
theorem Evaluator.shows_finite_astronomic :
    Sheet.astronomic.StoresFinite ∧ Sheet.astronomic.FromText ∧
    ({} : Evaluator).Shows Sheet.astronomic ⟨0, 2⟩ (.number (-1 / 0)) ∧
    Sheet.astronomic.LeadsToOverflow ⟨0, 2⟩ ∧
    (Sheet.astronomic.evaluate {} ⟨0, 3⟩).code? = some .eval := by
  have stores := Sheet.storesFinite_astronomic
  have texts := Sheet.fromText_astronomic
  have shows : ({} : Evaluator).Shows Sheet.astronomic ⟨0, 2⟩ (.number (-1 / 0)) := by
    rw [Shows, Sheet.astronomic, Cell.ofFormula_astronomic]
    exact .inl (by decide +kernel)
  have failed : (Sheet.astronomic.evaluate {} ⟨0, 3⟩).code? = some .eval := by
    rw [Sheet.astronomic, Cell.ofFormula_astronomic]
    decide +kernel
  have infinite : ¬ (-1 / 0 : Float).isFinite := by decide +kernel
  have leads := ((shows_finite stores texts {}).1 _ _ shows).resolve_left infinite
  exact ⟨stores, texts, shows, leads, failed⟩

/-- A formula that is nothing but such a number shows it. -/
theorem Evaluator.not_shows_finite :
    ¬ ∀ s : Sheet, s.StoresFinite → s.FromText →
      ∀ (e : Evaluator) a n, e.Shows s a (.number n) → n.isFinite := by
  intro claim
  have stores := Sheet.storesFinite_astronomic
  have shows : ({} : Evaluator).Shows Sheet.astronomic ⟨0, 1⟩ (.number (1 / 0)) := by
    rw [Shows, Sheet.astronomic, Cell.ofFormula_astronomic]
    exact .inl (by decide +kernel)
  have finite := claim _ stores Sheet.fromText_astronomic {} _ _ shows
  exact absurd finite (by decide +kernel)

end Spreadsheet
