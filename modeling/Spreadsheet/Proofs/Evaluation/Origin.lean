import Spreadsheet.Proofs.Evaluation.Tolerance

/-!
# Where failures come from

Some failures say that a cell could not be read: the cell fails itself, or its chain of
references closes or grows too long. No operator and no function fails in this way. When a
formula does, the failure is that of a cell that the formula mentions.
-/

namespace Spreadsheet

namespace Failure

/-- Whether a failure says that a cell could not be read. -/
def OfReading : Failure → Prop
  | circular _ => True
  | referenced _ _ _ => True
  | invalidValue (.tooDeep _) => True
  | _ => False

end Failure

section Results

variable {α β : Type} {f : Failure}

/-- A computation fails in its first step, or in what follows the value of that step. -/
theorem bind_eq_error {x : Except Failure α} {next : α → Except Failure β}
    (h : x >>= next = .error f) : x = .error f ∨ ∃ v, x = .ok v ∧ next v = .error f := by
  cases x with
  | ok v => exact .inr ⟨v, rfl, h⟩
  | error g =>
      cases h
      exact .inl rfl

theorem map_eq_error {x : Except Failure α} {g : α → β} (h : x.map g = .error f) :
    x = .error f := by
  cases x with
  | ok v => cases h
  | error g =>
      cases h
      rfl

theorem mapM_eq_error {g : α → Except Failure β} {as : List α} (h : as.mapM g = .error f) :
    ∃ a ∈ as, g a = .error f := by
  induction as with
  | nil => cases h
  | cons a as ih =>
      simp only [List.mapM_cons] at h
      rcases bind_eq_error h with first | ⟨v, -, h⟩
      · exact ⟨a, List.mem_cons_self, first⟩
      · rcases bind_eq_error h with rest | ⟨vs, -, h⟩
        · obtain ⟨b, hb, failed⟩ := ih rest
          exact ⟨b, List.mem_cons_of_mem a hb, failed⟩
        · cases h

end Results

/-! ### Failures of operators and functions -/

section Own

variable {f : Failure}

theorem Operand.value_failure {operand : Operand} (h : operand.value = .error f) :
    ¬ f.OfReading := by
  cases operand with
  | single v => cases h
  | many vs =>
      cases h
      exact id

theorem BinaryOp.finite_failure {op : BinaryOp} {left right result : Float}
    (h : op.finite left right result = .error f) : ¬ f.OfReading := by
  unfold finite at h
  split at h
  · cases h
  · cases h
    exact id

theorem BinaryOp.applyNumbers_failure {op : BinaryOp} {left right : Float}
    (h : op.applyNumbers left right = .error f) : ¬ f.OfReading := by
  cases op with
  | add | subtract | multiply | power => exact finite_failure h
  | divide =>
      simp only [applyNumbers] at h
      split at h
      · cases h
        exact id
      · exact finite_failure h
  | equal | notEqual | less | lessEqual | greater | greaterEqual => cases h

theorem BinaryOp.applyOthers_failure {op : BinaryOp} {left right : Value}
    (h : op.applyOthers left right = .error f) : ¬ f.OfReading := by
  unfold applyOthers at h
  split at h
  · split at h
    · cases h
    · cases h
      exact id
  · cases h
  · cases h
  · cases h
    exact id

theorem BinaryOp.apply_failure {op : BinaryOp} {left right : Value}
    (h : op.apply left right = .error f) : ¬ f.OfReading := by
  unfold apply at h
  split at h
  · exact applyNumbers_failure h
  · exact applyOthers_failure h

theorem Value.negate_failure {v : Value} (h : v.negate = .error f) : ¬ f.OfReading := by
  unfold negate at h
  split at h
  · cases h
  · cases h
    exact id

theorem Function.resolve_failure {name : String} {count : Nat}
    (h : Function.resolve name count = .error f) : ¬ f.OfReading := by
  unfold resolve at h
  split at h
  · cases h
    exact id
  · have mismatch := map_eq_error h
    unfold Signature.check at mismatch
    split at mismatch
    · cases mismatch
      exact id
    · cases mismatch

theorem Function.applyAggregate_failure {function : Function} {args : List Operand}
    (h : function.applyAggregate args = .error f) : ¬ f.OfReading := by
  unfold applyAggregate Aggregate.finite at h
  split at h
  · cases h
  · cases h
    exact id

end Own

/-! ### Failures of formulas -/

namespace Surroundings

variable {s : Surroundings} {f : Failure}

theorem cell_failure {a : Address} (h : s.cell a = .error f) (reading : f.OfReading) :
    s.extent.contains a ∧ s.read a = .error f := by
  unfold cell at h
  split at h
  · next inside => exact ⟨inside, h⟩
  · split at h
    · cases h
      exact reading.elim
    · cases h

theorem range_failure {r : Range} (h : s.range r = .error f) (reading : f.OfReading) :
    ∃ a ∈ ((r.intersection s.extent).map Range.cells).getD [], s.read a = .error f := by
  unfold range at h
  dsimp only at h
  split at h
  · cases h
    exact reading.elim
  · cases covered : r.intersection s.extent with
    | none =>
        rw [covered] at h
        cases h
    | some inner =>
        rw [covered] at h
        obtain ⟨a, ha, failed⟩ := mapM_eq_error h
        exact ⟨a, ha, (cell_failure failed reading).2⟩

end Surroundings

namespace Expr

variable {s : Surroundings} {f : Failure}

theorem evalAll_failure {args : List Expr} (h : evalAll s args = .error f) :
    ∃ e ∈ args, e.eval s = .error f := by
  induction args with
  | nil => cases h
  | cons e es ih =>
      simp only [evalAll] at h
      rcases bind_eq_error h with first | ⟨v, -, h⟩
      · exact ⟨e, List.mem_cons_self, first⟩
      · rcases bind_eq_error h with rest | ⟨vs, -, h⟩
        · obtain ⟨b, hb, failed⟩ := ih rest
          exact ⟨b, List.mem_cons_of_mem e hb, failed⟩
        · cases h

theorem evalChoice_failure {args : List Expr} (h : evalChoice s args = .error f)
    (reading : f.OfReading) : ∃ e ∈ args, e.eval s = .error f := by
  unfold evalChoice at h
  split at h
  · next condition yes no =>
      rcases bind_eq_error h with failed | ⟨operand, -, h⟩
      · exact ⟨condition, by simp, failed⟩
      rcases bind_eq_error h with failed | ⟨v, -, h⟩
      · exact absurd reading (Operand.value_failure failed)
      split at h
      · exact ⟨yes, by simp, h⟩
      · exact ⟨no, by simp, h⟩
  · cases h
    exact reading.elim

/-- A failure to read a cell is the failure of a cell that the formula mentions. -/
theorem eval_failure (e : Expr) (h : e.eval s = .error f) (reading : f.OfReading) :
    ∃ a ∈ e.mentions (some s.extent), s.read a = .error f := by
  induction e with
  | number n => cases h
  | text t => cases h
  | boolean b => cases h
  | lost =>
      cases h
      exact reading.elim
  | cell r =>
      obtain ⟨inside, failed⟩ := Surroundings.cell_failure (map_eq_error h) reading
      exact ⟨r.address, by simp [mentions, inside], failed⟩
  | range first second => exact Surroundings.range_failure (map_eq_error h) reading
  | binary op left right hleft hright =>
      simp only [eval] at h
      simp only [mentions, List.mem_append]
      rcases bind_eq_error h with failed | ⟨operand, -, h⟩
      · obtain ⟨a, ha, failed⟩ := hleft failed
        exact ⟨a, .inl ha, failed⟩
      rcases bind_eq_error h with failed | ⟨l, -, h⟩
      · exact absurd reading (Operand.value_failure failed)
      rcases bind_eq_error h with failed | ⟨operand, -, h⟩
      · obtain ⟨a, ha, failed⟩ := hright failed
        exact ⟨a, .inr ha, failed⟩
      rcases bind_eq_error h with failed | ⟨r, -, h⟩
      · exact absurd reading (Operand.value_failure failed)
      rcases bind_eq_error h with failed | ⟨v, -, h⟩
      · exact absurd reading (BinaryOp.apply_failure failed)
      · cases h
  | negate operand ih =>
      simp only [eval] at h
      rcases bind_eq_error h with failed | ⟨operand, -, h⟩
      · exact ih failed
      rcases bind_eq_error h with failed | ⟨v, -, h⟩
      · exact absurd reading (Operand.value_failure failed)
      rcases bind_eq_error h with failed | ⟨w, -, h⟩
      · exact absurd reading (Value.negate_failure failed)
      · cases h
  | call name args ih =>
      have each : (∃ e ∈ args, e.eval s = .error f) →
          ∃ a ∈ mentionsAll (some s.extent) args, s.read a = .error f := by
        rintro ⟨e, he, failed⟩
        obtain ⟨a, ha, failed⟩ := ih e he failed
        exact ⟨a, mem_mentionsAll.mpr ⟨e, he, ha⟩, failed⟩
      simp only [eval] at h
      rcases bind_eq_error h with failed | ⟨function, -, h⟩
      · exact absurd reading (Function.resolve_failure failed)
      split at h
      · exact each (evalChoice_failure h reading)
      · rcases bind_eq_error h with failed | ⟨operands, -, h⟩
        · exact each (evalAll_failure failed)
        · exact absurd reading (Function.applyAggregate_failure h)

/-- The same for the single value that a formula evaluates to. -/
theorem value_failure {e : Expr} (h : e.value s = .error f) (reading : f.OfReading) :
    ∃ a ∈ e.mentions (some s.extent), s.read a = .error f := by
  rcases bind_eq_error h with failed | ⟨operand, -, h⟩
  · exact eval_failure e failed reading
  · exact absurd reading (Operand.value_failure h)

end Expr

end Spreadsheet
