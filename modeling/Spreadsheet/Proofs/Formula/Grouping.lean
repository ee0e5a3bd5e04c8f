import Spreadsheet.Formula.Parse

/-!
# Grouping a chain level by level

A chain is grouped in one sweep for each level, the tightest level first. The tree can also be
described from the other end: at any level a chain is cut at its last operator of that level, what
stands in front of it is grouped at the same level, and what stands behind it at the next one.

The sweeps find the tree of this description. A sweep keeps every description that the chain has,
because the operators that it applies are the tightest of the chain; after the last sweep a single
operand is left, and no tree but itself describes it.
-/

namespace Spreadsheet.Expr

variable {level low : Nat} {op : BinaryOp} {first x e : Expr} {more more' : List (BinaryOp × Expr)}

/-- `Groups low first more e` says that `e` is the tree of a chain whose operators belong to the
level `low` or to tighter ones. -/
inductive Groups : Nat → Expr → List (BinaryOp × Expr) → Expr → Prop where
  | single (low : Nat) (e : Expr) : Groups low e [] e
  | tighter {low : Nat} {first e : Expr} {more : List (BinaryOp × Expr)} :
    Groups (low + 1) first more e → Groups low first more e
  | binary {op : BinaryOp} {first x left right : Expr} {more more' : List (BinaryOp × Expr)} :
    Groups op.precedence first more left → Groups (op.precedence + 1) x more' right →
      Groups op.precedence first (more ++ (op, x) :: more') (.binary op left right)

theorem Groups.le_precedence (h : Groups low first more e) :
    ∀ y ∈ more, low ≤ y.1.precedence := by
  induction h with
  | single => simp
  | tighter _ ih =>
      intro y hy
      have := ih y hy
      omega
  | binary _ _ left right =>
      intro y hy
      rcases List.mem_append.mp hy with hy | hy
      · exact left y hy
      · rcases List.mem_cons.mp hy with rfl | hy
        · exact Nat.le_refl _
        · have := right y hy
          omega

theorem Groups.eq_of_nil (h : Groups low first more e) (alone : more = []) : e = first := by
  induction h with
  | single => rfl
  | tighter _ ih => exact ih alone
  | binary => simp at alone

/-- A chain without operators of a level that is as loose as any of them, or tighter, is a single
operand. -/
theorem Groups.nil_of_lt (h : Groups (level + 1) first more e)
    (loose : ∀ y ∈ more, y.1.precedence ≤ level) : more = [] := by
  apply List.eq_nil_iff_forall_not_mem.mpr
  intro y hy
  have := h.le_precedence y hy
  have := loose y hy
  omega

/-! ### One sweep -/

theorem mergeLevel_cons_of_eq (same : op.precedence = level) :
    mergeLevel level first ((op, x) :: more) = mergeLevel level (.binary op first x) more := by
  rw [mergeLevel, if_pos same]

theorem mergeLevel_cons_of_ne (other : op.precedence ≠ level) :
    mergeLevel level first ((op, x) :: more) =
      (first, (op, (mergeLevel level x more).1) :: (mergeLevel level x more).2) := by
  rw [mergeLevel, if_neg other]

/-- A sweep does not cross an operator of another level. -/
theorem mergeLevel_append_of_ne (other : op.precedence ≠ level) :
    mergeLevel level first (more ++ (op, x) :: more') =
      ((mergeLevel level first more).1, (mergeLevel level first more).2 ++
        (op, (mergeLevel level x more').1) :: (mergeLevel level x more').2) := by
  induction more generalizing first with
  | nil => exact mergeLevel_cons_of_ne other
  | cons y more ih =>
      obtain ⟨op', operand⟩ := y
      rw [List.cons_append]
      by_cases same : op'.precedence = level
      · rw [mergeLevel_cons_of_eq same, mergeLevel_cons_of_eq same]
        exact ih
      · rw [mergeLevel_cons_of_ne same, mergeLevel_cons_of_ne same, ih]
        rfl

/-- A sweep over operators of its level leaves a single operand. -/
theorem mergeLevel_append_of_eq (first x : Expr) (same : op.precedence = level)
    (all : ∀ y ∈ more, y.1.precedence = level) :
    (mergeLevel level first more).2 = [] ∧ mergeLevel level first (more ++ [(op, x)]) =
      (.binary op (mergeLevel level first more).1 x, []) := by
  induction more generalizing first with
  | nil => exact ⟨rfl, mergeLevel_cons_of_eq same⟩
  | cons y more ih =>
      obtain ⟨op', operand⟩ := y
      have here : op'.precedence = level := all (op', operand) List.mem_cons_self
      rw [List.cons_append, mergeLevel_cons_of_eq here, mergeLevel_cons_of_eq here]
      exact ih _ fun z hz => all z (List.mem_cons_of_mem _ hz)

/-- A sweep leaves no operator of its level. -/
theorem precedence_ne_of_mem_mergeLevel :
    ∀ y ∈ (mergeLevel level first more).2, y.1.precedence ≠ level ∧
      ∃ z ∈ more, y.1 = z.1 := by
  induction more generalizing first with
  | nil => simp [mergeLevel]
  | cons z more ih =>
      obtain ⟨op', operand⟩ := z
      intro y hy
      by_cases same : op'.precedence = level
      · rw [mergeLevel_cons_of_eq same] at hy
        obtain ⟨other, w, hw, kept⟩ := ih y hy
        exact ⟨other, w, List.mem_cons_of_mem _ hw, kept⟩
      · rw [mergeLevel_cons_of_ne same] at hy
        rcases List.mem_cons.mp hy with rfl | hy
        · exact ⟨same, _, List.mem_cons_self, rfl⟩
        · obtain ⟨other, w, hw, kept⟩ := ih y hy
          exact ⟨other, w, List.mem_cons_of_mem _ hw, kept⟩

theorem precedence_lt_of_mem_mergeLevel (loose : ∀ y ∈ more, y.1.precedence ≤ level) :
    ∀ y ∈ (mergeLevel level first more).2, y.1.precedence < level := by
  intro y hy
  obtain ⟨other, z, hz, kept⟩ := precedence_ne_of_mem_mergeLevel y hy
  have := loose z hz
  rw [← kept] at this
  omega

/-- The sweep of the tightest level of a chain keeps what the chain is described by. -/
theorem Groups.mergeLevel (h : Groups low first more e)
    (loose : ∀ y ∈ more, y.1.precedence ≤ level) :
    Groups low (Expr.mergeLevel level first more).1 (Expr.mergeLevel level first more).2 e := by
  induction h with
  | single low e => exact .single low e
  | tighter _ ih => exact .tighter (ih loose)
  | @binary op first x left right more more' hleft hright left_ih right_ih =>
      have front : ∀ y ∈ more, y.1.precedence ≤ level :=
        fun y hy => loose y (List.mem_append_left _ hy)
      have behind : ∀ y ∈ more', y.1.precedence ≤ level :=
        fun y hy => loose y (List.mem_append_right _ (List.mem_cons_of_mem _ hy))
      by_cases same : op.precedence = level
      · -- Everything behind the operator would be tighter still, so there is only its operand.
        subst same
        cases hright.nil_of_lt behind
        cases hright.eq_of_nil rfl
        have all : ∀ y ∈ more, y.1.precedence = op.precedence := fun y hy =>
          Nat.le_antisymm (front y hy) (hleft.le_precedence y hy)
        obtain ⟨alone, merged⟩ := mergeLevel_append_of_eq first x rfl all
        rw [merged, ← (left_ih front).eq_of_nil alone]
        exact .single _ _
      · rw [mergeLevel_append_of_ne same]
        exact .binary (left_ih front) (right_ih behind)

/-! ### All sweeps -/

theorem Groups.mergeLevels_eq (h : Groups low first more e)
    (loose : ∀ y ∈ more, y.1.precedence ≤ level) : mergeLevels level first more = e := by
  induction level generalizing first more with
  | zero =>
      have alone : more = [] := by
        apply List.eq_nil_iff_forall_not_mem.mpr
        intro y hy
        have := y.1.one_le_precedence
        have := loose y hy
        omega
      exact (h.eq_of_nil alone).symm
  | succ level ih =>
      apply ih (h.mergeLevel loose)
      intro y hy
      exact Nat.lt_succ_iff.mp (precedence_lt_of_mem_mergeLevel loose y hy)

/-- The tree of a chain is the one that describes its groups. -/
theorem Groups.ofChain_eq (h : Groups low first more e) : ofChain first more = e :=
  h.mergeLevels_eq fun y _ => y.1.precedence_le_five

end Spreadsheet.Expr
