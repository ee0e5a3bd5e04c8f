import Spreadsheet.Proofs.Evaluation.Agreement
import Spreadsheet.Proofs.Evaluation.CutShort
import Spreadsheet.Proofs.Evaluation.Ring
import Spreadsheet.Proofs.Evaluation.Solution
import Spreadsheet.Proofs.Formula.Mentions

/-!
# The branch that is not chosen

A condition that mentions no cell chooses the same branch wherever it is evaluated, and the other
branch is never looked at. It is recorded in the graph of references all the same. So it has a
say in the order of a pass and in which references are followed through cells that are not
settled yet, but not in what any cell stands for.

The main statement compares the passes over two sheets that differ in such a branch. They differ
in no outcome but that of a cell for which one of them ran out of room.
-/

namespace Spreadsheet

namespace Expr

/-- Conditionals with one condition, which mentions no cell, and with the same branch where that
condition leads. The other branches may differ. -/
inductive SameChoice (S : Surroundings) : Expr → Expr → Prop where
  | yes {c x y y' : Expr} {v : Value} : c.mentions none = [] → c.value S = .ok v → v.isTrue →
      SameChoice S (.call "IF" [c, x, y]) (.call "IF" [c, x, y'])
  | no {c x x' y : Expr} {v : Value} : c.mentions none = [] → c.value S = .ok v → ¬ v.isTrue →
      SameChoice S (.call "IF" [c, x, y]) (.call "IF" [c, x', y])

/-- A conditional is worth what the branch is worth that its condition chooses. -/
theorem value_conditional {S : Surroundings} {c x y : Expr} {v : Value}
    (condition : c.value S = .ok v) :
    (call "IF" [c, x, y]).value S = if v.isTrue then x.value S else y.value S := by
  have resolved : Function.resolve "IF" 3 = .ok .conditional := rfl
  have choice : (call "IF" [c, x, y]).eval S = evalChoice S [c, x, y] := by
    simp only [eval, List.length_cons, List.length_nil, Nat.zero_add, Nat.reduceAdd, resolved]
    rfl
  have chosen : evalChoice S [c, x, y] =
      c.value S >>= fun v => if v.isTrue then x.eval S else y.eval S := by
    rw [evalChoice, value, bind_assoc]
  rw [value, choice, chosen, condition]
  show ((if v.isTrue then x.eval S else y.eval S) >>= Operand.value) = _
  split <;> rfl

/-- A condition that mentions no cell is worth the same however cells are read. -/
theorem value_of_mentions_eq_nil {S T : Surroundings} (extent : S.extent = T.extent)
    (strict : S.strict = T.strict) {c : Expr} (closed : c.mentions none = []) :
    c.value S = c.value T := by
  apply Tolerance.eq_of_exact_admits
  apply value_admits extent (.inl strict)
  intro a ha
  rw [mentions_eq_nil_of_none closed] at ha
  cases ha

/-- Where one of them stands, the other one may. -/
theorem SameChoice.value_eq {S T : Surroundings} (extent : S.extent = T.extent)
    (strict : S.strict = T.strict) {e e' : Expr} (h : SameChoice S e e') :
    e.value T = e'.value T := by
  cases h with
  | yes closed condition holds =>
      rw [value_of_mentions_eq_nil extent strict closed] at condition
      rw [value_conditional condition, value_conditional condition, if_pos holds, if_pos holds]
  | no closed condition fails =>
      rw [value_of_mentions_eq_nil extent strict closed] at condition
      rw [value_conditional condition, value_conditional condition, if_neg fails, if_neg fails]

end Expr

namespace Sheet

variable {s t : Sheet} {options : Options} {p a : Address}

/-- Whether two sheets differ at most in a branch of the formula at `p` that is not chosen. -/
structure Rebranched (s t : Sheet) (options : Options) (p : Address) : Prop where
  extent : s.extent = t.extent
  elsewhere : ∀ a, a ≠ p → s.get a = t.get a
  here : ∃ source source' tree tree', s.get p = some (.formula source tree) ∧
    t.get p = some (.formula source' tree') ∧
    Expr.SameChoice (s.surroundings options ∅ p) tree tree'

theorem Rebranched.mem_formulas (h : s.Rebranched t options p) : a ∈ s.formulas ↔ a ∈ t.formulas := by
  obtain ⟨source, source', tree, tree', stored, stored', -⟩ := h.here
  by_cases here : a = p
  · subst here
    simp [Sheet.mem_formulas, stored, stored']
  · simp only [Sheet.mem_formulas, h.elsewhere a here]

/-- No reader can tell the two sheets apart. -/
theorem Rebranched.follow (h : s.Rebranched t options p) (read : Address → Except Failure Value)
    (a : Address) : s.follow options read a = t.follow options read a := by
  by_cases here : a = p
  · obtain ⟨source, source', tree, tree', stored, stored', choice⟩ := h.here
    subst here
    simp only [Sheet.follow, stored, stored', ← h.extent]
    apply choice.value_eq
    · rfl
    · rfl
  · simp only [Sheet.follow, h.elsewhere a here, h.extent]

theorem Rebranched.unfolding (h : s.Rebranched t options p) :
    s.unfolding options = t.unfolding options := by
  funext depth
  induction depth with
  | zero => rfl
  | succ depth ih =>
      funext a
      rw [Sheet.unfolding, Sheet.unfolding, ih, h.follow]

theorem Rebranched.denotes (h : s.Rebranched t options p) {x : Except Failure Value}
    (denotes : t.Denotes options a x) : s.Denotes options a x := by
  obtain ⟨reached, complete⟩ := denotes
  rw [← h.unfolding] at reached complete
  exact ⟨reached, complete⟩

theorem Rebranched.length_formulas (h : s.Rebranched t options p) :
    s.formulas.length = t.formulas.length := by
  apply List.Perm.length_eq
  rw [List.perm_ext_iff_of_nodup s.nodup_formulas t.nodup_formulas]
  exact fun a => h.mem_formulas

end Sheet

namespace Evaluator

variable {e : Evaluator} {s : Sheet} {a : Address}

/-- On a sheet with few formulas, every outcome of a pass stands for its cell. -/
theorem denotes_of_few (few : s.formulas.length < maxChain) (ha : a ∈ s.formulas) :
    ∃ x, (e.evaluateSheet s).1[a]? = some (.ofResult x) ∧ s.Denotes e.options a x := by
  obtain ⟨later, earlier, split⟩ := exists_split (e := e) ha
  obtain ⟨depth, faithful⟩ :
      ∃ depth, s.Faithful e.options (settleAll s e.options earlier) depth :=
    exists_faithful_settleAll few (fresh_of_split split).2
  exact ⟨_, outcome_eq_read split ha, Sheet.denotes_read few faithful a⟩

/-- A branch that a condition does not choose has no say in a pass over a sheet of any size, but
for one thing: it may decide which evaluations are cut short. Every formula has the same value, or
an error with the same code, unless one of the two passes cut its evaluation short, and then it
shows an evaluation error there. With fewer formulas than a chain may hold cells there is no
exception. -/
theorem evaluateSheet_rebranched (e : Evaluator) (s t : Sheet) (p : Address)
    (h : s.Rebranched t e.options p) :
    (∀ a, a ∈ s.formulas ↔ a ∈ t.formulas) ∧
    (∀ a ∈ s.formulas, ∃ outcome outcome',
      (e.evaluateSheet s).1[a]? = some outcome ∧ (e.evaluateSheet t).1[a]? = some outcome' ∧
        (outcome.SameUpToMessage outcome' ∨
          CutShort (e.evaluateSheet s).1 a ∧ outcome.code? = some .eval ∨
          CutShort (e.evaluateSheet t).1 a ∧ outcome'.code? = some .eval)) ∧
    (s.formulas.length < maxChain → ∀ a ∈ s.formulas, ∃ outcome outcome',
      (e.evaluateSheet s).1[a]? = some outcome ∧ (e.evaluateSheet t).1[a]? = some outcome' ∧
        outcome.SameUpToMessage outcome') := by
  refine ⟨fun a => h.mem_formulas, fun a ha => ?_, fun few a ha => ?_⟩
  · obtain ⟨x, found, standing⟩ := denotes_or_cutShort (e := e) ha
    obtain ⟨y, found', standing'⟩ := denotes_or_cutShort (e := e) (h.mem_formulas.mp ha)
    refine ⟨_, _, found, found', ?_⟩
    rcases standing with denotes | cut
    · rcases standing' with denotes' | cut'
      · exact .inl (denotes.sameUpToMessage (h.denotes denotes'))
      · exact .inr (.inr ⟨cut', cut'.code found'⟩)
    · exact .inr (.inl ⟨cut, cut.code found⟩)
  · obtain ⟨x, found, denotes⟩ := denotes_of_few (e := e) few ha
    obtain ⟨y, found', denotes'⟩ :=
      denotes_of_few (e := e) (h.length_formulas ▸ few) (h.mem_formulas.mp ha)
    exact ⟨_, _, found, found', denotes.sameUpToMessage (h.denotes denotes')⟩

end Evaluator

/-- A line of addresses: it begins beside the first cell of a sheet and goes on down from there. -/
def Address.hook : Nat → Address
  | 0 => ⟨0, 1⟩
  | row + 1 => ⟨row, 0⟩

/-- The formula that refers to the next address of the line. -/
def Cell.hooked (i : Nat) : Cell :=
  .ofFormula ("=" ++ (⟨Address.hook (i + 1), false, false⟩ : Reference).text)

/-- Each cell of the line takes the value of the next one, up to the number in the last of `n` rows.
The first cell of the sheet does so under a condition that holds; its branch for the case that it
does not is left open. -/
def Sheet.hook (n : Nat) (other : String) : Sheet :=
  { Sheet.blank "hook" "Hook" n 2 with
    cells := ((Std.ExtTreeMap.ofList ((List.range n).map fun i => (.hook i, .hooked i))
      compare).insert (.hook n) (.literal (.number 1))).insert (.hook 1)
        (.ofFormula ("=IF(TRUE,A2," ++ other ++ ")")) }

theorem Address.hook_injective : Function.Injective Address.hook := by
  intro i j same
  cases i with
  | zero => cases j with
    | zero => rfl
    | succ j => cases same
  | succ i => cases j with
    | zero => cases same
    | succ j => simpa [hook] using same

theorem Cell.hooked_eq {i : Nat} (h : i < maxRows) :
    ∃ source, Cell.hooked i = .formula source (.cell ⟨.hook (i + 1), false, false⟩) := by
  have onGrid : Reference.InGrid ⟨.hook (i + 1), false, false⟩ := ⟨h, show 0 < maxCols by decide⟩
  exact ⟨_, Cell.ofFormula_reference onGrid⟩

namespace Sheet

variable {n i : Nat} {other : String} {tree : Expr} {a : Address}

theorem get_hook (h : i < n) (h' : i ≠ 1) : (hook n other).get (.hook i) = some (.hooked i) := by
  have last : ¬ compare (Address.hook n) (.hook i) = .eq := by
    simpa using fun same => absurd (Address.hook_injective same) (by omega)
  have first : ¬ compare (Address.hook 1) (.hook i) = .eq := by
    simpa using fun same => absurd (Address.hook_injective same) (by omega)
  rw [get, hook, Std.ExtTreeMap.getElem?_insert, if_neg first, Std.ExtTreeMap.getElem?_insert,
    if_neg last]
  exact getElem?_ofList_line Address.hook_injective Cell.hooked h

theorem get_hook_first :
    (hook n other).get (.hook 1) = some (.ofFormula ("=IF(TRUE,A2," ++ other ++ ")")) := by
  rw [get, hook, Std.ExtTreeMap.getElem?_insert_self]

theorem get_hook_last (long : 1 < n) :
    (hook n other).get (.hook n) = some (.literal (.number 1)) := by
  have first : ¬ compare (Address.hook 1) (.hook n) = .eq := by
    simpa using fun same => absurd (Address.hook_injective same) (by omega)
  rw [get, hook, Std.ExtTreeMap.getElem?_insert, if_neg first, Std.ExtTreeMap.getElem?_insert_self]

/-- All cells of the sheet are on the line. -/
theorem exists_of_get_hook (long : 1 < n) (h : ((hook n other).get a).isSome) :
    ∃ i ≤ n, a = .hook i := by
  rw [get, hook, Std.ExtTreeMap.getElem?_insert] at h
  split at h
  · next here => exact ⟨1, by omega, (Std.LawfulEqOrd.eq_of_compare here).symm⟩
  rw [Std.ExtTreeMap.getElem?_insert] at h
  split at h
  · next here => exact ⟨n, Nat.le_refl _, (Std.LawfulEqOrd.eq_of_compare here).symm⟩
  rw [← Std.ExtTreeMap.mem_iff_isSome_getElem?, Std.ExtTreeMap.mem_ofList] at h
  simp only [List.map_map, List.contains_iff_mem, List.mem_map, List.mem_range] at h
  obtain ⟨i, hi, rfl⟩ := h
  exact ⟨i, Nat.le_of_lt hi, rfl⟩

theorem extent_contains_hook (small : n ≤ maxRows) (h : i ≤ n) :
    (hook n other).extent.contains (.hook i) := by
  apply extent_contains
  have rows : (hook n other).rows = min (max n 1) maxRows := rfl
  have cols : (hook n other).cols = 2 := rfl
  cases i with
  | zero =>
      simp only [contains, rows, cols, Address.hook, Bool.and_eq_true, decide_eq_true_eq, maxRows]
      omega
  | succ i =>
      simp only [contains, rows, cols, Address.hook, Bool.and_eq_true, decide_eq_true_eq]
      omega

/-- Sheets of this kind differ only in a branch that is not chosen. -/
theorem rebranched_hook {other' : String} {tree' : Expr}
    (parsed : Formula.parse ("=IF(TRUE,A2," ++ other ++ ")") =
      .ok (.call "IF" [.boolean true, .cell ⟨.hook 2, false, false⟩, tree]))
    (parsed' : Formula.parse ("=IF(TRUE,A2," ++ other' ++ ")") =
      .ok (.call "IF" [.boolean true, .cell ⟨.hook 2, false, false⟩, tree']))
    (options : Options) : (hook n other).Rebranched (hook n other') options (.hook 1) where
  extent := by simp only [Sheet.extent, hook]
  elsewhere a distinct := by
    have apart : ¬ compare (Address.hook 1) a = .eq := by simpa using Ne.symm distinct
    simp only [get, hook, Std.ExtTreeMap.getElem?_insert, apart, ↓reduceIte]
  here := by
    rw [get_hook_first, get_hook_first, Cell.ofFormula_eq_formula_iff.mpr parsed,
      Cell.ofFormula_eq_formula_iff.mpr parsed']
    exact ⟨_, _, _, _, rfl, rfl, .yes (v := .boolean true) rfl rfl rfl⟩

section Parsed

variable (long : 1 < n) (small : n ≤ maxRows)
variable (parsed : Formula.parse ("=IF(TRUE,A2," ++ other ++ ")") =
  .ok (.call "IF" [.boolean true, .cell ⟨.hook 2, false, false⟩, tree]))
include parsed

include long small in
theorem mem_formulas_hook : a ∈ (hook n other).formulas ↔ ∃ i < n, a = .hook i := by
  rw [mem_formulas]
  constructor
  · rintro ⟨source, e, stored⟩
    obtain ⟨i, hi, rfl⟩ := exists_of_get_hook long (Option.isSome_of_eq_some stored)
    refine ⟨i, Nat.lt_of_le_of_ne hi ?_, rfl⟩
    rintro rfl
    cases (get_hook_last long).symm.trans stored
  · rintro ⟨i, hi, rfl⟩
    by_cases first : i = 1
    · subst first
      exact ⟨_, _, by rw [get_hook_first, Cell.ofFormula_eq_formula_iff.mpr parsed]⟩
    · obtain ⟨source, stored⟩ := Cell.hooked_eq (Nat.lt_of_lt_of_le hi small)
      exact ⟨source, _, by rw [get_hook hi first, stored]⟩

include long small in
theorem length_formulas_hook : (hook n other).formulas.length = n := by
  have line : ((List.range n).map Address.hook).Nodup :=
    List.nodup_range.map Address.hook_injective
  have same : (hook n other).formulas.Perm ((List.range n).map Address.hook) := by
    rw [List.perm_ext_iff_of_nodup (nodup_formulas _) line]
    intro a
    rw [mem_formulas_hook long small parsed]
    simp [eq_comm]
  simpa using same.length_eq

include small in
/-- Each cell of the line mentions the next one, and the open branch is mentioned as well. -/
theorem mem_readsOf_hook (h : i < n) : a ∈ (hook n other).readsOf (.hook i) ↔
    a = .hook (i + 1) ∨ i = 1 ∧ a ∈ tree.mentions (some (hook n other).extent) := by
  have next : (hook n other).extent.contains (.hook (i + 1)) := extent_contains_hook small h
  by_cases first : i = 1
  · subst first
    rw [mem_readsOf (get_hook_first.trans
      (congrArg some (Cell.ofFormula_eq_formula_iff.mpr parsed)))]
    simp [Expr.mentions, Expr.mentionsAll, next]
  · obtain ⟨source, stored⟩ := Cell.hooked_eq (Nat.lt_of_lt_of_le h small)
    rw [mem_readsOf ((get_hook h first).trans (congrArg some stored))]
    simp [Expr.mentions, next, first]

include small in
/-- Whoever follows the line goes on to the next cell. -/
theorem follow_hook (options : Options) (read : Address → Except Failure Value) (h : i < n) :
    (hook n other).follow options read (.hook i) = read (.hook (i + 1)) := by
  have next : (hook n other).extent.contains (.hook (i + 1)) := extent_contains_hook small h
  by_cases first : i = 1
  · subst first
    rw [follow, get_hook_first, Cell.ofFormula_eq_formula_iff.mpr parsed]
    dsimp only
    rw [Expr.value_conditional (v := .boolean true) rfl, if_pos (by rfl), Expr.value_cell,
      Surroundings.cell, if_pos next]
  · obtain ⟨source, stored⟩ := Cell.hooked_eq (Nat.lt_of_lt_of_le h small)
    rw [follow, get_hook h first, stored]
    dsimp only
    rw [Expr.value_cell, Surroundings.cell, if_pos next]

end Parsed

theorem parse_hook_on : Formula.parse ("=IF(TRUE,A2," ++ "A2" ++ ")") =
    .ok (.call "IF" [.boolean true, .cell ⟨.hook 2, false, false⟩,
      .cell ⟨.hook 2, false, false⟩]) := by
  have tokens : Formula.tokenize ("=IF(TRUE,A2," ++ "A2" ++ ")") = [.function "IF", .leftParen,
      .boolean true, .comma, .reference "A2", .comma, .reference "A2", .rightParen, .finish] := by
    decide +kernel
  rw [Formula.parse, tokens]
  rfl

theorem parse_hook_back : Formula.parse ("=IF(TRUE,A2," ++ "B1" ++ ")") =
    .ok (.call "IF" [.boolean true, .cell ⟨.hook 2, false, false⟩,
      .cell ⟨.hook 0, false, false⟩]) := by
  have tokens : Formula.tokenize ("=IF(TRUE,A2," ++ "B1" ++ ")") = [.function "IF", .leftParen,
      .boolean true, .comma, .reference "A2", .comma, .reference "B1", .rightParen, .finish] := by
    decide +kernel
  rw [Formula.parse, tokens]
  rfl

/-- If the open branch goes on as well, no reference leads back. -/
theorem acyclic_hook (long : 1 < n) (small : n ≤ maxRows) : (hook n "A2").Acyclic := by
  refine acyclic_of_rank (fun a => if a.col = 0 then n - 1 - a.row else n) ?_
  intro a ha b hb
  obtain ⟨i, hi, rfl⟩ := (mem_formulas_hook long small parse_hook_on).mp ha
  have next : b = .hook (i + 1) := by
    rcases (mem_readsOf_hook small parse_hook_on hi).mp hb with next | ⟨rfl, other⟩
    · exact next
    · simpa [Expr.mentions, extent_contains_hook small long] using other
  subst next
  cases i with
  | zero => simp [Address.hook]; omega
  | succ i => simp [Address.hook]; omega

theorem shown_hook (long : 1 < n) (small : n ≤ maxRows) (e : Evaluator) (steps i : Nat)
    (h : i + steps = n) :
    (hook n "A2").shown (e.evaluateSheet (hook n "A2")).1 (.hook i) = .ok (.number 1) := by
  induction steps generalizing i with
  | zero =>
      obtain rfl : i = n := h
      rw [shown, get_hook_last long]
  | succ steps ih =>
      have formula : .hook i ∈ (hook n "A2").formulas :=
        (mem_formulas_hook long small parse_hook_on).mpr ⟨i, by omega, rfl⟩
      obtain ⟨source, tree, stored⟩ := mem_formulas.mp formula
      rw [shown, stored, Evaluator.outcome_of_acyclic (acyclic_hook long small) formula,
        follow_hook small parse_hook_on e.options _ (by omega), ih (i + 1) (by omega)]
      rfl

end Sheet

namespace Evaluator

open Sheet

variable {e : Evaluator}

theorem outcome_hook_on :
    (e.evaluateSheet (hook maxChain "A2")).1[Address.hook 0]? = some (.value (.number 1)) := by
  have formula : .hook 0 ∈ (hook maxChain "A2").formulas :=
    (mem_formulas_hook (by decide) (by decide) parse_hook_on).mpr ⟨0, by decide, rfl⟩
  rw [outcome_of_acyclic (acyclic_hook (by decide) (by decide)) formula,
    follow_hook (by decide) parse_hook_on e.options _ (by decide),
    shown_hook (by decide) (by decide) e (maxChain - 1) 1 (by decide)]
  rfl

/-- With a reference back in the open branch, the pass begins beside the first cell. -/
theorem passed_hook_back {n : Nat} (long : 1 < n) (small : n ≤ maxRows) :
    ∃ later, e.passed (hook n "B1") = later ++ [Address.hook 0] := by
  have edge (a b : Address) : b ∈ (e.rebuild (hook n "B1")).graph.readsOf a ↔
      b ∈ (hook n "B1").readsOf a := edge_rebuild
  have inside : (hook n "B1").extent.contains (.hook 0) :=
    extent_contains_hook small (Nat.zero_le n)
  have reads : (e.rebuild (hook n "B1")).graph.readsOf (.hook 1) = [.hook 0, .hook 2] := by
    refine (Graph.pairwise_readsOf _ _).eq_of_mem_iff (by simp [Address.before_iff, Address.hook]) ?_
    intro a
    rw [edge, mem_readsOf_hook small parse_hook_back long]
    simp [Expr.mentions, inside, or_comm]
  have back : (e.rebuild (hook n "B1")).graph.readsOf (.hook 0) = [.hook 1] := by
    refine (Graph.pairwise_readsOf _ _).eq_of_mem_iff (by simp) ?_
    intro a
    rw [edge, mem_readsOf_hook small parse_hook_back (by omega)]
    simp
  obtain ⟨rest, formulas⟩ := Address.eq_cons_of_origin_mem (hook n "B1").pairwise_formulas
    ((mem_formulas_hook long small parse_hook_back).mpr ⟨1, long, rfl⟩)
  obtain ⟨others, order⟩ :
      [Address.hook 0] <+: (e.rebuild (hook n "B1")).graph.order (.hook 1 :: rest) :=
    Graph.prefix_order_of_circle reads back (Address.hook_injective.ne (by decide))
  refine ⟨others.reverse, ?_⟩
  rw [passed, formulas]
  exact (congrArg List.reverse order.symm).trans List.reverse_cons

theorem outcome_hook_back : (e.evaluateSheet (hook maxChain "B1")).1[Address.hook 0]? =
    some (.ofResult (.error (.invalidValue (.tooDeep maxChain)))) := by
  have formula : .hook 0 ∈ (hook maxChain "B1").formulas :=
    (mem_formulas_hook (by decide) (by decide) parse_hook_back).mpr ⟨0, by decide, rfl⟩
  have unread : (hook maxChain "B1").read e.options ∅ maxChain [] (.hook 0) =
      .error (.invalidValue (.tooDeep maxChain)) :=
    read_of_long_line
      (fun i j lower _ same => Nat.ne_of_lt lower (Address.hook_injective same).symm)
      (fun i hi read => follow_hook (by decide) parse_hook_back e.options read hi) maxChain 0
      (Nat.zero_add _)
  obtain ⟨later, split⟩ := passed_hook_back (e := e) (n := maxChain) (by decide) (by decide)
  rw [outcome_eq_read split formula]
  exact congrArg (fun x => some (Outcome.ofResult x)) unread

theorem evaluateSheet_rebranched_hook :
    (hook 3 "A2").Rebranched (hook 3 "B1") {} (.hook 1) ∧
    (hook 3 "A2").formulas.length < maxChain ∧ .hook 0 ∈ (hook 3 "A2").formulas ∧
      ∃ outcome outcome',
        (({} : Evaluator).evaluateSheet (hook 3 "A2")).1[Address.hook 0]? = some outcome ∧
        (({} : Evaluator).evaluateSheet (hook 3 "B1")).1[Address.hook 0]? = some outcome' ∧
        outcome.SameUpToMessage outcome' := by
  have rebranched : (hook 3 "A2").Rebranched (hook 3 "B1") {} (.hook 1) :=
    rebranched_hook parse_hook_on parse_hook_back {}
  have few : (hook 3 "A2").formulas.length < maxChain := by
    rw [length_formulas_hook (by decide) (by decide) parse_hook_on]
    decide
  have formula : .hook 0 ∈ (hook 3 "A2").formulas :=
    (mem_formulas_hook (by decide) (by decide) parse_hook_on).mpr ⟨0, by decide, rfl⟩
  obtain ⟨-, -, same⟩ :=
    evaluateSheet_rebranched {} (hook 3 "A2") (hook 3 "B1") (.hook 1) rebranched
  exact ⟨rebranched, few, formula, same few (.hook 0) formula⟩

/-- On a long line the reference in the branch that is not chosen decides how far the line can be
followed. -/
theorem not_evaluateSheet_hook_same :
    (hook maxChain "A2").Rebranched (hook maxChain "B1") {} (.hook 1) ∧
      ∃ outcome outcome',
        (({} : Evaluator).evaluateSheet (hook maxChain "A2")).1[Address.hook 0]? = some outcome ∧
        (({} : Evaluator).evaluateSheet (hook maxChain "B1")).1[Address.hook 0]? = some outcome' ∧
        ¬ outcome.SameUpToMessage outcome' :=
  ⟨rebranched_hook parse_hook_on parse_hook_back {}, _, _, outcome_hook_on,
    outcome_hook_back, id⟩

end Evaluator

end Spreadsheet
