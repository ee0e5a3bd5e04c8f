import Spreadsheet.Proofs.Evaluation.Pass
import Spreadsheet.Proofs.Evaluation.Unfolding

/-!
# Evaluations that are cut short

A reader whose chain is full gives up, and a formula that reads a cell for which a reader gave up
passes the failure on. Every other result is the one that a reader with more room gets. A pass
over a sheet of any size therefore finds outcomes that stand for their cells, except for those
cells whose evaluation was cut short, and these can be told from the outcomes.
-/

namespace Spreadsheet

namespace Tolerance

/-- Some failures give way to anything; everything else is compared exactly. -/
def exactBut (cut : Failure → Prop) : Tolerance where
  yields := cut
  same f g := f = g
  same_refl _ := rfl

theorem Admits.eq_or_cut {α : Type} {cut : Failure → Prop} {x y : Except Failure α}
    (h : (exactBut cut).Admits x y) : x = y ∨ ∃ f, x = .error f ∧ cut f := by
  cases x with
  | ok v => exact .inl h.symm
  | error f =>
      rcases h with yields | ⟨g, rfl, rfl⟩
      · exact .inr ⟨f, rfl, yields⟩
      · exact .inl rfl

end Tolerance

/-- The cells whose evaluation was cut short in a pass with these outcomes. -/
inductive CutShort (outcomes : Outcomes) : Address → Prop where
  /-- A chain of references was full. -/
  | full {a : Address} :
    outcomes[a]? = some (.ofResult (.error (.invalidValue (.tooDeep maxChain)))) →
      CutShort outcomes a
  /-- The failure is that of a cell whose evaluation was cut short. -/
  | passedOn {a b : Address} {outcome : Outcome} : outcomes[b]? = some outcome →
    CutShort outcomes b → outcomes[a]? = some (.ofResult (outcome.read b)) → CutShort outcomes a

/-- The failures with which an evaluation is cut short, when the formulas have these outcomes. -/
inductive Failure.Cuts (outcomes : Outcomes) : Failure → Prop where
  | full : Cuts outcomes (.invalidValue (.tooDeep maxChain))
  | passedOn {b : Address} {code : ErrorCode} {message : String} :
    outcomes[b]? = some (.error code message) → CutShort outcomes b →
      Cuts outcomes (.referenced b code message)

theorem Failure.Cuts.cutShort {outcomes : Outcomes} {a : Address} {f : Failure}
    (h : f.Cuts outcomes) (failed : outcomes[a]? = some (.ofResult (.error f))) :
    CutShort outcomes a := by
  cases h with
  | full => exact .full failed
  | passedOn read cut => exact .passedOn read cut failed

/-- A cell whose evaluation was cut short shows an evaluation error. -/
theorem CutShort.shows {outcomes : Outcomes} {a : Address} (h : CutShort outcomes a) :
    ∃ message, outcomes[a]? = some (.error .eval message) := by
  induction h with
  | full failed => exact ⟨_, failed⟩
  | passedOn read _ failed ih =>
      obtain ⟨message, shown⟩ := ih
      rw [read] at shown
      cases shown
      exact ⟨_, failed⟩

theorem CutShort.code {outcomes : Outcomes} {a : Address} {outcome : Outcome}
    (h : CutShort outcomes a) (found : outcomes[a]? = some outcome) :
    outcome.code? = some .eval := by
  obtain ⟨message, shown⟩ := h.shows
  cases found.symm.trans shown
  rfl

/-- Outcomes settled on the way to `outcomes`, and those of them that were not cut short. -/
structure Spared (outcomes settled kept : Outcomes) : Prop where
  final : ∀ (b : Address) (outcome : Outcome), settled[b]? = some outcome → outcomes[b]? = some outcome
  kept : ∀ b : Address, kept[b]? = settled[b]? ∨ kept[b]? = none ∧ CutShort outcomes b

namespace Spared

variable {outcomes settled kept : Outcomes} {a : Address} {outcome : Outcome}

theorem eq_none (spared : Spared outcomes settled kept) (h : settled[a]? = none) :
    kept[a]? = none := by
  rcases spared.kept a with same | ⟨absent, -⟩
  · rw [same, h]
  · exact absent

theorem final_insert (spared : Spared outcomes settled kept) (shown : outcomes[a]? = some outcome)
    (b : Address) (other : Outcome) (h : (settled.insert a outcome)[b]? = some other) :
    outcomes[b]? = some other := by
  rw [Std.ExtTreeMap.getElem?_insert] at h
  split at h
  · next here =>
      rw [← Std.LawfulEqOrd.eq_of_compare here, shown, h]
  · exact spared.final b other h

/-- Settling an outcome that is kept. -/
theorem insert (spared : Spared outcomes settled kept) (shown : outcomes[a]? = some outcome) :
    Spared outcomes (settled.insert a outcome) (kept.insert a outcome) where
  final := spared.final_insert shown
  kept b := by
    simp only [Std.ExtTreeMap.getElem?_insert]
    split
    · exact .inl rfl
    · exact spared.kept b

/-- Settling an outcome that was cut short. -/
theorem insert_cutShort (spared : Spared outcomes settled kept) (fresh : settled[a]? = none)
    (shown : outcomes[a]? = some outcome) (cut : CutShort outcomes a) :
    Spared outcomes (settled.insert a outcome) kept where
  final := spared.final_insert shown
  kept b := by
    rw [Std.ExtTreeMap.getElem?_insert]
    split
    · next here =>
        rw [← Std.LawfulEqOrd.eq_of_compare here]
        exact .inr ⟨spared.eq_none fresh, cut⟩
    · exact spared.kept b

end Spared

namespace Sheet

open Tolerance

variable {s : Sheet} {options : Options} {settled kept outcomes : Outcomes} {a : Address}

/-- A reader that has more room and follows the cells that were cut short gets the same result as
a reader that is not cut short itself. -/
theorem read_admits_roomier (spared : Spared outcomes settled kept) (room more : Nat)
    (chain : List Address) (a : Address) :
    (exactBut (Failure.Cuts outcomes)).Admits (s.read options settled room chain a)
      (s.read options kept (room + more) chain a) := by
  induction room using Nat.strongRecOn generalizing chain a with
  | ind room ih =>
  cases settledAt : settled[a]? with
  | some outcome =>
      rw [read_of_settled settledAt]
      rcases spared.kept a with same | ⟨-, cut⟩
      · rw [read_of_settled (same.trans settledAt)]
        exact Admits.refl _
      · obtain ⟨message, shown⟩ := cut.shows
        cases (spared.final a outcome settledAt).symm.trans shown
        exact .of_yields (Failure.Cuts.passedOn shown cut) _
  | none =>
      have keptAt : kept[a]? = none := spared.eq_none settledAt
      by_cases ha : a ∈ chain
      · rw [read_of_mem_chain settledAt ha, read_of_mem_chain keptAt ha]
        exact Admits.refl _
      · cases room with
        | zero =>
            rw [read_of_full settledAt ha]
            exact .of_yields Failure.Cuts.full _
        | succ room =>
            rw [Nat.add_right_comm, read_succ settledAt ha, read_succ keptAt ha]
            apply follow_admits
            intro _ b
            exact ih room (Nat.lt_succ_self room) (a :: chain) b

/-- A line of references that is longer than a chain may be is not followed to its end. -/
theorem read_of_long_line {line : Nat → Address}
    (apart : ∀ i j, i < j → j ≤ maxChain → line j ≠ line i)
    (next : ∀ i < maxChain, ∀ read, s.follow options read (line i) = read (line (i + 1)))
    (room i : Nat) (h : i + room = maxChain) :
    s.read options ∅ room ((List.range i).reverse.map line) (line i) =
      .error (.invalidValue (.tooDeep maxChain)) := by
  have fresh (j : Nat) : (∅ : Outcomes)[line j]? = none := Std.ExtTreeMap.getElem?_empty
  have ahead (j : Nat) (short : j ≤ maxChain) : line j ∉ (List.range j).reverse.map line := by
    intro met
    obtain ⟨k, hk, same⟩ := List.mem_map.mp met
    rw [List.mem_reverse, List.mem_range] at hk
    exact apart k j hk short same.symm
  induction room generalizing i with
  | zero => exact read_of_full (fresh i) (ahead i (by omega))
  | succ room ih =>
      rw [read_succ (fresh i) (ahead i (by omega)), next i (by omega), ← List.map_cons,
        ← List.reverse_concat, ← List.range_succ]
      exact ih (i + 1) (by omega)

/-- An outcome stands for its cell or was cut short, if this holds of those settled before. -/
theorem denotes_or_cuts (spared : Spared outcomes settled kept) {depth : Nat}
    (faithful : s.Faithful options kept depth) (a : Address) :
    s.Denotes options a (s.read options settled maxChain [] a) ∨
      ∃ f, s.read options settled maxChain [] a = .error f ∧ f.Cuts outcomes := by
  rcases (read_admits_roomier spared maxChain (s.formulas.length + 1) [] a).eq_or_cut with
    same | cut
  · rw [same]
    exact .inl (denotes_read_of_room (by omega) faithful a)
  · exact .inr cut

end Sheet

namespace Evaluator

variable {e : Evaluator} {s : Sheet} {a : Address} {later earlier : List Address}
variable {kept : Outcomes} {depth : Nat}

/-- What a formula shows in the end is what a reader gets that comes to it with nothing on its
chain, given the outcomes in front of it. -/
theorem outcome_eq_read (split : e.passed s = later ++ a :: earlier) (ha : a ∈ s.formulas) :
    (e.evaluateSheet s).1[a]? =
      some (.ofResult (s.read e.options (settleAll s e.options earlier) maxChain [] a)) := by
  rw [outcome_of_split split ha,
    Sheet.evaluateWith_eq_read ha (settleAll_of_not_mem (fresh_of_split split).1)]

/-- The next outcome of a pass stands for its cell or was cut short, if this holds of those
settled before. -/
theorem denotes_or_cutShort_of_spared (split : e.passed s = later ++ a :: earlier)
    (ha : a ∈ s.formulas)
    (spared : Spared (e.evaluateSheet s).1 (settleAll s e.options earlier) kept)
    (faithful : s.Faithful e.options kept depth) :
    ∃ x, (e.evaluateSheet s).1[a]? = some (.ofResult x) ∧
      (s.Denotes e.options a x ∨ CutShort (e.evaluateSheet s).1 a) := by
  have shown := outcome_eq_read split ha
  refine ⟨_, shown, ?_⟩
  rcases Sheet.denotes_or_cuts spared faithful a with denotes | ⟨f, failed, cuts⟩
  · exact .inl denotes
  · rw [failed] at shown
    exact .inr (cuts.cutShort shown)

/-- All outcomes that a pass settles stand for their cells, but for those that were cut short. -/
theorem exists_spared (split : e.passed s = later ++ earlier) :
    ∃ kept depth, Spared (e.evaluateSheet s).1 (settleAll s e.options earlier) kept ∧
      s.Faithful e.options kept depth := by
  induction earlier generalizing later with
  | nil => exact ⟨∅, 0, ⟨by simp [settleAll], fun b => .inl rfl⟩, Sheet.faithful_empty⟩
  | cons a earlier ih =>
      have split' : e.passed s = (later ++ [a]) ++ earlier := by simpa using split
      obtain ⟨kept, depth, spared, faithful⟩ := ih split'
      have fresh : (settleAll s e.options earlier)[a]? = none :=
        settleAll_of_not_mem (fresh_of_split split).1
      rw [settleAll, List.foldr_cons, settle]
      split
      · next formula =>
          rw [← Sheet.mem_formulas_iff_treeAt] at formula
          obtain ⟨x, shown, standing⟩ :=
            denotes_or_cutShort_of_spared split formula spared faithful
          have value : s.evaluateWith e.options (settleAll s e.options earlier) a = .ofResult x :=
            Option.some.inj ((outcome_of_split split formula).symm.trans shown)
          rw [← settleAll, value]
          rcases standing with denotes | cut
          · obtain ⟨depth', faithful'⟩ := faithful.insert_denotes denotes
            exact ⟨_, depth', spared.insert shown, faithful'⟩
          · exact ⟨kept, depth, spared.insert_cutShort fresh shown cut, faithful⟩
      · exact ⟨kept, depth, spared, faithful⟩

/-- The outcome of a formula in a pass stands for the cell, unless it was cut short. -/
theorem denotes_or_cutShort (ha : a ∈ s.formulas) :
    ∃ x, (e.evaluateSheet s).1[a]? = some (.ofResult x) ∧
      (s.Denotes e.options a x ∨ CutShort (e.evaluateSheet s).1 a) := by
  obtain ⟨later, earlier, split⟩ := exists_split (e := e) ha
  have split' : e.passed s = (later ++ [a]) ++ earlier := by simpa using split
  obtain ⟨kept, depth, spared, faithful⟩ := exists_spared split'
  exact denotes_or_cutShort_of_spared split ha spared faithful

end Evaluator

end Spreadsheet
