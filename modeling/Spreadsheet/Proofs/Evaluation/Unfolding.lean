import Spreadsheet.Proofs.Evaluation.Reader
import Spreadsheet.Proofs.Evaluation.Tolerance

/-!
# Unfolding references

What a cell is worth does not mention chains: its references are unfolded to some depth, and
whatever lies deeper counts as circular. Deeper unfoldings only replace circular failures, so a
result that is none of them is final, and a cell on a circle never gets one.

The main statements compare a reader that carries a chain with these unfoldings. As long as the
chain has room for all formulas, the code of a result does not depend on the chain through which
the cell was reached.
-/

namespace Spreadsheet

namespace Tolerance

/-- Circular failures give way to anything; other failures are told apart by their codes. -/
def upToCircles : Tolerance where
  yields f := f.code = .cycle
  same f g := f.code = g.code
  same_refl _ := rfl

variable {α : Type} {x y z : Except Failure α}

theorem Admits.trans (h : upToCircles.Admits x y) (h' : upToCircles.Admits y z) :
    upToCircles.Admits x z := by
  cases x with
  | ok v =>
      rw [admits_ok] at h
      subst h
      exact h'
  | error f =>
      rcases h with yields | ⟨g, rfl, same⟩
      · exact .inl yields
      · rcases h' with yields | ⟨k, rfl, same'⟩
        · exact .inl (Eq.trans same yields)
        · exact .inr ⟨k, rfl, Eq.trans same same'⟩

/-- A result that is no circular failure is admitted back by whatever stands in its place. -/
theorem Admits.symm_of_not_circular (h : upToCircles.Admits x y)
    (final : ∀ f, x = .error f → f.code ≠ .cycle) : upToCircles.Admits y x := by
  cases x with
  | ok v =>
      rw [admits_ok] at h
      subst h
      rfl
  | error f =>
      rcases h with yields | ⟨g, rfl, same⟩
      · exact absurd yields (final f rfl)
      · exact .inr ⟨f, rfl, Eq.symm same⟩

theorem admits_of_circular (h : ∃ f, x = .error f ∧ f.code = .cycle) :
    upToCircles.Admits x y := by
  obtain ⟨f, rfl, circular⟩ := h
  exact .of_yields circular y

end Tolerance

namespace Outcome

/-- The same value, or two errors with the same code. -/
def SameUpToMessage : Outcome → Outcome → Prop
  | value v, value w => v = w
  | error code _, error code' _ => code = code'
  | _, _ => False

/-- Results that may stand in each other's place show the same up to the wording. -/
theorem sameUpToMessage_of_admits {x y : Except Failure Value}
    (h : Tolerance.upToCircles.Admits x y) (h' : Tolerance.upToCircles.Admits y x) :
    (ofResult x).SameUpToMessage (ofResult y) := by
  cases x with
  | ok v =>
      rw [Tolerance.admits_ok] at h
      subst h
      rfl
  | error f =>
      cases y with
      | ok w => cases (Tolerance.admits_ok.mp h')
      | error g =>
          rcases h with yields | ⟨k, hk, same⟩
          · rcases h' with yields' | ⟨k, hk, same'⟩
            · exact yields.trans yields'.symm
            · cases hk
              exact same'.symm
          · cases hk
            exact same

/-- Reading what a result shows is getting that result, with the same code if it is a failure. -/
theorem read_ofResult_admits (a : Address) (x : Except Failure Value) :
    Tolerance.upToCircles.Admits ((ofResult x).read a) x ∧
      Tolerance.upToCircles.Admits x ((ofResult x).read a) := by
  cases x with
  | ok v => exact ⟨rfl, rfl⟩
  | error f => exact ⟨.inr ⟨f, rfl, rfl⟩, .inr ⟨_, rfl, rfl⟩⟩

end Outcome

namespace Sheet

open Tolerance

variable {s : Sheet} {options : Options} {settled : Outcomes} {a : Address}

/-- Reads a cell by unfolding its references to the given depth. -/
def unfolding (s : Sheet) (options : Options) : Nat → Address → Except Failure Value
  | 0, a => .error (.circular a)
  | depth + 1, a => s.follow options (s.unfolding options depth) a

/-- The formulas that are not in a chain. -/
def pending (s : Sheet) (chain : List Address) : List Address :=
  s.formulas.filter (· ∉ chain)

theorem length_pending_cons_lt {chain : List Address} (ha : a ∈ s.formulas)
    (fresh : a ∉ chain) : (s.pending (a :: chain)).length < (s.pending chain).length := by
  have split : s.pending (a :: chain) = (s.pending chain).filter (· ≠ a) := by
    simp only [pending, List.filter_filter]
    refine List.filter_congr fun b _ => ?_
    simp
  rw [split, List.length_filter_lt_length_iff_exists]
  exact ⟨a, List.mem_filter.mpr ⟨ha, by simpa using fresh⟩, by simp⟩

/-! ### Unfolding further -/

/-- What is got by following a cell is related if the readings of all cells are, and if references
outside the extent may be treated as they are. -/
theorem follow_admits_of_outside {T : Tolerance} {options options' : Options}
    {read read' : Address → Except Failure Value}
    (outside : T.AdmitsOutside options.strict options'.strict)
    (h : a ∈ s.formulas → ∀ b, T.Admits (read b) (read' b)) :
    T.Admits (s.follow options read a) (s.follow options' read' a) := by
  unfold follow
  split
  · exact Admits.refl _
  · exact Admits.refl _
  · exact Admits.refl _
  · next source tree stored =>
      refine Expr.value_admits ?_ outside tree fun b _ => ?_
      · rfl
      · exact h (mem_formulas.mpr ⟨source, tree, stored⟩) b

theorem follow_admits {T : Tolerance} {read read' : Address → Except Failure Value}
    (h : a ∈ s.formulas → ∀ b, T.Admits (read b) (read' b)) :
    T.Admits (s.follow options read a) (s.follow options read' a) :=
  follow_admits_of_outside (.inl rfl) h

theorem unfolding_admits_succ (depth : Nat) (a : Address) :
    upToCircles.Admits (s.unfolding options depth a) (s.unfolding options (depth + 1) a) := by
  induction depth generalizing a with
  | zero => exact .of_yields rfl _
  | succ depth ih => exact follow_admits fun _ => ih

theorem unfolding_admits_add (depth more : Nat) (a : Address) :
    upToCircles.Admits (s.unfolding options depth a) (s.unfolding options (depth + more) a) := by
  induction more with
  | zero => exact Admits.refl _
  | succ more ih => exact ih.trans (unfolding_admits_succ (depth + more) a)

/-- A cell is circular to a depth if unfolding it that far gives a circular failure. -/
def Circular (s : Sheet) (options : Options) (depth : Nat) (a : Address) : Prop :=
  ∃ f, s.unfolding options depth a = .error f ∧ f.code = .cycle

theorem Circular.of_succ {depth : Nat} (h : s.Circular options (depth + 1) a) :
    s.Circular options depth a := by
  obtain ⟨f, hf, circular⟩ := h
  have further : upToCircles.Admits (s.unfolding options depth a)
      (s.unfolding options (depth + 1) a) := unfolding_admits_succ depth a
  rw [hf] at further
  cases hx : s.unfolding options depth a with
  | ok v =>
      rw [hx] at further
      cases further
  | error g =>
      rw [hx] at further
      rcases further with yields | ⟨k, hk, same⟩
      · exact ⟨g, hx, yields⟩
      · cases hk
        exact ⟨g, hx, Eq.trans same circular⟩

/-- A result that stands for a cell: it says what some unfolding says, and whatever an unfolding
says without a circle it says as well. -/
structure Denotes (s : Sheet) (options : Options) (a : Address)
    (x : Except Failure Value) : Prop where
  reached : ∃ depth, upToCircles.Admits x (s.unfolding options depth a)
  complete : ∀ depth, upToCircles.Admits (s.unfolding options depth a) x

/-- Two results that stand for the same cell have the same value or code. -/
theorem Denotes.sameUpToMessage {x y : Except Failure Value} (hx : s.Denotes options a x)
    (hy : s.Denotes options a y) :
    (Outcome.ofResult x).SameUpToMessage (Outcome.ofResult y) := by
  obtain ⟨depth, reached⟩ := hx.reached
  obtain ⟨depth', reached'⟩ := hy.reached
  exact Outcome.sameUpToMessage_of_admits (reached.trans (hy.complete depth))
    (reached'.trans (hx.complete depth'))

/-- Settled outcomes that stand for their cells. One depth serves for all of them. -/
structure Faithful (s : Sheet) (options : Options) (settled : Outcomes) (depth : Nat) : Prop where
  reached : ∀ {b outcome}, settled[b]? = some outcome →
    upToCircles.Admits (outcome.read b) (s.unfolding options depth b)
  complete : ∀ {b outcome}, settled[b]? = some outcome → ∀ depth,
    upToCircles.Admits (s.unfolding options depth b) (outcome.read b)

/-- With room for all pending formulas, a reader never says more than an unfolding that is deep
enough: where it does not meet its own chain, it unfolds. -/
theorem read_admits_unfolding {depth : Nat} (faithful : s.Faithful options settled depth)
    {room : Nat} {chain : List Address} (enough : (s.pending chain).length < room)
    (a : Address) : upToCircles.Admits (s.read options settled room chain a)
      (s.unfolding options (depth + room) a) := by
  induction room generalizing chain a with
  | zero => omega
  | succ room ih =>
      cases h : settled[a]? with
      | some outcome =>
          rw [read_of_settled h]
          exact (faithful.reached h).trans (unfolding_admits_add depth (room + 1) a)
      | none =>
          by_cases ha : a ∈ chain
          · rw [read_of_mem_chain h ha]
            exact .of_yields rfl _
          · rw [read_succ h ha]
            refine follow_admits fun formula b => ih ?_ b
            have := length_pending_cons_lt formula ha
            omega

/-- With room for all pending formulas, a reader says whatever an unfolding says that has no
circle, provided that the cells on its chain are still circular to that depth. The depth at
which a cell gets its result decreases along a chain, so the reader cannot meet a cell of the
chain before it is through. -/
theorem unfolding_admits_read {stage : Nat} (faithful : s.Faithful options settled stage)
    (depth : Nat) {room : Nat} {chain : List Address}
    (enough : (s.pending chain).length < room)
    (behind : ∀ c ∈ chain, s.Circular options depth c) (a : Address) :
    upToCircles.Admits (s.unfolding options depth a) (s.read options settled room chain a) := by
  induction depth generalizing room chain a with
  | zero => exact .of_yields rfl _
  | succ depth ih =>
      cases h : settled[a]? with
      | some outcome =>
          rw [read_of_settled h]
          exact faithful.complete h (depth + 1)
      | none =>
          by_cases ha : a ∈ chain
          · exact admits_of_circular (behind a ha)
          · have behind' : ∀ c ∈ chain, s.Circular options depth c := fun c hc =>
              (behind c hc).of_succ
            by_cases circular : s.Circular options depth a
            · -- The cell gets its result at this very depth, so it joins the chain as circular.
              obtain ⟨room, rfl⟩ : ∃ r, room = r + 1 := ⟨room - 1, by omega⟩
              rw [read_succ h ha]
              refine follow_admits fun formula b => ih ?_ ?_ b
              · have := length_pending_cons_lt formula ha
                omega
              · intro c hc
                rcases List.mem_cons.mp hc with rfl | hc
                · exact circular
                · exact behind' c hc
            · -- The cell has its result already, and unfolding further does not change it.
              have final : ∀ f, s.unfolding options depth a = .error f → f.code ≠ .cycle :=
                fun f hf isCycle => circular ⟨f, hf, isCycle⟩
              exact ((unfolding_admits_succ depth a).symm_of_not_circular final).trans
                (ih enough behind' a)

/-- With room for all formulas, what a reader gets with nothing on its chain stands for the cell,
whatever has been settled faithfully before. -/
theorem denotes_read_of_room {depth room : Nat} (enough : s.formulas.length < room)
    (faithful : s.Faithful options settled depth) (a : Address) :
    s.Denotes options a (s.read options settled room [] a) := by
  have pending : (s.pending []).length < room :=
    Nat.lt_of_le_of_lt (List.length_filter_le _ _) enough
  exact ⟨⟨_, read_admits_unfolding faithful pending a⟩,
    fun depth => unfolding_admits_read faithful depth pending (by simp) a⟩

/-- A chain has room for all formulas if these are fewer than it may hold cells. -/
theorem denotes_read {depth : Nat} (few : s.formulas.length < maxChain)
    (faithful : s.Faithful options settled depth) (a : Address) :
    s.Denotes options a (s.read options settled maxChain [] a) :=
  denotes_read_of_room few faithful a

theorem faithful_empty : s.Faithful options ∅ 0 where
  reached h := by simp at h
  complete h := by simp at h

theorem Faithful.add {depth : Nat} (faithful : s.Faithful options settled depth) (more : Nat) :
    s.Faithful options settled (depth + more) where
  reached h := (faithful.reached h).trans (unfolding_admits_add depth more _)
  complete := faithful.complete

/-- Settling a result that stands for its cell keeps the outcomes faithful. -/
theorem Faithful.insert_denotes {depth : Nat} (faithful : s.Faithful options settled depth)
    {x : Except Failure Value} (denotes : s.Denotes options a x) :
    ∃ depth', s.Faithful options (settled.insert a (.ofResult x)) depth' := by
  obtain ⟨depth', reached⟩ := denotes.reached
  obtain ⟨read, unread⟩ := Outcome.read_ofResult_admits a x
  refine ⟨depth + depth', ?_, ?_⟩
  · intro b outcome h
    rw [Std.ExtTreeMap.getElem?_insert] at h
    split at h
    · next same =>
        cases h
        rw [← Std.LawfulEqOrd.eq_of_compare same, Nat.add_comm]
        exact read.trans (reached.trans (unfolding_admits_add depth' depth a))
    · exact (faithful.add depth').reached h
  · intro b outcome h further
    rw [Std.ExtTreeMap.getElem?_insert] at h
    split at h
    · next same =>
        cases h
        rw [← Std.LawfulEqOrd.eq_of_compare same]
        exact (denotes.complete further).trans unread
    · exact faithful.complete h further

/-- Settling one more formula keeps the outcomes faithful. -/
theorem Faithful.insert {depth : Nat} (few : s.formulas.length < maxChain)
    (faithful : s.Faithful options settled depth) (ha : a ∈ s.formulas)
    (fresh : settled[a]? = none) :
    ∃ depth', s.Faithful options
      (settled.insert a (s.evaluateWith options settled a)) depth' := by
  rw [evaluateWith_eq_read ha fresh]
  exact faithful.insert_denotes (denotes_read few faithful a)

end Sheet

end Spreadsheet
