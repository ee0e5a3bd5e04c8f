import Spreadsheet.Proofs.Sheet.Runs

/-!
# What a batch leaves behind

A batch of edits fails exactly if one of its addresses, also of a cell that is to be cleared, lies
outside the extent. It fails with the fault of the first one and leaves the sheet as it was,
although it stores its cells one after the other: when the first cell is stored, no edit can fail
any more.

Otherwise the last edit of an address decides what is stored there, and an address that no edit
names keeps its cell. So the order of a batch matters only among edits of the same address.
-/

namespace Spreadsheet

/-- The last edit of an address in a batch. -/
def Edit.lastAt (edits : List Edit) (a : Address) : Option Edit :=
  (edits.filter (·.address = a)).getLast?

namespace Sheet

variable {s s' : Sheet} {e : Edit} {edits edits' : List Edit} {a : Address}

/-! ### Failing -/

/-- The fault of an address outside the extent; the row counts first. -/
def boundsFault (s : Sheet) (a : Address) : AddressError :=
  if s.rows ≤ a.row then .rowOutOfBounds a.row (s.rows - 1)
  else .colOutOfBounds a.col (s.cols - 1)

theorem checkBounds_of_not_contains (outside : s.contains a = false) :
    s.checkBounds a = .error (s.boundsFault a) := by
  rw [checkBounds, boundsFault]
  split
  · rfl
  · next row =>
      have col : s.cols ≤ a.col := by
        simpa [contains, Nat.lt_of_not_le row] using outside
      rw [if_pos col]

/-- A batch is refused with the fault of its first edit outside the extent. -/
theorem forM_checkBounds_of_find? (first : edits.find? (!s.contains ·.address) = some e) :
    (edits.forM fun e => s.checkBounds e.address) = .error (s.boundsFault e.address) := by
  induction edits with
  | nil => cases first
  | cons d edits ih =>
      rw [List.forM_eq_forM, List.forM_cons]
      cases inside : s.contains d.address with
      | true =>
          rw [List.find?_cons_of_neg (by simp [inside])] at first
          rw [(checkBounds_eq_ok s d.address).mpr inside]
          exact ih first
      | false =>
          rw [List.find?_cons_of_pos (by simp [inside]), Option.some.injEq] at first
          rw [checkBounds_of_not_contains inside, first]
          rfl

/-! ### What is stored -/

theorem get_applyEdit (applied : s.applyEdit e = .ok s') (a : Address) :
    s'.get a = if e.address = a then e.action.cell? else s.get a := by
  rw [applyEdit] at applied
  split at applied
  · next c leaves =>
      rw [eq_of_set applied, leaves]
      simp only [get, Std.ExtTreeMap.getElem?_insert, Std.LawfulEqOrd.compare_eq_iff_eq]
  · next leaves =>
      cases applied
      rw [leaves]
      simp only [get, remove, Std.ExtTreeMap.getElem?_erase, Std.LawfulEqOrd.compare_eq_iff_eq]

theorem lastAt_cons (e : Edit) (edits : List Edit) (a : Address) : Edit.lastAt (e :: edits) a =
    (Edit.lastAt edits a).or (if e.address = a then some e else none) := by
  rw [Edit.lastAt, List.filter_cons]
  split
  · next here =>
      rw [if_pos (of_decide_eq_true here), List.getLast?_cons, Edit.lastAt]
      cases (edits.filter (·.address = a)).getLast? <;> rfl
  · next other =>
      rw [if_neg (fun here => other (decide_eq_true here)), Option.or_none, Edit.lastAt]

/-- The last edit of an address decides; without one its cell is kept. -/
theorem get_foldlM_applyEdit (applied : edits.foldlM applyEdit s = .ok s') (a : Address) :
    s'.get a = ((Edit.lastAt edits a).map (·.action.cell?)).getD (s.get a) := by
  induction edits generalizing s with
  | nil =>
      cases applied
      rfl
  | cons e edits ih =>
      rw [List.foldlM_cons] at applied
      cases first : s.applyEdit e with
      | error fault =>
          rw [first] at applied
          cases applied
      | ok between =>
          rw [first] at applied
          rw [ih applied, get_applyEdit first, lastAt_cons]
          cases Edit.lastAt edits a with
          | some last => rfl
          | none =>
              rw [Option.none_or]
              split <;> rfl

/-! ### In place -/

/-- A batch that is refused leaves the sheet as it was. -/
theorem performBatch_of_find? (first : edits.find? (!s.contains ·.address) = some e) :
    s.performBatch edits = (.error (s.boundsFault e.address), s) := by
  rw [performBatch, forM_checkBounds_of_find? first]

/-- A batch inside the extent is applied as a whole. -/
theorem performBatch_of_inside (inside : ∀ e ∈ edits, s.contains e.address) :
    (s.performBatch edits).1 = .ok edits.length ∧ (s.performBatch edits).2.SameFrame s ∧
      ∀ a, (s.performBatch edits).2.get a =
        ((Edit.lastAt edits a).map (·.action.cell?)).getD (s.get a) := by
  obtain ⟨s', folded, performed, frame⟩ := exists_performEdits inside
  have whole : s.performBatch edits = (.ok edits.length, s') := by
    rw [performBatch, forM_checkBounds_eq_ok.mpr inside]
    dsimp only
    rw [performed]
  rw [whole]
  exact ⟨rfl, frame, get_foldlM_applyEdit folded⟩

theorem find?_outside_eq_none_iff :
    edits.find? (!s.contains ·.address) = none ↔ ∀ e ∈ edits, s.contains e.address := by
  simp

/-- A batch in another order leaves the same sheet behind if the edits of each address come in the
same order. -/
theorem performBatch_congr
    (same : ∀ a, edits'.filter (·.address = a) = edits.filter (·.address = a)) :
    (s.performBatch edits').2 = (s.performBatch edits).2 := by
  have mem (e : Edit) : e ∈ edits' ↔ e ∈ edits := by
    have here := congrArg (e ∈ ·) (same e.address)
    simpa using here
  cases refused : edits.find? (!s.contains ·.address) with
  | some e =>
      have outside := List.find?_some refused
      have refused' : (edits'.find? (!s.contains ·.address)).isSome := by
        rw [List.find?_isSome]
        exact ⟨e, (mem e).mpr (List.mem_of_find?_eq_some refused), outside⟩
      obtain ⟨e', refused'⟩ := Option.isSome_iff_exists.mp refused'
      rw [performBatch_of_find? refused, performBatch_of_find? refused']
  | none =>
      have inside := find?_outside_eq_none_iff.mp refused
      obtain ⟨-, frame, cells⟩ := performBatch_of_inside inside
      obtain ⟨-, frame', cells'⟩ := performBatch_of_inside fun e h => inside e ((mem e).mp h)
      apply (frame'.trans frame.symm).ext
      intro a
      rw [cells, cells', Edit.lastAt, Edit.lastAt, same]

/-- A batch is applied as a whole or not at all. It fails exactly if some edit names an address
outside the extent, with the fault of the first such edit, and then the sheet is as it was.
Otherwise it reports the number of its edits; the names and the extent of the sheet stay, each
address holds what its last edit leaves there, and one that no edit names holds what it held. Edits
of different addresses may change places. -/
theorem performBatch_all_or_nothing (s : Sheet) (edits : List Edit) :
    ((∃ fault, (s.performBatch edits).1 = .error fault) ↔
      ∃ e ∈ edits, s.contains e.address = false) ∧
    (∀ e, edits.find? (!s.contains ·.address) = some e → s.performBatch edits =
      (.error (if s.rows ≤ e.address.row then .rowOutOfBounds e.address.row (s.rows - 1)
        else .colOutOfBounds e.address.col (s.cols - 1)), s)) ∧
    ((∀ e ∈ edits, s.contains e.address) → (s.performBatch edits).1 = .ok edits.length ∧
      (s.performBatch edits).2.SameFrame s ∧
      ∀ a, (s.performBatch edits).2.get a =
        match (edits.filter (·.address = a)).getLast? with
        | some e => e.action.cell?
        | none => s.get a) ∧
    ∀ edits' : List Edit,
      (∀ a, edits'.filter (·.address = a) = edits.filter (·.address = a)) →
        (s.performBatch edits').2 = (s.performBatch edits).2 := by
  refine ⟨?_, fun e => performBatch_of_find?, ?_, fun edits' => performBatch_congr⟩
  · constructor
    · rintro ⟨fault, failed⟩
      by_contra! inside
      rw [(performBatch_of_inside (by simpa using inside)).1] at failed
      cases failed
    · rintro ⟨e, mem, outside⟩
      have refused : (edits.find? (!s.contains ·.address)).isSome :=
        List.find?_isSome.mpr ⟨e, mem, by simp [outside]⟩
      obtain ⟨first, refused⟩ := Option.isSome_iff_exists.mp refused
      rw [performBatch_of_find? refused]
      exact ⟨_, rfl⟩
  · intro inside
    obtain ⟨count, frame, cells⟩ := performBatch_of_inside inside
    refine ⟨count, frame, fun a => ?_⟩
    rw [cells, Edit.lastAt]
    cases (edits.filter (·.address = a)).getLast? <;> rfl

/-- A batch in which both cells are edited twice. -/
def overwriting : List Edit :=
  [⟨⟨0, 0⟩, .setValue (.boolean true)⟩, ⟨⟨0, 1⟩, .setFormula "=1+"⟩, ⟨⟨0, 0⟩, .clear⟩,
    ⟨⟨0, 1⟩, .setFormula "=A1"⟩]

/-- The same edits with those of the second cell in front. -/
def regrouped : List Edit :=
  [⟨⟨0, 1⟩, .setFormula "=1+"⟩, ⟨⟨0, 1⟩, .setFormula "=A1"⟩, ⟨⟨0, 0⟩, .setValue (.boolean true)⟩,
    ⟨⟨0, 0⟩, .clear⟩]

/-- The first cell is cleared in the end, the second one holds a formula although its first text is
none, and the order of the two cells does not matter. If a cell outside the extent is to be cleared
at the end of the batch, nothing is stored. -/
theorem performBatch_all_or_nothing_overwriting :
    let s := blank "s" "S" 1 2
    (s.performBatch overwriting).1 = .ok 4 ∧
    (s.performBatch overwriting).2.get ⟨0, 0⟩ = none ∧
    (s.performBatch overwriting).2.get ⟨0, 1⟩ = some (.ofFormula "=A1") ∧
    (s.performBatch regrouped).2 = (s.performBatch overwriting).2 ∧
    s.performBatch (overwriting ++ [⟨⟨1, 0⟩, .clear⟩]) = (.error (.rowOutOfBounds 1 0), s) := by
  intro s
  obtain ⟨-, -, applied, reordered⟩ := performBatch_all_or_nothing s overwriting
  obtain ⟨-, refused, -⟩ := performBatch_all_or_nothing s (overwriting ++ [⟨⟨1, 0⟩, .clear⟩])
  obtain ⟨count, -, cells⟩ := applied (by decide)
  refine ⟨count, cells ⟨0, 0⟩, cells ⟨0, 1⟩, reordered regrouped fun a => ?_, refused _ rfl⟩
  by_cases first : (⟨0, 0⟩ : Address) = a
  · subst first
    rfl
  · by_cases second : (⟨0, 1⟩ : Address) = a
    · subst second
      rfl
    · simp [overwriting, regrouped, first, second]

end Sheet

end Spreadsheet
