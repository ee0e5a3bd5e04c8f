import Spreadsheet.SheetFile.Basic
import Spreadsheet.Proofs.Sheet.Batches
import Spreadsheet.Proofs.Text.Bytes

/-!
# From a file to a sheet

Several keys of a file may name one address, such as `A1`, `a1` and `$A$1`. The cells are stored in
the order of their keys, so the last of these keys in the order of bytes decides what the address
holds, also if what it holds is nothing. A file makes no sheet exactly if one of its keys is no
address or names one outside the extent.
-/

namespace Spreadsheet.SheetFile

variable {f : SheetFile} {s : Sheet} {key : String} {v : Value} {a : Address}

/-- The cell that a value of a file stands for. -/
def prescribed : Value → Option Cell
  | .empty => none
  | .text s => if s.toList.head? = some '=' then some (.ofFormula s) else some (.literal (.text s))
  | v => some (.literal v)

theorem cell?_action (v : Value) : (action v).cell? = prescribed v := by
  cases v with
  | text s =>
      rw [action, prescribed]
      split <;> rfl
  | empty => rfl
  | boolean b => rfl
  | number n => rfl

/-! ### Keys that name one address -/

/-- Whether a cell of a file decides what an address holds: its key names the address, and every
other key that does comes in front of it. -/
structure Decides (f : SheetFile) (key : String) (v : Value) (a : Address) : Prop where
  found : f.cells[key]? = some v
  names : Address.ofText key = .ok a
  last : ∀ other ∈ f.cells, Address.ofText other = .ok a → other ≠ key → Text.Precedes other key

/-- The cells of a file whose keys name an address, in the order of their keys. -/
def namesakes (f : SheetFile) (a : Address) : List (String × Value) :=
  f.cells.toList.filter fun entry => (Address.ofText entry.1).toOption = some a

theorem toOption_eq_some_iff {ε α : Type} {x : Except ε α} {y : α} :
    x.toOption = some y ↔ x = .ok y := by
  cases x <;> simp [Except.toOption]

theorem mem_namesakes :
    (key, v) ∈ f.namesakes a ↔ f.cells[key]? = some v ∧ Address.ofText key = .ok a := by
  rw [namesakes, List.mem_filter, Std.ExtTreeMap.mem_toList_iff_getElem?_eq_some,
    decide_eq_true_iff, toOption_eq_some_iff]

theorem pairwise_namesakes (f : SheetFile) (a : Address) :
    (f.namesakes a).Pairwise fun x y => Text.Precedes x.1 y.1 :=
  (f.cells.ordered_keys_toList.imp Text.precedes_of_compare).filter _

/-- The last one of the cells that name an address decides about it. -/
theorem decides_of_getLast? (last : (f.namesakes a).getLast? = some (key, v)) :
    f.Decides key v a := by
  obtain ⟨front, whole⟩ := List.getLast?_eq_some_iff.mp last
  obtain ⟨found, names⟩ := mem_namesakes.mp (List.mem_of_getLast? last)
  refine ⟨found, names, fun other mem names' different => ?_⟩
  have stored := Std.ExtTreeMap.getElem?_eq_some_getElem mem
  have mem' : (other, f.cells[other]) ∈ front ++ [(key, v)] :=
    whole ▸ mem_namesakes.mpr ⟨stored, names'⟩
  rcases List.mem_append.mp mem' with before | same
  · have sorted := pairwise_namesakes f a
    rw [whole] at sorted
    exact (List.pairwise_append.mp sorted).2.2 _ before _ List.mem_cons_self
  · exact absurd (congrArg Prod.fst (List.mem_singleton.mp same)) different

/-- At most one cell of a file decides about an address. -/
theorem Decides.unique {key' : String} {v' : Value} (h : f.Decides key v a)
    (h' : f.Decides key' v' a) : key = key' ∧ v = v' := by
  have mem : key ∈ f.cells := Std.ExtTreeMap.mem_iff_isSome_getElem?.mpr (by simp [h.found])
  have mem' : key' ∈ f.cells := Std.ExtTreeMap.mem_iff_isSome_getElem?.mpr (by simp [h'.found])
  by_cases same : key = key'
  · subst same
    exact ⟨rfl, Option.some.inj (h.found.symm.trans h'.found)⟩
  · exact absurd (h.last key' mem' h'.names (Ne.symm same)) (h'.last key mem h.names same).asymm

theorem decides_iff : f.Decides key v a ↔ (f.namesakes a).getLast? = some (key, v) := by
  refine ⟨fun decides => ?_, decides_of_getLast?⟩
  have nonempty : f.namesakes a ≠ [] :=
    List.ne_nil_of_mem (mem_namesakes.mpr ⟨decides.found, decides.names⟩)
  have last := List.getLast?_eq_some_getLast nonempty
  obtain ⟨same, same'⟩ := decides.unique (decides_of_getLast? last)
  rw [last, same, same']

/-! ### The edits of a file -/

/-- A computation over a list succeeds if it does for every member. -/
theorem mapM_eq_ok_iff {ε α β : Type} {g : α → Except ε β} {xs : List α} {ys : List β} :
    xs.mapM g = .ok ys ↔
      (∀ x ∈ xs, ∃ y, g x = .ok y) ∧ ys = xs.filterMap fun x => (g x).toOption := by
  induction xs generalizing ys with
  | nil => simp [pure, Except.pure, eq_comm]
  | cons x xs ih =>
      rw [List.mapM_cons, List.forall_mem_cons]
      cases first : g x with
      | error fault => simp [bind, Except.bind]
      | ok y =>
          rw [List.filterMap_cons_some (by rw [first]; rfl)]
          constructor
          · intro made
            obtain ⟨z, same, made⟩ := Formula.bind_eq_ok made
            obtain ⟨zs, rest, made⟩ := Formula.bind_eq_ok made
            cases same
            cases made
            obtain ⟨all, rfl⟩ := ih.mp rest
            exact ⟨⟨⟨y, rfl⟩, all⟩, rfl⟩
          · rintro ⟨⟨-, all⟩, rfl⟩
            rw [ih.mpr ⟨all, rfl⟩]
            rfl

theorem edit_toOption (entry : String × Value) : (edit entry).toOption =
    (Address.ofText entry.1).toOption.map fun a => ⟨a, action entry.2⟩ := by
  rw [edit]
  cases Address.ofText entry.1 <;> rfl

/-- The edits of an address are those of the cells that name it. -/
theorem filter_edits {edits : List Edit} (made : f.cells.toList.mapM edit = .ok edits)
    (a : Address) : edits.filter (·.address = a) =
      (f.namesakes a).map fun entry => ⟨a, action entry.2⟩ := by
  rw [(mapM_eq_ok_iff.mp made).2, List.filter_filterMap, namesakes, ← List.filterMap_eq_map,
    List.filterMap_filter]
  refine List.filterMap_congr fun entry _ => ?_
  rw [edit_toOption]
  cases (Address.ofText entry.1).toOption with
  | none => rfl
  | some b => by_cases same : b = a <;> simp [Option.filter, same]

/-- Whether the key of a cell names an address inside the extent. -/
def Places (f : SheetFile) (key : String) : Prop :=
  ∃ a, Address.ofText key = .ok a ∧ f.frame.contains a

theorem exists_edit (places : f.Places key) (v : Value) :
    ∃ e, edit (key, v) = .ok e ∧ f.frame.contains e.address := by
  obtain ⟨a, names, inside⟩ := places
  refine ⟨⟨a, action v⟩, ?_, inside⟩
  rw [edit, names]

theorem places_of_edit {e : Edit} (made : edit (key, v) = .ok e)
    (inside : f.frame.contains e.address) : f.Places key := by
  rw [edit] at made
  split at made
  · next a names =>
      cases made
      exact ⟨a, names, inside⟩
  · cases made

/-! ### The sheet of a file -/

/-- A file makes a sheet if its cells make edits that can be applied. -/
theorem toSheet_eq_ok_iff : f.toSheet = .ok s ↔
    ∃ edits, f.cells.toList.mapM edit = .ok edits ∧ f.frame.applyEdits edits = .ok s := by
  rw [toSheet]
  constructor
  · intro made
    obtain ⟨edits, edited, made⟩ := Formula.bind_eq_ok made
    refine ⟨edits, edited, ?_⟩
    cases applied : f.frame.applyEdits edits with
    | ok s' => rw [applied] at made; cases made; rfl
    | error fault => rw [applied] at made; cases made
  · rintro ⟨edits, edited, applied⟩
    rw [edited]
    dsimp only [bind, Except.bind]
    rw [applied]
    rfl

/-- A file makes a sheet exactly if each of its keys names an address inside the extent. -/
theorem exists_toSheet_iff : (∃ s, f.toSheet = .ok s) ↔ ∀ key ∈ f.cells, f.Places key := by
  constructor
  · rintro ⟨s, made⟩ key mem
    obtain ⟨edits, edited, applied⟩ := toSheet_eq_ok_iff.mp made
    obtain ⟨all, whole⟩ := mapM_eq_ok_iff.mp edited
    have listed : (key, f.cells[key]) ∈ f.cells.toList :=
      Std.ExtTreeMap.mem_toList_iff_getElem?_eq_some.mpr
        (Std.ExtTreeMap.getElem?_eq_some_getElem mem)
    obtain ⟨e, single⟩ := all _ listed
    have member : e ∈ edits := by
      rw [whole, List.mem_filterMap]
      exact ⟨_, listed, toOption_eq_some_iff.mpr single⟩
    obtain ⟨⟨⟩, checked, -⟩ := Formula.bind_eq_ok applied
    exact places_of_edit single (Sheet.forM_checkBounds_eq_ok.mp checked e member)
  · intro places
    have all : ∀ entry ∈ f.cells.toList,
        ∃ e, edit entry = .ok e ∧ f.frame.contains e.address := by
      rintro ⟨key, v⟩ mem
      have stored := Std.ExtTreeMap.mem_toList_iff_getElem?_eq_some.mp mem
      have present : key ∈ f.cells := Std.ExtTreeMap.mem_iff_isSome_getElem?.mpr (by simp [stored])
      exact exists_edit (places key present) v
    have edited := mapM_eq_ok_iff.mpr
      ⟨fun entry mem => (all entry mem).imp fun _ made => made.1, rfl⟩
    have inside : ∀ e ∈ f.cells.toList.filterMap fun entry => (edit entry).toOption,
        f.frame.contains e.address := by
      intro e mem
      obtain ⟨entry, listed, single⟩ := List.mem_filterMap.mp mem
      obtain ⟨e', made, contained⟩ := all entry listed
      rw [made] at single
      cases single
      exact contained
    obtain ⟨s, applied, -⟩ := Sheet.exists_applyEdits (Sheet.forM_checkBounds_eq_ok.mpr inside)
    exact ⟨s, toSheet_eq_ok_iff.mpr ⟨_, edited, applied⟩⟩

theorem exists_error_iff :
    (∃ fault, f.toSheet = .error fault) ↔ ∃ key ∈ f.cells, ¬ f.Places key := by
  have makes := f.exists_toSheet_iff
  cases made : f.toSheet with
  | ok s =>
      have places := makes.mp ⟨s, made⟩
      simpa using places
  | error fault =>
      simp only [made, reduceCtorEq, exists_false, false_iff, not_forall] at makes
      simpa using makes

theorem not_places_iff {key : String} : ¬ f.Places key ↔
    (∃ cause, Address.ofText key = .error cause) ∨ ∃ a, Address.ofText key = .ok a ∧
      (min (max (f.rows.getD defaultRows) 1) maxRows ≤ a.row ∨
        min (max (f.cols.getD defaultCols) 1) maxCols ≤ a.col) := by
  rw [Places]
  cases Address.ofText key with
  | error cause => simp
  | ok a =>
      simp only [Except.ok.injEq, exists_eq_left', reduceCtorEq, exists_false, false_or,
        Sheet.contains, Bool.and_eq_true, decide_eq_true_eq, Decidable.not_and_iff_not_or_not,
        Nat.not_lt]
      rfl

theorem fits_of_toSheet (made : f.toSheet = .ok s) : s.Fits := by
  obtain ⟨edits, -, applied⟩ := toSheet_eq_ok_iff.mp made
  exact (Sheet.fits_blank _ _ _ _).applyEdits applied

/-- An address of the sheet holds what the cell says that decides about it, and nothing if there is
none. -/
theorem get_of_toSheet (made : f.toSheet = .ok s) (a : Address) :
    s.get a = (f.namesakes a).getLast?.bind fun entry => prescribed entry.2 := by
  obtain ⟨edits, edited, applied⟩ := toSheet_eq_ok_iff.mp made
  obtain ⟨-, -, folded⟩ := Formula.bind_eq_ok applied
  have empty : f.frame.get a = none := by simp [frame, Sheet.blank, Sheet.get]
  rw [Sheet.get_foldlM_applyEdit folded, Edit.lastAt, filter_edits edited, List.getLast?_map, empty]
  cases (f.namesakes a).getLast? with
  | none => rfl
  | some entry => exact cell?_action entry.2

theorem get_of_decides (made : f.toSheet = .ok s) (decides : f.Decides key v a) :
    s.get a = prescribed v := by
  rw [get_of_toSheet made, decides_iff.mp decides]
  rfl

/-- About each address that some key names a cell decides; the others are empty. -/
theorem exists_decides_or (made : f.toSheet = .ok s) (a : Address) :
    (∃ key v, f.Decides key v a) ∨
      (∀ key ∈ f.cells, Address.ofText key ≠ .ok a) ∧ s.get a = none := by
  cases last : (f.namesakes a).getLast? with
  | some entry => exact .inl ⟨entry.1, entry.2, decides_iff.mpr last⟩
  | none =>
      refine .inr ⟨fun key mem names => ?_, by rw [get_of_toSheet made, last]; rfl⟩
      have listed := mem_namesakes.mpr ⟨Std.ExtTreeMap.getElem?_eq_some_getElem mem, names⟩
      rw [List.getLast?_eq_none_iff.mp last] at listed
      cases listed

end Spreadsheet.SheetFile
