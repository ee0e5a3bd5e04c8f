import Spreadsheet.Proofs.Sheet.Lookup
import Spreadsheet.Sheet.Edit
import Spreadsheet.Sheet.LineEdit

/-!
# What edits preserve

Edits of cells store and remove cells one after the other, and an edit of lines stores cells in an
empty sheet. A property of sheets that no such step breaks holds of every sheet that comes out of
edits, and only the steps have to be looked at.
-/

namespace Spreadsheet.Sheet

/-- Whether a property of sheets holds of empty ones and survives storing an allowed cell and
removing any cell. -/
structure Invariant (Allowed : Cell → Prop) (P : Sheet → Prop) : Prop where
  blank : ∀ id name rows cols, P (blank id name rows cols)
  set : ∀ {s s' : Sheet} {a : Address} {c : Cell}, P s → Allowed c → s.set a c = .ok s' → P s'
  remove : ∀ {s : Sheet} (a : Address), P s → P (s.remove a)

namespace Invariant

variable {Allowed : Cell → Prop} {P : Sheet → Prop} {s s' : Sheet}
  (inv : Invariant Allowed P)

include inv

section Edits

variable (allowed : ∀ {action : Action} {c : Cell}, action.cell? = some c → Allowed c)

include allowed

theorem applyEdit (h : P s) {edit : Edit} (applied : s.applyEdit edit = .ok s') : P s' := by
  unfold Sheet.applyEdit at applied
  split at applied
  · next c leaves => exact inv.set h (allowed leaves) applied
  · cases applied
    exact inv.remove edit.address h

theorem applyEdits (h : P s) {edits : List Edit} (applied : s.applyEdits edits = .ok s') :
    P s' := by
  unfold Sheet.applyEdits at applied
  cases checked : edits.forM fun e => s.checkBounds e.address with
  | error fault =>
      rw [checked] at applied
      cases applied
  | ok u =>
      rw [checked] at applied
      replace applied : edits.foldlM Sheet.applyEdit s = .ok s' := applied
      clear checked
      induction edits generalizing s with
      | nil =>
          cases applied
          exact h
      | cons edit edits ih =>
          rw [List.foldlM_cons] at applied
          cases first : s.applyEdit edit with
          | error fault =>
              rw [first] at applied
              cases applied
          | ok between =>
              rw [first] at applied
              exact ih (inv.applyEdit allowed h first) applied

end Edits

variable {e : LineEdit}

theorem place (h : P s) {entry : Address × Cell} (allowed : Allowed (entry.2.adjust e)) :
    P (place e s entry) := by
  unfold Sheet.place
  split
  · exact h
  · split
    · next stores => exact inv.set h allowed stores
    · exact h

theorem foldl_place (h : P s) {entries : List (Address × Cell)}
    (allowed : ∀ entry ∈ entries, Allowed (entry.2.adjust e)) :
    P (entries.foldl (Sheet.place e) s) := by
  induction entries generalizing s with
  | nil => exact h
  | cons entry entries ih =>
      rw [List.foldl_cons]
      exact ih (inv.place h (allowed entry List.mem_cons_self)) fun other mem =>
        allowed other (List.mem_cons_of_mem entry mem)

theorem applyLineEdit (allowed : ∀ entry ∈ s.entries, Allowed (entry.2.adjust e)) :
    P (s.applyLineEdit e) :=
  inv.foldl_place (inv.blank s.id s.name s.rows s.cols) allowed

end Invariant

end Spreadsheet.Sheet
