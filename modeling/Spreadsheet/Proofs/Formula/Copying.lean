import Spreadsheet.Proofs.Formula.Commuting
import Spreadsheet.Proofs.Formula.Respelled
import Spreadsheet.Proofs.Formula.Stepwise
import Spreadsheet.Proofs.Reference.Distances

/-!
# Copying a text in steps

A text that is copied from one cell to another and from there to a third one reads as if it had been
copied to the third one at once, whether it is a formula or not. Only a reference that is lost in
the first step makes a difference, because it does not come back. Copying a text to where it is
spells its references in the canonical way and does nothing else.
-/

namespace Spreadsheet

/-- A piece with its references spelled in the canonical way. What lies off the grid is kept as it
is written. -/
def Piece.normal : Piece → Piece
  | lone written =>
    match Reference.ofChars written with
    | .ok r => lone r.chars
    | .error _ => lone written
  | pair first second =>
    match Reference.ofChars first, Reference.ofChars second with
    | .ok a, .ok b => pair a.chars b.chars
    | _, _ => pair first second
  | p => p

namespace Formula

variable {f g h : Redirection} {cs : List Char} {p : Piece} {text : String}

namespace Redirection

/-- Whether a piece becomes a lost reference. -/
def loses (f : Redirection) : Piece → Bool
  | .lone written =>
    match Reference.ofChars written with
    | .ok r => (f.lone r).isNone
    | .error _ => false
  | .pair first second =>
    match Reference.ofChars first, Reference.ofChars second with
    | .ok a, .ok b => (f.pair a b).isNone
    | _, _ => false
  | _ => false

/-! ### Two steps that make up a third one -/

/-- Whether one redirection behind another one takes what the first one does not lose to where a
third one takes it. -/
structure Composes (f g h : Redirection) : Prop where
  lone : ∀ {r r'}, f.lone r = some r' → g.lone r' = h.lone r
  pair : ∀ {a b ends}, f.pair a b = some ends → g.pair ends.1 ends.2 = h.pair a b

theorem Composes.piece (composes : f.Composes g h) (kept : f.loses p = false) :
    (f.andThen g).piece p = h.piece p := by
  cases p with
  | quoted inner => rfl
  | other c => rfl
  | lone written =>
      cases read : Reference.ofChars written with
      | error cause => simp [Redirection.piece, read]
      | ok r =>
          cases moved : f.lone r with
          | none => simp [loses, read, moved] at kept
          | some r' => simp [Redirection.piece, andThen, read, moved, composes.lone moved]
  | pair first second =>
      cases read : Reference.ofChars first with
      | error cause => simp [Redirection.piece, read]
      | ok a =>
          cases read' : Reference.ofChars second with
          | error cause => simp [Redirection.piece, read, read']
          | ok b =>
              cases moved : f.pair a b with
              | none => simp [loses, read, read', moved] at kept
              | some ends =>
                  simp [Redirection.piece, andThen, read, read', moved, composes.pair moved]

/-- Two steps are one if the first one loses nothing. -/
theorem Composes.text_text (composes : f.Composes g h) (keeps : f.KeepsMarkers)
    (grid : f.StaysOnGrid) (kept : ∀ p ∈ pieces text.toList, f.loses p = false) :
    g.text (f.text text) = h.text text := by
  rw [Redirection.text_text keeps grid, Redirection.text, Redirection.text, Redirection.chars,
    Redirection.chars, List.flatMap_def, List.flatMap_def,
    List.map_congr_left fun p hp => composes.piece (kept p hp)]

/-! ### Redirections that move nothing -/

/-- Whether a redirection takes every reference on the grid to itself, and every range. -/
structure Still (f : Redirection) : Prop where
  lone : ∀ {r}, r.InGrid → f.lone r = some r
  pair : ∀ {a b}, a.InGrid → b.InGrid → f.pair a b = some (a, b)

theorem Still.image (still : f.Still) (p : Piece) : f.image p = [p.normal] := by
  cases p with
  | quoted inner => rfl
  | other c => rfl
  | lone written =>
      cases read : Reference.ofChars written with
      | error cause => simp [Redirection.image, Piece.normal, read]
      | ok r =>
          have stays := still.lone (Reference.inGrid_of_ofChars read)
          simp [Redirection.image, Piece.normal, read, stays]
  | pair first second =>
      cases read : Reference.ofChars first with
      | error cause => simp [Redirection.image, Piece.normal, read]
      | ok a =>
          cases read' : Reference.ofChars second with
          | error cause => simp [Redirection.image, Piece.normal, read, read']
          | ok b =>
              have stays := still.pair (Reference.inGrid_of_ofChars read)
                (Reference.inGrid_of_ofChars read')
              simp [Redirection.image, Piece.normal, read, read', stays]

/-- A redirection that moves nothing changes no more than the spelling of references. -/
theorem Still.pieces_text (still : f.Still) (keeps : f.KeepsMarkers) (text : String) :
    pieces (f.text text).toList = (pieces text.toList).map Piece.normal := by
  have image : f.image = fun p => [p.normal] := funext still.image
  rw [Redirection.text, String.toList_ofList, pieces_chars keeps, image, List.map_eq_flatMap]

/-- A redirection that moves nothing does not change what a formula is. -/
theorem Still.parse_text (still : f.Still) {e : Expr} (parsed : parse text = .ok e) :
    parse (f.text text) = .ok e := by
  have onGrid {r : Reference} (written : r ∈ writtenReferences (tokenize text)) : r.InGrid := by
    obtain ⟨w, -, read⟩ := mem_writtenReferences.mp written
    exact Reference.inGrid_of_ofChars read
  refine parse_text_of_fixes parsed ⟨fun r mem => still.lone (onGrid mem), fun ends mem => ?_⟩
  obtain ⟨first, second⟩ := ends_mem_writtenReferences mem
  exact still.pair (onGrid first) (onGrid second)

end Redirection

/-! ### Copying -/

/-- Copying leaves dollar signs alone. -/
theorem keepsMarkers_copying (cols rows : Int) : (copying cols rows).KeepsMarkers := by
  have lone {r r' : Reference} (moved : copyReference cols rows r = some r') :
      r'.colFixed = r.colFixed := by
    rw [copyReference_eq_offset] at moved
    exact (Reference.offset_eq_some.mp moved).2.1.symm
  exact ⟨lone, fun moved => lone (copying_pair_eq_some.mp moved).1⟩

theorem composes_copying (cols rows cols' rows' : Int) :
    (copying cols rows).Composes (copying cols' rows') (copying (cols + cols') (rows + rows')) := by
  have lone {r r' : Reference} (moved : copyReference cols rows r = some r') :
      copyReference cols' rows' r' = copyReference (cols + cols') (rows + rows') r := by
    rw [copyReference_eq_offset] at moved ⊢
    rw [copyReference_eq_offset, Reference.offset_offset moved]
  refine ⟨lone, fun moved => ?_⟩
  obtain ⟨first, second⟩ := copying_pair_eq_some.mp moved
  simp only [copying, lone first, lone second]

theorem still_copying : (copying 0 0).Still := by
  have lone {r : Reference} (onGrid : r.InGrid) : copyReference 0 0 r = some r := by
    rw [copyReference_eq_offset, onGrid.offset_zero]
  exact ⟨lone, fun first second => copying_pair_eq_some.mpr ⟨lone first, lone second⟩⟩

theorem copy_self (text : String) (a : Address) : copy text a a = (copying 0 0).text text := by
  rw [copy, Int.sub_self, Int.sub_self]

/-- Copying a text in two steps is copying it at once if the first step loses no reference, whatever
the text is. Copied there and back, a text is as it is when it is copied to where it stands: its
pieces are the same, up to the spelling of references, and if it is a formula it is the same one. -/
theorem copy_copy (text : String) (a b c : Address)
    (kept : ∀ p ∈ pieces text.toList,
      (copying ((b.col : Int) - a.col) ((b.row : Int) - a.row)).loses p = false) :
    copy (copy text a b) b c = copy text a c ∧
      copy (copy text a b) b a = copy text a a ∧
      pieces (copy text a a).toList = (pieces text.toList).map Piece.normal ∧
      ∀ e, parse text = .ok e → parse (copy text a a) = .ok e := by
  have steps (c : Address) : copy (copy text a b) b c = copy text a c := by
    have composes := composes_copying ((b.col : Int) - a.col) ((b.row : Int) - a.row)
      ((c.col : Int) - b.col) ((c.row : Int) - b.row)
    have cols : ((b.col : Int) - a.col) + (c.col - b.col) = c.col - a.col := by omega
    have rows : ((b.row : Int) - a.row) + (c.row - b.row) = c.row - a.row := by omega
    rw [cols, rows] at composes
    exact composes.text_text (keepsMarkers_copying _ _) (staysOnGrid_copying _ _) kept
  refine ⟨steps c, steps a, ?_, fun e parsed => ?_⟩
  · rw [copy_self, still_copying.pieces_text (keepsMarkers_copying 0 0)]
  · rw [copy_self, still_copying.parse_text parsed]

theorem copy_copy_unparsable :
    (∀ p ∈ pieces "=sum(a1:B$2)&x01+\"A1\"+zzzz9+".toList,
        (copying (((⟨4, 3⟩ : Address).col : Int) - (⟨1, 1⟩ : Address).col)
          (((⟨4, 3⟩ : Address).row : Int) - (⟨1, 1⟩ : Address).row)).loses p = false) ∧
      copy (copy "=sum(a1:B$2)&x01+\"A1\"+zzzz9+" ⟨1, 1⟩ ⟨4, 3⟩) ⟨4, 3⟩ ⟨0, 2⟩ =
        copy "=sum(a1:B$2)&x01+\"A1\"+zzzz9+" ⟨1, 1⟩ ⟨0, 2⟩ := by
  have kept : ∀ p ∈ pieces "=sum(a1:B$2)&x01+\"A1\"+zzzz9+".toList,
      (copying (((⟨4, 3⟩ : Address).col : Int) - (⟨1, 1⟩ : Address).col)
        (((⟨4, 3⟩ : Address).row : Int) - (⟨1, 1⟩ : Address).row)).loses p = false := by
    decide +kernel
  exact ⟨kept, (copy_copy _ ⟨1, 1⟩ ⟨4, 3⟩ ⟨0, 2⟩ kept).1⟩

end Formula

end Spreadsheet
