import Spreadsheet.Dependency.Order
import Spreadsheet.Proofs.Dependency.Edges

/-!
# Precedents come first

The order of a graph is the outcome of a walk. What holds at every moment of the walk ties the
path to the graph: each cell of the path leads to the cells above it, and a cell whose targets
have all been entered can be dealt with, because each of them either has been dealt with before
or stands on the path and so leads back to it.
-/

namespace Spreadsheet

namespace Graph

/-- In a list of cells with the latest first, each one has everything that it reads behind it,
unless that leads back to it. -/
def PrecedentsBehind (g : Graph) : List Address → Prop
  | [] => True
  | a :: earlier =>
    (∀ b, g.Edge a b → b ∈ earlier ∨ g.Reaches b a) ∧ g.PrecedentsBehind earlier

theorem PrecedentsBehind.of_append {g : Graph} {later earlier : List Address}
    (h : g.PrecedentsBehind (later ++ earlier)) : g.PrecedentsBehind earlier := by
  induction later with
  | nil => exact h
  | cons a later ih => exact ih h.2

end Graph

namespace Tour

variable {g : Graph} {t : Tour} {a b : Address} {bs : List Address}
variable {path : List (Address × List Address)}

/-- What holds of a tour over `g` whenever it stands on `path`. -/
structure Valid (g : Graph) (t : Tour) (path : List (Address × List Address)) : Prop where
  /-- The edges of a cell that has not been entered are still there. -/
  unread : ∀ b ∉ t.seen, Graph.setAt t.unread b = Graph.setAt g.reads b
  /-- A cell that has been entered is on the path or dealt with. -/
  seen_iff : ∀ b, b ∈ t.seen ↔ b ∈ path.map Prod.fst ++ t.done
  nodup : (path.map Prod.fst ++ t.done).Nodup
  /-- Each cell of the path leads to those above it. -/
  leads : (path.map Prod.fst).Pairwise fun above below => g.Reaches below above
  /-- The cells still to be visited from a cell of the path are read by it. -/
  open_edges : ∀ step ∈ path, ∀ b ∈ step.2, g.Edge step.1 b
  /-- All others that it reads have been entered. -/
  entered : ∀ step ∈ path, ∀ b, g.Edge step.1 b → b ∈ step.2 ∨ b ∈ t.seen
  ordered : g.PrecedentsBehind t.done

theorem Valid.initial (g : Graph) : Valid g ⟨g.reads, ∅, []⟩ [] where
  unread _ _ := rfl
  seen_iff := by simp
  nodup := by simp
  leads := by simp
  open_edges := by simp
  entered := by simp
  ordered := trivial

theorem Valid.mem_targets (h : Valid g t path) (fresh : b ∉ t.seen) {c : Address} :
    c ∈ t.targets b ↔ g.Edge b c := by
  rw [targets, h.unread b fresh]
  rfl

/-- Entering a cell that everything on the path leads to. -/
theorem Valid.enter (h : Valid g t path) (fresh : b ∉ t.seen)
    (leads : ∀ step ∈ path, g.Reaches step.1 b) :
    Valid g (t.enter b) ((b, t.targets b) :: path) where
  unread c hc := by
    rw [Tour.enter, Std.ExtTreeSet.mem_insert, not_or] at hc
    have distinct : b ≠ c := fun same => hc.1 (by simp [same])
    simpa [Tour.enter, Graph.setAt, Std.ExtTreeMap.getD_erase, distinct] using h.unread c hc.2
  seen_iff c := by
    simp only [Tour.enter, Std.ExtTreeSet.mem_insert, h.seen_iff, List.map_cons, List.cons_append,
      List.mem_cons, Std.LawfulEqOrd.compare_eq_iff_eq, @eq_comm _ c b]
  nodup := by
    rw [h.seen_iff] at fresh
    exact List.nodup_cons.mpr ⟨fresh, h.nodup⟩
  leads := by
    rw [List.map_cons, List.pairwise_cons]
    refine ⟨fun c hc => ?_, h.leads⟩
    obtain ⟨step, hstep, rfl⟩ := List.mem_map.mp hc
    exact leads step hstep
  open_edges step hstep c hc := by
    rcases List.mem_cons.mp hstep with rfl | hstep
    · exact (h.mem_targets fresh).mp hc
    · exact h.open_edges step hstep c hc
  entered step hstep c hc := by
    rcases List.mem_cons.mp hstep with rfl | hstep
    · exact .inl ((h.mem_targets fresh).mpr hc)
    · rcases h.entered step hstep c hc with left | seen
      · exact .inl left
      · exact .inr (Std.ExtTreeSet.mem_insert.mpr (.inr seen))
  ordered := h.ordered

/-- Passing over a target that has been entered before. -/
theorem Valid.skip (h : Valid g t ((a, b :: bs) :: path)) (seen : b ∈ t.seen) :
    Valid g t ((a, bs) :: path) where
  unread := h.unread
  seen_iff := h.seen_iff
  nodup := h.nodup
  leads := h.leads
  open_edges step hstep c hc := by
    rcases List.mem_cons.mp hstep with rfl | hstep
    · exact h.open_edges (a, b :: bs) List.mem_cons_self c (List.mem_cons_of_mem b hc)
    · exact h.open_edges step (List.mem_cons_of_mem _ hstep) c hc
  entered step hstep c hc := by
    rcases List.mem_cons.mp hstep with rfl | hstep
    · rcases h.entered (a, b :: bs) List.mem_cons_self c hc with left | entered
      · rcases List.mem_cons.mp left with rfl | left
        · exact .inr seen
        · exact .inl left
      · exact .inr entered
    · exact h.entered step (List.mem_cons_of_mem _ hstep) c hc
  ordered := h.ordered

/-- Going down to a target that has not been entered. -/
theorem Valid.descend (h : Valid g t ((a, b :: bs) :: path)) (fresh : b ∉ t.seen) :
    Valid g (t.enter b) ((b, t.targets b) :: (a, bs) :: path) := by
  have edge : g.Edge a b := h.open_edges (a, b :: bs) List.mem_cons_self b List.mem_cons_self
  have leads : ∀ step ∈ (a, b :: bs) :: path, g.Reaches step.1 b := by
    intro step hstep
    rcases List.mem_cons.mp hstep with rfl | hstep
    · exact .single edge
    · have below := (List.pairwise_cons.mp h.leads).1 step.1 (List.mem_map_of_mem hstep)
      exact below.tail edge
  have entered := h.enter fresh leads
  refine { entered with open_edges := ?_, entered := ?_ }
  · intro step hstep c hc
    rcases List.mem_cons.mp hstep with rfl | hstep
    · exact entered.open_edges _ List.mem_cons_self c hc
    rcases List.mem_cons.mp hstep with rfl | hstep
    · exact h.open_edges (a, b :: bs) List.mem_cons_self c (List.mem_cons_of_mem b hc)
    · exact h.open_edges step (List.mem_cons_of_mem _ hstep) c hc
  · intro step hstep c hc
    rcases List.mem_cons.mp hstep with rfl | hstep
    · exact entered.entered _ List.mem_cons_self c hc
    rcases List.mem_cons.mp hstep with rfl | hstep
    · rcases entered.entered (a, b :: bs) (by simp) c hc with left | seen
      · rcases List.mem_cons.mp left with rfl | left
        · exact .inr (Std.ExtTreeSet.mem_insert.mpr (.inl (by simp)))
        · exact .inl left
      · exact .inr seen
    · exact entered.entered step (by simp [hstep]) c hc

/-- Dealing with the top cell of the path: whatever it reads is dealt with or on the path. -/
theorem Valid.close (h : Valid g t ((a, []) :: path)) :
    Valid g { t with done := a :: t.done } path where
  unread := h.unread
  seen_iff c := by
    rw [h.seen_iff c]
    simp only [List.map_cons, List.cons_append, List.mem_cons, List.mem_append]
    tauto
  nodup := by
    have perm : (path.map Prod.fst ++ a :: t.done).Perm (a :: (path.map Prod.fst ++ t.done)) :=
      List.perm_middle
    exact perm.nodup_iff.mpr h.nodup
  leads := (List.pairwise_cons.mp h.leads).2
  open_edges step hstep := h.open_edges step (List.mem_cons_of_mem _ hstep)
  entered step hstep := h.entered step (List.mem_cons_of_mem _ hstep)
  ordered := by
    refine ⟨fun b hb => ?_, h.ordered⟩
    have seen : b ∈ t.seen := (h.entered (a, []) List.mem_cons_self b hb).resolve_left (by simp)
    rw [h.seen_iff, List.map_cons, List.cons_append, List.mem_cons, List.mem_append] at seen
    rcases seen with rfl | below | done
    · exact .inr .refl
    · exact .inr ((List.pairwise_cons.mp h.leads).1 b below)
    · exact .inl done

/-- A walk keeps what holds of the tour, and forgets no cell that has been entered. -/
theorem Valid.walk (h : Valid g t path) :
    Valid g (t.walk path) [] ∧ ∀ b ∈ t.seen, b ∈ (t.walk path).seen := by
  induction t, path using Tour.walk.induct with
  | case1 t => exact ⟨by rwa [Tour.walk], fun b hb => by rwa [Tour.walk]⟩
  | case2 t a path ih =>
      rw [Tour.walk]
      exact ih h.close
  | case3 t a b bs path seen ih =>
      rw [Tour.walk, if_pos seen]
      exact ih (h.skip seen)
  | case4 t a b bs path fresh ih =>
      rw [Tour.walk, if_neg fresh]
      obtain ⟨valid, kept⟩ := ih (h.descend fresh)
      exact ⟨valid, fun c hc => kept c (Std.ExtTreeSet.mem_insert.mpr (.inr hc))⟩

/-- A visit enters the requested cell and forgets none. -/
theorem Valid.visit (h : Valid g t []) (a : Address) :
    Valid g (t.visit a) [] ∧ a ∈ (t.visit a).seen ∧ ∀ b ∈ t.seen, b ∈ (t.visit a).seen := by
  unfold Tour.visit
  split
  · next seen => exact ⟨h, seen, fun _ hb => hb⟩
  · next fresh =>
      obtain ⟨valid, kept⟩ := (h.enter fresh (by simp)).walk
      refine ⟨valid, kept a ?_, fun b hb => kept b ?_⟩
      · exact Std.ExtTreeSet.mem_insert.mpr (.inl (by simp))
      · exact Std.ExtTreeSet.mem_insert.mpr (.inr hb)

theorem Valid.visitAll (h : Valid g t []) (requested : List Address) :
    Valid g (requested.foldl Tour.visit t) [] ∧
      (∀ a ∈ requested, a ∈ (requested.foldl Tour.visit t).seen) ∧
      ∀ b ∈ t.seen, b ∈ (requested.foldl Tour.visit t).seen := by
  induction requested generalizing t with
  | nil => exact ⟨h, by simp, fun _ hb => hb⟩
  | cons a requested ih =>
      obtain ⟨valid, entered, kept⟩ := h.visit a
      obtain ⟨valid', entered', kept'⟩ := ih valid
      refine ⟨valid', fun b hb => ?_, fun b hb => kept' b (kept b hb)⟩
      rcases List.mem_cons.mp hb with rfl | hb
      · exact kept' b entered
      · exact entered' b hb

/-! ### What has been dealt with stays where it is -/

theorem done_walk (t : Tour) (path : List (Address × List Address)) :
    t.done <:+ (t.walk path).done := by
  induction t, path using Tour.walk.induct with
  | case1 t => exact ⟨[], by rw [Tour.walk, List.nil_append]⟩
  | case2 t a path ih =>
      rw [Tour.walk]
      exact (List.suffix_cons a t.done).trans ih
  | case3 t a b bs path seen ih =>
      rw [Tour.walk, if_pos seen]
      exact ih
  | case4 t a b bs path fresh ih =>
      rw [Tour.walk, if_neg fresh]
      exact ih

theorem done_visit (t : Tour) (a : Address) : t.done <:+ (t.visit a).done := by
  unfold Tour.visit
  split
  · exact List.suffix_rfl
  · exact done_walk (t.enter a) _

theorem done_visitAll (t : Tour) (requested : List Address) :
    t.done <:+ (requested.foldl Tour.visit t).done := by
  induction requested generalizing t with
  | nil => exact List.suffix_rfl
  | cons a requested ih => exact (done_visit t a).trans (ih (t.visit a))

end Tour

namespace Graph

variable {g : Graph}

theorem order_nodup (requested : List Address) : (g.order requested).Nodup := by
  have valid := ((Tour.Valid.initial g).visitAll requested).1
  exact List.pairwise_reverse.mpr (valid.nodup.imp Ne.symm)

/-- Every requested cell is in the order. -/
theorem mem_order {requested : List Address} {a : Address} (h : a ∈ requested) :
    a ∈ g.order requested := by
  obtain ⟨valid, entered, -⟩ := (Tour.Valid.initial g).visitAll requested
  simpa [order] using (valid.seen_iff a).mp (entered a h)

/-- Seen from its end, the order has behind each cell what that cell reads. -/
theorem precedentsBehind_order (requested : List Address) :
    g.PrecedentsBehind (g.order requested).reverse := by
  rw [order, List.reverse_reverse]
  exact ((Tour.Valid.initial g).visitAll requested).1.ordered

/-- If the first requested cell reads a cell before all others, and that one reads it in turn and
nothing else, then the order begins with the cell that is read. -/
theorem prefix_order_of_circle {a b : Address} {others requested : List Address}
    (reads : g.readsOf a = b :: others) (back : g.readsOf b = [a]) (distinct : a ≠ b) :
    [b] <+: g.order (a :: requested) := by
  have visited : [b] <:+ (Tour.visit ⟨g.reads, ∅, []⟩ a).done := by
    have entered : ¬ b ∈ (∅ : AddressSet).insert a := by
      simp [Std.ExtTreeSet.mem_insert, distinct]
    have onPath : a ∈ ((∅ : AddressSet).insert a).insert b := by
      simp [Std.ExtTreeSet.mem_insert]
    have below : (setAt (g.reads.erase a) b).toList = [a] := by
      rw [← back, readsOf, setAt, setAt, Std.ExtTreeMap.getD_erase, if_neg]
      simp [distinct]
    have above : (setAt g.reads a).toList = b :: others := reads
    rw [Tour.visit, if_neg (by simp)]
    simp only [Tour.enter, Tour.targets, above]
    rw [Tour.walk, if_neg entered]
    simp only [Tour.enter, Tour.targets, below]
    rw [Tour.walk, if_pos onPath, Tour.walk]
    exact Tour.done_walk ⟨_, _, [b]⟩ [(a, others)]
  rw [order, List.foldl_cons, ← List.reverse_suffix]
  simpa using visited.trans (Tour.done_visitAll _ requested)

end Graph

end Spreadsheet
