import Spreadsheet.Proofs.Dependency.Precedents

/-!
# The order of a graph is complete

The order of a graph lists the requested cells and all that can be reached from them, each of them
once. A cell that is read stands before its reader unless it leads back to it, so without cycles
the order is topological.

A walk takes the edges of a cell out of the map when it enters the cell, but it would end without
that. The traversal is also described turn by turn, with nothing but the set of entered cells to
keep it from going in circles. It makes the same list, and it takes at most two turns for each edge
and for each requested cell.
-/

namespace Spreadsheet

/-! ### Turn by turn -/

namespace Graph

/-- Where a traversal of a graph stands. -/
structure Traversal where
  /-- The requested cells that have not been looked at. -/
  requested : List Address
  /-- The cells that lead to the current one, the latest first, each with the cells that are still
  to be visited from it. -/
  path : List (Address × List Address)
  /-- The cells on the path and in the list. -/
  entered : AddressSet
  /-- The cells that are dealt with, the latest first. -/
  listed : List Address

/-- Where a traversal begins. -/
def Traversal.start (requested : List Address) : Traversal :=
  ⟨requested, [], ∅, []⟩

variable {g : Graph} {s s' s'' : Traversal} {m n : Nat} {a b : Address}

/-- One turn of a traversal: to the next requested cell, down to the next cell that the current one
reads, or back from a cell from which nothing is left to visit. -/
def turn (g : Graph) : Traversal → Option Traversal
  | ⟨requested, (a, b :: bs) :: path, entered, listed⟩ =>
    if b ∈ entered then some ⟨requested, (a, bs) :: path, entered, listed⟩
    else some ⟨requested, (b, g.readsOf b) :: (a, bs) :: path, entered.insert b, listed⟩
  | ⟨requested, (a, []) :: path, entered, listed⟩ => some ⟨requested, path, entered, a :: listed⟩
  | ⟨a :: requested, [], entered, listed⟩ =>
    if a ∈ entered then some ⟨requested, [], entered, listed⟩
    else some ⟨requested, [(a, g.readsOf a)], entered.insert a, listed⟩
  | ⟨[], [], _, _⟩ => none

/-- Where a traversal stands so many turns later, unless it has ended before. -/
def turns (g : Graph) : Nat → Traversal → Option Traversal
  | 0, s => some s
  | n + 1, s => (g.turn s).bind (g.turns n)

theorem turns_succ (first : g.turn s = some s') (later : g.turns n s' = some s'') :
    g.turns (n + 1) s = some s'' := by
  rw [turns, first, Option.bind_some, later]

theorem turns_add (first : g.turns m s = some s') (later : g.turns n s' = some s'') :
    g.turns (m + n) s = some s'' := by
  induction m generalizing s with
  | zero =>
      obtain rfl := Option.some.inj first
      rwa [Nat.zero_add]
  | succ m ih =>
      obtain ⟨between, turned, rest⟩ := Option.bind_eq_some_iff.mp first
      rw [Nat.succ_add]
      exact turns_succ turned (ih rest)

end Graph

namespace Tour

variable {g : Graph} {t : Tour} {a b : Address} {path : List (Address × List Address)}

/-- What is left in the map for a cell that has not been entered is what the graph has. -/
theorem Valid.targets_eq (h : Valid g t path) (fresh : b ∉ t.seen) : t.targets b = g.readsOf b := by
  rw [targets, h.unread b fresh, Graph.readsOf]

theorem edgeCount_enter (t : Tour) (b : Address) :
    Graph.edgeCount t.unread = (t.targets b).length + Graph.edgeCount (t.enter b).unread := by
  rw [Graph.edgeCount_erase t.unread b, targets, Std.ExtTreeSet.length_toList, enter]

/-- A walk is a run of turns. -/
theorem Valid.turns_walk (h : Valid g t path) (requested : List Address) :
    ∃ n, g.turns n ⟨requested, path, t.seen, t.done⟩ =
        some ⟨requested, [], (t.walk path).seen, (t.walk path).done⟩ ∧
      n + 2 * Graph.edgeCount (t.walk path).unread ≤
        2 * Graph.edgeCount t.unread + effort path := by
  induction t, path using Tour.walk.induct with
  | case1 t =>
      rw [Tour.walk]
      exact ⟨0, rfl, by omega⟩
  | case2 t a path ih =>
      obtain ⟨n, run, bound⟩ := ih h.close
      rw [Tour.walk]
      refine ⟨n + 1, Graph.turns_succ rfl run, ?_⟩
      simp only [effort, List.length_nil] at bound ⊢
      omega
  | case3 t a b bs path seen ih =>
      obtain ⟨n, run, bound⟩ := ih (h.skip seen)
      rw [Tour.walk, if_pos seen]
      refine ⟨n + 1, Graph.turns_succ (if_pos seen) run, ?_⟩
      simp only [effort, List.length_cons] at bound ⊢
      omega
  | case4 t a b bs path fresh ih =>
      have down : g.turn ⟨requested, (a, b :: bs) :: path, t.seen, t.done⟩ =
          some ⟨requested, (b, t.targets b) :: (a, bs) :: path, (t.enter b).seen, t.done⟩ := by
        rw [h.targets_eq fresh]
        exact if_neg fresh
      obtain ⟨n, run, bound⟩ := ih (h.descend fresh)
      rw [Tour.walk, if_neg fresh]
      refine ⟨n + 1, Graph.turns_succ down run, ?_⟩
      have spent := edgeCount_enter t b
      simp only [effort, List.length_cons] at bound ⊢
      omega

/-- Visiting the requested cells is a run of turns. -/
theorem Valid.turns_visitAll (h : Valid g t []) (requested : List Address) :
    ∃ n, g.turns n ⟨requested, [], t.seen, t.done⟩ =
        some ⟨[], [], (requested.foldl Tour.visit t).seen, (requested.foldl Tour.visit t).done⟩ ∧
      n + 2 * Graph.edgeCount (requested.foldl Tour.visit t).unread ≤
        2 * (Graph.edgeCount t.unread + requested.length) := by
  induction requested generalizing t with
  | nil => exact ⟨0, rfl, by simp⟩
  | cons a requested ih =>
      obtain ⟨n, run, bound⟩ := ih (h.visit a).1
      rw [List.foldl_cons, List.length_cons]
      by_cases seen : a ∈ t.seen
      · rw [Tour.visit, if_pos seen] at run bound ⊢
        exact ⟨n + 1, Graph.turns_succ (if_pos seen) run, by omega⟩
      · rw [Tour.visit, if_neg seen] at run bound ⊢
        have down : g.turn ⟨a :: requested, [], t.seen, t.done⟩ =
            some ⟨requested, [(a, t.targets a)], (t.enter a).seen, t.done⟩ := by
          rw [h.targets_eq seen]
          exact if_neg seen
        obtain ⟨m, walk, bound'⟩ := (h.enter seen (by simp)).turns_walk requested
        refine ⟨m + n + 1, Graph.turns_succ down (Graph.turns_add walk run), ?_⟩
        have spent := edgeCount_enter t a
        simp only [effort] at bound'
        omega

/-! ### What is entered -/

/-- Whether a tour has entered nothing but what can be reached from some cells, and has entered all
that a cell reads before dealing with it. -/
structure Grounded (g : Graph) (roots : List Address) (t : Tour) : Prop where
  reached : ∀ b ∈ t.seen, ∃ root ∈ roots, g.Reaches root b
  closed : ∀ a ∈ t.done, ∀ b, g.Edge a b → b ∈ t.seen

variable {roots : List Address}

theorem mem_seen_enter {c : Address} : c ∈ (t.enter b).seen ↔ c = b ∨ c ∈ t.seen := by
  simp only [enter, Std.ExtTreeSet.mem_insert, Std.LawfulEqOrd.compare_eq_iff_eq, @eq_comm _ c b]

theorem Grounded.initial (g : Graph) (roots : List Address) :
    Grounded g roots ⟨g.reads, ∅, []⟩ where
  reached := by simp
  closed := by simp

/-- Entering a cell that can be reached. -/
theorem Grounded.enter (h : Grounded g roots t) (reached : ∃ root ∈ roots, g.Reaches root b) :
    Grounded g roots (t.enter b) where
  reached c hc := by
    obtain rfl | seen := mem_seen_enter.mp hc
    · exact reached
    · exact h.reached c seen
  closed a ha c edge := mem_seen_enter.mpr (.inr (h.closed a ha c edge))

/-- Dealing with a cell when all that it reads has been entered. -/
theorem Grounded.close (h : Grounded g roots t) (entered : ∀ b, g.Edge a b → b ∈ t.seen) :
    Grounded g roots { t with done := a :: t.done } where
  reached := h.reached
  closed c hc b edge := by
    obtain rfl | listed := List.mem_cons.mp hc
    · exact entered b edge
    · exact h.closed c listed b edge

theorem Grounded.walk (h : Grounded g roots t) (valid : Valid g t path) :
    Grounded g roots (t.walk path) := by
  induction t, path using Tour.walk.induct with
  | case1 t => rwa [Tour.walk]
  | case2 t a path ih =>
      rw [Tour.walk]
      apply ih (h.close _) valid.close
      intro b edge
      exact (valid.entered (a, []) List.mem_cons_self b edge).resolve_left List.not_mem_nil
  | case3 t a b bs path seen ih =>
      rw [Tour.walk, if_pos seen]
      exact ih h (valid.skip seen)
  | case4 t a b bs path fresh ih =>
      rw [Tour.walk, if_neg fresh]
      apply ih (h.enter _) (valid.descend fresh)
      obtain ⟨root, requested, leads⟩ := h.reached a ((valid.seen_iff a).mpr List.mem_cons_self)
      exact ⟨root, requested,
        leads.tail (valid.open_edges (a, b :: bs) List.mem_cons_self b List.mem_cons_self)⟩

theorem Grounded.visitAll (h : Grounded g roots t) (valid : Valid g t []) {requested : List Address}
    (among : ∀ a ∈ requested, a ∈ roots) : Grounded g roots (requested.foldl Tour.visit t) := by
  induction requested generalizing t with
  | nil => exact h
  | cons a requested ih =>
      refine ih ?_ (valid.visit a).1 fun b hb => among b (List.mem_cons_of_mem a hb)
      rw [Tour.visit]
      split
      · exact h
      · next fresh =>
          apply (h.enter _).walk (valid.enter fresh (by simp))
          exact ⟨a, among a List.mem_cons_self, .refl⟩

end Tour

/-! ### The order -/

namespace Graph

variable {g : Graph} {requested cells : List Address} {a b : Address}

/-- Whether no path of edges leads back to where it began. -/
def Acyclic (g : Graph) : Prop :=
  ∀ a, ¬ Relation.TransGen g.Edge a a

/-- The order lists what can be reached from a requested cell. -/
theorem mem_order_iff : a ∈ g.order requested ↔ ∃ root ∈ requested, g.Reaches root a := by
  obtain ⟨valid, entered, -⟩ := (Tour.Valid.initial g).visitAll requested
  have grounded := (Tour.Grounded.initial g requested).visitAll (Tour.Valid.initial g)
    fun _ h => h
  have listed (b : Address) : b ∈ g.order requested ↔
      b ∈ (requested.foldl Tour.visit ⟨g.reads, ∅, []⟩).seen := by
    rw [order, List.mem_reverse, valid.seen_iff, List.map_nil, List.nil_append]
  constructor
  · intro h
    exact grounded.reached a ((listed a).mp h)
  · rintro ⟨root, among, leads⟩
    -- Along the path, each cell is listed because the one before is.
    induction leads with
    | refl => exact (listed root).mpr (entered root among)
    | tail _ edge before =>
        rw [order, List.mem_reverse] at before
        exact (listed _).mpr (grounded.closed _ before _ edge)

/-- In a list of cells with the latest first, what a cell reads stands behind it. -/
theorem PrecedentsBehind.sublist (h : g.PrecedentsBehind cells) (listed : a ∈ cells)
    (edge : g.Edge a b) (apart : ¬ g.Reaches b a) : [a, b].Sublist cells := by
  induction cells with
  | nil => cases listed
  | cons c earlier ih =>
      obtain rfl | listed := List.mem_cons.mp listed
      · have behind : b ∈ earlier := (h.1 b edge).resolve_right apart
        exact (List.singleton_sublist.mpr behind).cons_cons a
      · exact (ih h.2 listed).cons c

/-- What a cell reads stands before it, unless it leads back to it. -/
theorem sublist_order (listed : a ∈ g.order requested) (edge : g.Edge a b)
    (apart : ¬ g.Reaches b a) : [b, a].Sublist (g.order requested) := by
  have behind := (precedentsBehind_order requested).sublist (List.mem_reverse.mpr listed) edge apart
  simpa using behind.reverse

/-- Whatever the graph and whichever cells are requested: the traversal ends, and it takes at most
two turns for each edge and each requested cell. It lists the requested cells and all that can be
reached from them, each once, and what a cell reads stands before it, unless that leads back to
it. Without cycles this is so for all that a cell reads. -/
theorem order_precedents_first (g : Graph) (requested : List Address) :
    (∃ n ≤ 2 * (edgeCount g.reads + requested.length), ∃ last,
      g.turns n (.start requested) = some last ∧ g.turn last = none ∧
        last.listed.reverse = g.order requested) ∧
    (g.order requested).Nodup ∧
    (∀ a, a ∈ g.order requested ↔ ∃ root ∈ requested, g.Reaches root a) ∧
    (∀ a b, a ∈ g.order requested → g.Edge a b → ¬ g.Reaches b a →
      [b, a].Sublist (g.order requested)) ∧
    (g.Acyclic → ∀ a b, a ∈ g.order requested → g.Edge a b →
      [b, a].Sublist (g.order requested)) := by
  refine ⟨?_, order_nodup requested, fun _ => mem_order_iff, ?_, ?_⟩
  · obtain ⟨n, run, bound⟩ := (Tour.Valid.initial g).turns_visitAll requested
    exact ⟨n, (Nat.le_add_right n _).trans bound, _, run, rfl, rfl⟩
  · intro a b listed edge apart
    exact sublist_order listed edge apart
  · intro acyclic a b listed edge
    exact sublist_order listed edge fun back => acyclic a (.head' edge back)

/-- A graph in which the second cell and the third one read each other. The first one reads the
second one. -/
def lasso : Graph :=
  ((empty.add ⟨0, 0⟩ ⟨1, 0⟩).add ⟨1, 0⟩ ⟨2, 0⟩).add ⟨2, 0⟩ ⟨1, 0⟩

theorem edge_lasso : lasso.Edge a b ↔ (a = ⟨2, 0⟩ ∧ b = ⟨1, 0⟩) ∨ (a = ⟨1, 0⟩ ∧ b = ⟨2, 0⟩) ∨
    (a = ⟨0, 0⟩ ∧ b = ⟨1, 0⟩) := by
  simp only [lasso, edge_add, not_edge_empty, or_false]

/-- Nothing leads back to the first cell. -/
theorem not_reaches_lasso : ¬ lasso.Reaches ⟨1, 0⟩ ⟨0, 0⟩ := by
  intro back
  obtain same | ⟨b, -, edge⟩ := back.cases_tail
  · cases same
  · simp [edge_lasso] at edge

/-- The cell before the circle stands behind it. A cell that the graph does not know is listed as
well, and none is listed twice. -/
theorem order_precedents_first_lasso :
    (∃ n ≤ 12, ∃ last, lasso.turns n (.start [⟨9, 9⟩, ⟨0, 0⟩, ⟨9, 9⟩]) = some last ∧
      lasso.turn last = none) ∧
    (lasso.order [⟨9, 9⟩, ⟨0, 0⟩, ⟨9, 9⟩]).Nodup ∧
    ⟨9, 9⟩ ∈ lasso.order [⟨9, 9⟩, ⟨0, 0⟩, ⟨9, 9⟩] ∧
    [⟨1, 0⟩, ⟨0, 0⟩].Sublist (lasso.order [⟨9, 9⟩, ⟨0, 0⟩, ⟨9, 9⟩]) := by
  obtain ⟨⟨n, bound, last, run, ended, -⟩, nodup, listed, before, -⟩ :=
    order_precedents_first lasso [⟨9, 9⟩, ⟨0, 0⟩, ⟨9, 9⟩]
  have count : edgeCount lasso.reads = 3 := by decide +kernel
  refine ⟨⟨n, by simpa [count] using bound, last, run, ended⟩, nodup, ?_, ?_⟩
  · exact (listed _).mpr ⟨_, List.mem_cons_self, .refl⟩
  · apply before
    · exact (listed _).mpr ⟨_, List.mem_cons_of_mem _ List.mem_cons_self, .refl⟩
    · simp [edge_lasso]
    · exact not_reaches_lasso

end Graph

end Spreadsheet
