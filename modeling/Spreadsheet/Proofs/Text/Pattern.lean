import Spreadsheet.Text.Blank

/-!
# Patterns

A pattern is matched at the front of a text, in general in several ways. Which of them counts is a
matter of order: of two alternatives the first one is preferred, and of a repetition the longest. A
preferred way is given up only if what stands behind it in the pattern cannot be matched then. So
the ways are listed in the order in which they are tried, and the first one of the list counts.

A pattern remembers the texts that its groups have matched, under their numbers.
-/

namespace Spreadsheet

/-- A pattern for the front of a text. -/
inductive Pattern where
  /-- One character of a class. -/
  | one (p : Char → Bool)
  /-- Any number of characters of a class. -/
  | many (p : Char → Bool)
  | both (first second : Pattern)
  | either (first second : Pattern)
  | optional (inner : Pattern)
  | group (number : Nat) (inner : Pattern)

namespace Pattern

/-- A way to match a pattern: the text that it takes, what the groups have matched, and what is left
of the text. -/
structure Way where
  taken : List Char
  groups : List (Nat × List Char)
  rest : List Char
deriving DecidableEq, Repr

/-- The way that goes on with another one. -/
def Way.append (m m' : Way) : Way :=
  ⟨m.taken ++ m'.taken, m.groups ++ m'.groups, m'.rest⟩

/-- The cuts of a text that have only characters of a class in front of them, the last one first. -/
def cuts (p : Char → Bool) : List Char → List (List Char × List Char)
  | [] => [([], [])]
  | c :: cs =>
    if p c then (cuts p cs).map (fun cut => (c :: cut.1, cut.2)) ++ [([], c :: cs)]
    else [([], c :: cs)]

/-- The ways to match a pattern at the front of a text, in the order in which they are tried. -/
def ways : Pattern → List Char → List Way
  | one _, [] => []
  | one p, c :: cs => if p c then [⟨[c], [], cs⟩] else []
  | many p, cs => (cuts p cs).map fun cut => ⟨cut.1, [], cut.2⟩
  | both a b, cs => (a.ways cs).flatMap fun m => (b.ways m.rest).map m.append
  | either a b, cs => a.ways cs ++ b.ways cs
  | optional a, cs => a.ways cs ++ [⟨[], [], cs⟩]
  | group n a, cs => (a.ways cs).map fun m => { m with groups := (n, m.taken) :: m.groups }

/-- The way in which a pattern is matched at the front of a text, if it can be matched there. -/
def first? (a : Pattern) (cs : List Char) : Option Way :=
  (a.ways cs).head?

/-- One or more characters of a class. -/
def several (p : Char → Bool) : Pattern :=
  both (one p) (many p)

variable {p : Char → Bool} {a b : Pattern} {c : Char} {cs : List Char} {m : Way}

theorem append_of_mem_cuts {cut : List Char × List Char} (h : cut ∈ cuts p cs) :
    cut.1 ++ cut.2 = cs := by
  induction cs generalizing cut with
  | nil =>
      rw [cuts, List.mem_singleton] at h
      rw [h]
      rfl
  | cons c cs ih =>
      rw [cuts] at h
      split at h
      · rcases List.mem_append.mp h with h | h
        · obtain ⟨cut, inside, rfl⟩ := List.mem_map.mp h
          rw [List.cons_append, ih inside]
        · rw [List.mem_singleton.mp h]
          rfl
      · rw [List.mem_singleton.mp h]
        rfl

/-- Whatever way is taken, nothing of the text is lost. -/
theorem append_of_mem_ways (h : m ∈ a.ways cs) : m.taken ++ m.rest = cs := by
  induction a generalizing cs m with
  | one p =>
      cases cs with
      | nil => cases h
      | cons c cs =>
          rw [ways] at h
          split at h
          · rw [List.mem_singleton.mp h]
            rfl
          · cases h
  | many p =>
      obtain ⟨cut, inside, rfl⟩ := List.mem_map.mp h
      exact append_of_mem_cuts inside
  | both a b ih ih' =>
      obtain ⟨m, front, h⟩ := List.mem_flatMap.mp h
      obtain ⟨m', behind, rfl⟩ := List.mem_map.mp h
      rw [Way.append, List.append_assoc, ih' behind, ih front]
  | either a b ih ih' =>
      rcases List.mem_append.mp h with h | h
      · exact ih h
      · exact ih' h
  | optional a ih =>
      rcases List.mem_append.mp h with h | h
      · exact ih h
      · rw [List.mem_singleton.mp h]
        rfl
  | group n a ih =>
      obtain ⟨m, inside, rfl⟩ := List.mem_map.mp h
      exact (ih inside : m.taken ++ m.rest = cs)

theorem append_of_first? (h : a.first? cs = some m) : m.taken ++ m.rest = cs :=
  append_of_mem_ways (List.mem_of_mem_head? h)

/-- A text with the matches of a pattern replaced. They are looked for from left to right, each one
behind the one before. A match that takes nothing does not count. -/
def replaceAll (a : Pattern) (f : Way → List Char) : List Char → List Char
  | [] => []
  | c :: cs =>
    match _h : a.first? (c :: cs) with
    | some ⟨d :: taken, groups, rest⟩ => f ⟨d :: taken, groups, rest⟩ ++ a.replaceAll f rest
    | _ => c :: a.replaceAll f cs
termination_by cs => cs.length
decreasing_by
  · rw [← append_of_first? _h]
    simp only [List.length_append, List.length_cons]
    omega
  · exact Nat.lt_succ_self _

theorem replaceAll_of_some {f : Way → List Char} (h : a.first? (c :: cs) = some m)
    (nonempty : m.taken ≠ []) :
    a.replaceAll f (c :: cs) = f m ++ a.replaceAll f m.rest := by
  obtain ⟨taken, groups, rest⟩ := m
  obtain ⟨d, taken, rfl⟩ := List.exists_cons_of_ne_nil nonempty
  rw [replaceAll]
  split
  · next same =>
      rw [h] at same
      cases same
      rfl
  · next other => exact absurd h (other d taken groups rest)

theorem replaceAll_of_none {f : Way → List Char} (h : a.first? (c :: cs) = none) :
    a.replaceAll f (c :: cs) = c :: a.replaceAll f cs := by
  rw [replaceAll]
  split
  · next same =>
      rw [h] at same
      cases same
  · rfl

/-! ### What is tried first -/

theorem first?_one (p : Char → Bool) (c : Char) (cs : List Char) :
    (one p).first? (c :: cs) = if p c then some ⟨[c], [], cs⟩ else none := by
  rw [first?, ways]
  split <;> rfl

theorem first?_either : (either a b).first? cs = (a.first? cs).or (b.first? cs) :=
  List.head?_append

theorem first?_optional : (optional a).first? cs = some ((a.first? cs).getD ⟨[], [], cs⟩) := by
  rw [first?, ways, List.head?_append, ← first?]
  cases a.first? cs <;> rfl

theorem first?_group (n : Nat) : (group n a).first? cs =
    (a.first? cs).map fun m => { m with groups := (n, m.taken) :: m.groups } := by
  rw [first?, ways, List.head?_map, ← first?]

/-- The ways of the first pattern are tried until the second one can be matched behind one. -/
theorem first?_both : (both a b).first? cs =
    (a.ways cs).findSome? fun m => (b.first? m.rest).map m.append := by
  simp only [first?, ways, List.head?_flatMap, List.head?_map]

theorem Way.append_append (m m' : Way) : (m.append m').append = m.append ∘ m'.append := by
  funext m''
  simp only [append, List.append_assoc, Function.comp_apply]

/-- A way that takes nothing changes nothing. -/
theorem Way.append_empty (rest : List Char) : Way.append ⟨[], [], rest⟩ = id :=
  rfl

/-- How two patterns in front of a third one are put together does not matter. -/
theorem first?_assoc {a' : Pattern} :
    (both (both a b) a').first? cs = (both a (both b a')).first? cs := by
  simp only [first?, ways, List.flatMap_assoc, List.flatMap_map, List.map_flatMap, List.map_map,
    Way.append_append]
  rfl

theorem first?_both_one (p : Char → Bool) (c : Char) (cs : List Char) :
    (both (one p) b).first? (c :: cs) =
      if p c then (b.first? cs).map (Way.append ⟨[c], [], cs⟩) else none := by
  rw [first?_both, ways]
  split
  · rw [List.findSome?_singleton]
  · rfl

/-- A pattern that can be matched everywhere never makes the one in front of it give way. -/
theorem first?_both_of_isSome (always : ∀ cs, (b.first? cs).isSome) :
    (both a b).first? cs = (a.first? cs).bind fun m => (b.first? m.rest).map m.append := by
  rw [first?_both, first?]
  cases a.ways cs with
  | nil => rfl
  | cons m more =>
      obtain ⟨m', first⟩ := Option.isSome_iff_exists.mp (always m.rest)
      rw [List.findSome?_cons, List.head?_cons, Option.bind_some, first]
      rfl

/-! ### Repetitions -/

theorem head?_cuts : (cuts p cs).head? = some (cs.takeWhile p, cs.dropWhile p) := by
  induction cs with
  | nil => rfl
  | cons c cs ih =>
      rw [cuts]
      split
      · next inside =>
          rw [List.head?_append, List.head?_map, ih, List.takeWhile_cons_of_pos inside,
            List.dropWhile_cons_of_pos inside]
          rfl
      · next outside =>
          rw [List.takeWhile_cons_of_neg outside, List.dropWhile_cons_of_neg outside]
          rfl

/-- If nothing is found where a character of the class comes next, only the last cut counts. -/
theorem findSome?_cuts {α : Type} {f : List Char × List Char → Option α}
    (blocked : ∀ front c rest, p c → f (front, c :: rest) = none) :
    (cuts p cs).findSome? f = f (cs.takeWhile p, cs.dropWhile p) := by
  induction cs generalizing f with
  | nil => exact List.findSome?_singleton
  | cons c cs ih =>
      rw [cuts]
      split
      · next inside =>
          rw [List.findSome?_append, List.findSome?_map, List.findSome?_singleton,
            blocked [] c cs inside, Option.or_none, List.takeWhile_cons_of_pos inside,
            List.dropWhile_cons_of_pos inside]
          exact ih fun front d rest => blocked (c :: front) d rest
      · next outside =>
          rw [List.takeWhile_cons_of_neg outside, List.dropWhile_cons_of_neg outside]
          exact List.findSome?_singleton

theorem first?_many :
    (many p).first? cs = some ⟨cs.takeWhile p, [], cs.dropWhile p⟩ := by
  rw [first?, ways, List.head?_map, head?_cuts]
  rfl

/-- A repetition does not give way if what follows it cannot begin with one of its characters. -/
theorem first?_both_many (blocked : ∀ c cs, p c → b.first? (c :: cs) = none) :
    (both (many p) b).first? cs =
      (b.first? (cs.dropWhile p)).map (Way.append ⟨cs.takeWhile p, [], cs.dropWhile p⟩) := by
  rw [first?_both, ways, List.findSome?_map, findSome?_cuts]
  · rfl
  · intro front c rest inside
    rw [Function.comp_apply, blocked c rest inside]
    rfl

theorem first?_several : (several p).first? cs =
    if (cs.takeWhile p).isEmpty then none else some ⟨cs.takeWhile p, [], cs.dropWhile p⟩ := by
  cases cs with
  | nil => rfl
  | cons c cs =>
      rw [several, first?_both_one, first?_many]
      cases inside : p c with
      | true => simp [inside, Way.append]
      | false => simp [inside]

theorem first?_both_several (blocked : ∀ c cs, p c → b.first? (c :: cs) = none) :
    (both (several p) b).first? cs = if (cs.takeWhile p).isEmpty then none else
      (b.first? (cs.dropWhile p)).map (Way.append ⟨cs.takeWhile p, [], cs.dropWhile p⟩) := by
  rw [several, first?_assoc]
  cases cs with
  | nil => rfl
  | cons c cs =>
      rw [first?_both_one, first?_both_many blocked, Option.map_map, ← Way.append_append]
      cases inside : p c with
      | true => simp [inside, Way.append]
      | false => simp [inside]

/-- An optional character does not give way if what stands behind it cannot begin with it. -/
theorem first?_both_optional_one (blocked : ∀ c cs, p c → b.first? (c :: cs) = none) :
    (both (optional (one p)) b).first? (c :: cs) =
      if p c then (b.first? cs).map (Way.append ⟨[c], [], cs⟩) else b.first? (c :: cs) := by
  rw [first?_both, ways, ways, List.findSome?_append]
  cases inside : p c with
  | true => simp [blocked c cs inside]
  | false => simp [Way.append_empty]

end Pattern

end Spreadsheet
