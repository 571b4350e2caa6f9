import ResolutionPlan.Plan

namespace ResolutionPlan

variable {V : Type}

namespace Plan

mutual
theorem node_induction {one : Plan V → Prop} {all : List (Plan V) → Prop}
    (node : ∀ p, all p.children → one p) (nil : all [])
    (cons : ∀ p rest, one p → all rest → all (p :: rest)) : ∀ p, one p
  | .leaf _ => node _ nil
  | .cached _ _ inner => node _ (cons inner [] (node_induction node nil cons inner) nil)
  | .constructor _ _ parameters => node _ (children_induction node nil cons parameters)
  | .enumerable _ _ elements => node _ (children_induction node nil cons elements)

theorem children_induction {one : Plan V → Prop} {all : List (Plan V) → Prop}
    (node : ∀ p, all p.children → one p) (nil : all [])
    (cons : ∀ p rest, one p → all rest → all (p :: rest)) : ∀ ps, all ps
  | [] => nil
  | p :: rest => cons p rest (node_induction node nil cons p) (children_induction node nil cons rest)
end

theorem forest_induction {one : Plan V → Prop} {all : List (Plan V) → Prop}
    (node : ∀ p, all p.children → one p) (nil : all [])
    (cons : ∀ p rest, one p → all rest → all (p :: rest)) : (∀ p, one p) ∧ ∀ ps, all ps :=
  ⟨node_induction node nil cons, children_induction node nil cons⟩

-- The nodes of a plan in pre-order, each with its distance from the root; the root itself is at `depth`.
mutual
def levelsFrom (depth : Nat) : Plan V → List (Nat × Plan V)
  | .leaf site => [(depth, .leaf site)]
  | .cached lifetime service inner => (depth, .cached lifetime service inner) :: inner.levelsFrom (depth + 1)
  | .constructor service implementation parameters =>
    (depth, .constructor service implementation parameters) :: levelsAll (depth + 1) parameters
  | .enumerable service item elements =>
    (depth, .enumerable service item elements) :: levelsAll (depth + 1) elements

def levelsAll (depth : Nat) : List (Plan V) → List (Nat × Plan V)
  | [] => []
  | p :: rest => p.levelsFrom depth ++ levelsAll depth rest
end

def levels (p : Plan V) : List (Nat × Plan V) :=
  p.levelsFrom 0

def preorderAll (ps : List (Plan V)) : List (Plan V) :=
  preorderAllOnto [] ps

theorem levelsFrom_eq (depth : Nat) (p : Plan V) :
    p.levelsFrom depth = (depth, p) :: levelsAll (depth + 1) p.children := by
  cases p <;> simp [levelsFrom, children, levelsAll]

theorem preorderOnto_levels :
    (∀ (p : Plan V) depth rest, preorderOnto rest p = (p.levelsFrom depth).map (·.2) ++ rest) ∧
    (∀ (ps : List (Plan V)) depth rest, preorderAllOnto rest ps = (levelsAll depth ps).map (·.2) ++ rest) := by
  refine forest_induction ?node ?nil ?cons
  case node =>
    intro p below depth rest
    simp [preorderOnto_eq, levelsFrom_eq, below (depth + 1)]
  case nil =>
    intro depth rest
    simp [preorderAllOnto, levelsAll]
  case cons =>
    intro p others first remaining depth rest
    rw [preorderAllOnto, first depth, remaining depth, levelsAll, List.map_append, List.append_assoc]

theorem levelsFrom_preorder (depth : Nat) (p : Plan V) : (p.levelsFrom depth).map (·.2) = p.preorder := by
  simpa [preorder] using (preorderOnto_levels.1 p depth []).symm

theorem levelsAll_preorder (depth : Nat) (ps : List (Plan V)) :
    (levelsAll depth ps).map (·.2) = preorderAll ps := by
  simpa [preorderAll] using (preorderOnto_levels.2 ps depth []).symm

theorem preorder_eq (p : Plan V) : p.preorder = p :: preorderAll p.children := by
  rw [← levelsFrom_preorder 0, levelsFrom_eq, List.map_cons, levelsAll_preorder]

theorem preorderAll_cons (p : Plan V) (rest : List (Plan V)) :
    preorderAll (p :: rest) = p.preorder ++ preorderAll rest := by
  rw [← levelsAll_preorder 0, levelsAll, List.map_append, levelsFrom_preorder, levelsAll_preorder]

theorem length_levelsFrom (depth : Nat) (p : Plan V) : (p.levelsFrom depth).length = p.nodeCount := by
  rw [← length_preorder, ← levelsFrom_preorder depth, List.length_map]

theorem levels_within :
    (∀ (p : Plan V) depth, ∀ level ∈ levelsFrom depth p, level.1 < depth + p.depth) ∧
    (∀ (ps : List (Plan V)) depth, ∀ level ∈ levelsAll depth ps, level.1 < depth + depthAll ps) := by
  refine forest_induction ?node ?nil ?cons
  case node =>
    intro p below depth level member
    rw [levelsFrom_eq] at member
    rw [depth_eq]
    rcases List.mem_cons.mp member with rfl | member
    · simp only
      omega
    · have bound := below (depth + 1) level member
      omega
  case nil =>
    intro depth level member
    cases member
  case cons =>
    intro p others first remaining depth level member
    rw [depthAll]
    rcases List.mem_append.mp member with inFirst | inOthers
    · have bound := first depth level inFirst
      omega
    · have bound := remaining depth level inOthers
      omega

-- An empty list has no level at all, so its depth of zero is reached by the parent.
theorem levels_reach :
    (∀ (p : Plan V) depth, ∃ level ∈ levelsFrom depth p, level.1 + 1 = depth + p.depth) ∧
    (∀ (ps : List (Plan V)) depth, depthAll ps = 0 ∨ ∃ level ∈ levelsAll depth ps, level.1 + 1 = depth + depthAll ps) := by
  refine forest_induction ?node ?nil ?cons
  case node =>
    intro p below depth
    rw [levelsFrom_eq, depth_eq]
    rcases below (depth + 1) with none | ⟨level, member, deepest⟩
    · exact ⟨(depth, p), List.mem_cons_self, by rw [none]⟩
    · exact ⟨level, List.mem_cons_of_mem _ member, by omega⟩
  case nil =>
    intro depth
    exact .inl rfl
  case cons =>
    intro p others first remaining depth
    obtain ⟨level, member, deepest⟩ := first depth
    right
    rw [levelsAll, depthAll]
    rcases Nat.le_total (depthAll others) p.depth with less | more
    · exact ⟨level, List.mem_append_left _ member, by omega⟩
    · rcases remaining depth with none | ⟨level', member', deepest'⟩
      · exact ⟨level, List.mem_append_left _ member, by omega⟩
      · exact ⟨level', List.mem_append_right _ member', by omega⟩

mutual
def places : Plan V → List (List Nat)
  | .leaf _ => [[]]
  | .cached _ _ inner => [] :: inner.places.map (0 :: ·)
  | .constructor _ _ parameters => [] :: placesAll 0 parameters
  | .enumerable _ _ elements => [] :: placesAll 0 elements

-- The first plan of the list stands at `position` below its parent.
def placesAll (position : Nat) : List (Plan V) → List (List Nat)
  | [] => []
  | p :: rest => p.places.map (position :: ·) ++ placesAll (position + 1) rest
end

theorem places_eq (p : Plan V) : p.places = [] :: placesAll 0 p.children := by
  cases p <;> simp [places, children, placesAll]

theorem mem_placesAll {position : Nat} {ps : List (Plan V)} {place : List Nat} :
    place ∈ placesAll position ps ↔
      ∃ i p path, ps[i]? = some p ∧ path ∈ p.places ∧ place = (position + i) :: path := by
  induction ps generalizing position with
  | nil => simp [placesAll]
  | cons first others ih =>
    rw [placesAll, List.mem_append, List.mem_map, ih]
    constructor
    · rintro (⟨path, inside, rfl⟩ | ⟨i, p, path, found, inside, rfl⟩)
      · exact ⟨0, first, path, rfl, inside, rfl⟩
      · exact ⟨i + 1, p, path, found, inside, by rw [Nat.add_assoc, Nat.add_comm 1 i]⟩
    · rintro ⟨i, p, path, found, inside, rfl⟩
      cases i with
      | zero =>
        cases found
        exact .inl ⟨path, inside, rfl⟩
      | succ i => exact .inr ⟨i, p, path, found, inside, by rw [Nat.add_assoc, Nat.add_comm 1 i]⟩

theorem mem_places_exact {p : Plan V} {place : List Nat} :
    place ∈ p.places ↔ ∃ node, p.at? place = some node := by
  induction place generalizing p with
  | nil => simp [places_eq, at?]
  | cons position path ih =>
    rw [places_eq, List.mem_cons, at?]
    constructor
    · rintro (same | inside)
      · cases same
      · obtain ⟨i, child, path', found, inside, same⟩ := mem_placesAll.mp inside
        obtain ⟨rfl, rfl⟩ := List.cons.inj same
        obtain ⟨node, reached⟩ := ih.mp inside
        exact ⟨node, by rw [Nat.zero_add, found, Option.bind_some, reached]⟩
    · rintro ⟨node, reached⟩
      obtain ⟨child, found, reached⟩ := Option.bind_eq_some_iff.mp reached
      exact .inr (mem_placesAll.mpr ⟨position, child, path, found, ih.mpr ⟨node, reached⟩, by rw [Nat.zero_add]⟩)

theorem places_increasing :
    (∀ p : Plan V, p.places.Pairwise (· < ·)) ∧ ∀ (ps : List (Plan V)) position, (placesAll position ps).Pairwise (· < ·) := by
  refine forest_induction ?node ?nil ?cons
  case node =>
    intro p below
    rw [places_eq]
    refine List.pairwise_cons.mpr ⟨?_, below 0⟩
    intro place inside
    obtain ⟨_, _, _, _, _, rfl⟩ := mem_placesAll.mp inside
    exact .nil
  case nil =>
    intro position
    exact .nil
  case cons =>
    intro p others first remaining position
    refine List.pairwise_append.mpr ⟨List.pairwise_map.mpr (first.imp .cons), remaining (position + 1), ?_⟩
    intro left inFirst right inOthers
    obtain ⟨path, _, rfl⟩ := List.mem_map.mp inFirst
    obtain ⟨i, _, path', _, _, rfl⟩ := mem_placesAll.mp inOthers
    exact .rel (by omega)

def levelAt? (p : Plan V) (depth : Nat) (place : List Nat) : Option (Nat × Plan V) :=
  (p.at? place).map (depth + place.length, ·)

theorem levelAt?_child {parent p : Plan V} {before rest : List (Plan V)} (depth : Nat) (path : List Nat)
    (split : parent.children = before ++ p :: rest) :
    parent.levelAt? depth (before.length :: path) = p.levelAt? (depth + 1) path := by
  have found : parent.children[before.length]? = some p := by simp [split]
  have further : depth + (path.length + 1) = depth + 1 + path.length := by omega
  rw [levelAt?, levelAt?, at?, found, Option.bind_some, List.length_cons, further]

-- The walk over a list of children is told by the paths of the parent, which start at the number of
-- children passed before.
theorem levels_places :
    (∀ (p : Plan V) depth, levelsFrom depth p = p.places.filterMap (p.levelAt? depth)) ∧
    (∀ ps (parent : Plan V) before depth, parent.children = before ++ ps →
      levelsAll (depth + 1) ps = (placesAll before.length ps).filterMap (parent.levelAt? depth)) := by
  refine forest_induction ?node ?nil ?cons
  case node =>
    intro p below depth
    rw [levelsFrom_eq, places_eq, below p [] depth rfl]
    rfl
  case nil =>
    intro parent before depth split
    rfl
  case cons =>
    intro p others first remaining parent before depth split
    have here : levelsFrom (depth + 1) p =
        (p.places.map (before.length :: ·)).filterMap (parent.levelAt? depth) := by
      have shown : parent.levelAt? depth ∘ (before.length :: ·) = p.levelAt? (depth + 1) :=
        funext fun path => levelAt?_child depth path split
      rw [first, List.filterMap_map, shown]
    have there := remaining parent (before ++ [p]) depth (by rw [split, List.append_assoc]; rfl)
    rw [List.length_append] at there
    rw [levelsAll, placesAll, List.filterMap_append, here, there]
    rfl

theorem preorder_places (p : Plan V) : p.preorder = p.places.filterMap p.at? := by
  have node : (fun place => (p.levelAt? 0 place).map (·.2)) = p.at? := by
    funext place
    simp [levelAt?, Function.comp_def]
  rw [← levelsFrom_preorder 0, levels_places.1, List.map_filterMap, node]

theorem mem_preorder_exact {p node : Plan V} : node ∈ p.preorder ↔ ∃ place, p.at? place = some node := by
  rw [preorder_places, List.mem_filterMap]
  constructor
  · rintro ⟨place, _, reached⟩
    exact ⟨place, reached⟩
  · rintro ⟨place, reached⟩
    exact ⟨place, mem_places_exact.mpr ⟨node, reached⟩, reached⟩

def HasKind (k : Kind) (p : Plan V) : Prop :=
  ∃ place node, p.at? place = some node ∧ node.kind = k

theorem hasKind_preorder {k : Kind} {p : Plan V} : p.HasKind k ↔ ∃ node ∈ p.preorder, node.kind = k := by
  simp only [HasKind, mem_preorder_exact]
  constructor
  · rintro ⟨place, node, reached, same⟩
    exact ⟨node, ⟨place, reached⟩, same⟩
  · rintro ⟨node, ⟨place, reached⟩, same⟩
    exact ⟨place, node, reached, same⟩

end Plan

inductive Outline (α : Type) where
  | node (mark : α) (children : List (Outline α))

namespace Plan

variable {α β : Type}

mutual
def outline (mark : Plan V → α) : Plan V → Outline α
  | .leaf site => .node (mark (.leaf site)) []
  | .cached lifetime service inner => .node (mark (.cached lifetime service inner)) [inner.outline mark]
  | .constructor service implementation parameters =>
    .node (mark (.constructor service implementation parameters)) (outlineAll mark parameters)
  | .enumerable service item elements =>
    .node (mark (.enumerable service item elements)) (outlineAll mark elements)

def outlineAll (mark : Plan V → α) : List (Plan V) → List (Outline α)
  | [] => []
  | p :: rest => p.outline mark :: outlineAll mark rest
end

theorem outline_eq (mark : Plan V → α) (p : Plan V) :
    p.outline mark = .node (mark p) (outlineAll mark p.children) := by
  cases p <;> simp [outline, children, outlineAll]

-- Two plans with one outline can be walked together: equal marks at the nodes, lists of children of one length.
theorem alike_induction (mark : Plan V → α) (one : Plan V → Plan V → Prop) (all : List (Plan V) → List (Plan V) → Prop)
    (node : ∀ p q, mark p = mark q → all p.children q.children → one p q) (nil : all [] [])
    (cons : ∀ p ps q qs, p.outline mark = q.outline mark → one p q → all ps qs → all (p :: ps) (q :: qs)) :
    (∀ p q, p.outline mark = q.outline mark → one p q) ∧
    (∀ ps qs, outlineAll mark ps = outlineAll mark qs → all ps qs) := by
  refine forest_induction ?node ?nil ?cons
  case node =>
    intro p below q same
    rw [outline_eq, outline_eq] at same
    obtain ⟨marks, children⟩ := Outline.node.inj same
    exact node p q marks (below q.children children)
  case nil =>
    intro qs same
    cases qs with
    | nil => exact nil
    | cons => cases same
  case cons =>
    intro p ps first remaining qs same
    cases qs with
    | nil => cases same
    | cons q qs =>
      obtain ⟨head, tail⟩ := List.cons.inj same
      exact cons p ps q qs head (first q head) (remaining qs tail)

-- What a mark tells of a node is told by every mark that it can be computed from.
theorem outline_coarser {fine : Plan V → α} {coarse : Plan V → β}
    (determined : ∀ p q, fine p = fine q → coarse p = coarse q) {p q : Plan V}
    (same : p.outline fine = q.outline fine) : p.outline coarse = q.outline coarse := by
  refine (alike_induction fine (fun p q => p.outline coarse = q.outline coarse)
    (fun ps qs => outlineAll coarse ps = outlineAll coarse qs) ?node rfl ?cons).1 p q same
  case node =>
    intro p q marks children
    rw [outline_eq, outline_eq, determined p q marks, children]
  case cons =>
    intro p ps q qs _ head tail
    rw [outlineAll, outlineAll, head, tail]

theorem outline_preorder {mark : Plan V → α} {p q : Plan V} (same : p.outline mark = q.outline mark) :
    p.preorder.map mark = q.preorder.map mark := by
  refine (alike_induction mark (fun p q => p.preorder.map mark = q.preorder.map mark)
    (fun ps qs => (preorderAll ps).map mark = (preorderAll qs).map mark) ?node rfl ?cons).1 p q same
  case node =>
    intro p q marks below
    rw [preorder_eq, preorder_eq, List.map_cons, List.map_cons, marks, below]
  case cons =>
    intro p ps q qs _ head tail
    rw [preorderAll_cons, preorderAll_cons, List.map_append, List.map_append, head, tail]

theorem outline_nodeCount {mark : Plan V → α} {p q : Plan V} (same : p.outline mark = q.outline mark) :
    p.nodeCount = q.nodeCount := by
  have lengths := congrArg List.length (outline_preorder same)
  rwa [List.length_map, List.length_map, length_preorder, length_preorder] at lengths

theorem outline_depth {mark : Plan V → α} {p q : Plan V} (same : p.outline mark = q.outline mark) :
    p.depth = q.depth := by
  refine (alike_induction mark (fun p q => p.depth = q.depth)
    (fun ps qs => depthAll ps = depthAll qs) ?node rfl ?cons).1 p q same
  case node =>
    intro p q marks below
    rw [depth_eq, depth_eq, below]
  case cons =>
    intro p ps q qs _ head tail
    rw [depthAll, depthAll, head, tail]

end Plan

namespace Outline

variable {α : Type}

-- Reads from the right: a node takes the trees found so far that are deeper than itself, up to the first that
-- is not. The trees left over keep their level.
def gather : List (Nat × α) → List (Nat × Outline α)
  | [] => []
  | (level, mark) :: rest =>
    let found := gather rest
    (level, .node mark ((found.takeWhile (level < ·.1)).map (·.2))) :: found.dropWhile (level < ·.1)

def ofLevels? (levels : List (Nat × α)) : Option (Outline α) :=
  (gather levels).head?.map (·.2)

-- Trees found below a level do not belong to a node of that level.
def Closed (level : Nat) (found : List (Nat × Outline α)) : Prop :=
  ∀ first ∈ found.head?, first.1 ≤ level

theorem Closed.higher {level higher : Nat} {found : List (Nat × Outline α)} (closed : Closed level found)
    (above : level ≤ higher) : Closed higher found :=
  fun first member => Nat.le_trans (closed first member) above

theorem Closed.split {level : Nat} {found : List (Nat × Outline α)} (closed : Closed level found)
    (trees : List (Outline α)) :
    (trees.map (level + 1, ·) ++ found).takeWhile (level < ·.1) = trees.map (level + 1, ·) ∧
    (trees.map (level + 1, ·) ++ found).dropWhile (level < ·.1) = found := by
  have deeper : ∀ tree ∈ trees.map (level + 1, ·), decide (level < tree.1) = true := by
    intro tree member
    obtain ⟨_, _, rfl⟩ := List.mem_map.mp member
    simp
  rw [List.takeWhile_append_of_pos deeper, List.dropWhile_append_of_pos deeper]
  cases found with
  | nil => simp
  | cons first rest =>
    have shallow : ¬ level < first.1 := Nat.not_lt.mpr (closed first rfl)
    simp [shallow]

def marked (mark : Plan V → α) (levels : List (Nat × Plan V)) : List (Nat × α) :=
  levels.map fun level => (level.1, mark level.2)

theorem gather_marked (mark : Plan V → α) :
    (∀ (p : Plan V) level rest, Closed level (gather rest) →
      gather (marked mark (Plan.levelsFrom level p) ++ rest) = (level, p.outline mark) :: gather rest) ∧
    (∀ (ps : List (Plan V)) level rest, Closed level (gather rest) →
      gather (marked mark (Plan.levelsAll level ps) ++ rest) =
        (Plan.outlineAll mark ps).map (level, ·) ++ gather rest) := by
  refine Plan.forest_induction ?node ?nil ?cons
  case node =>
    intro p below level rest closed
    obtain ⟨taken, left⟩ := closed.split (Plan.outlineAll mark p.children)
    have children := below (level + 1) rest (closed.higher (Nat.le_succ level))
    rw [Plan.levelsFrom_eq, Plan.outline_eq, marked, List.map_cons, List.cons_append, gather, ← marked, children,
      taken, left]
    simp [Function.comp_def]
  case nil =>
    intro level rest closed
    rfl
  case cons =>
    intro p others first remaining level rest closed
    have after := remaining level rest closed
    have bounded : Closed level (gather (marked mark (Plan.levelsAll level others) ++ rest)) := by
      rw [after]
      cases others with
      | nil => exact closed
      | cons next _ =>
        intro tree member
        cases member
        exact Nat.le_refl level
    rw [Plan.levelsAll, marked, List.map_append, List.append_assoc, ← marked, ← marked,
      first level _ bounded, after]
    rfl

theorem ofLevels?_levels (mark : Plan V → α) (p : Plan V) : ofLevels? (marked mark p.levels) = some (p.outline mark) := by
  have whole := (gather_marked mark).1 p 0 [] (by intro first member; cases member)
  rw [List.append_nil] at whole
  rw [ofLevels?, Plan.levels, whole]
  rfl

theorem marked_outline {mark : Plan V → α} {p q : Plan V} (same : p.outline mark = q.outline mark) :
    marked mark p.levels = marked mark q.levels := by
  refine (Plan.alike_induction mark
    (fun p q => ∀ level, marked mark (Plan.levelsFrom level p) = marked mark (Plan.levelsFrom level q))
    (fun ps qs => ∀ level, marked mark (Plan.levelsAll level ps) = marked mark (Plan.levelsAll level qs))
    ?node (fun _ => rfl) ?cons).1 p q same 0
  case node =>
    intro p q marks below level
    have children := below (level + 1)
    rw [marked, marked] at children
    rw [Plan.levelsFrom_eq, Plan.levelsFrom_eq, marked, marked, List.map_cons, List.map_cons, marks, children]
  case cons =>
    intro p ps q qs _ head tail level
    have first := head level
    have others := tail level
    rw [marked, marked] at first others
    rw [Plan.levelsAll, Plan.levelsAll, marked, marked, List.map_append, List.map_append, first, others]

-- A sequence of marks with their levels stands for one outline only.
theorem marked_exact (mark : Plan V → α) (p q : Plan V) :
    marked mark p.levels = marked mark q.levels ↔ p.outline mark = q.outline mark := by
  refine ⟨fun same => ?_, marked_outline⟩
  have read := ofLevels?_levels mark p
  rw [same, ofLevels?_levels mark q] at read
  exact (Option.some.inj read).symm

end Outline

end ResolutionPlan
