import ResolutionPlan.Proofs.Analysis.Composition

namespace ResolutionPlan

open Plan

variable {V : Type}

namespace Graph

-- The relations of the edges that leave a node, in the order of the edges.
def outgoing (edges : List Edge) (id : Nat) : List Relation :=
  (edges.filter (·.source == id)).map (·.relation)

theorem outgoing_append (before after : List Edge) (id : Nat) :
    outgoing (before ++ after) id = outgoing before id ++ outgoing after id := by
  simp [outgoing]

theorem outgoing_own (e : Edge) (rest : List Edge) :
    outgoing (e :: rest) e.source = e.relation :: outgoing rest e.source := by
  simp [outgoing]

theorem outgoing_other {e : Edge} {id : Nat} (differ : e.source ≠ id) (rest : List Edge) :
    outgoing (e :: rest) id = outgoing rest id := by
  simp [outgoing, differ]

theorem outgoing_none {edges : List Edge} {id : Nat} (apart : ∀ e ∈ edges, e.source ≠ id) :
    outgoing edges id = [] := by
  have left : edges.filter (·.source == id) = [] := by simpa [List.filter_eq_nil_iff] using apart
  rw [outgoing, left, List.map_nil]

end Graph

namespace Plan

open ResolutionPlan.Graph (outgoing)

theorem edges_sources :
    (∀ (p : Plan V) id, ∀ e ∈ edgesFrom id p, id ≤ e.source ∧ e.source < id + p.nodeCount) ∧
    (∀ (ps : List (Plan V)) parent relation position next, ∀ e ∈ edgesAll parent relation position next ps,
      e.source = parent ∨ (next ≤ e.source ∧ e.source < next + nodeCountAll ps)) := by
  refine forest_induction ?node ?nil ?cons
  case node =>
    intro p below id e member
    rw [edgesFrom_eq] at member
    have count := p.nodeCount_eq
    rcases below id p.kind.relation 0 (id + 1) e member with own | inside
    · omega
    · omega
  case nil =>
    intro parent relation position next e member
    cases member
  case cons =>
    intro p others first remaining parent relation position next e member
    rw [edgesAll] at member
    rw [nodeCountAll]
    rcases List.mem_cons.mp member with rfl | member
    · exact .inl rfl
    · rcases List.mem_append.mp member with inFirst | inOthers
      · have range := first next e inFirst
        omega
      · rcases remaining parent relation (position + 1) (next + p.nodeCount) e inOthers with own | inside
        · exact .inl own
        · omega

theorem edgesFrom_within {p : Plan V} {id : Nat} {e : Edge} (member : e ∈ p.edgesFrom id) :
    id < e.target ∧ e.target < id + p.nodeCount := by
  have listed := List.mem_map_of_mem (f := (·.target)) member
  rw [edge_targets.1] at listed
  have range := List.mem_range'_1.mp listed
  have count := p.nodeCount_eq
  omega

theorem edgesAll_within {ps : List (Plan V)} {parent position next : Nat} {relation : Nat → Relation} {e : Edge}
    (member : e ∈ edgesAll parent relation position next ps) :
    next ≤ e.target ∧ e.target < next + nodeCountAll ps := by
  have listed := List.mem_map_of_mem (f := (·.target)) member
  rw [edge_targets.2] at listed
  exact List.mem_range'_1.mp listed

theorem outgoing_outside (p : Plan V) {first id : Nat} (outside : id < first ∨ first + p.nodeCount ≤ id) :
    outgoing (edgesFrom first p) id = [] := by
  apply Graph.outgoing_none
  intro e member
  have range := edges_sources.1 p first e member
  omega

theorem outgoing_before (ps : List (Plan V)) {parent next id : Nat} (relation : Nat → Relation) (position : Nat)
    (notParent : id ≠ parent) (before : id < next) :
    outgoing (edgesAll parent relation position next ps) id = [] := by
  apply Graph.outgoing_none
  intro e member
  rcases edges_sources.2 ps parent relation position next e member with atParent | range
  · omega
  · omega

-- The edges of one child are not those of its parent, nor of the children beside it.
section children

variable (p : Plan V) (others : List (Plan V)) {parent next : Nat} (relation : Nat → Relation) (position : Nat)

theorem outgoing_parent (before : parent < next) :
    outgoing (edgesAll parent relation position next (p :: others)) parent =
      relation position :: outgoing (edgesAll parent relation (position + 1) (next + p.nodeCount) others) parent := by
  have apart := outgoing_outside p (.inl before)
  have head := Graph.outgoing_own ⟨parent, next, relation position⟩
    (edgesFrom next p ++ edgesAll parent relation (position + 1) (next + p.nodeCount) others)
  rw [edgesAll, head, Graph.outgoing_append, apart, List.nil_append]

theorem outgoing_within (before : parent < next) {i : Nat} (within : i < p.nodeCount) :
    outgoing (edgesAll parent relation position next (p :: others)) (next + i) =
      outgoing (edgesFrom next p) (next + i) := by
  have notParent : next + i ≠ parent := by omega
  have inside : next + i < next + p.nodeCount := by omega
  have apart := outgoing_before others relation (position + 1) notParent inside
  rw [edgesAll, Graph.outgoing_other notParent.symm, Graph.outgoing_append, apart, List.append_nil]

theorem outgoing_beyond (before : parent < next) {i : Nat} (beyond : p.nodeCount ≤ i) :
    outgoing (edgesAll parent relation position next (p :: others)) (next + i) =
      outgoing (edgesAll parent relation (position + 1) (next + p.nodeCount) others)
        (next + p.nodeCount + (i - p.nodeCount)) := by
  have notParent : parent ≠ next + i := by omega
  have outside : next + p.nodeCount ≤ next + i := by omega
  have place : next + i = next + p.nodeCount + (i - p.nodeCount) := by omega
  rw [edgesAll, Graph.outgoing_other notParent, Graph.outgoing_append, outgoing_outside p (.inr outside),
    List.nil_append, ← place]

end children

theorem outgoing_children :
    (∀ (p : Plan V) id i node, p.preorder[i]? = some node →
      outgoing (edgesFrom id p) (id + i) = (List.range node.children.length).map node.kind.relation) ∧
    (∀ (ps : List (Plan V)) parent relation position next, parent < next →
      outgoing (edgesAll parent relation position next ps) parent =
        (List.range' position ps.length).map relation ∧
      ∀ i node, (preorderAll ps)[i]? = some node →
        outgoing (edgesAll parent relation position next ps) (next + i) =
          (List.range node.children.length).map node.kind.relation) := by
  refine forest_induction ?node ?nil ?cons
  case node =>
    intro p below id i node found
    obtain ⟨own, deeper⟩ := below id p.kind.relation 0 (id + 1) (Nat.lt_succ_self id)
    rw [preorder_eq] at found
    rw [edgesFrom_eq]
    cases i with
    | zero =>
      cases found
      rw [List.range_eq_range']
      exact own
    | succ i =>
      rw [List.getElem?_cons_succ] at found
      rw [← deeper i node found, Nat.add_assoc, Nat.add_comm 1 i]
  case nil =>
    intro parent relation position next before
    refine ⟨rfl, ?_⟩
    intro i node found
    cases found
  case cons =>
    intro p others first remaining parent relation position next before
    obtain ⟨own, deeper⟩ := remaining parent relation (position + 1) (next + p.nodeCount) (by omega)
    refine ⟨?_, ?_⟩
    · rw [outgoing_parent p others relation position before, own, List.length_cons, List.range'_succ, List.map_cons]
    · intro i node found
      rw [preorderAll_cons] at found
      by_cases within : i < p.nodeCount
      · rw [List.getElem?_append_left (by rwa [length_preorder])] at found
        rw [outgoing_within p others relation position before within, first next i node found]
      · have beyond : p.nodeCount ≤ i := Nat.le_of_not_lt within
        rw [List.getElem?_append_right (by rwa [length_preorder]), length_preorder] at found
        rw [outgoing_beyond p others relation position before beyond, deeper (i - p.nodeCount) node found]

-- How the children of a node hang off it, by the node's kind. A wrapper has one child.
theorem relations_kind (p : Plan V) :
    let relations := (List.range p.children.length).map p.kind.relation
    (p.kind ∈ [.transient, .singleton, .scoped] → relations = [.wraps]) ∧
    (p.kind = .constructor → relations = (List.range p.children.length).map .parameter) ∧
    (p.kind = .enumerable → relations = (List.range p.children.length).map .element) ∧
    (p.kind.isLeaf = true → relations = []) := by
  cases p with
  | leaf site => cases site <;> simp [kind, Leaf.kind, children]
  | cached lifetime _ _ => cases lifetime <;> simp [kind, Kind.ofLifetime, Kind.relation, Kind.isLeaf, children]
  | constructor => simp [kind, Kind.relation, Kind.isLeaf, children]
  | enumerable => simp [kind, Kind.relation, Kind.isLeaf, children]

theorem graph_incoming (costs : CostTable) (exportedAt : String) (p : Plan V) {i : Nat} (within : i < p.nodeCount) :
    (p.graph costs exportedAt).edges.countP (·.target == i) = if i = 0 then 0 else 1 := by
  have rooted := p.graph_rooted costs exportedAt
  have edges : (p.graph costs exportedAt).edges.length = p.nodeCount - 1 := by rw [graph_eq, length_edgesFrom]
  have counted : (p.graph costs exportedAt).edges.countP (·.target == i) =
      ((p.graph costs exportedAt).edges.map (·.target)).count i := by
    rw [List.count, List.countP_map]
    rfl
  rw [counted, rooted.targets, edges]
  by_cases root : i = 0
  · rw [if_pos root]
    apply List.count_eq_zero_of_not_mem
    rw [List.mem_range'_1]
    omega
  · rw [if_neg root]
    apply List.count_eq_one_of_mem List.nodup_range'
    rw [List.mem_range'_1]
    omega

theorem graph_outgoing (costs : CostTable) (exportedAt : String) {p node : Plan V} {i : Nat}
    (found : p.preorder[i]? = some node) : outgoing (p.graph costs exportedAt).edges i =
      (List.range node.children.length).map node.kind.relation := by
  rw [graph_eq]
  have told := outgoing_children.1 p 0 i node found
  rwa [Nat.zero_add] at told

-- Numbers are places in pre-order. Every node but the root hangs off one node before it, everything hangs off the
-- root in the end, and the edges of each node count its children in order.
theorem graph_tree (costs : CostTable) (exportedAt : String) (p : Plan V) :
    let g := p.graph costs exportedAt
    g.nodes.map (·.id) = List.range g.nodes.length ∧
    (∀ i < g.nodes.length, g.edges.countP (·.target == i) = if i = 0 then 0 else 1) ∧
    (∀ e ∈ g.edges, e.source < e.target ∧ e.target < g.nodes.length) ∧
    (g.edges.map (·.target)).Pairwise (· < ·) ∧
    (∀ i < g.nodes.length, ∃ path, Graph.Path g.edges 0 i path) ∧
    ∀ i < g.nodes.length, ∃ n node, g.nodes[i]? = some n ∧ p.preorder[i]? = some node ∧ n.kind = node.kind ∧
      (n.kind ∈ [.transient, .singleton, .scoped] → outgoing g.edges i = [.wraps]) ∧
      (n.kind = .constructor → outgoing g.edges i = (List.range node.children.length).map .parameter) ∧
      (n.kind = .enumerable → outgoing g.edges i = (List.range node.children.length).map .element) ∧
      (n.kind.isLeaf = true → outgoing g.edges i = []) := by
  intro g
  have rooted : Graph.Rooted g.edges := p.graph_rooted costs exportedAt
  have nodes : g.nodes = numbered costs 0 p.preorder := p.graph_nodes costs exportedAt
  have count : g.nodes.length = p.nodeCount := by rw [nodes, length_numbered, length_preorder]
  have edges : g.edges.length = p.nodeCount - 1 := by simp only [g, graph_eq, length_edgesFrom]
  have level (i : Nat) (within : i < g.nodes.length) : ∃ depth node, p.levels[i]? = some (depth, node) := by
    rw [count, ← p.length_levelsFrom 0] at within
    exact ⟨_, _, List.getElem?_eq_getElem within⟩
  refine ⟨?_, ?_, ?_, ?_, ?_, ?_⟩
  · rw [nodes, numbered_ids, length_numbered, List.range_eq_range']
  · intro i within
    exact p.graph_incoming costs exportedAt (count ▸ within)
  · intro e member
    have range := rooted.target_range member
    exact ⟨rooted.forward e member, by omega⟩
  · rw [rooted.targets]
    exact List.pairwise_lt_range'
  · intro i within
    obtain ⟨depth, node, found⟩ := level i within
    obtain ⟨path, along, _⟩ := (p.graph_path_exact costs exportedAt i depth).mpr ⟨node, found⟩
    exact ⟨path, along⟩
  · intro i within
    obtain ⟨depth, node, found⟩ := level i within
    have here : p.preorder[i]? = some node := by rw [getElem?_preorder, found, Option.map_some]
    refine ⟨node.rootNode costs (0 + i), node, ?_, here, rfl, ?_⟩
    · rw [nodes, getElem?_numbered, here, Option.map_some]
    · rw [p.graph_outgoing costs exportedAt here]
      exact node.relations_kind

-- The edges of the root stand apart: those below the first parameter come between them.
theorem graph_tree_apart :
    let service := Key.ofInterface "a::A"
    let p : Plan Value := .constructor service "A"
      [.cached .scoped service (.leaf (.serviceProvider service)), .enumerable service service []]
    let g := p.graph .stock ""
    0 < g.nodes.length ∧ outgoing g.edges 0 = [.parameter 0, .parameter 1] ∧
      g.edges.map (·.source) = [0, 1, 0] := by
  intro service p g
  have within : 0 < g.nodes.length := by decide
  obtain ⟨n, node, listed, here, _, _, parameters, _⟩ := (graph_tree .stock "" p).2.2.2.2.2 0 within
  cases here
  cases listed
  exact ⟨within, parameters rfl, rfl⟩

theorem preorderAll_append (ps qs : List (Plan V)) : preorderAll (ps ++ qs) = preorderAll ps ++ preorderAll qs := by
  induction ps with
  | nil => rfl
  | cons p rest ih => rw [List.cons_append, preorderAll_cons, preorderAll_cons, ih, List.append_assoc]

theorem length_preorderAll (ps : List (Plan V)) : (preorderAll ps).length = nodeCountAll ps :=
  length_preorderAllOnto [] ps

theorem nodeCountAll_append (ps qs : List (Plan V)) : nodeCountAll (ps ++ qs) = nodeCountAll ps + nodeCountAll qs := by
  rw [← length_preorderAll, preorderAll_append, List.length_append, length_preorderAll, length_preorderAll]

theorem edgesAll_append (parent : Nat) (relation : Nat → Relation) (position next : Nat) (ps qs : List (Plan V)) :
    edgesAll parent relation position next (ps ++ qs) = edgesAll parent relation position next ps ++
      edgesAll parent relation (position + ps.length) (next + nodeCountAll ps) qs := by
  induction ps generalizing position next with
  | nil => rfl
  | cons p rest ih =>
    rw [List.cons_append, edgesAll, edgesAll, ih, List.length_cons, nodeCountAll, List.cons_append, List.append_assoc,
      Nat.add_assoc next, Nat.add_assoc position, Nat.add_comm 1]

theorem placesAll_append (position : Nat) (ps qs : List (Plan V)) :
    placesAll position (ps ++ qs) = placesAll position ps ++ placesAll (position + ps.length) qs := by
  induction ps generalizing position with
  | nil => rfl
  | cons p rest ih =>
    rw [List.cons_append, placesAll, placesAll, ih, List.length_cons, List.append_assoc, Nat.add_assoc position,
      Nat.add_comm 1]

theorem length_places :
    (∀ p : Plan V, p.places.length = p.nodeCount) ∧ ∀ (ps : List (Plan V)) position, (placesAll position ps).length = nodeCountAll ps := by
  refine forest_induction ?node ?nil ?cons
  case node =>
    intro p below
    rw [places_eq, List.length_cons, below, nodeCount_eq, Nat.add_comm]
  case nil =>
    intro position
    rfl
  case cons =>
    intro p others first remaining position
    rw [placesAll, List.length_append, List.length_map, first, remaining, nodeCountAll]

end Plan

-- How many nodes a walk passes in a frame before it comes to the hole: the frame's own, and those below the children
-- that stand before the hole.
def Frame.passed (f : Frame V) : Nat :=
  1 + nodeCountAll f.before

namespace Surroundings

def passed (around : Surroundings V) : Nat :=
  (around.map Frame.passed).sum

theorem passed_cons (f : Frame V) (inner : Surroundings V) : passed (f :: inner) = 1 + nodeCountAll f.before + passed inner := by
  rw [passed, List.map_cons, List.sum_cons]
  rfl

theorem fill_cons (f : Frame V) (inner : Surroundings V) (p : Plan V) : fill (f :: inner) p = f.fill (inner.fill p) := rfl

theorem passed_nodeCount (around : Surroundings V) (p : Plan V) :
    around.passed + p.nodeCount ≤ (around.fill p).nodeCount := by
  induction around with
  | nil => exact Nat.le_of_eq (Nat.zero_add _)
  | cons f inner ih =>
    rw [passed_cons, fill_cons, nodeCount_eq (f.fill _), f.fill_children, nodeCountAll_append, nodeCountAll]
    omega

theorem place_listed (around : Surroundings V) (p : Plan V) :
    (around.fill p).places[around.passed]? = some around.place := by
  induction around with
  | nil =>
    rw [fill, List.foldr_nil, places_eq]
    rfl
  | cons f inner ih =>
    have skipped : (placesAll 0 f.before).length = nodeCountAll f.before := length_places.2 f.before 0
    have within := (List.getElem?_eq_some_iff.mp ih).1
    have behind : passed (f :: inner) = nodeCountAll f.before + passed inner + 1 := by rw [passed_cons]; omega
    rw [fill_cons, places_eq, f.fill_children, placesAll_append, placesAll, behind, List.getElem?_cons_succ,
      List.getElem?_append_right (by omega), skipped, Nat.add_sub_cancel_left,
      List.getElem?_append_left (by rwa [List.length_map]), List.getElem?_map, ih, Nat.zero_add]
    rfl

theorem place_index (around : Surroundings V) (p : Plan V) : (around.fill p).places.idxOf around.place = around.passed := by
  have distinct : (around.fill p).places.Nodup := by
    apply (places_increasing.1 (around.fill p)).imp
    rintro left _ less rfl
    exact List.lt_irrefl left less
  obtain ⟨within, listed⟩ := List.getElem?_eq_some_iff.mp (around.place_listed p)
  rw [← listed]
  exact distinct.idxOf_getElem _ within

theorem fill_preorder (around : Surroundings V) (p : Plan V) :
    ∃ front back, (around.fill p).preorder = front ++ (p.preorder ++ back) ∧ front.length = around.passed := by
  induction around with
  | nil => exact ⟨[], [], (List.append_nil _).symm, rfl⟩
  | cons f inner ih =>
    obtain ⟨front, back, split, length⟩ := ih
    refine ⟨f.fill (fill inner p) :: (preorderAll f.before ++ front), back ++ preorderAll f.after, ?_, ?_⟩
    · rw [fill_cons, preorder_eq, f.fill_children, preorderAll_append, preorderAll_cons, split]
      simp only [List.cons_append, List.append_assoc]
    · rw [List.length_cons, List.length_append, length_preorderAll, length, passed_cons]
      omega

-- The edges before and behind the subplan's own keep out of its interval, but for the edge to its root.
theorem fill_edges (around : Surroundings V) (p : Plan V) (id : Nat) :
    ∃ front back, (around.fill p).edgesFrom id = front ++ (p.edgesFrom (id + around.passed) ++ back) ∧
      (∀ e ∈ front, e.target ≤ id + around.passed) ∧
      ∀ e ∈ back, id + around.passed + p.nodeCount ≤ e.target ∧
        (e.source < id + around.passed ∨ id + around.passed + p.nodeCount ≤ e.source) := by
  induction around generalizing id with
  | nil => exact ⟨[], [], (List.append_nil _).symm, List.forall_mem_nil _, List.forall_mem_nil _⟩
  | cons f inner ih =>
    let relation := f.kind.relation
    let next := id + 1 + nodeCountAll f.before
    obtain ⟨front, back, split, earlier, later⟩ := ih next
    have start : next + passed inner = id + passed (f :: inner) := by rw [passed_cons]; omega
    have size := passed_nodeCount inner p
    rw [start] at split earlier later
    refine ⟨edgesAll id relation 0 (id + 1) f.before ++ ⟨id, next, relation f.before.length⟩ :: front,
      back ++ edgesAll id relation (f.before.length + 1) (next + (fill inner p).nodeCount) f.after, ?_, ?_, ?_⟩
    · rw [fill_cons, edgesFrom_eq, f.fill_kind, f.fill_children, edgesAll_append, edgesAll, Nat.zero_add, split]
      simp only [List.cons_append, List.append_assoc]
      rfl
    · intro e member
      rcases List.mem_append.mp member with before | after
      · have range := edgesAll_within before
        omega
      · rcases List.mem_cons.mp after with rfl | inside
        · simp only
          omega
        · exact earlier e inside
    · intro e member
      rcases List.mem_append.mp member with inside | after
      · exact later e inside
      · have range := edgesAll_within after
        rcases edges_sources.2 _ _ _ _ _ e after with own | beyond
        · omega
        · omega

end Surroundings

namespace Plan

theorem slice_nodes (costs : CostTable) (exportedAt exportedAt' : String) (around : Surroundings V) (s : Plan V) :
    (((around.fill s).graph costs exportedAt).nodes.drop around.passed).take s.nodeCount =
      (s.graph costs exportedAt').nodes.map (Node.shift around.passed) := by
  obtain ⟨front, back, split, length⟩ := around.fill_preorder s
  have before : (numbered costs 0 front).length = around.passed := by rw [length_numbered, length]
  have own : (numbered costs (0 + around.passed) s.preorder).length = s.nodeCount := by
    rw [length_numbered, length_preorder]
  rw [graph_nodes, graph_nodes, split, numbered_append, numbered_append, List.drop_left' before, length,
    List.take_left' own, numbered_shift]

theorem filter_between {α : Type} {inside : α → Bool} {front middle back : List α}
    (before : ∀ a ∈ front, inside a = false) (within : ∀ a ∈ middle, inside a = true)
    (behind : ∀ a ∈ back, inside a = false) : (front ++ (middle ++ back)).filter inside = middle := by
  have none : front.filter inside = [] := List.filter_eq_nil_iff.mpr (by simpa using before)
  have none' : back.filter inside = [] := List.filter_eq_nil_iff.mpr (by simpa using behind)
  rw [List.filter_append, List.filter_append, none, none', List.filter_eq_self.mpr within, List.nil_append,
    List.append_nil]

theorem slice_edges (around : Surroundings V) (s : Plan V) :
    ((around.fill s).edgesFrom 0).filter (fun e => around.passed < e.target && e.target < around.passed + s.nodeCount) =
        (s.edgesFrom 0).map (Edge.shift around.passed) ∧
      ∀ e ∈ (around.fill s).edgesFrom 0, around.passed ≤ e.source → e.source < around.passed + s.nodeCount →
        around.passed < e.target ∧ e.target < around.passed + s.nodeCount := by
  obtain ⟨front, back, split, earlier, later⟩ := around.fill_edges s 0
  rw [Nat.zero_add] at split earlier later
  have forward := edges_forward.1 (around.fill s) 0
  have shifted := (edges_shift around.passed).1 s 0
  rw [Nat.zero_add] at shifted
  rw [split] at forward ⊢
  constructor
  · rw [← shifted]
    apply filter_between
    · intro e member
      have bound := earlier e member
      simp only [Bool.and_eq_false_iff, decide_eq_false_iff_not]
      omega
    · intro e member
      simpa only [Bool.and_eq_true, decide_eq_true_eq] using edgesFrom_within member
    · intro e member
      have bound := (later e member).1
      simp only [Bool.and_eq_false_iff, decide_eq_false_iff_not]
      omega
  · intro e member start stop
    rcases List.mem_append.mp member with before | inside
    · have ahead := forward e member
      have bound := earlier e before
      omega
    · rcases List.mem_append.mp inside with own | after
      · exact edgesFrom_within own
      · have apart := (later e after).2
        omega

theorem map_kind_nodes (costs : CostTable) (exportedAt : String) (p : Plan V) :
    (p.graph costs exportedAt).nodes.map (·.kind) = p.preorder.map kind := by
  rw [graph_nodes]
  exact map_numbered (fun _ _ => rfl) 0 p.preorder

-- The numbers of a subplan are an interval that begins at its place in pre-order. What the graph of the whole says of this
-- interval is the subplan's own graph, and enough for its analysis.
theorem subplan_slice (costs : CostTable) (exportedAt exportedAt' : String) {p s : Plan V} {path : List Nat}
    (found : p.at? path = some s) :
    let i := p.places.idxOf path
    let k := s.nodeCount
    let g := p.graph costs exportedAt
    let own := s.graph costs exportedAt'
    let slice := (g.nodes.drop i).take k
    (p.places[i]? = some path ∧ own.nodes.length = k) ∧
    slice = own.nodes.map (Node.shift i) ∧
    g.edges.filter (fun e => i < e.target && e.target < i + k) = own.edges.map (Edge.shift i) ∧
    (∀ e ∈ g.edges, i ≤ e.source → e.source < i + k → i < e.target ∧ e.target < i + k) ∧
    (s.analyze costs).estimatedSize.toNat = min (2 ^ 64 - 1) (slice.map (·.baseCost.toNat)).sum ∧
    ((s.analyze costs).requiresScopeLock = true ↔ ∃ n ∈ slice, n.kind = .scoped) := by
  intro i k g own slice
  obtain ⟨around, rfl, rfl⟩ := Surroundings.at?_exact.mp found
  have index : i = around.passed := around.place_index s
  have nodes : slice = own.nodes.map (Node.shift i) := by
    simp only [slice, g, own, k, index]
    exact slice_nodes costs exportedAt exportedAt' around s
  have edges : g.edges = (around.fill s).edgesFrom 0 := by simp only [g, graph_eq]
  have ownEdges : own.edges = s.edgesFrom 0 := by simp only [own, graph_eq]
  obtain ⟨inside, only⟩ := slice_edges around s
  refine ⟨⟨?_, ?_⟩, nodes, ?_, ?_, ?_, ?_⟩
  · rw [index]
    exact around.place_listed s
  · rw [s.graph_nodes, length_numbered, length_preorder]
  · rw [edges, ownEdges, index]
    exact inside
  · rw [edges, index]
    exact only
  · rw [nodes, List.map_map]
    exact s.graph_estimatedSize costs exportedAt'
  · have kinds : slice.map (·.kind) = s.preorder.map kind := by
      rw [nodes, List.map_map]
      exact s.map_kind_nodes costs exportedAt'
    rw [requiresScopeLock_preorder, ← List.mem_map, ← List.mem_map (f := fun n : Node => n.kind), kinds]

-- The subplan stands below a wrapper, between two siblings.
theorem subplan_slice_between :
    let key : Key := .ofInterface "a::A"
    let leaf : Plan Value := .leaf (.serviceProvider key)
    let s : Plan Value := .enumerable key key [.cached .scoped key leaf, leaf]
    let p : Plan Value := .constructor key "A" [.cached .singleton key leaf, .cached .transient key s, leaf]
    let g := p.graph .stock ""
    p.at? [1, 0] = some s ∧ p.places.idxOf [1, 0] = 4 ∧
      (g.nodes.drop 4).take 4 = (s.graph .stock "").nodes.map (Node.shift 4) ∧
      (s.graph .stock "").edges.map (Edge.shift 4) = [⟨4, 5, .element 0⟩, ⟨5, 6, .wraps⟩, ⟨4, 7, .element 1⟩] ∧
      g.edges.filter (fun e => 4 < e.target && e.target < 4 + 4) = (s.graph .stock "").edges.map (Edge.shift 4) ∧
      (s.analyze .stock).estimatedSize.toNat = 72 := by
  intro key leaf s p g
  have found : p.at? [1, 0] = some s := rfl
  obtain ⟨_, nodes, edges, _, size, _⟩ := subplan_slice .stock "" "" found
  exact ⟨found, by decide, nodes, by decide, edges, size⟩

end Plan

end ResolutionPlan
