import Mathlib.Algebra.Ring.Nat
import ResolutionPlan.Graph.Builder
import ResolutionPlan.Proofs.Plan.Tree

namespace ResolutionPlan

variable {V : Type}

-- How the children of a node hang off it. Nodes without children have no use for a relation.
def Kind.relation : Kind → Nat → Relation
  | .constructor => .parameter
  | .enumerable => .element
  | _ => fun _ => .wraps

def Node.shift (offset : Nat) (n : Node) : Node :=
  { n with id := n.id + offset }

def Edge.shift (offset : Nat) (e : Edge) : Edge :=
  { e with source := e.source + offset, target := e.target + offset }

namespace Plan

def rootNode (costs : CostTable) (id : Nat) (p : Plan V) : Node :=
  { id, kind := p.kind, service := p.service.displayName, label := p.service.label,
    lifetime := p.kind.lifetime?, baseCost := costs.baseCost p.kind, implementation := p.implementation? }

def numbered (costs : CostTable) (first : Nat) (nodes : List (Plan V)) : List Node :=
  nodes.mapIdx fun i node => node.rootNode costs (first + i)

def nodesFrom (costs : CostTable) (first : Nat) (p : Plan V) : List Node :=
  numbered costs first p.preorder

mutual
def edgesFrom (id : Nat) : Plan V → List Edge
  | .leaf _ => []
  | .cached _ _ inner => ⟨id, id + 1, .wraps⟩ :: inner.edgesFrom (id + 1)
  | .constructor _ _ parameters => edgesAll id .parameter 0 (id + 1) parameters
  | .enumerable _ _ elements => edgesAll id .element 0 (id + 1) elements

-- The first plan of the list stands at `position` below its parent and has the number `next`.
def edgesAll (parent : Nat) (relation : Nat → Relation) (position next : Nat) : List (Plan V) → List Edge
  | [] => []
  | p :: rest =>
    ⟨parent, next, relation position⟩ ::
      (p.edgesFrom next ++ edgesAll parent relation (position + 1) (next + p.nodeCount) rest)
end

theorem edgesFrom_eq (id : Nat) (p : Plan V) :
    p.edgesFrom id = edgesAll id p.kind.relation 0 (id + 1) p.children := by
  cases p with
  | leaf => rfl
  | cached lifetime => cases lifetime <;> simp [edgesFrom, edgesAll, children, kind, Kind.ofLifetime, Kind.relation]
  | constructor => rfl
  | enumerable => rfl

theorem numbered_cons (costs : CostTable) (first : Nat) (node : Plan V) (rest : List (Plan V)) :
    numbered costs first (node :: rest) = node.rootNode costs first :: numbered costs (first + 1) rest := by
  rw [numbered, List.mapIdx_cons, Nat.add_zero, numbered]
  simp only [Nat.add_assoc, Nat.add_comm 1]

theorem numbered_append (costs : CostTable) (first : Nat) (left right : List (Plan V)) :
    numbered costs first (left ++ right) = numbered costs first left ++ numbered costs (first + left.length) right := by
  rw [numbered, List.mapIdx_append, numbered, numbered]
  simp only [Nat.add_assoc, Nat.add_comm left.length]

theorem length_numbered (costs : CostTable) (first : Nat) (nodes : List (Plan V)) :
    (numbered costs first nodes).length = nodes.length :=
  List.length_mapIdx

theorem getElem?_numbered (costs : CostTable) (first : Nat) (nodes : List (Plan V)) (i : Nat) :
    (numbered costs first nodes)[i]? = (nodes[i]?).map (rootNode costs (first + i)) :=
  List.getElem?_mapIdx

theorem map_numbered {α : Type} {costs : CostTable} {read : Node → α} {tell : Plan V → α}
    (same : ∀ id node, read (rootNode costs id node) = tell node) (first : Nat) (nodes : List (Plan V)) :
    (numbered costs first nodes).map read = nodes.map tell := by
  induction nodes generalizing first with
  | nil => rfl
  | cons node rest ih => rw [numbered_cons, List.map_cons, List.map_cons, same, ih]

theorem numbered_ids (costs : CostTable) (first : Nat) (nodes : List (Plan V)) :
    (numbered costs first nodes).map (·.id) = List.range' first nodes.length := by
  induction nodes generalizing first with
  | nil => rfl
  | cons node rest ih =>
    rw [numbered_cons, List.map_cons, ih, List.length_cons, List.range'_succ]
    rfl

theorem length_nodesFrom (costs : CostTable) (first : Nat) (p : Plan V) :
    (p.nodesFrom costs first).length = p.nodeCount := by
  rw [nodesFrom, length_numbered, length_preorder]

theorem numbered_shift (costs : CostTable) (first offset : Nat) (nodes : List (Plan V)) :
    numbered costs (first + offset) nodes = (numbered costs first nodes).map (Node.shift offset) := by
  induction nodes generalizing first with
  | nil => rfl
  | cons node rest ih =>
    rw [numbered_cons, numbered_cons, Nat.add_right_comm, ih]
    rfl

theorem edges_shift (offset : Nat) :
    (∀ (p : Plan V) id, edgesFrom (id + offset) p = (edgesFrom id p).map (Edge.shift offset)) ∧
    (∀ (ps : List (Plan V)) parent relation position next, edgesAll (parent + offset) relation position (next + offset) ps =
      (edgesAll parent relation position next ps).map (Edge.shift offset)) := by
  refine forest_induction ?node ?nil ?cons
  case node =>
    intro p below id
    rw [edgesFrom_eq, edgesFrom_eq, Nat.add_right_comm, below]
  case nil =>
    intro parent relation position next
    rfl
  case cons =>
    intro p others first remaining parent relation position next
    rw [edgesAll, edgesAll, first, Nat.add_right_comm, remaining, List.map_cons, List.map_append]
    rfl

-- Every node but the root is the target of one edge, and the edges come in the order of their targets.
theorem edge_targets :
    (∀ (p : Plan V) id, (edgesFrom id p).map (·.target) = List.range' (id + 1) (p.nodeCount - 1)) ∧
    (∀ (ps : List (Plan V)) parent relation position next,
      (edgesAll parent relation position next ps).map (·.target) = List.range' next (nodeCountAll ps)) := by
  refine forest_induction ?node ?nil ?cons
  case node =>
    intro p below id
    rw [edgesFrom_eq, below, nodeCount_eq, Nat.add_sub_cancel_left]
  case nil =>
    intro parent relation position next
    rfl
  case cons =>
    intro p others first remaining parent relation position next
    have count := nodeCount_eq p
    have whole : next :: List.range' (next + 1) (p.nodeCount - 1) = List.range' next p.nodeCount := by
      rw [← List.range'_succ]
      congr
      omega
    rw [edgesAll, List.map_cons, List.map_append, first, remaining, ← List.cons_append, whole, nodeCountAll,
      List.range'_append_1]

theorem length_edgesFrom (id : Nat) (p : Plan V) : (p.edgesFrom id).length = p.nodeCount - 1 := by
  have targets := congrArg List.length (edge_targets.1 p id)
  rwa [List.length_map, List.length_range'] at targets

-- Edges name no service and no implementation: the tree of kinds determines them.
theorem edges_outline {p q : Plan V} (same : p.outline kind = q.outline kind) (id : Nat) :
    p.edgesFrom id = q.edgesFrom id := by
  refine (alike_induction kind (fun p q => ∀ id, p.edgesFrom id = q.edgesFrom id)
    (fun ps qs => ∀ parent relation position next,
      edgesAll parent relation position next ps = edgesAll parent relation position next qs)
    ?node (fun _ _ _ _ => rfl) ?cons).1 p q same id
  case node =>
    intro p q kinds below id
    rw [edgesFrom_eq, edgesFrom_eq, kinds, below]
  case cons =>
    intro p ps q qs alike head tail parent relation position next
    rw [edgesAll, edgesAll, head, outline_nodeCount alike, tail]

end Plan

namespace GraphBuilder

def extend (b : GraphBuilder) (nodes : List Node) (edges : List Edge) : GraphBuilder :=
  ⟨b.costs, b.nodes ++ nodes.toArray, b.edges ++ edges.toArray⟩

def link (parent : Option (Nat × Relation)) (target : Nat) : List Edge :=
  match parent with
  | some (source, relation) => [⟨source, target, relation⟩]
  | none => []

theorem extend_extend (b : GraphBuilder) (nodes nodes' : List Node) (edges edges' : List Edge) :
    (b.extend nodes edges).extend nodes' edges' = b.extend (nodes ++ nodes') (edges ++ edges') := by
  simp [extend]

theorem extend_nil (b : GraphBuilder) : b.extend [] [] = b := by
  simp [extend]

theorem extend_size (b : GraphBuilder) (nodes : List Node) (edges : List Edge) :
    (b.extend nodes edges).nodes.size = b.nodes.size + nodes.length := by
  simp [extend]

theorem addNode_extends (b : GraphBuilder) (parent : Option (Nat × Relation)) (p : Plan V) :
    b.addNode p.kind p.service p.implementation? parent =
      (b.nodes.size, b.extend [p.rootNode b.costs b.nodes.size] (link parent b.nodes.size)) := by
  cases parent <;> simp [addNode, extend, link, Plan.rootNode]

theorem visit_eq (b : GraphBuilder) (parent : Option (Nat × Relation)) (p : Plan V) :
    b.visit parent p = ((b.addNode p.kind p.service p.implementation? parent).1,
      (b.addNode p.kind p.service p.implementation? parent).2.visitAll
        (b.addNode p.kind p.service p.implementation? parent).1 p.kind.relation 0 p.children) := by
  cases p with
  | leaf => rfl
  | cached lifetime => cases lifetime <;> rfl
  | constructor => rfl
  | enumerable => rfl

theorem visitAll_cons (b : GraphBuilder) (parent : Nat) (relation : Nat → Relation) (position : Nat) (p : Plan V)
    (rest : List (Plan V)) : b.visitAll parent relation position (p :: rest) =
      ((b.visit (some (parent, relation position)) p).2).visitAll parent relation (position + 1) rest := rfl

-- One visit, told completely: the number of the new root, and everything that comes to be behind what was there.
theorem visit_extends :
    (∀ (p : Plan V) (b : GraphBuilder) parent, b.visit parent p =
      (b.nodes.size, b.extend (p.nodesFrom b.costs b.nodes.size)
        (link parent b.nodes.size ++ p.edgesFrom b.nodes.size))) ∧
    (∀ (ps : List (Plan V)) (b : GraphBuilder) parent relation position, b.visitAll parent relation position ps =
      b.extend (Plan.numbered b.costs b.nodes.size (Plan.preorderAll ps))
        (Plan.edgesAll parent relation position b.nodes.size ps)) := by
  refine Plan.forest_induction ?node ?nil ?cons
  case node =>
    intro p below b parent
    rw [visit_eq, addNode_extends, below, extend_extend, extend_size, Plan.nodesFrom, Plan.preorder_eq,
      Plan.numbered_cons, Plan.edgesFrom_eq]
    rfl
  case nil =>
    intro b parent relation position
    exact (extend_nil b).symm
  case cons =>
    intro p others first remaining b parent relation position
    rw [visitAll_cons, first, remaining, extend_extend, extend_size, Plan.preorderAll_cons, Plan.numbered_append,
      Plan.nodesFrom, Plan.length_numbered, Plan.length_preorder]
    rfl

end GraphBuilder

theorem Plan.graph_eq (costs : CostTable) (exportedAt : String) (p : Plan V) :
    p.graph costs exportedAt =
      { nodes := p.nodesFrom costs 0
        edges := p.edgesFrom 0
        metadata :=
          { nodeCount := (p.nodesFrom costs 0).length
            edgeCount := (p.edgesFrom 0).length
            maxDepth := p.depth
            estimatedSize := (p.analyze costs).estimatedSize
            requiresScopeLock := (p.analyze costs).requiresScopeLock
            exportedAt
            version := Graph.formatVersion } } := by
  rw [graph, GraphBuilder.build, GraphBuilder.visit_extends.1]
  simp [GraphBuilder.finish, GraphBuilder.extend, GraphBuilder.start, GraphBuilder.link]

theorem Plan.graph_nodes (costs : CostTable) (exportedAt : String) (p : Plan V) :
    (p.graph costs exportedAt).nodes = numbered costs 0 p.preorder := by
  rw [graph_eq, nodesFrom]

namespace GraphBuilder

-- A request to visit a plan below a parent. The parent need not be there.
structure Call (V : Type) where
  parent : Option (Nat × Relation)
  plan : Plan V

def perform (b : GraphBuilder) (call : Call V) : GraphBuilder :=
  (b.visit call.parent call.plan).2

def run (b : GraphBuilder) (calls : List (Call V)) : GraphBuilder :=
  calls.foldl perform b

def countNodes (calls : List (Call V)) : Nat :=
  (calls.map (·.plan.nodeCount)).sum

def countRoots (calls : List (Call V)) : Nat :=
  calls.countP (·.parent.isNone)

theorem countNodes_append (earlier later : List (Call V)) :
    countNodes (earlier ++ later) = countNodes earlier + countNodes later := by
  rw [countNodes, List.map_append, List.sum_append, countNodes, countNodes]

theorem countRoots_append (earlier later : List (Call V)) :
    countRoots (earlier ++ later) = countRoots earlier + countRoots later :=
  List.countP_append

theorem run_snoc (b : GraphBuilder) (calls : List (Call V)) (call : Call V) :
    b.run (calls ++ [call]) = (b.run calls).perform call := by
  rw [run, List.foldl_append]
  rfl

theorem visit_shifts (b : GraphBuilder) (call : Call V) (exportedAt : String) :
    (b.visit call.parent call.plan).1 = b.nodes.size ∧
    (b.perform call).nodes.toList =
      b.nodes.toList ++ (call.plan.graph b.costs exportedAt).nodes.map (Node.shift b.nodes.size) ∧
    (b.perform call).edges.toList =
      b.edges.toList ++ (link call.parent b.nodes.size ++
        (call.plan.graph b.costs exportedAt).edges.map (Edge.shift b.nodes.size)) := by
  have nodes := Plan.numbered_shift b.costs 0 b.nodes.size call.plan.preorder
  have edges := (Plan.edges_shift b.nodes.size).1 call.plan 0
  rw [Nat.zero_add] at nodes edges
  rw [perform, visit_extends.1, Plan.graph_eq, Plan.nodesFrom, Plan.nodesFrom, nodes, edges]
  simp [extend]

-- The numbers a call gives out as targets: all of its plan's, or all but the root's if it has no parent.
theorem call_targets (call : Call V) (id : Nat) :
    (link call.parent id ++ call.plan.edgesFrom id).map (·.target) =
      List.range' (id + countRoots [call]) (call.plan.nodeCount - countRoots [call]) := by
  obtain ⟨parent, p⟩ := call
  cases parent with
  | none => exact Plan.edge_targets.1 p id
  | some source =>
    change id :: (p.edgesFrom id).map (·.target) = List.range' id p.nodeCount
    rw [Plan.edge_targets.1, ← List.range'_succ, p.nodeCount_eq, Nat.add_sub_cancel_left, Nat.add_comm]

theorem countRoots_le (call : Call V) : countRoots [call] ≤ call.plan.nodeCount := by
  have roots : countRoots [call] ≤ 1 := List.countP_le_length
  have nodes := call.plan.nodeCount_eq
  omega

theorem perform_extends (b : GraphBuilder) (call : Call V) :
    b.perform call = b.extend (call.plan.nodesFrom b.costs b.nodes.size)
      (link call.parent b.nodes.size ++ call.plan.edgesFrom b.nodes.size) := by
  rw [perform, visit_extends.1]

theorem perform_size (b : GraphBuilder) (call : Call V) :
    (b.perform call).nodes.size = b.nodes.size + call.plan.nodeCount := by
  rw [perform_extends, extend_size, Plan.length_nodesFrom]

theorem perform_ids (b : GraphBuilder) (call : Call V) :
    (b.perform call).nodes.toList.map (·.id) =
      b.nodes.toList.map (·.id) ++ List.range' b.nodes.size call.plan.nodeCount := by
  rw [perform_extends, extend, Array.toList_append, List.map_append, Plan.nodesFrom, Plan.numbered_ids,
    Plan.length_preorder]

theorem perform_targets (b : GraphBuilder) (call : Call V) :
    (b.perform call).edges.toList.map (·.target) = b.edges.toList.map (·.target) ++
      List.range' (b.nodes.size + countRoots [call]) (call.plan.nodeCount - countRoots [call]) := by
  rw [perform_extends, extend, Array.toList_append, List.map_append, call_targets]

-- What holds of a builder after any calls: numbers are places in the list, and targets grow along the list of
-- edges and stay below the next number.
structure Grown (costs : CostTable) (calls : List (Call V)) (b : GraphBuilder) : Prop where
  sameCosts : b.costs = costs
  nodes : b.nodes.size = countNodes calls
  edges : b.edges.size + countRoots calls = b.nodes.size
  ids : b.nodes.toList.map (·.id) = List.range' 0 b.nodes.size
  targets : (b.edges.toList.map (·.target)).Pairwise (· < ·)
  bounded : ∀ target ∈ b.edges.toList.map (·.target), target < b.nodes.size

theorem start_grown (costs : CostTable) : Grown costs ([] : List (Call V)) (start costs) := by
  refine ⟨rfl, rfl, rfl, rfl, .nil, ?_⟩
  intro target member
  cases member

theorem perform_grown {costs : CostTable} {calls : List (Call V)} {b : GraphBuilder} (grown : Grown costs calls b)
    (call : Call V) : Grown costs (calls ++ [call]) (b.perform call) := by
  have size := perform_size b call
  have targets := perform_targets b call
  refine ⟨?_, ?_, ?_, ?_, ?_, ?_⟩
  · rw [perform_extends]
    exact grown.sameCosts
  · rw [size, grown.nodes, countNodes_append]
    simp [countNodes]
  · have before := grown.edges
    have within := countRoots_le call
    have added := congrArg List.length targets
    rw [List.length_append, List.length_map, List.length_map, List.length_range', Array.length_toList,
      Array.length_toList] at added
    rw [size, added, countRoots_append]
    omega
  · rw [perform_ids, size, grown.ids, ← List.range'_append_1, Nat.zero_add]
  · rw [targets]
    refine List.pairwise_append.mpr ⟨grown.targets, List.pairwise_lt_range', ?_⟩
    intro old inOld new inNew
    have bound := grown.bounded old inOld
    have range := List.mem_range'_1.mp inNew
    omega
  · rw [targets, size]
    intro target member
    have within := countRoots_le call
    rcases List.mem_append.mp member with inOld | inNew
    · have bound := grown.bounded target inOld
      omega
    · have range := List.mem_range'_1.mp inNew
      omega

theorem run_grown {costs : CostTable} (calls : List (Call V)) {earlier : List (Call V)} {b : GraphBuilder}
    (grown : Grown costs earlier b) : Grown costs (earlier ++ calls) (b.run calls) := by
  induction calls generalizing earlier b with
  | nil =>
    rw [List.append_nil]
    exact grown
  | cons call rest ih =>
    have later := ih (perform_grown grown call)
    rw [List.append_assoc] at later
    exact later

theorem started_grown (costs : CostTable) (calls : List (Call V)) : Grown costs calls ((start costs).run calls) :=
  run_grown calls (start_grown costs)

-- Every call after any calls, and the build after any calls.
theorem run_visits_then_build (costs : CostTable) (calls : List (Call V)) (call : Call V) (last : Plan V)
    (exportedAt : String) :
    let b := (start costs).run calls
    let fresh := call.plan.graph costs exportedAt
    let after := (start costs).run (calls ++ [call])
    let built := b.build exportedAt last
    let lastFresh := last.graph costs exportedAt
    ((b.visit call.parent call.plan).1 = b.nodes.size ∧
      after = (b.visit call.parent call.plan).2 ∧
      after.nodes.toList = b.nodes.toList ++ fresh.nodes.map (Node.shift b.nodes.size) ∧
      after.edges.toList = b.edges.toList ++
        (link call.parent b.nodes.size ++ fresh.edges.map (Edge.shift b.nodes.size))) ∧
    (built.nodes = b.nodes.toList ++ lastFresh.nodes.map (Node.shift b.nodes.size) ∧
      built.edges = b.edges.toList ++ lastFresh.edges.map (Edge.shift b.nodes.size) ∧
      built.metadata.nodeCount = countNodes calls + last.nodeCount ∧
      built.metadata.edgeCount + (countRoots calls + 1) = countNodes calls + last.nodeCount ∧
      built.metadata.nodeCount = built.nodes.length ∧
      built.metadata.edgeCount = built.edges.length ∧
      built.nodes.map (·.id) = List.range built.nodes.length ∧
      (built.edges.map (·.target)).Nodup ∧
      built.metadata.maxDepth = last.depth ∧
      built.metadata.estimatedSize = (last.analyze costs).estimatedSize ∧
      built.metadata.requiresScopeLock = (last.analyze costs).requiresScopeLock) := by
  intro b fresh after built lastFresh
  have grown := started_grown costs calls
  have whole := perform_grown grown ⟨none, last⟩
  have counted : countNodes (calls ++ [⟨none, last⟩]) = countNodes calls + last.nodeCount :=
    countNodes_append calls [⟨none, last⟩]
  have rooted : countRoots (calls ++ [⟨none, last⟩]) = countRoots calls + 1 :=
    countRoots_append calls [⟨none, last⟩]
  obtain ⟨id, nodes, edges⟩ := visit_shifts b call exportedAt
  obtain ⟨_, lastNodes, lastEdges⟩ := visit_shifts b ⟨none, last⟩ exportedAt
  have costsKept : b.costs = costs := grown.sameCosts
  rw [costsKept] at nodes edges lastNodes lastEdges
  have next : after = b.perform call := run_snoc (start costs) calls call
  refine ⟨⟨id, next, next ▸ nodes, next ▸ edges⟩, lastNodes, lastEdges, ?_, ?_, ?_, ?_, ?_, ?_, rfl, ?_, ?_⟩
  · exact whole.nodes.trans counted
  · rw [← counted, ← rooted, ← whole.nodes]
    exact whole.edges
  · rfl
  · rfl
  · rw [List.range_eq_range']
    exact whole.ids
  · exact whole.targets.imp Nat.ne_of_lt
  · rw [← costsKept]
    rfl
  · rw [← costsKept]
    rfl

end GraphBuilder

end ResolutionPlan
