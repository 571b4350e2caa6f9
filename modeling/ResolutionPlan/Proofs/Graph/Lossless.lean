import Mathlib.Data.List.Induction
import Mathlib.Data.List.Nodup
import Mathlib.Logic.ExistsUnique
import ResolutionPlan.Proofs.Analysis.Trace
import ResolutionPlan.Proofs.Graph.Layout

namespace ResolutionPlan

open Text

variable {V : Type}

structure Signature where
  kind : Kind
  name : String
  registration : Option String
  implementation : Option String
  deriving DecidableEq

def Plan.signature (p : Plan V) : Signature where
  kind := p.kind
  name := p.service.displayName
  registration := p.service.registration
  implementation := p.implementation?

-- The label composes the short name and the registration. The short name is known from the full name, so
-- whatever characters both hold, what stands between " (" and the last ")" is the registration.
def Node.registration? (n : Node) : Option String :=
  if n.label = shorten n.service then none
  else some (String.ofList (n.label.toList.drop ((shorten n.service).toList.length + 2)).dropLast)

def Node.signature (n : Node) : Signature :=
  ⟨n.kind, n.service, n.registration?, n.implementation⟩

def Signature.node (costs : CostTable) (id : Nat) (s : Signature) : Node :=
  { id, kind := s.kind, service := s.name, label := Key.label ⟨none, s.name, s.registration⟩,
    lifetime := s.kind.lifetime?, baseCost := costs.baseCost s.kind, implementation := s.implementation }

theorem rootNode_signature (costs : CostTable) (id : Nat) (p : Plan V) :
    p.rootNode costs id = p.signature.node costs id := rfl

theorem numbered_signatures (costs : CostTable) (first : Nat) (nodes : List (Plan V)) :
    Plan.numbered costs first nodes =
      ((nodes.map Plan.signature).zipIdx first).map fun (s, id) => s.node costs id := by
  induction nodes generalizing first with
  | nil => rfl
  | cons node rest ih =>
    rw [Plan.numbered_cons, ih, rootNode_signature]
    rfl

theorem signature_node (costs : CostTable) (id : Nat) (s : Signature) : (s.node costs id).signature = s := by
  obtain ⟨kind, name, registration, implementation⟩ := s
  cases registration with
  | none => simp [Signature.node, Node.signature, Node.registration?, Key.label, Key.shortName]
  | some registration =>
    have longer : shorten name ++ " (" ++ registration ++ ")" ≠ shorten name := by
      intro same
      have lengths := congrArg (·.toList.length) same
      simp at lengths
    simp [Signature.node, Node.signature, Node.registration?, Key.label, Key.shortName, longer]

namespace Graph

-- The distances from the root of the nodes 0, 1, 2 and so on; an edge tells the distance of its target, the next
-- node without one.
def addLevel (levels : List Nat) (e : Edge) : List Nat :=
  levels ++ [(levels[e.source]?).getD 0 + 1]

def levels (edges : List Edge) : List Nat :=
  edges.foldl addLevel [0]

def outline? (nodes : List Node) (edges : List Edge) : Option (Outline Signature) :=
  Outline.ofLevels? ((levels edges).zip (nodes.map Node.signature))

def unstamped (g : Graph) : Graph :=
  { g with metadata := { g.metadata with exportedAt := "" } }

theorem levels_edges :
    (∀ (p : Plan V) before level, (Plan.edgesFrom before.length p).foldl addLevel (before ++ [level]) =
      before ++ (Plan.levelsFrom level p).map (·.1)) ∧
    (∀ (ps : List (Plan V)) before parent relation position level, before[parent]? = some level →
      (Plan.edgesAll parent relation position before.length ps).foldl addLevel before =
        before ++ (Plan.levelsAll (level + 1) ps).map (·.1)) := by
  refine Plan.forest_induction ?node ?nil ?cons
  case node =>
    intro p below before level
    have here : (before ++ [level])[before.length]? = some level := by simp
    have children := below (before ++ [level]) before.length p.kind.relation 0 level here
    rw [List.length_append] at children
    rw [Plan.edgesFrom_eq, Plan.levelsFrom_eq, List.map_cons]
    exact children.trans (List.append_assoc before [level] _)
  case nil =>
    intro before parent relation position level here
    exact (List.append_nil before).symm
  case cons =>
    intro p others first remaining before parent relation position level here
    have within : parent < before.length := (List.getElem?_eq_some_iff.mp here).1
    have after := remaining (before ++ (Plan.levelsFrom (level + 1) p).map (·.1)) parent relation (position + 1)
      level ((List.getElem?_append_left within).trans here)
    rw [List.length_append, List.length_map, Plan.length_levelsFrom] at after
    rw [Plan.edgesAll, List.foldl_cons, List.foldl_append, addLevel, here, Option.getD_some, first, after,
      Plan.levelsAll, List.map_append, List.append_assoc]

theorem levels_graph (costs : CostTable) (exportedAt : String) (p : Plan V) :
    levels (p.graph costs exportedAt).edges = p.levels.map (·.1) := by
  rw [Plan.graph_eq]
  exact levels_edges.1 p [] 0

-- Any marks of the nodes, in pre-order, are brought to their levels by the edges.
theorem zip_levels {α : Type} (mark : Plan V → α) (p : Plan V) :
    (levels (p.edgesFrom 0)).zip (p.preorder.map mark) = Outline.marked mark p.levels := by
  have read : levels (p.edgesFrom 0) = p.levels.map (·.1) := levels_edges.1 p [] 0
  rw [read, ← Plan.levelsFrom_preorder 0 p, List.map_map, ← Plan.levels, List.zip_map', Outline.marked]
  rfl

theorem signatures_graph (costs : CostTable) (exportedAt : String) (p : Plan V) :
    (p.graph costs exportedAt).nodes.map Node.signature = p.preorder.map Plan.signature := by
  have read : Node.signature ∘ (fun (s, id) => s.node costs id) = (Prod.fst : Signature × Nat → Signature) :=
    funext fun (s, id) => signature_node costs id s
  rw [Plan.graph_eq]
  change (p.nodesFrom costs 0).map Node.signature = _
  rw [Plan.nodesFrom, numbered_signatures, List.map_map, read, List.zipIdx_map_fst]

theorem outline?_graph (costs : CostTable) (exportedAt : String) (p : Plan V) :
    outline? (p.graph costs exportedAt).nodes (p.graph costs exportedAt).edges = some (p.outline Plan.signature) := by
  rw [outline?, signatures_graph, Plan.graph_eq, zip_levels, Outline.ofLevels?_levels]

theorem graph_of_outline (costs : CostTable) (exportedAt : String) {p q : Plan V}
    (same : p.outline Plan.signature = q.outline Plan.signature) :
    p.graph costs exportedAt = q.graph costs exportedAt := by
  have kinds : p.outline Plan.kind = q.outline Plan.kind :=
    Plan.outline_coarser (fun _ _ signatures => congrArg Signature.kind signatures) same
  have nodes : p.nodesFrom costs 0 = q.nodesFrom costs 0 := by
    rw [Plan.nodesFrom, Plan.nodesFrom, numbered_signatures, numbered_signatures, Plan.outline_preorder same]
  rw [Plan.graph_eq, Plan.graph_eq, nodes, Plan.edges_outline kinds, Plan.outline_depth same,
    Plan.analyze_outline costs kinds]

-- A graph and the signatures of its plan determine each other, and the two lists alone are enough to read
-- the signatures back.
theorem graph_lossless (costs : CostTable) (p q : Plan V) (stamp stamp' : String) :
    ((p.graph costs stamp).unstamped = (q.graph costs stamp').unstamped ↔
      p.outline Plan.signature = q.outline Plan.signature) ∧
    outline? (p.graph costs stamp).nodes (p.graph costs stamp).edges = some (p.outline Plan.signature) := by
  refine ⟨⟨?_, ?_⟩, outline?_graph costs stamp p⟩
  · intro same
    have nodes := congrArg nodes same
    have edges := congrArg edges same
    have read := outline?_graph costs stamp p
    change (p.graph costs stamp).nodes = (q.graph costs stamp').nodes at nodes
    change (p.graph costs stamp).edges = (q.graph costs stamp').edges at edges
    rw [nodes, edges, outline?_graph costs stamp' q] at read
    exact (Option.some.inj read).symm
  · intro same
    have graphs := graph_of_outline costs stamp same
    rw [graphs]
    rfl

-- A path is the list of the edges on the way, the first one first.
inductive Path (edges : List Edge) (start : Nat) : Nat → List Edge → Prop where
  | here : Path edges start start []
  | further {stop : Nat} {path : List Edge} {e : Edge} (before : Path edges start e.source path)
      (member : e ∈ edges) (arrives : e.target = stop) : Path edges start stop (path ++ [e])

theorem Path.mono {edges more : List Edge} {start stop : Nat} {path : List Edge}
    (along : Path edges start stop path) (within : ∀ e ∈ edges, e ∈ more) : Path more start stop path := by
  induction along with
  | here => exact .here
  | further _ member arrives ih => exact .further ih (within _ member) arrives

-- The edges lead to 1, 2, 3 and so on in turn, each of them from a node that has been there before.
structure Rooted (edges : List Edge) : Prop where
  targets : edges.map (·.target) = List.range' 1 edges.length
  forward : ∀ e ∈ edges, e.source < e.target

namespace Rooted

variable {edges : List Edge}

theorem target_range (rooted : Rooted edges) {e : Edge} (member : e ∈ edges) :
    1 ≤ e.target ∧ e.target < 1 + edges.length := by
  have listed := List.mem_map_of_mem (f := (·.target)) member
  rw [rooted.targets] at listed
  exact List.mem_range'_1.mp listed

theorem only_edge (rooted : Rooted edges) {e e' : Edge} (member : e ∈ edges) (member' : e' ∈ edges)
    (same : e.target = e'.target) : e = e' := by
  have distinct : (edges.map (·.target)).Nodup := by
    rw [rooted.targets]
    exact List.nodup_range'
  exact List.inj_on_of_nodup_map distinct member member' same

theorem path_unique (rooted : Rooted edges) {i : Nat} {path path' : List Edge} (one : Path edges 0 i path)
    (other : Path edges 0 i path') : path = path' := by
  induction one generalizing path' with
  | here =>
    cases other with
    | here => rfl
    | further _ member arrives =>
      have range := rooted.target_range member
      omega
  | further _ member arrives ih =>
    cases other with
    | here =>
      have range := rooted.target_range member
      omega
    | further before' member' arrives' =>
      have same := rooted.only_edge member member' (arrives.trans arrives'.symm)
      subst same
      rw [ih before']

theorem init {e : Edge} (rooted : Rooted (edges ++ [e])) :
    Rooted edges ∧ e.target = edges.length + 1 ∧ e.source ≤ edges.length := by
  have targets := rooted.targets
  rw [List.map_append, List.length_append, List.length_singleton, List.range'_concat] at targets
  obtain ⟨earlier, last⟩ := List.append_inj' targets rfl
  have target : e.target = edges.length + 1 := by simpa [Nat.add_comm] using last
  have before := rooted.forward e (List.mem_append_right _ List.mem_cons_self)
  exact ⟨⟨earlier, fun e' member => rooted.forward e' (List.mem_append_left _ member)⟩, target, by omega⟩

end Rooted

theorem levels_snoc (edges : List Edge) (e : Edge) : levels (edges ++ [e]) = addLevel (levels edges) e := by
  rw [levels, List.foldl_append]
  rfl

theorem length_levels (edges : List Edge) : (levels edges).length = edges.length + 1 := by
  induction edges using List.reverseRecOn with
  | nil => rfl
  | append_singleton edges e ih => simp [levels_snoc, addLevel, ih]

namespace Rooted

variable {edges : List Edge}

theorem reaches (rooted : Rooted edges) {i level : Nat} (known : (levels edges)[i]? = some level) :
    ∃ path, Path edges 0 i path ∧ path.length = level := by
  -- From the right: the last edge brings the newest node, and all others had their paths without it.
  induction edges using List.reverseRecOn generalizing i level with
  | nil =>
    cases i with
    | zero =>
      cases known
      exact ⟨[], .here, rfl⟩
    | succ i => cases known
  | append_singleton edges e ih =>
    obtain ⟨earlier, target, source⟩ := rooted.init
    have old {j d : Nat} (known : (levels edges)[j]? = some d) :
        ∃ path, Path (edges ++ [e]) 0 j path ∧ path.length = d := by
      obtain ⟨path, along, length⟩ := ih earlier known
      exact ⟨path, along.mono fun _ member => List.mem_append_left _ member, length⟩
    have size := length_levels edges
    rw [levels_snoc, addLevel] at known
    by_cases before : i < (levels edges).length
    · rw [List.getElem?_append_left before] at known
      exact old known
    · have last : i = edges.length + 1 := by
        have bound := (List.getElem?_eq_some_iff.mp known).1
        rw [List.length_append, List.length_singleton] at bound
        omega
      have parent : (levels edges)[e.source]? = some (levels edges)[e.source] :=
        List.getElem?_eq_getElem (by omega)
      obtain ⟨path, along, length⟩ := old parent
      refine ⟨path ++ [e], .further along (List.mem_append_right _ List.mem_cons_self) (target.trans last.symm), ?_⟩
      rw [last, ← size, List.getElem?_concat_length, parent] at known
      rw [List.length_append, length]
      exact Option.some.inj known

theorem levels_exact (rooted : Rooted edges) (i level : Nat) :
    (levels edges)[i]? = some level ↔ ∃ path, Path edges 0 i path ∧ path.length = level := by
  refine ⟨rooted.reaches, ?_⟩
  rintro ⟨path, along, rfl⟩
  have within : i < (levels edges).length := by
    rw [length_levels]
    cases along with
    | here => exact Nat.succ_pos _
    | further _ member arrives =>
      have range := rooted.target_range member
      omega
  obtain ⟨other, along', length⟩ := rooted.reaches (List.getElem?_eq_getElem within)
  rw [List.getElem?_eq_getElem within, rooted.path_unique along along', length]

end Rooted

end Graph

namespace Plan

theorem edges_forward :
    (∀ (p : Plan V) id, ∀ e ∈ edgesFrom id p, e.source < e.target) ∧
    (∀ (ps : List (Plan V)) parent relation position next, parent < next →
      ∀ e ∈ edgesAll parent relation position next ps, e.source < e.target) := by
  refine forest_induction ?node ?nil ?cons
  case node =>
    intro p below id
    rw [edgesFrom_eq]
    exact below id p.kind.relation 0 (id + 1) (Nat.lt_succ_self id)
  case nil =>
    intro parent relation position next before e member
    cases member
  case cons =>
    intro p others first remaining parent relation position next before e member
    rw [edgesAll] at member
    rcases List.mem_cons.mp member with rfl | member
    · exact before
    · rcases List.mem_append.mp member with inFirst | inOthers
      · exact first next e inFirst
      · exact remaining parent relation (position + 1) (next + p.nodeCount) (by omega) e inOthers

theorem graph_rooted (costs : CostTable) (exportedAt : String) (p : Plan V) :
    Graph.Rooted (p.graph costs exportedAt).edges := by
  rw [graph_eq]
  exact ⟨by rw [edge_targets.1, length_edgesFrom], edges_forward.1 p 0⟩

theorem graph_path_exact (costs : CostTable) (exportedAt : String) (p : Plan V) (i depth : Nat) :
    (∃ path, Graph.Path (p.graph costs exportedAt).edges 0 i path ∧ path.length = depth) ↔
      ∃ node, p.levels[i]? = some (depth, node) := by
  rw [← (p.graph_rooted costs exportedAt).levels_exact, Graph.levels_graph, List.getElem?_map,
    Option.map_eq_some_iff]
  constructor
  · rintro ⟨⟨_, node⟩, found, rfl⟩
    exact ⟨node, found⟩
  · rintro ⟨node, found⟩
    exact ⟨(depth, node), found, rfl⟩

theorem getElem?_preorder (p : Plan V) (i : Nat) : p.preorder[i]? = (p.levels[i]?).map (·.2) := by
  rw [← levelsFrom_preorder 0, List.getElem?_map, levels]

theorem getElem?_visits (p : Plan V) (i : Nat) : p.visits[i]? = (p.levels[i]?).map Visit.ofLevel := by
  rw [visits_levels, List.getElem?_map, levels]

-- The analysis counts depths downwards, the builder appends to two lists; at every index they speak of one node.
theorem passes_agree (costs : CostTable) (elapsed : Duration) (exportedAt : String) (p : Plan V) :
    let visits := p.reported costs elapsed
    let g := p.graph costs exportedAt
    visits.length = g.nodes.length ∧
    ∀ i < g.nodes.length, ∃ v n node,
      visits[i]? = some v ∧ g.nodes[i]? = some n ∧ p.preorder[i]? = some node ∧
      v.kind = n.kind ∧ v.service.displayName = n.service ∧
      (v.service.label = n.label ∧ n.label = match v.service.registration with
        | some name => v.service.shortName ++ " (" ++ name ++ ")"
        | none => v.service.shortName) ∧
      (∃! path, Graph.Path g.edges 0 i path) ∧ (∀ path, Graph.Path g.edges 0 i path → path.length = v.depth) ∧
      n.lifetime = node.cacheLifetime? := by
  intro visits g
  have nodes : g.nodes = numbered costs 0 p.preorder := p.graph_nodes costs exportedAt
  have reported : visits = p.visits := p.reported_visits costs elapsed
  have rooted : Graph.Rooted g.edges := p.graph_rooted costs exportedAt
  rw [nodes, reported, length_numbered, length_preorder, length_visits]
  refine ⟨rfl, ?_⟩
  intro i within
  obtain ⟨⟨depth, node⟩, found⟩ : ∃ level, p.levels[i]? = some level := by
    rw [← p.length_levelsFrom 0] at within
    exact ⟨_, List.getElem?_eq_getElem within⟩
  obtain ⟨path, along, length⟩ := (p.graph_path_exact costs exportedAt i depth).mpr ⟨node, found⟩
  refine ⟨Visit.ofLevel (depth, node), node.rootNode costs i, node, ?_, ?_, ?_, rfl, rfl, ⟨rfl, rfl⟩, ?_, ?_, ?_⟩
  · rw [getElem?_visits, found, Option.map_some]
  · rw [getElem?_numbered, getElem?_preorder, found, Nat.zero_add]
    rfl
  · rw [getElem?_preorder, found, Option.map_some]
  · exact ⟨path, along, fun other along' => rooted.path_unique along' along⟩
  · intro other along'
    rw [rooted.path_unique along' along]
    exact length
  · exact node.cacheLifetime?_kind.symm

-- A node two levels below the root.
theorem passes_agree_nested :
    let p : Plan Value := .constructor (.ofInterface "a::A") "A"
      [.cached .scoped (.ofInterface "b::B") (.leaf (.serviceProvider (.ofInterface "c::C")))]
    let g := p.graph .stock ""
    2 < g.nodes.length ∧
    (p.reported .stock .zero)[2]? = some ⟨.serviceProvider, .ofInterface "c::C", 2⟩ ∧
    (∃! path, Graph.Path g.edges 0 2 path) ∧ ∀ path, Graph.Path g.edges 0 2 path → path.length = 2 := by
  intro p g
  have within : 2 < g.nodes.length := by decide
  have visit : (p.reported .stock .zero)[2]? = some ⟨.serviceProvider, .ofInterface "c::C", 2⟩ := rfl
  obtain ⟨v, _, _, found, _, _, _, _, _, unique, lengths, _⟩ := (passes_agree .stock .zero "" p).2 2 within
  rw [visit] at found
  cases found
  exact ⟨within, visit, unique, lengths⟩

theorem mem_scopedNodes (costs : CostTable) (exportedAt : String) (p : Plan V) (i : Nat) :
    i ∈ (p.graph costs exportedAt).scopedNodes ↔ ∃ node, p.preorder[i]? = some node ∧ node.kind = .scoped := by
  rw [Graph.scopedNodes, graph_nodes, List.mem_map]
  constructor
  · rintro ⟨n, member, rfl⟩
    obtain ⟨listed, isScoped⟩ := List.mem_filter.mp member
    obtain ⟨j, found⟩ := List.getElem?_of_mem listed
    rw [getElem?_numbered, Option.map_eq_some_iff] at found
    obtain ⟨node, here, rfl⟩ := found
    exact ⟨node, by simpa [rootNode] using here, beq_iff_eq.mp isScoped⟩
  · rintro ⟨node, here, isScoped⟩
    have listed : (numbered costs 0 p.preorder)[i]? = some (node.rootNode costs i) := by
      rw [getElem?_numbered, here, Nat.zero_add, Option.map_some]
    exact ⟨node.rootNode costs i,
      List.mem_filter.mpr ⟨List.mem_of_getElem? listed, beq_iff_eq.mpr isScoped⟩, rfl⟩

theorem scopedNodes_increasing (costs : CostTable) (exportedAt : String) (p : Plan V) :
    (p.graph costs exportedAt).scopedNodes.Pairwise (· < ·) := by
  have ids : ((p.graph costs exportedAt).nodes.map (·.id)).Pairwise (· < ·) := by
    rw [graph_nodes, numbered_ids]
    exact List.pairwise_lt_range'
  exact List.pairwise_map.mpr ((List.pairwise_map.mp ids).filter _)

theorem scopedNodes_lock (costs : CostTable) (exportedAt : String) (p : Plan V) :
    (p.analyze costs).requiresScopeLock = true ↔ (p.graph costs exportedAt).scopedNodes ≠ [] := by
  rw [requiresScopeLock_preorder]
  constructor
  · rintro ⟨node, member, isScoped⟩
    obtain ⟨i, here⟩ := List.getElem?_of_mem member
    exact List.ne_nil_of_mem ((p.mem_scopedNodes costs exportedAt i).mpr ⟨node, here, isScoped⟩)
  · intro nonempty
    obtain ⟨i, member⟩ := List.exists_mem_of_ne_nil _ nonempty
    obtain ⟨node, here, isScoped⟩ := (p.mem_scopedNodes costs exportedAt i).mp member
    exact ⟨node, List.mem_of_getElem? here, isScoped⟩

theorem graph_estimatedSize (costs : CostTable) (exportedAt : String) (p : Plan V) :
    (p.analyze costs).estimatedSize.toNat =
      min (2 ^ 64 - 1) ((p.graph costs exportedAt).nodes.map (·.baseCost.toNat)).sum := by
  have shares : (numbered costs 0 p.preorder).map (·.baseCost.toNat) =
      p.preorder.map fun node => (costs.baseCost node.kind).toNat := map_numbered (fun _ _ => rfl) 0 p.preorder
  rw [estimatedSize_preorder, graph_nodes, shares]
  rfl

theorem longest_path (costs : CostTable) (exportedAt : String) (p : Plan V) :
    (∃ i path, Graph.Path (p.graph costs exportedAt).edges 0 i path ∧ path.length + 1 = p.depth) ∧
    ∀ i path, Graph.Path (p.graph costs exportedAt).edges 0 i path → path.length + 1 ≤ p.depth := by
  constructor
  · obtain ⟨⟨depth, node⟩, member, deepest⟩ := levels_reach.1 p 0
    obtain ⟨i, found⟩ := List.getElem?_of_mem member
    obtain ⟨path, along, rfl⟩ := (p.graph_path_exact costs exportedAt i depth).mpr ⟨node, found⟩
    exact ⟨i, path, along, by omega⟩
  · intro i path along
    obtain ⟨node, found⟩ := (p.graph_path_exact costs exportedAt i path.length).mp ⟨path, along, rfl⟩
    have within := levels_within.1 p 0 _ (List.mem_of_getElem? found)
    omega

-- The metadata come from the analysis and from the plan; the nodes and edges alone say the same.
theorem metadata_recomputed (costs : CostTable) (exportedAt : String) (p : Plan V) :
    let g := p.graph costs exportedAt
    (g.metadata.nodeCount = g.nodes.length ∧ g.nodes.length = p.nodeCount) ∧
    (g.metadata.edgeCount = g.edges.length ∧ g.edges.length + 1 = g.nodes.length) ∧
    ((∃ i path, Graph.Path g.edges 0 i path ∧ path.length + 1 = g.metadata.maxDepth) ∧
      (∀ i path, Graph.Path g.edges 0 i path → path.length + 1 ≤ g.metadata.maxDepth) ∧
      g.metadata.maxDepth = p.depth) ∧
    g.metadata.estimatedSize.toNat = min (2 ^ 64 - 1) (g.nodes.map (·.baseCost.toNat)).sum ∧
    (g.metadata.requiresScopeLock = true ↔ g.scopedNodes ≠ []) ∧
    (g.scopedNodes.Pairwise (· < ·) ∧
      ∀ i, i ∈ g.scopedNodes ↔ ∃ node, p.preorder[i]? = some node ∧ node.kind = .scoped) := by
  intro g
  have nodes : g.nodes.length = p.nodeCount := by
    simp only [g, graph_eq, length_nodesFrom]
  have edges : g.edges.length + 1 = g.nodes.length := by
    have count := p.nodeCount_eq
    simp only [g, graph_eq, length_nodesFrom, length_edgesFrom]
    omega
  obtain ⟨reached, bounded⟩ := p.longest_path costs exportedAt
  refine ⟨⟨rfl, nodes⟩, ⟨rfl, edges⟩, ⟨reached, bounded, rfl⟩, p.graph_estimatedSize costs exportedAt,
    p.scopedNodes_lock costs exportedAt, p.scopedNodes_increasing costs exportedAt, p.mem_scopedNodes costs exportedAt⟩

end Plan

end ResolutionPlan
