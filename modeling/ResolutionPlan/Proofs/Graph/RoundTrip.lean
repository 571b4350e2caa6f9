import ResolutionPlan.Graph.Export
import ResolutionPlan.Proofs.Graph.Layout
import ResolutionPlan.Proofs.Json.Range
import ResolutionPlan.Proofs.Json.Reading

namespace ResolutionPlan

open Json (Reads Yields)
open Json

variable {V : Type}

theorem Size.reads (s : Size) : Reads Size.reader (.number s.toNat) s := by
  have fits : s.toNat < Json.Number.wordLimit := Size.toNat_lt s
  have read := Json.mapped_reads UInt64.ofNat (Json.readNatural_reads fits)
  rw [UInt64.ofNat_toNat] at read
  exact read

theorem Lifetime.reads (l : Lifetime) : Reads Lifetime.reader l.toJson l := by
  apply Json.Choice.read_bare
  cases l <;> rfl

theorem Kind.reads (k : Kind) : Reads Kind.reader k.toJson k := by
  apply Json.Choice.read_bare
  cases k <;> rfl

def Relation.Fits : Relation → Prop
  | .wraps => True
  | .parameter position | .element position => position < Size.limit

theorem Relation.reads (r : Relation) (fits : r.Fits) : Reads Relation.reader r.toJson r := by
  cases r with
  | wraps => exact Json.Choice.read_bare rfl
  | parameter position => exact Json.Choice.read_carrying rfl (Json.mapped_reads _ (Json.readNatural_reads fits))
  | element position => exact Json.Choice.read_carrying rfl (Json.mapped_reads _ (Json.readNatural_reads fits))

theorem Relation.reader_yields : Yields reader Fits := by
  apply Json.Choice.read_yields
  have all : Json.Choice.Holds Fits (.bare wraps) ∧
      Json.Choice.Holds Fits (.carrying (Json.mapped parameter Json.readNatural)) ∧
      Json.Choice.Holds Fits (.carrying (Json.mapped element Json.readNatural)) :=
    ⟨trivial, Json.mapped_yields Json.readNatural_yields fun _ fits => fits,
      Json.mapped_yields Json.readNatural_yields fun _ fits => fits⟩
  simpa using all

theorem optionalJson_reads {value : Json.Reader α} {encode : α → JsonValue} (o : Option α)
    (reads : ∀ a, Reads value (encode a) a) (given : ∀ a, encode a ≠ .null) :
    Reads (Json.readOption value) (optionalJson encode o) o := by
  cases o with
  | none => exact Json.readOption_none value
  | some a => exact Json.readOption_some (reads a) (given a)

namespace Node

def Fits (n : Node) : Prop := n.id < Size.limit

theorem takes (n : Node) (fits : n.Fits) : Json.Fields.Takes fields
    [("id", .number n.id), ("kind", n.kind.toJson), ("service", .text n.service), ("label", .text n.label),
      ("lifetime", optionalJson Lifetime.toJson n.lifetime), ("base_cost", .number n.baseCost.toNat),
      ("implementation", optionalJson .text n.implementation)] n := by
  unfold fields
  refine .map (a := (n.id, n.kind, n.service, n.label, n.lifetime, n.baseCost, n.implementation, ())) _ ?_
  refine .cons (Json.readNatural_reads fits) (.cons n.kind.reads (.cons (Json.readText_reads n.service)
    (.cons (Json.readText_reads n.label) (.cons ?_ (.cons (Size.reads n.baseCost) (.cons ?_ .nil))))))
  · exact optionalJson_reads n.lifetime Lifetime.reads (by simp [Lifetime.toJson])
  · exact optionalJson_reads n.implementation Json.readText_reads (by simp)

theorem reads (n : Node) (fits : n.Fits) : Reads reader n.toJson n :=
  Json.Fields.read_object (takes n fits) (by decide) "PlanNode"

theorem reader_yields : Yields reader Fits := by
  refine Json.Fields.read_yields (Json.Fields.Keeps.map (.required "id" Json.readNatural_yields <| .skip <| .skip <|
    .skip <| .skip <| .skip <| .skip .nil) ?_) "PlanNode"
  rintro ⟨id, _⟩ ⟨idFits, _⟩
  exact idFits

end Node

namespace Edge

def Fits (e : Edge) : Prop := e.source < Size.limit ∧ e.target < Size.limit ∧ e.relation.Fits

theorem takes (e : Edge) (fits : e.Fits) : Json.Fields.Takes fields
    [("from", .number e.source), ("to", .number e.target), ("relation", e.relation.toJson)] e := by
  obtain ⟨sourceFits, targetFits, relationFits⟩ := fits
  unfold fields
  refine .map (a := (e.source, e.target, e.relation, ())) _ ?_
  exact .cons (Json.readNatural_reads sourceFits) (.cons (Json.readNatural_reads targetFits)
    (.cons (e.relation.reads relationFits) .nil))

theorem reads (e : Edge) (fits : e.Fits) : Reads reader e.toJson e :=
  Json.Fields.read_object (takes e fits) (by decide) "PlanEdge"

theorem reader_yields : Yields reader Fits := by
  refine Json.Fields.read_yields (Json.Fields.Keeps.map (.required "from" Json.readNatural_yields <|
    .required "to" Json.readNatural_yields <| .required "relation" Relation.reader_yields .nil) ?_) "PlanEdge"
  rintro ⟨source, target, relation, _⟩ ⟨sourceFits, targetFits, relationFits, _⟩
  exact ⟨sourceFits, targetFits, relationFits⟩

end Edge

namespace Metadata

def Fits (m : Metadata) : Prop := m.nodeCount < Size.limit ∧ m.edgeCount < Size.limit ∧ m.maxDepth < Size.limit

theorem takes (m : Metadata) (fits : m.Fits) : Json.Fields.Takes fields
    [("node_count", .number m.nodeCount), ("edge_count", .number m.edgeCount), ("max_depth", .number m.maxDepth),
      ("estimated_size", .number m.estimatedSize.toNat), ("requires_scope_lock", .flag m.requiresScopeLock),
      ("exported_at", .text m.exportedAt), ("version", .text m.version)] m := by
  obtain ⟨nodesFit, edgesFit, depthFits⟩ := fits
  unfold fields
  refine .map (a := (m.nodeCount, m.edgeCount, m.maxDepth, m.estimatedSize, m.requiresScopeLock, m.exportedAt,
    m.version, ())) _ ?_
  exact .cons (Json.readNatural_reads nodesFit) (.cons (Json.readNatural_reads edgesFit)
    (.cons (Json.readNatural_reads depthFits) (.cons (Size.reads m.estimatedSize)
    (.cons (Json.readFlag_reads m.requiresScopeLock) (.cons (Json.readText_reads m.exportedAt)
    (.cons (Json.readText_reads m.version) .nil))))))

theorem reads (m : Metadata) (fits : m.Fits) : Reads reader m.toJson m :=
  Json.Fields.read_object (takes m fits) (by decide) "PlanGraphMetadata"

theorem reader_yields : Yields reader Fits := by
  refine Json.Fields.read_yields (Json.Fields.Keeps.map (.required "node_count" Json.readNatural_yields <|
    .required "edge_count" Json.readNatural_yields <| .required "max_depth" Json.readNatural_yields <| .skip <|
    .skip <| .skip <| .skip .nil) ?_) "PlanGraphMetadata"
  rintro ⟨nodeCount, edgeCount, maxDepth, _⟩ ⟨nodesFit, edgesFit, depthFits, _⟩
  exact ⟨nodesFit, edgesFit, depthFits⟩

end Metadata

namespace Graph

structure Fits (g : Graph) : Prop where
  nodes : ∀ n ∈ g.nodes, n.Fits
  edges : ∀ e ∈ g.edges, e.Fits
  metadata : g.metadata.Fits

theorem takes (g : Graph) (fits : g.Fits) : Json.Fields.Takes fields
    [("nodes", .array (g.nodes.map Node.toJson)), ("edges", .array (g.edges.map Edge.toJson)),
      ("metadata", g.metadata.toJson)] g := by
  have nodes := Json.readList_reads fun n member => Node.reads n (fits.nodes n member)
  have edges := Json.readList_reads fun e member => Edge.reads e (fits.edges e member)
  unfold fields
  refine .map (a := (g.nodes, g.edges, g.metadata, ())) _ ?_
  exact .cons nodes (.cons edges (.cons (g.metadata.reads fits.metadata) .nil))

theorem reads (g : Graph) (fits : g.Fits) : Reads reader g.toJson g :=
  Json.Fields.read_object (takes g fits) (by decide) "PlanGraph"

theorem reader_yields : Yields reader Fits := by
  refine Json.Fields.read_yields (Json.Fields.Keeps.map (.required "nodes" (Json.readList_yields Node.reader_yields) <|
    .required "edges" (Json.readList_yields Edge.reader_yields) <|
    .required "metadata" Metadata.reader_yields .nil) ?_) "PlanGraph"
  rintro ⟨nodes, edges, metadata, _⟩ ⟨nodesFit, edgesFit, metadataFits, _⟩
  exact ⟨nodesFit, edgesFit, metadataFits⟩

-- Whatever the spelling: the order of the members and the names are fixed, white space and escapes are free.
theorem ofJson_spelled (g : Graph) (fits : g.Fits) {text : List Char} (spelled : Json.Spells g.toJson text) :
    ofJson (String.ofList text) = .ok g :=
  Json.readAll_spelled (reads g fits) spelled

theorem ofJson_fits {text : String} {g : Graph} (done : ofJson text = .ok g) : g.Fits :=
  Json.readAll_yields reader_yields done

theorem ofJson_render (g : Graph) : ofJson (g.render .complete .json) = .ok g ↔ g.Fits :=
  ⟨ofJson_fits, fun fits => ofJson_spelled g fits (Json.pretty_spells 0 g.toJson)⟩

-- Characters with and without an escape, one beyond the basic plane, absent fields and the largest words.
theorem ofJson_render_rare :
    let g : Graph :=
      { nodes := [⟨Size.limit - 1, .scoped, "a\\\"\n\x01/𝄞", "", none, Size.largest, some ""⟩]
        edges := [⟨7, Size.limit - 1, .element (Size.limit - 1)⟩, ⟨0, 0, .wraps⟩]
        metadata := ⟨0, Size.limit - 1, 3, Size.largest, true, "\t", "1.0"⟩ }
    ofJson (g.render .complete .json) = .ok g :=
  (ofJson_render _).mpr
    ⟨by simp [Node.Fits, Size.limit], by simp [Edge.Fits, Relation.Fits, Size.limit],
      by simp [Metadata.Fits, Size.limit]⟩

end Graph

-- Every number in the graph of a plan counts nodes, so few nodes make small numbers.
namespace Plan

theorem depth_le_nodeCount :
    (∀ p : Plan V, p.depth ≤ p.nodeCount) ∧ (∀ ps : List (Plan V), depthAll ps ≤ nodeCountAll ps) := by
  refine forest_induction ?node ?nil ?cons
  case node =>
    intro p below
    rw [depth_eq, nodeCount_eq]
    omega
  case nil => exact Nat.le_refl 0
  case cons =>
    intro p others first remaining
    rw [depthAll, nodeCountAll]
    omega

theorem edges_fit :
    (∀ (p : Plan V) id, id + p.nodeCount ≤ Size.limit → ∀ e ∈ edgesFrom id p, e.Fits) ∧
    (∀ (ps : List (Plan V)) parent relation position next, parent < Size.limit → (∀ i < Size.limit, (relation i).Fits) →
      position + nodeCountAll ps ≤ Size.limit → next + nodeCountAll ps ≤ Size.limit →
      ∀ e ∈ edgesAll parent relation position next ps, e.Fits) := by
  refine forest_induction ?node ?nil ?cons
  case node =>
    intro p below id within
    have count := p.nodeCount_eq
    have relation : ∀ i < Size.limit, (p.kind.relation i).Fits := by
      intro i small
      cases p.kind <;> first | exact small | trivial
    rw [edgesFrom_eq]
    exact below id p.kind.relation 0 (id + 1) (by omega) relation (by omega) (by omega)
  case nil =>
    intro parent relation position next _ _ _ _ e member
    cases member
  case cons =>
    intro p others first remaining parent relation position next parentFits relationFits positions numbers e member
    have count := p.nodeCount_eq
    rw [nodeCountAll] at positions numbers
    have targetFits : next < Size.limit := by omega
    rcases List.mem_cons.mp member with rfl | deeper
    · exact ⟨parentFits, targetFits, relationFits position (by omega)⟩
    · rcases List.mem_append.mp deeper with inFirst | inOthers
      · exact first next (by omega) e inFirst
      · exact remaining parent relation (position + 1) (next + p.nodeCount) parentFits relationFits (by omega)
          (by omega) e inOthers

theorem graph_fits (costs : CostTable) (exportedAt : String) (p : Plan V) (small : p.nodeCount < Size.limit) :
    (p.graph costs exportedAt).Fits := by
  have nodeLength := p.length_nodesFrom costs 0
  have edgeLength := p.length_edgesFrom 0
  have edgesFit : (p.edgesFrom 0).length < Size.limit := by omega
  have deep := depth_le_nodeCount.1 p
  rw [graph_eq]
  refine ⟨?_, edges_fit.1 p 0 (by omega), ?_⟩
  · intro n member
    have listed : n.id ∈ (p.nodesFrom costs 0).map (·.id) := List.mem_map_of_mem member
    rw [nodesFrom, numbered_ids, length_preorder, List.mem_range'_1] at listed
    exact Nat.lt_trans (by omega) small
  · exact ⟨nodeLength ▸ small, edgesFit, Nat.lt_of_le_of_lt deep small⟩

end Plan

structure BriefHead where
  nodeCount : Nat
  estimatedSize : Size
  requiresScopeLock : Bool
  exportedAt : String
  deriving DecidableEq

structure BriefNode where
  id : Nat
  kind : Kind
  service : String
  baseCost : Size
  deriving DecidableEq

structure BriefEdge where
  source : Nat
  target : Nat
  relation : String
  deriving DecidableEq

structure Brief where
  head : BriefHead
  nodes : List BriefNode
  edges : List BriefEdge
  deriving DecidableEq

def Metadata.brief (m : Metadata) : BriefHead :=
  ⟨m.nodeCount, m.estimatedSize, m.requiresScopeLock, m.exportedAt⟩

def Node.brief (n : Node) : BriefNode := ⟨n.id, n.kind, n.service, n.baseCost⟩

def Edge.brief (e : Edge) : BriefEdge := ⟨e.source, e.target, String.ofList e.relation.label⟩

def Graph.brief (g : Graph) : Brief := ⟨g.metadata.brief, g.nodes.map Node.brief, g.edges.map Edge.brief⟩

namespace BriefHead

def toJson (h : BriefHead) : JsonValue :=
  .object
    [("node_count", .number h.nodeCount), ("estimated_size", .number h.estimatedSize.toNat),
      ("requires_scope_lock", .flag h.requiresScopeLock), ("exported_at", .text h.exportedAt)]

def fields :=
  (.cons (.required "node_count" readNatural) <| .cons (.required "estimated_size" Size.reader) <|
    .cons (.required "requires_scope_lock" readFlag) <| .cons (.required "exported_at" readText) .nil :
    Fields _ _).map
  fun (nodeCount, estimatedSize, requiresScopeLock, exportedAt, ()) =>
    (⟨nodeCount, estimatedSize, requiresScopeLock, exportedAt⟩ : BriefHead)

def reader : Reader BriefHead := fields.read "metadata"

theorem takes (h : BriefHead) (fits : h.nodeCount < Size.limit) : Fields.Takes fields
    [("node_count", .number h.nodeCount), ("estimated_size", .number h.estimatedSize.toNat),
      ("requires_scope_lock", .flag h.requiresScopeLock), ("exported_at", .text h.exportedAt)] h := by
  unfold fields
  refine .map (a := (h.nodeCount, h.estimatedSize, h.requiresScopeLock, h.exportedAt, ())) _ ?_
  exact .cons (readNatural_reads fits) (.cons (Size.reads h.estimatedSize)
    (.cons (readFlag_reads h.requiresScopeLock) (.cons (readText_reads h.exportedAt) .nil)))

theorem reads (h : BriefHead) (fits : h.nodeCount < Size.limit) : Reads reader h.toJson h :=
  Fields.read_object (takes h fits) (by decide) "metadata"

end BriefHead

namespace BriefNode

def toJson (n : BriefNode) : JsonValue :=
  .object
    [("id", .number n.id), ("kind", n.kind.toJson), ("service", .text n.service),
      ("base_cost", .number n.baseCost.toNat)]

def fields :=
  (.cons (.required "id" readNatural) <| .cons (.required "kind" Kind.reader) <|
    .cons (.required "service" readText) <| .cons (.required "base_cost" Size.reader) .nil : Fields _ _).map
  fun (id, kind, service, baseCost, ()) => (⟨id, kind, service, baseCost⟩ : BriefNode)

def reader : Reader BriefNode := fields.read "node"

theorem takes (n : BriefNode) (fits : n.id < Size.limit) : Fields.Takes fields
    [("id", .number n.id), ("kind", n.kind.toJson), ("service", .text n.service),
      ("base_cost", .number n.baseCost.toNat)] n := by
  unfold fields
  refine .map (a := (n.id, n.kind, n.service, n.baseCost, ())) _ ?_
  exact .cons (readNatural_reads fits) (.cons n.kind.reads (.cons (readText_reads n.service)
    (.cons (Size.reads n.baseCost) .nil)))

theorem reads (n : BriefNode) (fits : n.id < Size.limit) : Reads reader n.toJson n :=
  Fields.read_object (takes n fits) (by decide) "node"

end BriefNode

namespace BriefEdge

def toJson (e : BriefEdge) : JsonValue :=
  .object [("from", .number e.source), ("to", .number e.target), ("relation", .text e.relation)]

def fields :=
  (.cons (.required "from" readNatural) <| .cons (.required "to" readNatural) <|
    .cons (.required "relation" readText) .nil : Fields _ _).map
  fun (source, target, relation, ()) => (⟨source, target, relation⟩ : BriefEdge)

def reader : Reader BriefEdge := fields.read "edge"

theorem takes (e : BriefEdge) (sourceFits : e.source < Size.limit) (targetFits : e.target < Size.limit) :
    Fields.Takes fields [("from", .number e.source), ("to", .number e.target), ("relation", .text e.relation)] e := by
  unfold fields
  refine .map (a := (e.source, e.target, e.relation, ())) _ ?_
  exact .cons (readNatural_reads sourceFits) (.cons (readNatural_reads targetFits)
    (.cons (readText_reads e.relation) .nil))

theorem reads (e : BriefEdge) (sourceFits : e.source < Size.limit) (targetFits : e.target < Size.limit) :
    Reads reader e.toJson e :=
  Fields.read_object (takes e sourceFits targetFits) (by decide) "edge"

end BriefEdge

namespace Brief

def toJson (b : Brief) : JsonValue :=
  .object
    [("metadata", b.head.toJson), ("nodes", .array (b.nodes.map BriefNode.toJson)),
      ("edges", .array (b.edges.map BriefEdge.toJson))]

def fields :=
  (.cons (.required "metadata" BriefHead.reader) <| .cons (.required "nodes" (readList BriefNode.reader)) <|
    .cons (.required "edges" (readList BriefEdge.reader)) .nil : Fields _ _).map
  fun (head, nodes, edges, ()) => (⟨head, nodes, edges⟩ : Brief)

def reader : Reader Brief := fields.read "plan"

theorem takes (g : Graph) (fits : g.Fits) : Fields.Takes fields
    [("metadata", g.brief.head.toJson), ("nodes", .array (g.brief.nodes.map BriefNode.toJson)),
      ("edges", .array (g.brief.edges.map BriefEdge.toJson))] g.brief := by
  have nodes : ∀ n ∈ g.brief.nodes, Reads BriefNode.reader n.toJson n := by
    intro n member
    obtain ⟨node, among, rfl⟩ := List.mem_map.mp member
    exact BriefNode.reads _ (fits.nodes node among)
  have edges : ∀ e ∈ g.brief.edges, Reads BriefEdge.reader e.toJson e := by
    intro e member
    obtain ⟨edge, among, rfl⟩ := List.mem_map.mp member
    obtain ⟨sourceFits, targetFits, _⟩ := fits.edges edge among
    exact BriefEdge.reads _ sourceFits targetFits
  unfold fields
  refine .map (a := (g.brief.head, g.brief.nodes, g.brief.edges, ())) _ ?_
  exact .cons (BriefHead.reads _ fits.metadata.1) (.cons (readList_reads nodes) (.cons (readList_reads edges) .nil))

theorem reads (g : Graph) (fits : g.Fits) : Reads reader g.brief.toJson g.brief :=
  Fields.read_object (takes g fits) (by decide) "plan"

end Brief

end ResolutionPlan
