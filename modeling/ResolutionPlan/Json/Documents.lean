import ResolutionPlan.Graph.Builder
import ResolutionPlan.Json.Reader

namespace ResolutionPlan

-- Every natural number that a reader accepts fits into a word.
def Size.reader : Json.Reader Size :=
  Json.mapped UInt64.ofNat Json.readNatural

namespace Analysis

def toJson (a : Analysis) : JsonValue :=
  .object [("estimated_size", .number a.estimatedSize.toNat), ("requires_scope_lock", .flag a.requiresScopeLock)]

def fields :=
  (.cons (.required "estimated_size" Size.reader) <|
    .cons (.required "requires_scope_lock" Json.readFlag) .nil : Json.Fields _ _).map
  fun (estimatedSize, requiresScopeLock, ()) => ({ estimatedSize, requiresScopeLock } : Analysis)

def reader : Json.Reader Analysis :=
  fields.read "AnalysisResult"

end Analysis

namespace CostTable

def toJson (t : CostTable) : JsonValue :=
  .object (Setting.all.map fun s => (s.name, .number (t.get s).toNat))

def field (s : Setting) : Json.Field Size :=
  .withDefault s.name Size.reader (stock.get s)

def fields :=
  (.cons (field .constructor) <| .cons (field .scoped) <| .cons (field .constant) <|
    .cons (field .serviceProvider) <| .cons (field .factory) .nil : Json.Fields _ _).map
  fun (perConstructor, perScoped, perConstant, perServiceProvider, perFactory, ()) =>
    ({ perConstructor, perScoped, perConstant, perServiceProvider, perFactory } : CostTable)

def reader : Json.Reader CostTable :=
  fields.read "EmitCostTable"

def ofJson (text : String) : Except Error CostTable :=
  match Json.readAll reader text with
  | .ok t => .ok t
  | .error fault => .error (.config fault.message)

end CostTable

namespace Lifetime

def toJson (l : Lifetime) : JsonValue := .text l.name

def reader : Json.Reader Lifetime :=
  Json.Choice.read (all.map fun l => (l.name, .bare l))

end Lifetime

namespace Kind

def toJson (k : Kind) : JsonValue := .text k.name

def reader : Json.Reader Kind :=
  Json.Choice.read (all.map fun k => (k.name, .bare k))

end Kind

namespace Relation

def toJson : Relation → JsonValue
  | .wraps => .text "Wraps"
  | .parameter position => .object [("Parameter", .number position)]
  | .element position => .object [("Element", .number position)]

def reader : Json.Reader Relation :=
  Json.Choice.read
    [("Wraps", .bare .wraps), ("Parameter", .carrying (Json.mapped .parameter Json.readNatural)),
      ("Element", .carrying (Json.mapped .element Json.readNatural))]

end Relation

def optionalJson (encode : α → JsonValue) : Option α → JsonValue
  | some a => encode a
  | none => .null

namespace Node

def toJson (n : Node) : JsonValue :=
  .object
    [("id", .number n.id), ("kind", n.kind.toJson), ("service", .text n.service), ("label", .text n.label),
      ("lifetime", optionalJson Lifetime.toJson n.lifetime), ("base_cost", .number n.baseCost.toNat),
      ("implementation", optionalJson .text n.implementation)]

def fields :=
  (.cons (.required "id" Json.readNatural) <| .cons (.required "kind" Kind.reader) <|
    .cons (.required "service" Json.readText) <| .cons (.required "label" Json.readText) <|
    .cons (.optional "lifetime" Lifetime.reader) <| .cons (.required "base_cost" Size.reader) <|
    .cons (.optional "implementation" Json.readText) .nil : Json.Fields _ _).map
  fun (id, kind, service, label, lifetime, baseCost, implementation, ()) =>
    ({ id, kind, service, label, lifetime, baseCost, implementation } : Node)

def reader : Json.Reader Node :=
  fields.read "PlanNode"

end Node

namespace Edge

def toJson (e : Edge) : JsonValue :=
  .object [("from", .number e.source), ("to", .number e.target), ("relation", e.relation.toJson)]

def fields :=
  (.cons (.required "from" Json.readNatural) <| .cons (.required "to" Json.readNatural) <|
    .cons (.required "relation" Relation.reader) .nil : Json.Fields _ _).map
  fun (source, target, relation, ()) => ({ source, target, relation } : Edge)

def reader : Json.Reader Edge :=
  fields.read "PlanEdge"

end Edge

namespace Metadata

def toJson (m : Metadata) : JsonValue :=
  .object
    [("node_count", .number m.nodeCount), ("edge_count", .number m.edgeCount),
      ("max_depth", .number m.maxDepth), ("estimated_size", .number m.estimatedSize.toNat),
      ("requires_scope_lock", .flag m.requiresScopeLock), ("exported_at", .text m.exportedAt),
      ("version", .text m.version)]

def fields :=
  (.cons (.required "node_count" Json.readNatural) <| .cons (.required "edge_count" Json.readNatural) <|
    .cons (.required "max_depth" Json.readNatural) <| .cons (.required "estimated_size" Size.reader) <|
    .cons (.required "requires_scope_lock" Json.readFlag) <| .cons (.required "exported_at" Json.readText) <|
    .cons (.required "version" Json.readText) .nil : Json.Fields _ _).map
  fun (nodeCount, edgeCount, maxDepth, estimatedSize, requiresScopeLock, exportedAt, version, ()) =>
    ({ nodeCount, edgeCount, maxDepth, estimatedSize, requiresScopeLock, exportedAt, version } : Metadata)

def reader : Json.Reader Metadata :=
  fields.read "PlanGraphMetadata"

end Metadata

namespace Graph

def toJson (g : Graph) : JsonValue :=
  .object
    [("nodes", .array (g.nodes.map Node.toJson)), ("edges", .array (g.edges.map Edge.toJson)),
      ("metadata", g.metadata.toJson)]

def fields :=
  (.cons (.required "nodes" (Json.readList Node.reader)) <|
    .cons (.required "edges" (Json.readList Edge.reader)) <|
    .cons (.required "metadata" Metadata.reader) .nil : Json.Fields _ _).map
  fun (nodes, edges, metadata, ()) => ({ nodes, edges, metadata } : Graph)

def reader : Json.Reader Graph :=
  fields.read "PlanGraph"

def ofJson (text : String) : Except Json.Fault Graph :=
  Json.readAll reader text

end Graph

end ResolutionPlan
