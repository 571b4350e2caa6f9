import ResolutionPlan.Json.Documents
import ResolutionPlan.Yaml

namespace ResolutionPlan

open Text

namespace Dot

-- A quote in a label is written with a backslash before it; nothing else is changed.
def escapeChar (c : Char) : List Char :=
  if c = '"' then ['\\', '"'] else [c]

def escape (text : String) : List Char :=
  text.toList.flatMap escapeChar

def shape (k : Kind) : List Char :=
  if k.isLeaf then "ellipse".toList else "box".toList

def color : Option Lifetime → List Char
  | some .singleton => "lightblue".toList
  | some .scoped => "salmon".toList
  | some .transient => "lightyellow".toList
  | none => "white".toList

def style : Relation → List Char
  | .wraps => "dashed".toList
  | .parameter _ => "solid".toList
  | .element _ => "bold".toList

def costLine (n : Node) : List Char :=
  n.kind.name.toList ++ " (+".toList ++ decimal n.baseCost.toNat ++ ")".toList

def nodeStatement (n : Node) : List Char :=
  "  n".toList ++ decimal n.id ++ " [label=\"".toList ++ escape n.label ++ "\\n".toList ++ costLine n
    ++ "\", shape=".toList ++ shape n.kind ++ ", fillcolor=".toList ++ color n.lifetime
    ++ ", style=filled];\n".toList

def edgeStatement (e : Edge) : List Char :=
  "  n".toList ++ decimal e.source ++ " -> n".toList ++ decimal e.target ++ " [label=\"".toList
    ++ e.relation.label ++ "\", style=".toList ++ style e.relation ++ "];\n".toList

def document (g : Graph) : List Char :=
  "digraph CallSitePlan \x7b\n  rankdir=TB;\n  node [shape=box];\n\n".toList
    ++ g.nodes.flatMap nodeStatement ++ '\n' :: g.edges.flatMap edgeStatement ++ "\x7d\n".toList

end Dot

def Graph.toDot (g : Graph) : String :=
  String.ofList (Dot.document g)

namespace Mermaid

-- Quotes and angle brackets would end a label; they are named instead.
def escapeChar (c : Char) : List Char :=
  if c = '"' then "#quot;".toList
  else if c = '<' then "#lt;".toList
  else if c = '>' then "#gt;".toList
  else [c]

def escape (text : String) : List Char :=
  text.toList.flatMap escapeChar

def nodeText (n : Node) : List Char :=
  n.kind.name.toList ++ ": ".toList ++ escape n.label

def nodeStatement (n : Node) : List Char :=
  "  n".toList ++ decimal n.id ++
    (if n.kind.isLeaf then "([\"".toList ++ nodeText n ++ "\"])\n".toList
      else "[\"".toList ++ nodeText n ++ "\"]\n".toList)

def arrow : Relation → List Char
  | .wraps => "-.->".toList
  | .element _ => "==>".toList
  | .parameter _ => "-->".toList

def edgeStatement (e : Edge) : List Char :=
  "  n".toList ++ decimal e.source ++ " ".toList ++ arrow e.relation ++ "|".toList ++ e.relation.label
    ++ "| n".toList ++ decimal e.target ++ "\n".toList

def styles : List Char :=
  "\n  classDef singleton fill:#e1f5fe\n  classDef scoped fill:#ffcdd2\n  classDef transient fill:#fff3e0\n".toList

def className : Lifetime → List Char
  | .singleton => "singleton".toList
  | .scoped => "scoped".toList
  | .transient => "transient".toList

def classStatement (n : Node) : List Char :=
  match n.lifetime with
  | some lifetime => "  class n".toList ++ decimal n.id ++ " ".toList ++ className lifetime ++ "\n".toList
  | none => []

def document (g : Graph) : List Char :=
  "graph TD\n".toList ++ g.nodes.flatMap nodeStatement ++ g.edges.flatMap edgeStatement ++ styles
    ++ g.nodes.flatMap classStatement

end Mermaid

def Graph.toMermaid (g : Graph) : String :=
  String.ofList (Mermaid.document g)

namespace Summary

def flag (b : Bool) : List Char :=
  if b then "true".toList else "false".toList

def separated (separator : List Char) : List (List Char) → List Char
  | [] => []
  | [item] => item
  | item :: rest => item ++ separator ++ separated separator rest

namespace Json

def header (m : Metadata) : List Char :=
  "\x7b\n  \"metadata\": \x7b\n    \"node_count\": ".toList ++ decimal m.nodeCount
    ++ ",\n    \"estimated_size\": ".toList ++ decimal m.estimatedSize.toNat
    ++ ",\n    \"requires_scope_lock\": ".toList ++ flag m.requiresScopeLock
    ++ ",\n    \"exported_at\": \"".toList ++ m.exportedAt.toList ++ "\"\n  \x7d,\n".toList

def node (n : Node) : List Char :=
  "    \x7b \"id\": ".toList ++ decimal n.id ++ ", \"kind\": \"".toList ++ n.kind.name.toList
    ++ "\", \"service\": \"".toList ++ Dot.escape n.service ++ "\", \"base_cost\": ".toList
    ++ decimal n.baseCost.toNat ++ " \x7d".toList

def edge (e : Edge) : List Char :=
  "    \x7b \"from\": ".toList ++ decimal e.source ++ ", \"to\": ".toList ++ decimal e.target
    ++ ", \"relation\": \"".toList ++ e.relation.label ++ "\" \x7d".toList

def document (g : Graph) : List Char :=
  header g.metadata
    ++ "  \"nodes\": [\n".toList ++ separated ",\n".toList (g.nodes.map node) ++ "\n  ],\n".toList
    ++ "  \"edges\": [\n".toList ++ separated ",\n".toList (g.edges.map edge) ++ "\n  ]\n\x7d".toList

end Json

namespace Yaml

def header (m : Metadata) : List Char :=
  "metadata:\n  node_count: ".toList ++ decimal m.nodeCount
    ++ "\n  estimated_size: ".toList ++ decimal m.estimatedSize.toNat
    ++ "\n  requires_scope_lock: ".toList ++ flag m.requiresScopeLock
    ++ "\n  exported_at: \"".toList ++ m.exportedAt.toList ++ "\"\n".toList

def node (n : Node) : List Char :=
  "  - id: ".toList ++ decimal n.id ++ "\n    kind: ".toList ++ n.kind.name.toList
    ++ "\n    service: \"".toList ++ Dot.escape n.service ++ "\"\n    base_cost: ".toList
    ++ decimal n.baseCost.toNat ++ "\n".toList

def edge (e : Edge) : List Char :=
  "  - from: ".toList ++ decimal e.source ++ "\n    to: ".toList ++ decimal e.target
    ++ "\n    relation: \"".toList ++ e.relation.label ++ "\"\n".toList

def document (g : Graph) : List Char :=
  header g.metadata ++ "nodes:\n".toList ++ g.nodes.flatMap node ++ "edges:\n".toList ++ g.edges.flatMap edge

end Yaml

end Summary

namespace Yaml

def number (n : Nat) : List Char := decimal n ++ ['\n']

def flag (b : Bool) : List Char := (if b then "true\n" else "false\n").toList

def optional (line : α → List Char) : Option α → List Char
  | some a => line a
  | none => "null\n".toList

def relation : Relation → List Char
  | .wraps => "Wraps\n".toList
  | .parameter position => "!Parameter ".toList ++ number position
  | .element position => "!Element ".toList ++ number position

def node (n : Node) : List Char :=
  "- id: ".toList ++ number n.id
    ++ "  kind: ".toList ++ n.kind.name.toList ++ "\n  service: ".toList ++ scalarLine n.service
    ++ "  label: ".toList ++ scalarLine n.label
    ++ "  lifetime: ".toList ++ optional (fun l => l.name.toList ++ ['\n']) n.lifetime
    ++ "  base_cost: ".toList ++ number n.baseCost.toNat
    ++ "  implementation: ".toList ++ optional scalarLine n.implementation

def edge (e : Edge) : List Char :=
  "- from: ".toList ++ number e.source ++ "  to: ".toList ++ number e.target
    ++ "  relation: ".toList ++ relation e.relation

def metadata (m : Metadata) : List Char :=
  "metadata:\n  node_count: ".toList ++ number m.nodeCount
    ++ "  edge_count: ".toList ++ number m.edgeCount
    ++ "  max_depth: ".toList ++ number m.maxDepth
    ++ "  estimated_size: ".toList ++ number m.estimatedSize.toNat
    ++ "  requires_scope_lock: ".toList ++ flag m.requiresScopeLock
    ++ "  exported_at: ".toList ++ scalarLine m.exportedAt
    ++ "  version: ".toList ++ scalarLine m.version

-- A key with its list; an empty list stays on the line of the key.
def list (key : List Char) (line : α → List Char) : List α → List Char
  | [] => key ++ ": []\n".toList
  | items => key ++ ":\n".toList ++ items.flatMap line

def document (g : Graph) : List Char :=
  list "nodes".toList node g.nodes ++ list "edges".toList edge g.edges ++ metadata g.metadata

end Yaml

inductive Format where
  | json
  | yaml
  | dot
  | mermaid
  deriving DecidableEq

-- Whether JSON and YAML hold every field of the graph or only the main ones.
inductive Detail where
  | complete
  | brief
  deriving DecidableEq

def Graph.render (g : Graph) (detail : Detail) : Format → String
  | .json =>
    match detail with
    | .complete => g.toJson.toPretty
    | .brief => String.ofList (Summary.Json.document g)
  | .yaml =>
    match detail with
    | .complete => String.ofList (Yaml.document g)
    | .brief => String.ofList (Summary.Yaml.document g)
  | .dot => g.toDot
  | .mermaid => g.toMermaid

end ResolutionPlan
