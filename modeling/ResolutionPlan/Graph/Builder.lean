import ResolutionPlan.Analysis

namespace ResolutionPlan

open Text

variable {V : Type}

-- How a child hangs off its parent: the inner plan of a wrapper, a parameter, an element.
inductive Relation where
  | wraps
  | parameter (position : Nat)
  | element (position : Nat)
  deriving DecidableEq

def Relation.label : Relation → List Char
  | .wraps => "wraps".toList
  | .parameter position => "param ".toList ++ decimal position
  | .element position => "item ".toList ++ decimal position

structure Node where
  id : Nat
  kind : Kind
  service : String
  label : String
  lifetime : Option Lifetime
  baseCost : Size
  implementation : Option String
  deriving DecidableEq

structure Edge where
  source : Nat
  target : Nat
  relation : Relation
  deriving DecidableEq

-- `exportedAt` is a time stamp as text; the library reads no clock.
structure Metadata where
  nodeCount : Nat
  edgeCount : Nat
  maxDepth : Nat
  estimatedSize : Size
  requiresScopeLock : Bool
  exportedAt : String
  version : String
  deriving DecidableEq

structure Graph where
  nodes : List Node
  edges : List Edge
  metadata : Metadata
  deriving DecidableEq

namespace Graph

def formatVersion : String := "1.0"

def scopedNodes (g : Graph) : List Nat :=
  (g.nodes.filter (·.kind == .scoped)).map (·.id)

end Graph

structure GraphBuilder where
  costs : CostTable
  nodes : Array Node
  edges : Array Edge

namespace GraphBuilder

def start (costs : CostTable) : GraphBuilder := ⟨costs, #[], #[]⟩

def addNode (b : GraphBuilder) (kind : Kind) (service : Key) (implementation : Option String)
    (parent : Option (Nat × Relation)) : Nat × GraphBuilder :=
  let id := b.nodes.size
  let node : Node :=
    { id, kind, service := service.displayName, label := service.label, lifetime := kind.lifetime?,
      baseCost := b.costs.baseCost kind, implementation }
  let edges := match parent with
    | some (source, relation) => b.edges.push ⟨source, id, relation⟩
    | none => b.edges
  (id, { b with nodes := b.nodes.push node, edges })

-- Adds a plan below the parent, if one is given, and answers the number of the plan's root. The walk is one for every
-- monad, so that what else may happen during it can be told.
mutual
def walk [Monad m] (b : GraphBuilder) (parent : Option (Nat × Relation)) : Plan V → m (Nat × GraphBuilder)
  | .leaf site => return b.addNode site.kind site.service site.implementation? parent
  | .cached lifetime service inner => do
    let (id, b) := b.addNode (.ofLifetime lifetime) service none parent
    let (_, b) ← b.walk (some (id, .wraps)) inner
    return (id, b)
  | .constructor service implementation parameters => do
    let (id, b) := b.addNode .constructor service (some implementation) parent
    let b ← b.walkAll id .parameter 0 parameters
    return (id, b)
  | .enumerable service _ elements => do
    let (id, b) := b.addNode .enumerable service none parent
    let b ← b.walkAll id .element 0 elements
    return (id, b)

def walkAll [Monad m] (b : GraphBuilder) (parent : Nat) (relation : Nat → Relation) (position : Nat) :
    List (Plan V) → m GraphBuilder
  | [] => return b
  | p :: rest => do
    let (_, b) ← b.walk (some (parent, relation position)) p
    b.walkAll parent relation (position + 1) rest
end

def visit (b : GraphBuilder) (parent : Option (Nat × Relation)) (p : Plan V) : Nat × GraphBuilder :=
  Id.run (b.walk parent p)

def visitAll (b : GraphBuilder) (parent : Nat) (relation : Nat → Relation) (position : Nat) (ps : List (Plan V)) :
    GraphBuilder :=
  Id.run (b.walkAll parent relation position ps)

-- Counts are of everything visited; depth, size and lock are of the last plan alone.
def finish (all : GraphBuilder) (exportedAt : String) (last : Plan V) (found : Analysis) : Graph :=
  { nodes := all.nodes.toList
    edges := all.edges.toList
    metadata :=
      { nodeCount := all.nodes.size
        edgeCount := all.edges.size
        maxDepth := last.depth
        estimatedSize := found.estimatedSize
        requiresScopeLock := found.requiresScopeLock
        exportedAt
        version := Graph.formatVersion } }

def build (b : GraphBuilder) (exportedAt : String) (p : Plan V) : Graph :=
  (b.visit none p).2.finish exportedAt p (p.analyze b.costs)

end GraphBuilder

def Plan.graph (costs : CostTable) (exportedAt : String) (p : Plan V) : Graph :=
  (GraphBuilder.start costs).build exportedAt p

def Plan.graphIn [Monad m] (costs : CostTable) (exportedAt : String) (p : Plan V) : m Graph := do
  let (_, all) ← (GraphBuilder.start costs).walk none p
  let found ← p.visit costs .root
  return all.finish exportedAt p found

end ResolutionPlan
