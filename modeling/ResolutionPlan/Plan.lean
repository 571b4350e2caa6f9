import ResolutionPlan.Key

namespace ResolutionPlan

open Text

variable {V : Type}

inductive Leaf (V : Type) where
  | constant (service : Key) (value : V)
  | createInstance (service : Key) (implementation : String)
  | serviceProvider (service : Key)
  | serviceScopeFactory (service : Key)
  | factory (service : Key) (maker : Factory V)

namespace Leaf

def kind : Leaf V → Kind
  | .constant .. => .constant
  | .createInstance .. => .createInstance
  | .serviceProvider .. => .serviceProvider
  | .serviceScopeFactory .. => .serviceScopeFactory
  | .factory .. => .factory

def service : Leaf V → Key
  | .constant service _ | .createInstance service _ | .serviceProvider service
  | .serviceScopeFactory service | .factory service _ => service

def implementation? : Leaf V → Option String
  | .createInstance _ implementation => some implementation
  | _ => none

theorem kind_isLeaf (l : Leaf V) : l.kind.isLeaf = true := by
  cases l <;> rfl

end Leaf

-- `cached` keeps the instance of its inner plan for a lifetime; a transient one keeps nothing.
inductive Plan (V : Type) where
  | leaf (site : Leaf V)
  | cached (lifetime : Lifetime) (service : Key) (inner : Plan V)
  | constructor (service : Key) (implementation : String) (parameters : List (Plan V))
  | enumerable (service : Key) (item : Key) (elements : List (Plan V))

namespace Plan

def kind : Plan V → Kind
  | .leaf site => site.kind
  | .cached lifetime _ _ => .ofLifetime lifetime
  | .constructor .. => .constructor
  | .enumerable .. => .enumerable

def service : Plan V → Key
  | .leaf site => site.service
  | .cached _ service _ | .constructor service _ _ | .enumerable service _ _ => service

def children : Plan V → List (Plan V)
  | .leaf _ => []
  | .cached _ _ inner => [inner]
  | .constructor _ _ parameters => parameters
  | .enumerable _ _ elements => elements

def implementation? : Plan V → Option String
  | .leaf site => site.implementation?
  | .constructor _ implementation _ => some implementation
  | _ => none

def item? : Plan V → Option Key
  | .enumerable _ item _ => some item
  | _ => none

def constant? : Plan V → Option V
  | .leaf (.constant _ value) => some value
  | _ => none

def cacheLifetime? : Plan V → Option Lifetime
  | .cached lifetime _ _ => some lifetime
  | _ => none

-- A constant under the key of its value's own type.
def constantValue (value : Value) : Plan Value := .leaf (.constant value.typeKey value)

theorem children_of_isLeaf {p : Plan V} (leaf : p.kind.isLeaf = true) : p.children = [] := by
  cases p with
  | leaf => rfl
  | cached lifetime _ _ => cases lifetime <;> simp [kind, Kind.ofLifetime, Kind.isLeaf] at leaf
  | constructor => simp [kind, Kind.isLeaf] at leaf
  | enumerable => simp [kind, Kind.isLeaf] at leaf

theorem cacheLifetime?_kind (p : Plan V) : p.cacheLifetime? = p.kind.lifetime? := by
  cases p with
  | leaf site => cases site <;> rfl
  | cached lifetime _ _ => cases lifetime <;> rfl
  | constructor => rfl
  | enumerable => rfl

mutual
def nodeCount : Plan V → Nat
  | .leaf _ => 1
  | .cached _ _ inner => 1 + inner.nodeCount
  | .constructor _ _ parameters => 1 + nodeCountAll parameters
  | .enumerable _ _ elements => 1 + nodeCountAll elements

def nodeCountAll : List (Plan V) → Nat
  | [] => 0
  | p :: rest => p.nodeCount + nodeCountAll rest
end

mutual
def depth : Plan V → Nat
  | .leaf _ => 1
  | .cached _ _ inner => 1 + inner.depth
  | .constructor _ _ parameters => 1 + depthAll parameters
  | .enumerable _ _ elements => 1 + depthAll elements

def depthAll : List (Plan V) → Nat
  | [] => 0
  | p :: rest => max p.depth (depthAll rest)
end

-- The subplans are put before `rest`, so that a deep plan costs no copying.
mutual
def preorderOnto (rest : List (Plan V)) : Plan V → List (Plan V)
  | .leaf site => .leaf site :: rest
  | .cached lifetime service inner => .cached lifetime service inner :: inner.preorderOnto rest
  | .constructor service implementation parameters =>
    .constructor service implementation parameters :: preorderAllOnto rest parameters
  | .enumerable service item elements => .enumerable service item elements :: preorderAllOnto rest elements

def preorderAllOnto (rest : List (Plan V)) : List (Plan V) → List (Plan V)
  | [] => rest
  | p :: others => p.preorderOnto (preorderAllOnto rest others)
end

def preorder (p : Plan V) : List (Plan V) :=
  p.preorderOnto []

theorem nodeCount_eq (p : Plan V) : p.nodeCount = 1 + nodeCountAll p.children := by
  cases p <;> simp [nodeCount, children, nodeCountAll]

theorem depth_eq (p : Plan V) : p.depth = 1 + depthAll p.children := by
  cases p <;> simp [depth, children, depthAll]

theorem preorderOnto_eq (rest : List (Plan V)) (p : Plan V) :
    p.preorderOnto rest = p :: preorderAllOnto rest p.children := by
  cases p <;> simp [preorderOnto, children, preorderAllOnto]

mutual
theorem length_preorderOnto (rest : List (Plan V)) : ∀ p : Plan V,
    (p.preorderOnto rest).length = p.nodeCount + rest.length
  | .leaf _ => by simp [preorderOnto, nodeCount]; omega
  | .cached _ _ inner => by
    have inside := length_preorderOnto rest inner
    simp [preorderOnto, nodeCount]; omega
  | .constructor _ _ parameters => by
    have inside := length_preorderAllOnto rest parameters
    simp [preorderOnto, nodeCount]; omega
  | .enumerable _ _ elements => by
    have inside := length_preorderAllOnto rest elements
    simp [preorderOnto, nodeCount]; omega

theorem length_preorderAllOnto (rest : List (Plan V)) : ∀ ps : List (Plan V),
    (preorderAllOnto rest ps).length = nodeCountAll ps + rest.length
  | [] => by simp [preorderAllOnto, nodeCountAll]
  | p :: others => by
    have here := length_preorderOnto (preorderAllOnto rest others) p
    have there := length_preorderAllOnto rest others
    simp [preorderAllOnto, nodeCountAll]; omega
end

theorem length_preorder (p : Plan V) : p.preorder.length = p.nodeCount := by
  simpa [preorder] using length_preorderOnto [] p

mutual
def constructions : Plan V → Nat
  | .leaf (.createInstance _ _) => 1
  | .leaf _ => 0
  | .cached _ _ inner => inner.constructions
  | .constructor _ _ parameters => 1 + constructionsAll parameters
  | .enumerable _ _ elements => constructionsAll elements

def constructionsAll : List (Plan V) → Nat
  | [] => 0
  | p :: rest => p.constructions + constructionsAll rest
end

-- The same count where children are looked at only while the budget lasts; a level costs one unit.
mutual
def constructionsWithin (budget : Nat) : Plan V → Nat
  | .leaf (.createInstance _ _) => 1
  | .leaf _ => 0
  | .cached _ _ inner => if budget = 0 then 0 else inner.constructionsWithin (budget - 1)
  | .constructor _ _ parameters => 1 + (if budget = 0 then 0 else constructionsWithinAll (budget - 1) parameters)
  | .enumerable _ _ elements => if budget = 0 then 0 else constructionsWithinAll (budget - 1) elements

def constructionsWithinAll (budget : Nat) : List (Plan V) → Nat
  | [] => 0
  | p :: rest => p.constructionsWithin budget + constructionsWithinAll budget rest
end

end Plan

def Leaf.describe (l : Leaf V) : Description :=
  let site (rest : List (String × Description)) : Description :=
    .tuple l.kind.name [.record (l.kind.name ++ "CallSite") (("service", l.service.describe) :: rest)]
  match l with
  | .constant _ _ => site [("value", .atom (quoted "<instance>"))]
  | .createInstance _ implementation => site [("implementation", .atom (quoted implementation))]
  | .serviceProvider _ => site []
  | .serviceScopeFactory _ => site []
  | .factory _ _ => site [("factory", .atom (quoted "<fn>"))]

namespace Plan

mutual
def describeIn [Monad m] : Plan V → m Description
  | .leaf site => return site.describe
  | .cached lifetime service inner => do
    let inner ← inner.describeIn
    return .tuple lifetime.name [.record (lifetime.name ++ "CallSite")
      [("service", service.describe), ("inner", inner)]]
  | .constructor service implementation parameters => do
    let parameters ← describeAllIn parameters
    return .tuple "Constructor" [.record "ConstructorCallSite"
      [("service", service.describe), ("implementation", .atom (quoted implementation)), ("parameters", .list parameters)]]
  | .enumerable service item elements => do
    let elements ← describeAllIn elements
    return .tuple "Enumerable" [.record "EnumerableCallSite"
      [("service", service.describe), ("item_service", item.describe), ("elements", .list elements)]]

def describeAllIn [Monad m] : List (Plan V) → m (List Description)
  | [] => return []
  | p :: rest => do
    let first ← p.describeIn
    let others ← describeAllIn rest
    return first :: others
end

def describe (p : Plan V) : Description :=
  Id.run p.describeIn

def describeAll (ps : List (Plan V)) : List Description :=
  Id.run (describeAllIn ps)

theorem describe_cached (lifetime : Lifetime) (service : Key) (inner : Plan V) :
    (cached lifetime service inner).describe = .tuple lifetime.name [.record (lifetime.name ++ "CallSite")
      [("service", service.describe), ("inner", inner.describe)]] := rfl

theorem describe_constructor (service : Key) (implementation : String) (parameters : List (Plan V)) :
    (constructor service implementation parameters).describe = .tuple "Constructor" [.record "ConstructorCallSite"
      [("service", service.describe), ("implementation", .atom (quoted implementation)),
        ("parameters", .list (describeAll parameters))]] := rfl

theorem describe_enumerable (service item : Key) (elements : List (Plan V)) :
    (enumerable service item elements).describe = .tuple "Enumerable" [.record "EnumerableCallSite"
      [("service", service.describe), ("item_service", item.describe), ("elements", .list (describeAll elements))]] := rfl

theorem describeAll_cons (p : Plan V) (rest : List (Plan V)) : describeAll (p :: rest) = p.describe :: describeAll rest :=
  rfl

def at? (p : Plan V) : List Nat → Option (Plan V)
  | [] => some p
  | position :: path => (p.children[position]?).bind (·.at? path)

def maker? : Plan V → Option (Factory V)
  | .leaf (.factory _ maker) => some maker
  | _ => none

def factories (p : Plan V) : List (Factory V) :=
  p.preorder.filterMap maker?

-- Gives every factory an identity of its own: `next`, `next + 1` and so on in pre-order.
mutual
def distinguishFrom (next : Nat) : Plan V → Plan V × Nat
  | .leaf (.factory service maker) => (.leaf (.factory service { maker with id := next }), next + 1)
  | .leaf site => (.leaf site, next)
  | .cached lifetime service inner =>
    let (inner, next) := inner.distinguishFrom next
    (.cached lifetime service inner, next)
  | .constructor service implementation parameters =>
    let (parameters, next) := distinguishAll next parameters
    (.constructor service implementation parameters, next)
  | .enumerable service item elements =>
    let (elements, next) := distinguishAll next elements
    (.enumerable service item elements, next)

def distinguishAll (next : Nat) : List (Plan V) → List (Plan V) × Nat
  | [] => ([], next)
  | p :: rest =>
    let (p, next) := p.distinguishFrom next
    let (rest, next) := distinguishAll next rest
    (p :: rest, next)
end

def distinguish (p : Plan V) : Plan V :=
  (p.distinguishFrom 0).1

end Plan

end ResolutionPlan
