import ResolutionPlan.Text.Notation

namespace ResolutionPlan

open Text

-- How long a cached instance is kept: as long as the root provider, as long as its scope, not at all.
inductive Lifetime where
  | singleton
  | scoped
  | transient
  deriving DecidableEq

namespace Lifetime

def all : List Lifetime := [.singleton, .scoped, .transient]

def name : Lifetime → String
  | .singleton => "Singleton"
  | .scoped => "Scoped"
  | .transient => "Transient"

def isScopeBound : Lifetime → Bool
  | .scoped => true
  | _ => false

def ofName? (name : String) : Option Lifetime :=
  all.find? (·.name == name)

theorem ofName?_name (l : Lifetime) : ofName? l.name = some l := by
  cases l <;> decide

end Lifetime

inductive Kind where
  | transient
  | constructor
  | singleton
  | scoped
  | constant
  | createInstance
  | serviceProvider
  | serviceScopeFactory
  | enumerable
  | factory
  deriving DecidableEq

namespace Kind

def all : List Kind :=
  [.transient, .constructor, .singleton, .scoped, .constant, .createInstance, .serviceProvider,
    .serviceScopeFactory, .enumerable, .factory]

def name : Kind → String
  | .transient => "Transient"
  | .constructor => "Constructor"
  | .singleton => "Singleton"
  | .scoped => "Scoped"
  | .constant => "Constant"
  | .createInstance => "CreateInstance"
  | .serviceProvider => "ServiceProvider"
  | .serviceScopeFactory => "ServiceScopeFactory"
  | .enumerable => "Enumerable"
  | .factory => "Factory"

def ofName? (name : String) : Option Kind :=
  all.find? (·.name == name)

def index (k : Kind) : Nat :=
  all.idxOf k

def isLeaf : Kind → Bool
  | .constant | .createInstance | .serviceProvider | .serviceScopeFactory | .factory => true
  | _ => false

-- The kind of a wrapper that caches for the given time, and the way back.
def ofLifetime : Lifetime → Kind
  | .singleton => .singleton
  | .scoped => .scoped
  | .transient => .transient

def lifetime? : Kind → Option Lifetime
  | .singleton => some .singleton
  | .scoped => some .scoped
  | .transient => some .transient
  | _ => none

theorem ofName?_name (k : Kind) : ofName? k.name = some k := by
  cases k <;> decide

theorem lifetime?_exact (k : Kind) (l : Lifetime) : k.lifetime? = some l ↔ k = ofLifetime l := by
  cases k <;> cases l <;> decide

end Kind

-- The identity of a concrete type. Two types may print the same name.
structure TypeIdentity where
  label : String
  deriving DecidableEq

-- What a plan produces: a concrete type or an interface, by its printed name, under a registration name
-- if the service is registered more than once. Keys of concrete types are told apart by the identity too.
structure Key where
  concrete : Option TypeIdentity
  displayName : String
  registration : Option String
  deriving DecidableEq

namespace Key

def ofType (id : TypeIdentity) (name : String) : Key := ⟨some id, name, none⟩

def ofInterface (name : String) : Key := ⟨none, name, none⟩

def named (k : Key) (registration : String) : Key := { k with registration := some registration }

def shortName (k : Key) : String :=
  shorten k.displayName

def text (k : Key) : String :=
  match k.registration with
  | some name => k.displayName ++ "[" ++ name ++ "]"
  | none => k.displayName

-- How graphs show the key: the short name, and the registration name after it.
def label (k : Key) : String :=
  match k.registration with
  | some name => k.shortName ++ " (" ++ name ++ ")"
  | none => k.shortName

def describe (k : Key) : Description :=
  let texts (form : String) (id : List Description) (names : List String) : Description :=
    .tuple form (id ++ names.map fun name => .atom (quoted name))
  let identity (id : TypeIdentity) : Description := .atom ("TypeId(" ++ id.label ++ ")")
  match k.concrete, k.registration with
  | some id, none => texts "Type" [identity id] [k.displayName]
  | some id, some name => texts "TypeNamed" [identity id] [k.displayName, name]
  | none, none => texts "Trait" [] [k.displayName]
  | none, some name => texts "TraitNamed" [] [k.displayName, name]

end Key

-- An instance held by a plan, of one of the types whose values can be told apart.
inductive Value where
  | nat8 (n : UInt8)
  | nat16 (n : UInt16)
  | nat32 (n : UInt32)
  | nat64 (n : UInt64)
  | int64 (n : Int64)
  | flag (b : Bool)
  | unit
  | text (s : String)
  deriving DecidableEq

namespace Value

def typeKey : Value → Key
  | .nat8 _ => .ofType ⟨"u8"⟩ "u8"
  | .nat16 _ => .ofType ⟨"u16"⟩ "u16"
  | .nat32 _ => .ofType ⟨"u32"⟩ "u32"
  | .nat64 _ => .ofType ⟨"u64"⟩ "u64"
  | .int64 _ => .ofType ⟨"i64"⟩ "i64"
  | .flag _ => .ofType ⟨"bool"⟩ "bool"
  | .unit => .ofType ⟨"unit"⟩ "()"
  | .text _ => .ofType ⟨"String"⟩ "alloc::string::String"

end Value

-- A caller's factory: what it makes, told by how often it has been called before. Plans that share a factory share its
-- identity, and so its count of calls.
structure Factory (V : Type) where
  id : Nat
  make : Nat → V

end ResolutionPlan
