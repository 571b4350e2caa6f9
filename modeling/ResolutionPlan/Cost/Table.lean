import ResolutionPlan.Key

namespace ResolutionPlan

open Text

abbrev Size := UInt64

namespace Size

abbrev limit : Nat := 18446744073709551616

def largest : Size := UInt64.ofNat (limit - 1)

def plus (a b : Size) : Size :=
  if a.toNat + b.toNat < limit then a + b else largest

def ofNat? (n : Nat) : Option Size :=
  if n < limit then some (UInt64.ofNat n) else none

theorem toNat_lt (a : Size) : a.toNat < limit :=
  UInt64.toNat_lt a

theorem toNat_plus (a b : Size) : (plus a b).toNat = min (limit - 1) (a.toNat + b.toNat) := by
  unfold plus
  split
  · next fits =>
    rw [UInt64.toNat_add, Nat.mod_eq_of_lt fits]
    omega
  · next beyond =>
    have value : largest.toNat = limit - 1 := by decide
    rw [value]
    omega

theorem ofNat?_exact (n : Nat) (a : Size) : ofNat? n = some a ↔ n = a.toNat := by
  unfold ofNat?
  constructor
  · intro found
    split at found
    · next fits =>
      cases found
      exact (Nat.mod_eq_of_lt fits).symm
    · cases found
  · intro same
    have fits := toNat_lt a
    simp [same, fits]

end Size

inductive Setting where
  | constructor
  | scoped
  | constant
  | serviceProvider
  | factory
  deriving DecidableEq

namespace Setting

-- In the order in which settings are read and written.
def all : List Setting := [.constructor, .scoped, .constant, .serviceProvider, .factory]

def name : Setting → String
  | .constructor => "constructor"
  | .scoped => "scoped"
  | .constant => "constant"
  | .serviceProvider => "service_provider"
  | .factory => "factory"

def ofName? (name : String) : Option Setting :=
  all.find? (·.name == name)

theorem ofName?_name (s : Setting) : ofName? s.name = some s := by
  cases s <;> decide

theorem mem_all (s : Setting) : s ∈ all := by
  cases s <;> decide

end Setting

-- What a node costs in emitted code, apart from its children.
structure CostTable where
  perConstructor : Size
  perScoped : Size
  perConstant : Size
  perServiceProvider : Size
  perFactory : Size
  deriving DecidableEq

namespace CostTable

-- The calibration for the backend at hand.
def stock : CostTable := ⟨6, 64, 4, 1, 16⟩

def get (t : CostTable) : Setting → Size
  | .constructor => t.perConstructor
  | .scoped => t.perScoped
  | .constant => t.perConstant
  | .serviceProvider => t.perServiceProvider
  | .factory => t.perFactory

def set (t : CostTable) (s : Setting) (cost : Size) : CostTable :=
  match s with
  | .constructor => { t with perConstructor := cost }
  | .scoped => { t with perScoped := cost }
  | .constant => { t with perConstant := cost }
  | .serviceProvider => { t with perServiceProvider := cost }
  | .factory => { t with perFactory := cost }

def override (t : CostTable) (given : Setting → Option Size) : CostTable :=
  let entry (s : Setting) : Size := (given s).getD (t.get s)
  ⟨entry .constructor, entry .scoped, entry .constant, entry .serviceProvider, entry .factory⟩

theorem get_set (t : CostTable) (s r : Setting) (cost : Size) :
    (t.set s cost).get r = if r = s then cost else t.get r := by
  cases s <;> cases r <;> rfl

theorem get_override (t : CostTable) (given : Setting → Option Size) (s : Setting) :
    (t.override given).get s = (given s).getD (t.get s) := by
  cases s <;> rfl

theorem ext_get {t u : CostTable} (same : ∀ s, t.get s = u.get s) : t = u := by
  obtain ⟨a, b, c, d, e⟩ := t
  obtain ⟨a', b', c', d', e'⟩ := u
  have h₁ := same .constructor
  have h₂ := same .scoped
  have h₃ := same .constant
  have h₄ := same .serviceProvider
  have h₅ := same .factory
  simp only [get] at h₁ h₂ h₃ h₄ h₅
  subst h₁ h₂ h₃ h₄ h₅
  rfl

-- The entry a node of the kind is charged from. Transient and singleton wrappers add nothing to their
-- inner plan.
def chargedBy : Kind → Option Setting
  | .transient | .singleton => none
  | .constructor | .createInstance | .enumerable => some .constructor
  | .scoped => some .scoped
  | .constant | .serviceScopeFactory => some .constant
  | .serviceProvider => some .serviceProvider
  | .factory => some .factory

def baseCost (t : CostTable) (k : Kind) : Size :=
  match chargedBy k with
  | some s => t.get s
  | none => 0

def describe (t : CostTable) : Description :=
  .record "EmitCostTable"
    (Setting.all.map fun s => (s.name, .atom (String.ofList (decimal (t.get s).toNat))))

-- The analyzer is its cost table and nothing else.
def describeAnalyzer (t : CostTable) : Description :=
  .record "CallSiteAnalyzer" [("costs", t.describe)]

end CostTable

-- Why a cost table could not be had, or a graph not be written.
inductive Error where
  | invalidCost (name : String) (value : String)
  | config (detail : String)
  | graphExport (detail : String)
  deriving DecidableEq

namespace Error

def message : Error → String
  | .invalidCost name value =>
    "Invalid cost for " ++ name ++ ": '" ++ value ++ "' is not a non-negative integer"
  | .config detail => "Cost table error: " ++ detail
  | .graphExport detail => "Graph export error: " ++ detail

def describe : Error → Description
  | .invalidCost name value =>
    .record "InvalidCost" [("name", .atom (quoted name)), ("value", .atom (quoted value))]
  | .config detail => .tuple "Config" [.atom (quoted detail)]
  | .graphExport detail => .tuple "Export" [.atom (quoted detail)]

end Error

structure CostSource where
  get : String → Option String
  describe : String → String

-- A cost as text: white space at both ends, then one plus sign or none, then digits that fit into a word.
def readCost (text : String) : Option Size :=
  let unsigned : List Char :=
    match trim text.toList with
    | '+' :: rest => rest
    | digits => digits
  if unsigned ≠ [] ∧ unsigned.all Char.isDigit then Size.ofNat? (digitsValue unsigned) else none

namespace CostSource

-- What the source says of one entry; an error carries the text as it was set.
def cost? (source : CostSource) (s : Setting) : Except Error (Option Size) :=
  match source.get s.name with
  | none => .ok none
  | some text =>
    match readCost text with
    | some cost => .ok (some cost)
    | none => .error (.invalidCost (source.describe s.name) text)

end CostSource

namespace CostTable

def applyAll (source : CostSource) (t : CostTable) : List Setting → Except Error CostTable
  | [] => .ok t
  | s :: rest =>
    match source.cost? s with
    | .error error => .error error
    | .ok none => applyAll source t rest
    | .ok (some cost) => applyAll source (t.set s cost) rest

-- The stock table with the entries of the source; the first bad entry is the error.
def ofSource (source : CostSource) : Except Error CostTable :=
  stock.applyAll source Setting.all

end CostTable

-- Values set by hand. A later value for a name replaces the earlier one.
structure CostMap where
  entries : List (String × String)

namespace CostMap

def empty : CostMap := ⟨[]⟩

def insert (m : CostMap) (name value : String) : CostMap := ⟨(name, value) :: m.entries⟩

def get? (m : CostMap) (name : String) : Option String := m.entries.lookup name

def source (m : CostMap) : CostSource := ⟨m.get?, id⟩

theorem get?_insert (m : CostMap) (name value other : String) :
    (m.insert name value).get? other = if other = name then some value else m.get? other := by
  by_cases same : other = name
  · simp [insert, get?, same]
  · have differ : (other == name) = false := by simpa using same
    simp [insert, get?, List.lookup_cons, differ, same]

end CostMap

end ResolutionPlan
