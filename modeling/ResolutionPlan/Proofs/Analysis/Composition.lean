import Mathlib.Algebra.Order.BigOperators.Group.List
import Mathlib.Algebra.Order.Ring.Nat
import ResolutionPlan.Proofs.Graph.Lossless

namespace ResolutionPlan

variable {V : Type}

-- A node without one of its children, which stood behind `before` and ahead of `after`.
inductive Frame (V : Type) where
  | cached (lifetime : Lifetime) (service : Key)
  | constructor (service : Key) (implementation : String) (before after : List (Plan V))
  | enumerable (service : Key) (item : Key) (before after : List (Plan V))

namespace Frame

def kind : Frame V → Kind
  | .cached lifetime _ => .ofLifetime lifetime
  | .constructor .. => .constructor
  | .enumerable .. => .enumerable

def before : Frame V → List (Plan V)
  | .cached .. => []
  | .constructor _ _ before _ | .enumerable _ _ before _ => before

def after : Frame V → List (Plan V)
  | .cached .. => []
  | .constructor _ _ _ after | .enumerable _ _ _ after => after

def fill (p : Plan V) : Frame V → Plan V
  | .cached lifetime service => .cached lifetime service p
  | .constructor service implementation before after => .constructor service implementation (before ++ p :: after)
  | .enumerable service item before after => .enumerable service item (before ++ p :: after)

theorem fill_kind (f : Frame V) (p : Plan V) : (f.fill p).kind = f.kind := by
  cases f <;> rfl

theorem fill_children (f : Frame V) (p : Plan V) : (f.fill p).children = f.before ++ p :: f.after := by
  cases f <;> rfl

theorem fill_at? (f : Frame V) (p : Plan V) (path : List Nat) :
    (f.fill p).at? (f.before.length :: path) = p.at? path := by
  simp [Plan.at?, fill_children]

theorem of_children {p child : Plan V} {before after : List (Plan V)} (split : p.children = before ++ child :: after) :
    ∃ f : Frame V, f.before = before ∧ f.fill child = p := by
  cases p with
  | leaf => simp [Plan.children] at split
  | cached lifetime service inner =>
    obtain ⟨rfl, rfl, rfl⟩ : before = [] ∧ inner = child ∧ after = [] := by
      cases before <;> simp_all [Plan.children]
    exact ⟨.cached lifetime service, rfl, rfl⟩
  | constructor service implementation parameters =>
    obtain rfl : parameters = before ++ child :: after := split
    exact ⟨.constructor service implementation before after, rfl, rfl⟩
  | enumerable service item elements =>
    obtain rfl : elements = before ++ child :: after := split
    exact ⟨.enumerable service item before after, rfl, rfl⟩

theorem of_child {p child : Plan V} {position : Nat} (listed : p.children[position]? = some child) :
    ∃ f : Frame V, f.before.length = position ∧ f.fill child = p := by
  obtain ⟨within, rfl⟩ := List.getElem?_eq_some_iff.mp listed
  have split := List.take_append_drop position p.children
  rw [List.drop_eq_getElem_cons within] at split
  obtain ⟨f, before, filled⟩ := of_children split.symm
  refine ⟨f, ?_, filled⟩
  rw [before, List.length_take_of_le (Nat.le_of_lt within)]

end Frame

-- The frames around a hole, the outermost first.
abbrev Surroundings (V : Type) := List (Frame V)

namespace Surroundings

def fill (around : Surroundings V) (p : Plan V) : Plan V :=
  around.foldr (fun f inner => f.fill inner) p

-- A node of this kind stands on the path to the hole or beside it.
def HasKind (k : Kind) (around : Surroundings V) : Prop :=
  ∃ f ∈ around, f.kind = k ∨ ∃ p ∈ f.before ++ f.after, p.HasKind k

def place (around : Surroundings V) : List Nat :=
  around.map (·.before.length)

theorem fill_at? (around : Surroundings V) (p : Plan V) : (around.fill p).at? around.place = some p := by
  induction around with
  | nil => rfl
  | cons f inner ih => exact (f.fill_at? (fill inner p) (place inner)).trans ih

theorem at?_exact {whole p : Plan V} {path : List Nat} :
    whole.at? path = some p ↔ ∃ around : Surroundings V, around.place = path ∧ around.fill p = whole := by
  constructor
  · intro found
    induction path generalizing whole with
    | nil =>
      cases found
      exact ⟨[], rfl, rfl⟩
    | cons position path ih =>
      obtain ⟨child, listed, below⟩ := Option.bind_eq_some_iff.mp found
      obtain ⟨f, stands, filled⟩ := Frame.of_child listed
      obtain ⟨inner, rfl, inside⟩ := ih below
      subst inside
      exact ⟨f :: inner, congrArg (· :: inner.place) stands, filled⟩
  · rintro ⟨around, rfl, rfl⟩
    exact around.fill_at? p

end Surroundings

namespace Plan

theorem analyzeAll_sum (costs : CostTable) (found : Analysis) (ps : List (Plan V)) :
    analyzeAll costs found ps = found + .sum (ps.map (analyze costs)) := by
  induction ps generalizing found with
  | nil => exact (Analysis.add_zero found).symm
  | cons p rest ih => rw [analyzeAll, ih, List.map_cons, Analysis.sum_cons, Analysis.add_assoc]

theorem analyze_children (costs : CostTable) (p : Plan V) :
    p.analyze costs = costs.share p.kind + .sum (p.children.map (analyze costs)) := by
  rw [analyze_eq, analyzeAll_sum]

end Plan

namespace Frame

def analyze (costs : CostTable) (f : Frame V) : Analysis :=
  costs.share f.kind + .sum ((f.before ++ f.after).map (Plan.analyze costs))

theorem fill_analyze (costs : CostTable) (f : Frame V) (p : Plan V) :
    (f.fill p).analyze costs = f.analyze costs + p.analyze costs := by
  simp only [Plan.analyze_children costs (f.fill p), fill_kind, fill_children, analyze, List.map_append, List.map_cons,
    Analysis.sum_append, Analysis.sum_cons]
  ac_rfl

theorem analyze_locked (costs : CostTable) (f : Frame V) :
    (f.analyze costs).requiresScopeLock = true ↔ f.kind = .scoped ∨ ∃ p ∈ f.before ++ f.after, p.HasKind .scoped := by
  rw [analyze, Analysis.add_requiresScopeLock, Bool.or_eq_true, Plan.share_requiresScopeLock,
    Analysis.sum_requiresScopeLock, List.any_map, List.any_eq_true]
  simp only [Function.comp_apply, Plan.analyze_hasKind]

end Frame

namespace Surroundings

def analyze (costs : CostTable) (around : Surroundings V) : Analysis :=
  .sum (around.map (Frame.analyze costs))

theorem fill_analyze (costs : CostTable) (around : Surroundings V) (p : Plan V) :
    (around.fill p).analyze costs = around.analyze costs + p.analyze costs := by
  induction around with
  | nil => exact (Analysis.zero_add _).symm
  | cons f inner ih =>
    have whole := f.fill_analyze costs (fill inner p)
    rw [ih, ← Analysis.add_assoc] at whole
    rw [analyze, List.map_cons, Analysis.sum_cons]
    exact whole

theorem analyze_locked (costs : CostTable) (around : Surroundings V) :
    (around.analyze costs).requiresScopeLock = true ↔ around.HasKind .scoped := by
  rw [analyze, Analysis.sum_requiresScopeLock, List.any_map, List.any_eq_true]
  simp only [Function.comp_apply, Frame.analyze_locked, HasKind]

-- The surroundings have one result for whatever is put into the hole. So they pass on what is equal and what is larger,
-- and every subplan is such a hole in the whole.
theorem composed_analysis (costs : CostTable) (around : Surroundings V) :
    (∃ r : Analysis, (∀ p, (around.fill p).analyze costs = r + p.analyze costs) ∧
      (r.requiresScopeLock = true ↔ around.HasKind .scoped)) ∧
    (∀ p q, p.analyze costs = q.analyze costs → (around.fill p).analyze costs = (around.fill q).analyze costs) ∧
    (∀ p q, (p.analyze costs).estimatedSize ≤ (q.analyze costs).estimatedSize →
      ((around.fill p).analyze costs).estimatedSize ≤ ((around.fill q).analyze costs).estimatedSize) ∧
    ∀ (whole : Plan V) (place : List Nat) (p : Plan V), whole.at? place = some p →
      (p.analyze costs).estimatedSize ≤ (whole.analyze costs).estimatedSize := by
  refine ⟨⟨around.analyze costs, around.fill_analyze costs, around.analyze_locked costs⟩, ?_, ?_, ?_⟩
  · intro p q same
    rw [fill_analyze, fill_analyze, same]
  · intro p q larger
    rw [fill_analyze, fill_analyze, Analysis.add_estimatedSize, Analysis.add_estimatedSize]
    exact Size.plus_le_plus UInt64.le_rfl larger
  · intro whole place p found
    obtain ⟨outside, _, rfl⟩ := at?_exact.mp found
    rw [fill_analyze, Analysis.add_estimatedSize]
    exact Size.le_plus _ _

-- The scoped node stands beside the hole, one level up, and two factories cost more than a word holds.
theorem composed_analysis_beside :
    let costs : CostTable := { CostTable.stock with perFactory := 18446744073709551615 }
    let key : Key := .ofInterface "a::A"
    let constant : Plan Value := .constantValue (.nat8 7)
    let provider : Plan Value := .leaf (.serviceScopeFactory key)
    let factory : Plan Value := .leaf (.factory key ⟨0, fun _ => .unit⟩)
    let around : Surroundings Value :=
      [.cached .singleton key, .constructor key "A" [constant, .cached .scoped key factory] [provider],
        .enumerable key key [] [factory]]
    around.place = [0, 2, 0] ∧ (around.fill factory).at? around.place = some factory ∧
      (∃ r : Analysis, r.requiresScopeLock = true ∧ (around.fill constant).analyze costs = r + constant.analyze costs ∧
        (around.fill factory).analyze costs = r + factory.analyze costs) ∧
      constant.analyze costs = provider.analyze costs ∧
      (around.fill constant).analyze costs = (around.fill provider).analyze costs ∧
      ((around.fill constant).analyze costs).estimatedSize ≤ ((around.fill factory).analyze costs).estimatedSize ∧
      (factory.analyze costs).estimatedSize ≤ ((around.fill factory).analyze costs).estimatedSize := by
  intro costs key constant provider factory around
  obtain ⟨⟨r, added, locked⟩, equal, larger, within⟩ := composed_analysis costs around
  have beside : around.HasKind .scoped :=
    ⟨_, .tail _ (.head _), .inr ⟨_, .tail _ (.head _), [], _, rfl, rfl⟩⟩
  have same : constant.analyze costs = provider.analyze costs := by decide
  have less : (constant.analyze costs).estimatedSize ≤ (factory.analyze costs).estimatedSize := by decide
  have found := around.fill_at? factory
  exact ⟨rfl, found, ⟨r, locked.mpr beside, added constant, added factory⟩, same, equal constant provider same,
    larger constant factory less, within _ around.place factory found⟩

end Surroundings

namespace Plan

inductive Exchange : Plan V → Plan V → Prop where
  | parameters {ps qs : List (Plan V)} (service : Key) (implementation : String) (reordered : ps.Perm qs) :
      Exchange (.constructor service implementation ps) (.constructor service implementation qs)
  | elements {ps qs : List (Plan V)} (service item : Key) (reordered : ps.Perm qs) :
      Exchange (.enumerable service item ps) (.enumerable service item qs)
  | wrapper (lifetime : Lifetime) (service : Key) (inner : Plan V) (unlocked : lifetime ≠ .scoped) :
      Exchange (.cached lifetime service inner) inner
  | collection (service service' item : Key) (implementation : String) (ps : List (Plan V)) :
      Exchange (.constructor service implementation ps) (.enumerable service' item ps)
  | bareConstructor (service service' : Key) (implementation implementation' : String) :
      Exchange (.leaf (.createInstance service implementation)) (.constructor service' implementation' [])
  | bareEnumerable (service service' item : Key) (implementation : String) :
      Exchange (.leaf (.createInstance service implementation)) (.enumerable service' item [])
  | handle (service service' : Key) (value : V) :
      Exchange (.leaf (.constant service value)) (.leaf (.serviceScopeFactory service'))
  -- Key, item, implementation, value and factory are all that a node has beside its kind and its children.
  | relabel {p q : Plan V} (kinds : p.kind = q.kind) (children : p.children = q.children) : Exchange p q

-- The least congruence that has these changes.
inductive Interchangeable : Plan V → Plan V → Prop where
  | exchange {p q : Plan V} (change : Exchange p q) : Interchangeable p q
  | within {p q : Plan V} (f : Frame V) (inside : Interchangeable p q) : Interchangeable (f.fill p) (f.fill q)
  | refl (p : Plan V) : Interchangeable p p
  | symm {p q : Plan V} (same : Interchangeable p q) : Interchangeable q p
  | trans {p q r : Plan V} (first : Interchangeable p q) (second : Interchangeable q r) : Interchangeable p r

theorem Interchangeable.around {p q : Plan V} (same : Interchangeable p q) (around : Surroundings V) :
    Interchangeable (around.fill p) (around.fill q) := by
  induction around with
  | nil => exact same
  | cons f inner ih => exact .within f ih

theorem analyze_reordered (costs : CostTable) {p q : Plan V} (kinds : p.kind = q.kind)
    (reordered : p.children.Perm q.children) : p.analyze costs = q.analyze costs := by
  rw [analyze_children, analyze_children, kinds, Analysis.sum_perm (reordered.map _)]

theorem analyze_wrapper (costs : CostTable) {lifetime : Lifetime} (service : Key) (inner : Plan V)
    (unlocked : lifetime ≠ .scoped) : (cached lifetime service inner).analyze costs = inner.analyze costs := by
  have free : costs.share (.ofLifetime lifetime) = .zero := by
    cases lifetime
    · rfl
    · exact absurd rfl unlocked
    · rfl
  rw [analyze, free, Analysis.zero_add]

theorem exchange_analyze {p q : Plan V} (change : Exchange p q) (costs : CostTable) :
    p.analyze costs = q.analyze costs := by
  cases change with
  | parameters _ _ reordered => exact analyze_reordered costs rfl reordered
  | elements _ _ reordered => exact analyze_reordered costs rfl reordered
  | wrapper _ service _ unlocked => exact analyze_wrapper costs service q unlocked
  | collection => rfl
  | bareConstructor => rfl
  | bareEnumerable => rfl
  | handle => rfl
  | relabel kinds children => exact analyze_reordered costs kinds (.of_eq children)

theorem interchangeable_analysis {p q : Plan V} (same : Interchangeable p q) (costs : CostTable) :
    p.analyze costs = q.analyze costs := by
  induction same with
  | exchange change => exact exchange_analyze change costs
  | within f _ ih => rw [f.fill_analyze, f.fill_analyze, ih]
  | refl => rfl
  | symm _ ih => exact ih.symm
  | trans _ _ first second => exact first.trans second

-- A constant three levels down becomes a handle, the wrapper on the way is taken off, the parameters change places, and
-- the constructor becomes a collection under another key.
theorem interchangeable_analysis_nested :
    let key (name : String) : Key := .ofInterface name
    let built (child : Plan Value) : Plan Value :=
      .constructor (key "c") "C" [child, .leaf (.createInstance (key "i") "I")]
    let factory : Plan Value := .leaf (.factory (key "f") ⟨0, fun _ => .unit⟩)
    let p : Plan Value := .constructor (key "a") "A" [factory, .cached .transient (key "b") (built (constantValue .unit))]
    let q : Plan Value := .enumerable (key "d") (key "e") [built (.leaf (.serviceScopeFactory (key "h"))), factory]
    p.Interchangeable q ∧ p.analyze .stock = q.analyze .stock := by
  intro key built factory p q
  let handle : Plan Value := built (.leaf (.serviceScopeFactory (key "h")))
  let root : Frame Value := .constructor (key "a") "A" [factory] []
  let wrapped : Surroundings Value := [root, .cached .transient (key "b"),
    .constructor (key "c") "C" [] [.leaf (.createInstance (key "i") "I")]]
  have handed : p.Interchangeable (wrapped.fill (.leaf (.serviceScopeFactory (key "h")))) :=
    Interchangeable.around (.exchange (.handle _ _ _)) wrapped
  have unwrapped : Interchangeable (root.fill (.cached .transient (key "b") handle)) (root.fill handle) :=
    .within root (.exchange (.wrapper _ _ _ (by decide)))
  have swapped : Interchangeable (root.fill handle) (.constructor (key "a") "A" [handle, factory]) :=
    .exchange (.parameters _ _ (.swap _ _ _))
  have collected : Interchangeable (.constructor (key "a") "A" [handle, factory]) q :=
    .exchange (.collection _ _ _ _ _)
  have same := handed.trans (unwrapped.trans (swapped.trans collected))
  exact ⟨same, interchangeable_analysis same .stock⟩

end Plan

-- The kinds of nodes that an entry is documented for. Transient and singleton wrappers have no entry.
def Setting.kinds : Setting → List Kind
  | .constructor => [.constructor, .createInstance, .enumerable]
  | .scoped => [.scoped]
  | .constant => [.constant, .serviceScopeFactory]
  | .serviceProvider => [.serviceProvider]
  | .factory => [.factory]

theorem Setting.mem_kinds {s : Setting} {k : Kind} : k ∈ s.kinds ↔ CostTable.chargedBy k = some s := by
  cases s <;> cases k <;> decide

namespace CostTable

theorem baseCost_mono {c d : CostTable} (lower : ∀ s, c.get s ≤ d.get s) (k : Kind) : c.baseCost k ≤ d.baseCost k := by
  unfold baseCost
  split
  · exact lower _
  · exact UInt64.le_rfl

-- A node is charged from the entry that is documented for its kind, and costs nothing if there is none.
theorem baseCost_documented (c : CostTable) (k : Kind) :
    (∀ s : Setting, k ∈ s.kinds → c.baseCost k = c.get s) ∧ ((∀ s : Setting, k ∉ s.kinds) → c.baseCost k = 0) := by
  simp only [Setting.mem_kinds]
  unfold baseCost
  split
  · next s charged =>
    refine ⟨fun r same => ?_, fun none => absurd charged (none s)⟩
    rw [Option.some.inj (charged.symm.trans same)]
  · next uncharged =>
    refine ⟨fun r same => ?_, fun _ => rfl⟩
    cases uncharged.symm.trans same

theorem baseCost_agree {c d : CostTable} {k : Kind} (agree : ∀ s, k ∈ s.kinds → c.get s = d.get s) :
    c.baseCost k = d.baseCost k := by
  unfold baseCost
  split
  · next s charged => exact agree s (Setting.mem_kinds.mpr charged)
  · rfl

end CostTable

namespace Plan

def Charges (s : Setting) (p : Plan V) : Prop :=
  ∃ k ∈ s.kinds, p.HasKind k

theorem charges_agree {c d : CostTable} {p : Plan V} (agree : ∀ s, p.Charges s → c.get s = d.get s) :
    ∀ node ∈ p.preorder, c.baseCost node.kind = d.baseCost node.kind := by
  intro node member
  apply CostTable.baseCost_agree
  intro s charged
  exact agree s ⟨node.kind, charged, hasKind_preorder.mpr ⟨node, member, rfl⟩⟩

theorem analyze_lock (c d : CostTable) (p : Plan V) :
    (p.analyze c).requiresScopeLock = (p.analyze d).requiresScopeLock := by
  rw [Bool.eq_iff_iff, analyze_hasKind, analyze_hasKind]

theorem analyze_mono {c d : CostTable} (lower : ∀ s, c.get s ≤ d.get s) (p : Plan V) :
    (p.analyze c).estimatedSize ≤ (p.analyze d).estimatedSize := by
  have each (node : Plan V) : (c.baseCost node.kind).toNat ≤ (d.baseCost node.kind).toNat :=
    UInt64.le_iff_toNat_le.mp (CostTable.baseCost_mono lower node.kind)
  have total := List.sum_le_sum fun node (_ : node ∈ p.preorder) => each node
  rw [UInt64.le_iff_toNat_le, estimatedSize_preorder, estimatedSize_preorder]
  omega

theorem analyze_agree {c d : CostTable} {p : Plan V}
    (agree : ∀ node ∈ p.preorder, c.baseCost node.kind = d.baseCost node.kind) : p.analyze c = p.analyze d := by
  have same : shares c p.preorder = shares d p.preorder := by
    apply List.map_congr_left
    intro node member
    rw [CostTable.share, CostTable.share, agree node member]
  rw [(analyze_shares c).1, (analyze_shares d).1, same]

theorem numbered_agree {c d : CostTable} {nodes : List (Plan V)}
    (agree : ∀ node ∈ nodes, c.baseCost node.kind = d.baseCost node.kind) (first : Nat) :
    numbered c first nodes = numbered d first nodes := by
  apply List.mapIdx_eq_mapIdx_iff.mpr
  intro i within
  rw [rootNode, rootNode, agree _ (List.getElem_mem within)]

theorem graph_agree {c d : CostTable} {p : Plan V}
    (agree : ∀ node ∈ p.preorder, c.baseCost node.kind = d.baseCost node.kind) (exportedAt : String) :
    p.graph c exportedAt = p.graph d exportedAt := by
  rw [graph_eq, graph_eq, analyze_agree agree, nodesFrom, nodesFrom, numbered_agree agree]

theorem recalibrated_analysis (c d : CostTable) (p : Plan V) :
    (∀ k, (∀ s : Setting, k ∈ s.kinds ↔ CostTable.chargedBy k = some s) ∧ (∀ s : Setting, k ∈ s.kinds → c.baseCost k = c.get s) ∧
      ((∀ s : Setting, k ∉ s.kinds) → c.baseCost k = 0)) ∧
    (p.analyze c).requiresScopeLock = (p.analyze d).requiresScopeLock ∧
    ((∀ s, c.get s ≤ d.get s) → (p.analyze c).estimatedSize ≤ (p.analyze d).estimatedSize) ∧
    ((∀ s, p.Charges s → c.get s = d.get s) → p.analyze c = p.analyze d ∧
      ∀ stamp stamp', (p.graph c stamp).unstamped = (p.graph d stamp').unstamped) := by
  refine ⟨fun k => ⟨fun _ => Setting.mem_kinds, c.baseCost_documented k⟩, analyze_lock c d p, fun lower => analyze_mono lower p, ?_⟩
  intro agree
  have charged := charges_agree agree
  refine ⟨analyze_agree charged, ?_⟩
  intro stamp stamp'
  rw [graph_agree charged]
  rfl

-- Two tables that differ for scoped nodes and factories. The first plan has neither; the second has both, and its size
-- grows beyond a word.
theorem recalibrated_analysis_uncharged :
    let c : CostTable := .stock
    let d : CostTable := { CostTable.stock with perScoped := 18446744073709551615, perFactory := 17 }
    let key : Key := .ofInterface "a::A"
    let p : Plan Value := .cached .singleton key (.constructor key "A" [constantValue .unit, .enumerable key key []])
    let q : Plan Value := .cached .scoped key (.leaf (.factory key ⟨0, fun _ => .unit⟩))
    (∀ s, c.get s ≤ d.get s) ∧ (∀ s, p.Charges s → c.get s = d.get s) ∧
      (q.analyze c).estimatedSize ≤ (q.analyze d).estimatedSize ∧
      p.analyze c = p.analyze d ∧ (p.graph c "1").unstamped = (p.graph d "2").unstamped := by
  intro c d key p q
  have lower : ∀ s, c.get s ≤ d.get s := by
    intro s
    cases s <;> decide
  have entries : ∀ s ∈ Setting.all, ∀ node ∈ p.preorder, node.kind ∈ s.kinds → c.get s = d.get s := by decide
  have agree : ∀ s, p.Charges s → c.get s = d.get s := by
    rintro s ⟨k, charged, stands⟩
    obtain ⟨node, member, rfl⟩ := hasKind_preorder.mp stands
    exact entries s s.mem_all node member charged
  obtain ⟨_, _, _, same⟩ := recalibrated_analysis c d p
  obtain ⟨_, _, grown, _⟩ := recalibrated_analysis c d q
  exact ⟨lower, agree, grown lower, (same agree).1, (same agree).2 "1" "2"⟩

end Plan

end ResolutionPlan
