import Mathlib.Algebra.Ring.Nat
import Mathlib.Data.List.Perm.Basic
import ResolutionPlan.Analysis
import ResolutionPlan.Proofs.Plan.Tree

namespace ResolutionPlan

variable {V : Type}

namespace Size

theorem toNat_injective {a b : Size} (same : a.toNat = b.toNat) : a = b :=
  UInt64.toNat_inj.mp same

theorem plus_assoc (a b c : Size) : (a.plus b).plus c = a.plus (b.plus c) := by
  apply toNat_injective
  simp only [toNat_plus]
  omega

theorem plus_comm (a b : Size) : a.plus b = b.plus a := by
  apply toNat_injective
  simp only [toNat_plus]
  omega

theorem zero_plus (a : Size) : plus 0 a = a := by
  apply toNat_injective
  have bound := toNat_lt a
  rw [toNat_plus, UInt64.toNat_zero]
  omega

theorem plus_le_plus {a b c d : Size} (left : a ≤ c) (right : b ≤ d) : a.plus b ≤ c.plus d := by
  rw [UInt64.le_iff_toNat_le] at *
  rw [toNat_plus, toNat_plus]
  omega

theorem le_plus (a b : Size) : b ≤ a.plus b := by
  have bound := toNat_lt b
  rw [UInt64.le_iff_toNat_le, toNat_plus]
  omega

end Size

namespace Analysis

theorem add_assoc (a b c : Analysis) : a + b + c = a + (b + c) := by
  change plus (plus a b) c = plus a (plus b c)
  simp only [plus, Size.plus_assoc, Bool.or_assoc]

theorem add_comm (a b : Analysis) : a + b = b + a := by
  change plus a b = plus b a
  simp only [plus, Size.plus_comm a.estimatedSize, Bool.or_comm a.requiresScopeLock]

theorem zero_add (a : Analysis) : zero + a = a := by
  change plus zero a = a
  simp only [plus, zero, Size.zero_plus, Bool.false_or]

theorem add_zero (a : Analysis) : a + zero = a := by
  rw [add_comm, zero_add]

instance : Std.Associative (fun a b : Analysis => a + b) := ⟨add_assoc⟩

instance : Std.Commutative (fun a b : Analysis => a + b) := ⟨add_comm⟩

-- A running total that starts anywhere is that start and the sum of what follows.
theorem foldl_sum (start : Analysis) (results : List Analysis) :
    results.foldl (· + ·) start = start + sum results := by
  induction results generalizing start with
  | nil => exact (add_zero start).symm
  | cons first rest ih =>
    have whole : sum (first :: rest) = first + sum rest := by
      rw [sum, List.foldl_cons, zero_add, ih]
    rw [List.foldl_cons, ih, whole, add_assoc]

theorem sum_cons (first : Analysis) (rest : List Analysis) : sum (first :: rest) = first + sum rest := by
  rw [sum, List.foldl_cons, zero_add, foldl_sum]

theorem sum_append (left right : List Analysis) : sum (left ++ right) = sum left + sum right := by
  rw [sum, List.foldl_append, foldl_sum]
  rfl

theorem sum_perm {results results' : List Analysis} (same : results.Perm results') : sum results = sum results' :=
  same.foldl_op_eq

theorem sum_estimatedSize (results : List Analysis) :
    (sum results).estimatedSize.toNat =
      min (Size.limit - 1) (results.map fun result => result.estimatedSize.toNat).sum := by
  induction results with
  | nil => rfl
  | cons first rest ih =>
    rw [sum_cons, add_estimatedSize, Size.toNat_plus, ih, List.map_cons, List.sum_cons]
    omega

theorem sum_requiresScopeLock (results : List Analysis) :
    (sum results).requiresScopeLock = results.any (·.requiresScopeLock) := by
  induction results with
  | nil => rfl
  | cons first rest ih => rw [sum_cons, add_requiresScopeLock, ih, List.any_cons]

-- Results under brackets, each pair of brackets around two parts. A part may be empty.
inductive Bracketing where
  | nothing
  | single (result : Analysis)
  | both (left right : Bracketing)

namespace Bracketing

def results : Bracketing → List Analysis
  | .nothing => []
  | .single result => [result]
  | .both left right => left.results ++ right.results

def total : Bracketing → Analysis
  | .nothing => zero
  | .single result => result
  | .both left right => left.total + right.total

theorem total_results (brackets : Bracketing) : brackets.total = sum brackets.results := by
  induction brackets with
  | nothing => rfl
  | single result => exact (zero_add result).symm
  | both left right left_ih right_ih => rw [total, results, sum_append, left_ih, right_ih]

end Bracketing

theorem raise_run (more total : Analysis) : (raise more).run total = ((), total + more) := rfl

theorem forM_raise (results : List Analysis) (total : Analysis) :
    (results.forM raise).run total = ((), total + sum results) := by
  induction results generalizing total with
  | nil => exact congrArg (Prod.mk ()) (add_zero total).symm
  | cons first rest ih =>
    rw [List.forM_eq_forM, List.forM_cons, StateT.run_bind, raise_run, sum_cons, ← add_assoc]
    exact ih (total + first)

-- The laws of a commutative monoid, what the sum of a list is, and the ways of adding up that all come to this sum.
theorem results_add_up (results : List Analysis) :
    (∀ a b c : Analysis, a + b + c = a + (b + c)) ∧
    (∀ a b : Analysis, a + b = b + a) ∧
    (∀ a : Analysis, zero + a = a ∧ a + zero = a) ∧
    (sum results).estimatedSize.toNat =
      min (2 ^ 64 - 1) (results.map fun result => result.estimatedSize.toNat).sum ∧
    ((sum results).requiresScopeLock = true ↔ ∃ result ∈ results, result.requiresScopeLock = true) ∧
    (∀ {α : Type} (look : α → Analysis) (places : List α), places.map look = results →
      sumAt look places = sum results) ∧
    (results.forM raise).run zero = ((), sum results) ∧
    (∀ reordered : List Analysis, reordered.Perm results → sum reordered = sum results) ∧
    (∀ brackets : Bracketing, brackets.results.Perm results → brackets.total = sum results) ∧
    ∀ left right : List Analysis, left ++ right = results → sum left + sum right = sum results := by
  refine ⟨add_assoc, add_comm, fun a => ⟨zero_add a, add_zero a⟩, sum_estimatedSize results, ?locked, ?looked, ?raised,
    fun _ => sum_perm, ?bracketed, ?divided⟩
  case locked => rw [sum_requiresScopeLock, List.any_eq_true]
  case looked =>
    intro α look places same
    rw [sumAt, same]
  case raised => rw [forM_raise, zero_add]
  case bracketed =>
    intro brackets reordered
    rw [brackets.total_results, sum_perm reordered]
  case divided =>
    intro left right whole
    rw [← whole, sum_append]

-- One of the sizes is the largest word, so that every sum with it but the one with nothing is clamped.
theorem results_add_up_clamped :
    let huge : Analysis := .sized 18446744073709551615
    let locked : Analysis := ⟨3, true⟩
    let results := [huge, locked, .zero]
    let look (place : Nat) : Analysis := results.reverse.getD place .zero
    let brackets : Bracketing := .both (.both (.single .zero) (.single locked)) (.both (.single huge) .nothing)
    [2, 1, 0].map look = results ∧ sumAt look [2, 1, 0] = sum results ∧
    [locked, .zero, huge].Perm results ∧ sum [locked, .zero, huge] = sum results ∧
    brackets.results.Perm results ∧ brackets.total = sum results ∧
    [huge, locked] ++ [.zero] = results ∧ sum [huge, locked] + sum [.zero] = sum results ∧
    sum results = ⟨18446744073709551615, true⟩ := by
  intro huge locked results look brackets
  obtain ⟨_, _, _, _, _, places, _, order, bracketed, divided⟩ := results_add_up results
  have looked : [2, 1, 0].map look = results := rfl
  have reordered : [locked, .zero, huge].Perm results := by decide
  have under : brackets.results.Perm results := by decide
  exact ⟨looked, places look _ looked, reordered, order _ reordered, under, bracketed brackets under, rfl,
    divided [huge, locked] [.zero] rfl, by decide⟩

end Analysis

namespace Plan

def shares (costs : CostTable) (nodes : List (Plan V)) : List Analysis :=
  nodes.map fun node => costs.share node.kind

theorem shares_cons (costs : CostTable) (node : Plan V) (rest : List (Plan V)) :
    shares costs (node :: rest) = costs.share node.kind :: shares costs rest := rfl

theorem shares_append (costs : CostTable) (left right : List (Plan V)) :
    shares costs (left ++ right) = shares costs left ++ shares costs right :=
  List.map_append

theorem analyze_eq (costs : CostTable) (p : Plan V) :
    p.analyze costs = analyzeAll costs (costs.share p.kind) p.children := by
  cases p <;> simp [analyze, analyzeAll, kind, children]

theorem analyze_shares (costs : CostTable) :
    (∀ p : Plan V, analyze costs p = .sum (shares costs p.preorder)) ∧
    (∀ (ps : List (Plan V)) found, analyzeAll costs found ps = found + .sum (shares costs (preorderAll ps))) := by
  refine forest_induction ?node ?nil ?cons
  case node =>
    intro p below
    rw [analyze_eq, below, preorder_eq, shares_cons, Analysis.sum_cons]
  case nil =>
    intro found
    exact (Analysis.add_zero found).symm
  case cons =>
    intro p others first remaining found
    rw [analyzeAll, remaining, first, preorderAll_cons, shares_append, Analysis.sum_append,
      Analysis.add_assoc]

theorem analyze_outline (costs : CostTable) {p q : Plan V} (same : p.outline kind = q.outline kind) :
    p.analyze costs = q.analyze costs := by
  have kinds (nodes : List (Plan V)) : shares costs nodes = (nodes.map kind).map costs.share := by
    rw [List.map_map]
    rfl
  rw [(analyze_shares costs).1, (analyze_shares costs).1, kinds, kinds, outline_preorder same]

theorem share_requiresScopeLock (costs : CostTable) (k : Kind) :
    (costs.share k).requiresScopeLock = true ↔ k = .scoped :=
  beq_iff_eq

theorem estimatedSize_preorder (costs : CostTable) (p : Plan V) :
    (p.analyze costs).estimatedSize.toNat =
      min (Size.limit - 1) (p.preorder.map fun node => (costs.baseCost node.kind).toNat).sum := by
  rw [(analyze_shares costs).1, Analysis.sum_estimatedSize, shares, List.map_map]
  rfl

theorem requiresScopeLock_preorder (costs : CostTable) (p : Plan V) :
    (p.analyze costs).requiresScopeLock = true ↔ ∃ node ∈ p.preorder, node.kind = .scoped := by
  rw [(analyze_shares costs).1, Analysis.sum_requiresScopeLock, shares, List.any_map, List.any_eq_true]
  exact exists_congr fun node => and_congr_right fun _ => share_requiresScopeLock costs node.kind

theorem analyze_hasKind (costs : CostTable) (p : Plan V) :
    (p.analyze costs).requiresScopeLock = true ↔ p.HasKind .scoped := by
  rw [requiresScopeLock_preorder, hasKind_preorder]

-- The exact size is a sum of natural numbers over all nodes; only the result is clamped, and only once.
theorem analyze_clamped_sum (costs : CostTable) (p : Plan V) :
    (p.analyze costs).estimatedSize.toNat =
      min (2 ^ 64 - 1) (p.preorder.map fun node => (costs.baseCost node.kind).toNat).sum ∧
    ((p.analyze costs).requiresScopeLock = true ↔
      ∃ place node, p.at? place = some node ∧ node.kind = .scoped) := by
  rw [(analyze_shares costs).1 p]
  constructor
  · rw [Analysis.sum_estimatedSize, shares, List.map_map]
    rfl
  · rw [Analysis.sum_requiresScopeLock, shares, List.any_map, List.any_eq_true]
    constructor
    · rintro ⟨node, member, locked⟩
      obtain ⟨place, reached⟩ := mem_preorder_exact.mp member
      exact ⟨place, node, reached, (share_requiresScopeLock costs node.kind).mp locked⟩
    · rintro ⟨place, node, reached, isScoped⟩
      exact ⟨node, mem_preorder_exact.mpr ⟨place, reached⟩,
        (share_requiresScopeLock costs node.kind).mpr isScoped⟩

end Plan

end ResolutionPlan
