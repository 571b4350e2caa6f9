import ResolutionPlan.Graph.Export
import ResolutionPlan.Proofs.Graph.Lossless

namespace ResolutionPlan

open Text

variable {V : Type}

theorem Relation.label_cut {r r' : Relation} {rest rest' : List Char} (outside : Outside Char.isDigit rest)
    (outside' : Outside Char.isDigit rest') (same : r.label ++ rest = r'.label ++ rest') : r = r' ∧ rest = rest' := by
  unfold label at same
  cases r <;> cases r' <;> simp only [List.append_assoc] at same
  case wraps.wraps => exact ⟨rfl, List.append_cancel_left same⟩
  case parameter.parameter =>
    obtain ⟨rfl, rests⟩ := decimal_cut outside outside' (List.append_cancel_left same)
    exact ⟨rfl, rests⟩
  case element.element =>
    obtain ⟨rfl, rests⟩ := decimal_cut outside outside' (List.append_cancel_left same)
    exact ⟨rfl, rests⟩
  all_goals simp at same

theorem Edge.eq_of_parts {e f : Edge} (sources : e.source = f.source) (targets : e.target = f.target)
    (relations : e.relation = f.relation) : e = f := by
  cases e
  cases f
  cases sources
  cases targets
  cases relations
  rfl

namespace Plan

theorem graph_edges (costs : CostTable) (exportedAt : String) (p : Plan V) :
    (p.graph costs exportedAt).edges = p.edgesFrom 0 := by
  rw [graph_eq]

def caption (p : Plan V) : Kind × String :=
  (p.kind, p.service.label)

variable {α β : Type} {mark : Plan V → α}

theorem outline_lists (kinds : ∀ p q, mark p = mark q → p.kind = q.kind) (p q : Plan V) :
    p.preorder.map mark = q.preorder.map mark ∧ p.edgesFrom 0 = q.edgesFrom 0 ↔ p.outline mark = q.outline mark := by
  constructor
  · intro same
    obtain ⟨marks, edges⟩ := same
    apply (Outline.marked_exact mark p q).mp
    rw [← Graph.zip_levels, ← Graph.zip_levels, marks, edges]
  · intro same
    exact ⟨outline_preorder same, edges_outline (outline_coarser kinds same) 0⟩

theorem numbered_alike {costs : CostTable} {read : Node → β}
    (told : ∀ id p q, mark p = mark q → read (rootNode costs id p) = read (rootNode costs id q)) {ps qs : List (Plan V)}
    (same : ps.map mark = qs.map mark) (first : Nat) :
    (numbered costs first ps).map read = (numbered costs first qs).map read := by
  induction ps generalizing qs first with
  | nil =>
    cases qs with
    | nil => rfl
    | cons => cases same
  | cons p ps ih =>
    cases qs with
    | nil => cases same
    | cons q qs =>
      obtain ⟨here, later⟩ := List.cons.inj same
      rw [numbered_cons, numbered_cons, List.map_cons, List.map_cons, told first p q here, ih later]

theorem pictured_exact {costs : CostTable} {read : Node → β} (retrace : β → α)
    (told : ∀ id p q, mark p = mark q → read (rootNode costs id p) = read (rootNode costs id q))
    (retraced : ∀ id node, retrace (read (rootNode costs id node)) = mark node)
    (kinds : ∀ p q, mark p = mark q → p.kind = q.kind) (stamp stamp' : String) (p q : Plan V) :
    (p.graph costs stamp).nodes.map read = (q.graph costs stamp').nodes.map read ∧
        (p.graph costs stamp).edges = (q.graph costs stamp').edges ↔
      p.outline mark = q.outline mark := by
  have marks (p : Plan V) : ((numbered costs 0 p.preorder).map read).map retrace = p.preorder.map mark := by
    rw [List.map_map]
    exact map_numbered retraced 0 p.preorder
  rw [← outline_lists kinds, graph_nodes, graph_nodes, graph_edges, graph_edges]
  constructor
  · intro same
    obtain ⟨nodes, edges⟩ := same
    exact ⟨by rw [← marks p, nodes, marks q], edges⟩
  · intro same
    obtain ⟨nodes, edges⟩ := same
    exact ⟨numbered_alike told nodes 0, edges⟩

end Plan

-- What a statement shows of its node. The service and the implementation are left out.
structure DrawnNode where
  id : Nat
  label : String
  kind : Kind
  baseCost : Size
  lifetime : Option Lifetime
  deriving DecidableEq

def Node.drawn (n : Node) : DrawnNode :=
  ⟨n.id, n.label, n.kind, n.baseCost, n.lifetime⟩

def DrawnNode.caption (d : DrawnNode) : Kind × String :=
  (d.kind, d.label)

namespace Dot

-- Cuts a text before its first quote that has no backslash right before it.
def beforeQuote (last : Char) : List Char → List Char × List Char
  | [] => ([], [])
  | c :: rest =>
    if c = '"' ∧ last ≠ '\\' then ([], c :: rest)
    else (c :: (beforeQuote c rest).1, (beforeQuote c rest).2)

theorem beforeQuote_plain (last : Char) {plain : List Char} (noQuote : '"' ∉ plain)
    (ending : (last :: plain).getLast? ≠ some '\\') (rest : List Char) :
    beforeQuote last (plain ++ '"' :: rest) = (plain, '"' :: rest) := by
  induction plain generalizing last with
  | nil =>
    have notBackslash : last ≠ '\\' := by simpa using ending
    simp [beforeQuote, notBackslash]
  | cons c plain ih =>
    have other : c ≠ '"' := fun quote => noQuote (quote ▸ List.mem_cons_self)
    have later := ih c (fun member => noQuote (List.mem_cons_of_mem c member)) (by simpa using ending)
    simp [beforeQuote, other, later]

theorem beforeQuote_escaped (last : Char) (s : List Char) {plain : List Char} (noQuote : '"' ∉ plain)
    (ending : ∀ c, (c :: plain).getLast? ≠ some '\\') (rest : List Char) :
    beforeQuote last (s.flatMap escapeChar ++ plain ++ '"' :: rest) = (s.flatMap escapeChar ++ plain, '"' :: rest) := by
  induction s generalizing last with
  | nil => exact beforeQuote_plain last noQuote (ending last) rest
  | cons c s ih =>
    by_cases quote : c = '"'
    · subst quote
      have later := ih '"'
      simp only [List.append_assoc] at later
      simp [escapeChar, beforeQuote, later]
    · have later := ih c
      simp only [List.append_assoc] at later
      simp [escapeChar, beforeQuote, quote, later]

theorem escaped_head (s : List Char) : (s.flatMap escapeChar).head? ≠ some '"' := by
  cases s with
  | nil => simp
  | cons c s =>
    by_cases quote : c = '"'
    · simp [escapeChar, quote]
    · simp [escapeChar, quote]

-- A backslash before a quote is the one that was put there, whatever stood before.
theorem escaped_injective {s t : List Char} (same : s.flatMap escapeChar = t.flatMap escapeChar) : s = t := by
  induction s generalizing t with
  | nil =>
    cases t with
    | nil => rfl
    | cons d t => by_cases quote : d = '"' <;> simp [escapeChar, quote] at same
  | cons c s ih =>
    cases t with
    | nil => by_cases quote : c = '"' <;> simp [escapeChar, quote] at same
    | cons d t =>
      have headS := escaped_head s
      have headT := escaped_head t
      by_cases quote : c = '"' <;> by_cases quote' : d = '"'
      · subst quote quote'
        rw [ih (by simpa [escapeChar] using same)]
      · simp [escapeChar, quote, quote'] at same
        simp [← same.2] at headT
      · simp [escapeChar, quote, quote'] at same
        simp [same.2] at headS
      · simp [escapeChar, quote, quote'] at same
        rw [same.1, ih same.2]

theorem color_injective {l l' : Option Lifetime} (same : color l = color l') : l = l' := by
  revert same
  rcases l with _ | _ | _ | _ <;> rcases l' with _ | _ | _ | _ <;> decide

theorem color_isAlpha (l : Option Lifetime) : ∀ c ∈ color l, c.isAlpha = true := by
  apply List.all_eq_true.mp
  rcases l with _ | _ | _ | _ <;> rfl

theorem costLine_cut {n m : Node} (same : costLine n = costLine m) : n.kind = m.kind ∧ n.baseCost = m.baseCost := by
  simp only [costLine, List.append_assoc] at same
  obtain ⟨kinds, costs⟩ := Kind.name_cut (outside_append rfl _) (outside_append rfl _) same
  obtain ⟨sizes, _⟩ := decimal_cut (outside_cons rfl) (outside_cons rfl) (List.append_cancel_left costs)
  exact ⟨kinds, UInt64.toNat_inj.mp sizes⟩

theorem costLine_plain (n : Node) : '"' ∉ costLine n ∧ '\\' ∉ costLine n := by
  have name {c : Char} (other : c.isAlpha = false) : c ∉ n.kind.name.toList := notMem_class n.kind.name_isAlpha other
  have number {c : Char} (other : c.isDigit = false) := notMem_decimal n.baseCost.toNat other
  constructor <;> simp [costLine, name, number]

-- The quote that ends the label comes right behind a parenthesis, and the line break before the costs is the last
-- backslash inside.
theorem label_cut {n m : Node} {rest rest' : List Char}
    (same : escape n.label ++ ("\\n".toList ++ (costLine n ++ '"' :: rest)) =
      escape m.label ++ ("\\n".toList ++ (costLine m ++ '"' :: rest'))) :
    n.label = m.label ∧ (n.kind = m.kind ∧ n.baseCost = m.baseCost) ∧ rest = rest' := by
  have ended (n : Node) (rest : List Char) :
      beforeQuote 'x' (escape n.label ++ ("\\n".toList ++ (costLine n ++ '"' :: rest))) =
        (escape n.label ++ ("\\n".toList ++ costLine n), '"' :: rest) := by
    have noQuote : '"' ∉ "\\n".toList ++ costLine n := by simp [(costLine_plain n).1]
    have ending (c : Char) : (c :: ("\\n".toList ++ costLine n)).getLast? ≠ some '\\' := by
      have split : costLine n = n.kind.name.toList ++ " (+".toList ++ decimal n.baseCost.toNat ++ [')'] := rfl
      rw [split, ← List.append_assoc, ← List.cons_append, List.getLast?_concat]
      simp
    have read := beforeQuote_escaped 'x' n.label.toList noQuote ending rest
    simpa only [escape, List.append_assoc] using read
  have read := congrArg (beforeQuote 'x') same
  rw [ended, ended] at read
  obtain ⟨inside, behind⟩ := Prod.mk.inj read
  change escape n.label ++ '\\' :: 'n' :: costLine n = escape m.label ++ '\\' :: 'n' :: costLine m at inside
  obtain ⟨labels, lines⟩ := last_cut (by simp [(costLine_plain n).2]) (by simp [(costLine_plain m).2]) inside
  exact ⟨String.toList_injective (escaped_injective labels), costLine_cut (List.cons.inj lines).2,
    (List.cons.inj behind).2⟩

theorem nodeStatement_cut {n m : Node} {rest rest' : List Char}
    (same : nodeStatement n ++ rest = nodeStatement m ++ rest') : n.drawn = m.drawn ∧ rest = rest' := by
  have quote : "\", shape=".toList = '"' :: ", shape=".toList := rfl
  unfold nodeStatement at same
  simp only [List.append_assoc, quote, List.cons_append] at same
  obtain ⟨ids, same⟩ := decimal_cut (outside_append rfl _) (outside_append rfl _)
    (List.append_cancel_left same)
  obtain ⟨labels, ⟨kinds, sizes⟩, same⟩ := label_cut (List.append_cancel_left same)
  rw [kinds] at same
  obtain ⟨colors, same⟩ := class_cut (color_isAlpha n.lifetime) (color_isAlpha m.lifetime)
    (outside_append rfl _) (outside_append rfl _)
    (List.append_cancel_left (List.append_cancel_left (List.append_cancel_left same)))
  refine ⟨?_, List.append_cancel_left same⟩
  rw [Node.drawn, Node.drawn, ids, labels, kinds, sizes, color_injective colors]

theorem nodeStatement_drawn {n m : Node} (same : n.drawn = m.drawn) : nodeStatement n = nodeStatement m := by
  obtain ⟨ids, labels, kinds, sizes, lifetimes⟩ := DrawnNode.mk.inj same
  unfold nodeStatement costLine
  rw [ids, labels, kinds, sizes, lifetimes]

theorem nodeStatement_ne (n : Node) (rest tail : List Char) : nodeStatement n ++ rest ≠ '\n' :: tail := by
  unfold nodeStatement
  simp

theorem edgeStatement_cut {e f : Edge} {rest rest' : List Char}
    (same : edgeStatement e ++ rest = edgeStatement f ++ rest') : e = f ∧ rest = rest' := by
  unfold edgeStatement at same
  simp only [List.append_assoc] at same
  obtain ⟨sources, same⟩ := decimal_cut (outside_append rfl _) (outside_append rfl _)
    (List.append_cancel_left same)
  obtain ⟨targets, same⟩ := decimal_cut (outside_append rfl _) (outside_append rfl _)
    (List.append_cancel_left same)
  obtain ⟨relations, same⟩ := Relation.label_cut (outside_append rfl _) (outside_append rfl _)
    (List.append_cancel_left same)
  rw [relations] at same
  exact ⟨Edge.eq_of_parts sources targets relations,
    List.append_cancel_left (List.append_cancel_left (List.append_cancel_left same))⟩

theorem edgeStatement_ne (e : Edge) (rest : List Char) : edgeStatement e ++ rest ≠ "\x7d\n".toList := by
  unfold edgeStatement
  simp

theorem document_exact (g h : Graph) :
    document g = document h ↔ g.nodes.map Node.drawn = h.nodes.map Node.drawn ∧ g.edges = h.edges := by
  constructor
  · intro same
    unfold document at same
    simp only [List.append_assoc, List.cons_append] at same
    obtain ⟨nodes, same⟩ := flatMap_cut Node.drawn (fun _ _ _ _ _ _ => nodeStatement_cut)
      (fun n _ rest => nodeStatement_ne n rest _) (fun n _ rest => nodeStatement_ne n rest _)
      (List.append_cancel_left same)
    obtain ⟨edges, _⟩ := flatMap_cut id (fun _ _ _ _ _ _ => edgeStatement_cut)
      (fun e _ rest => edgeStatement_ne e rest) (fun e _ rest => edgeStatement_ne e rest) (List.cons.inj same).2
    rw [List.map_id, List.map_id] at edges
    exact ⟨nodes, edges⟩
  · intro same
    obtain ⟨nodes, edges⟩ := same
    unfold document
    rw [flatMap_view Node.drawn (fun _ _ => nodeStatement_drawn) nodes, edges]

end Dot

namespace Graph

-- Two documents are equal exactly if they draw the same; what two plans draw is the same exactly if they are the same
-- tree of kinds and labels.
theorem dot_exact :
    (∀ g h : Graph, g.toDot = h.toDot ↔ g.nodes.map Node.drawn = h.nodes.map Node.drawn ∧ g.edges = h.edges) ∧
    ∀ (costs : CostTable) (stamp stamp' : String) (p q : Plan V),
      (p.graph costs stamp).toDot = (q.graph costs stamp').toDot ↔ p.outline Plan.caption = q.outline Plan.caption := by
  have documents (g h : Graph) :
      g.toDot = h.toDot ↔ g.nodes.map Node.drawn = h.nodes.map Node.drawn ∧ g.edges = h.edges := by
    rw [← Dot.document_exact, toDot, toDot, String.ofList_inj]
  refine ⟨documents, ?_⟩
  intro costs stamp stamp' p q
  rw [documents]
  apply Plan.pictured_exact DrawnNode.caption
  · intro id p q same
    obtain ⟨kinds, labels⟩ := Prod.mk.inj same
    simp [Node.drawn, Plan.rootNode, kinds, labels]
  · intro id node
    rfl
  · intro p q same
    exact congrArg Prod.fst same

end Graph

end ResolutionPlan
