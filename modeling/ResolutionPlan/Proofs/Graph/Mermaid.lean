import ResolutionPlan.Proofs.Graph.Dot

namespace ResolutionPlan

open Text

variable {V : Type}

namespace Mermaid

def names : List (List Char) := ["#quot;".toList, "#lt;".toList, "#gt;".toList]

-- What a text shows where the named characters are put back.
def unescape : List Char → List Char
  | '#' :: 'q' :: 'u' :: 'o' :: 't' :: ';' :: rest => '"' :: unescape rest
  | '#' :: 'l' :: 't' :: ';' :: rest => '<' :: unescape rest
  | '#' :: 'g' :: 't' :: ';' :: rest => '>' :: unescape rest
  | c :: rest => c :: unescape rest
  | [] => []

def reading (text : String) : String :=
  String.ofList (unescape text.toList)

theorem escapeChar_cases (c : Char) :
    escapeChar c ∈ names ∨ ((c ≠ '"' ∧ c ≠ '<' ∧ c ≠ '>') ∧ escapeChar c = [c]) := by
  by_cases quote : c = '"'
  · left
    simp [escapeChar, names, quote]
  by_cases less : c = '<'
  · left
    simp [escapeChar, names, less]
  by_cases greater : c = '>'
  · left
    simp [escapeChar, names, greater]
  · right
    exact ⟨⟨quote, less, greater⟩, by simp [escapeChar, quote, less, greater]⟩

theorem escaped_closed (label : String) : ∀ c ∈ escape label, c ≠ '"' ∧ c ≠ '<' ∧ c ≠ '>' := by
  have closed : ∀ name ∈ names, ∀ c ∈ name, c ≠ '"' ∧ c ≠ '<' ∧ c ≠ '>' := by simp [names]
  intro c member
  obtain ⟨d, _, inside⟩ := List.mem_flatMap.mp member
  rcases escapeChar_cases d with named | ⟨other, text⟩
  · exact closed _ named c inside
  · rw [text, List.mem_singleton] at inside
    rw [inside]
    exact other

theorem escape_unescape (s : List Char) : (unescape s).flatMap escapeChar = s.flatMap escapeChar := by
  fun_induction unescape s with
  | case1 rest ih => simp [escapeChar, ih]
  | case2 rest ih => simp [escapeChar, ih]
  | case3 rest ih => simp [escapeChar, ih]
  | case4 c rest notQuote notLess notGreater ih => rw [List.flatMap_cons, List.flatMap_cons, ih]
  | case5 => rfl

-- A name that begins in an escaped text is a name that stood there, or it begins an escape.
theorem escaped_before (word : List Char) {rest s : List Char} (plain : '#' ∉ word) (same : s.flatMap escapeChar = word ++ rest) :
    ∃ tail, s = word ++ tail := by
  induction word generalizing s with
  | nil => exact ⟨s, rfl⟩
  | cons c word ih =>
    cases s with
    | nil => simp at same
    | cons d s =>
      rw [List.flatMap_cons, List.cons_append] at same
      rcases escapeChar_cases d with named | ⟨_, text⟩
      · have marked : ∀ name ∈ names, name.head? = some '#' := by simp [names]
        have head := congrArg List.head? same
        rw [List.head?_append, marked _ named] at head
        have mark : '#' = c := by simpa using head
        exact absurd (mark ▸ List.mem_cons_self) plain
      · rw [text] at same
        obtain ⟨here, later⟩ := List.cons.inj same
        obtain ⟨tail, split⟩ := ih (fun member => plain (List.mem_cons_of_mem c member)) later
        exact ⟨tail, by rw [here, split]; rfl⟩

theorem unescape_escape (s : List Char) : unescape (s.flatMap escapeChar) = unescape s := by
  fun_induction unescape s with
  | case1 rest ih => simp [escapeChar, unescape, ih]
  | case2 rest ih => simp [escapeChar, unescape, ih]
  | case3 rest ih => simp [escapeChar, unescape, ih]
  | case4 c rest notQuote notLess notGreater ih =>
    rw [List.flatMap_cons]
    by_cases quote : c = '"'
    · simp [escapeChar, unescape, quote, ih]
    by_cases less : c = '<'
    · simp [escapeChar, unescape, less, ih]
    by_cases greater : c = '>'
    · simp [escapeChar, unescape, greater, ih]
    have itself : escapeChar c = [c] := by simp [escapeChar, quote, less, greater]
    rw [itself, List.singleton_append, unescape, ih]
    · intro tail mark same
      obtain ⟨before, split⟩ := escaped_before "quot;".toList (by simp) same
      exact notQuote before mark split
    · intro tail mark same
      obtain ⟨before, split⟩ := escaped_before "lt;".toList (by simp) same
      exact notLess before mark split
    · intro tail mark same
      obtain ⟨before, split⟩ := escaped_before "gt;".toList (by simp) same
      exact notGreater before mark split
  | case5 => rfl

theorem unescape_plain {s : List Char} (plain : ∀ name ∈ names, ¬ name <:+: s) : unescape s = s := by
  have tail {c : Char} {rest : List Char} (plain : ∀ name ∈ names, ¬ name <:+: c :: rest) :
      ∀ name ∈ names, ¬ name <:+: rest :=
    fun name known inside => plain name known (inside.trans (List.suffix_cons c rest).isInfix)
  fun_induction unescape s with
  | case1 rest => exact absurd ⟨[], rest, rfl⟩ (plain "#quot;".toList (by simp [names]))
  | case2 rest => exact absurd ⟨[], rest, rfl⟩ (plain "#lt;".toList (by simp [names]))
  | case3 rest => exact absurd ⟨[], rest, rfl⟩ (plain "#gt;".toList (by simp [names]))
  | case4 c rest notQuote notLess notGreater ih => rw [ih (tail plain)]
  | case5 => rfl

-- Two labels are written alike exactly if they read alike.
theorem escape_exact (s t : String) : escape s = escape t ↔ reading s = reading t := by
  rw [reading, reading, String.ofList_inj]
  constructor
  · intro same
    rw [← unescape_escape s.toList, ← unescape_escape t.toList]
    exact congrArg unescape same
  · intro same
    rw [escape, escape, ← escape_unescape s.toList, ← escape_unescape t.toList, same]

end Mermaid

def Node.pictured (n : Node) : Nat × Kind × String :=
  (n.id, n.kind, Mermaid.reading n.label)

namespace Mermaid

theorem nodeText_cut {n m : Node} {rest rest' : List Char}
    (same : nodeText n ++ '"' :: rest = nodeText m ++ '"' :: rest') :
    (n.kind = m.kind ∧ reading n.label = reading m.label) ∧ rest = rest' := by
  have noQuote (label : String) : '"' ∉ escape label := fun member => (escaped_closed label _ member).1 rfl
  simp only [nodeText, List.append_assoc] at same
  obtain ⟨kinds, same⟩ := Kind.name_cut (outside_append rfl _) (outside_append rfl _) same
  obtain ⟨labels, same⟩ := first_cut (noQuote n.label) (noQuote m.label) (List.append_cancel_left same)
  exact ⟨⟨kinds, (escape_exact n.label m.label).mp labels⟩, same⟩

def opening (k : Kind) : List Char :=
  if k.isLeaf then "([\"".toList else "[\"".toList

def closing (k : Kind) : List Char :=
  if k.isLeaf then "])\n".toList else "]\n".toList

theorem nodeStatement_eq (n : Node) : nodeStatement n =
    "  n".toList ++ (decimal n.id ++ (opening n.kind ++ (nodeText n ++ '"' :: closing n.kind))) := by
  unfold nodeStatement opening closing
  split <;> simp

theorem opening_outside (k : Kind) (rest : List Char) : Outside Char.isDigit (opening k ++ rest) := by
  unfold opening
  split
  · exact outside_append rfl rest
  · exact outside_append rfl rest

theorem opening_cut {k k' : Kind} {rest rest' : List Char} (same : opening k ++ rest = opening k' ++ rest') :
    rest = rest' := by
  unfold opening at same
  split at same <;> split at same
  · exact List.append_cancel_left same
  · simp at same
  · simp at same
  · exact List.append_cancel_left same

theorem nodeStatement_cut {n m : Node} {rest rest' : List Char}
    (same : nodeStatement n ++ rest = nodeStatement m ++ rest') : n.pictured = m.pictured ∧ rest = rest' := by
  rw [nodeStatement_eq, nodeStatement_eq] at same
  simp only [List.append_assoc, List.cons_append] at same
  obtain ⟨ids, same⟩ := decimal_cut (opening_outside n.kind _) (opening_outside m.kind _)
    (List.append_cancel_left same)
  obtain ⟨⟨kinds, labels⟩, same⟩ := nodeText_cut (opening_cut same)
  rw [kinds] at same
  refine ⟨?_, List.append_cancel_left same⟩
  rw [Node.pictured, Node.pictured, ids, kinds, labels]

theorem nodeStatement_pictured {n m : Node} (same : n.pictured = m.pictured) : nodeStatement n = nodeStatement m := by
  obtain ⟨ids, rest⟩ := Prod.mk.inj same
  obtain ⟨kinds, labels⟩ := Prod.mk.inj rest
  rw [nodeStatement_eq, nodeStatement_eq, nodeText, nodeText, ids, kinds, (escape_exact n.label m.label).mpr labels]

theorem arrow_solid (r : Relation) : '|' ∉ arrow r := by
  unfold arrow
  cases r <;> simp

theorem edgeStatement_cut {e f : Edge} {rest rest' : List Char}
    (same : edgeStatement e ++ rest = edgeStatement f ++ rest') : e = f ∧ rest = rest' := by
  unfold edgeStatement at same
  simp only [List.append_assoc] at same
  obtain ⟨sources, same⟩ := decimal_cut (outside_append rfl _) (outside_append rfl _)
    (List.append_cancel_left same)
  obtain ⟨_, same⟩ := first_cut (arrow_solid e.relation) (arrow_solid f.relation) (List.append_cancel_left same)
  obtain ⟨relations, same⟩ := Relation.label_cut (outside_append rfl _) (outside_append rfl _) same
  obtain ⟨targets, same⟩ := decimal_cut (outside_append rfl _) (outside_append rfl _)
    (List.append_cancel_left same)
  exact ⟨Edge.eq_of_parts sources targets relations, List.append_cancel_left same⟩

-- Behind its number a node has a bracket, and an edge a blank.
theorem nodeStatement_apart (n : Node) (e : Edge) (rest rest' : List Char) :
    nodeStatement n ++ rest ≠ edgeStatement e ++ rest' := by
  intro same
  rw [nodeStatement_eq] at same
  unfold edgeStatement at same
  simp only [List.append_assoc] at same
  obtain ⟨_, behind⟩ := decimal_cut (opening_outside n.kind _) (outside_append rfl _)
    (List.append_cancel_left same)
  unfold opening at behind
  split at behind <;> simp at behind

theorem styles_below : ∃ below, styles = '\n' :: below := by
  unfold styles
  simp

theorem nodeStatement_ne (n : Node) (edges : List Edge) (rest rest' : List Char) :
    nodeStatement n ++ rest ≠ edges.flatMap edgeStatement ++ (styles ++ rest') := by
  cases edges with
  | nil =>
    obtain ⟨below, lines⟩ := styles_below
    rw [nodeStatement_eq, lines]
    simp
  | cons e edges =>
    rw [List.flatMap_cons, List.append_assoc]
    exact nodeStatement_apart n e _ _

theorem edgeStatement_ne (e : Edge) (rest rest' : List Char) : edgeStatement e ++ rest ≠ styles ++ rest' := by
  obtain ⟨below, lines⟩ := styles_below
  unfold edgeStatement
  rw [lines]
  simp

theorem document_cut {g h : Graph} (same : document g = document h) :
    g.nodes.map Node.pictured = h.nodes.map Node.pictured ∧ g.edges = h.edges := by
  unfold document at same
  simp only [List.append_assoc] at same
  obtain ⟨nodes, same⟩ := flatMap_cut Node.pictured (fun _ _ _ _ _ _ => nodeStatement_cut)
    (fun n _ rest => nodeStatement_ne n h.edges rest _) (fun n _ rest => nodeStatement_ne n g.edges rest _)
    (List.append_cancel_left same)
  obtain ⟨edges, _⟩ := flatMap_cut id (fun _ _ _ _ _ _ => edgeStatement_cut)
    (fun e _ rest => edgeStatement_ne e rest _) (fun e _ rest => edgeStatement_ne e rest _) same
  rw [List.map_id, List.map_id] at edges
  exact ⟨nodes, edges⟩

end Mermaid

namespace Plan

def pictured (p : Plan V) : Kind × String :=
  (p.kind, Mermaid.reading p.service.label)

-- No label of the plan spells out a named character.
def NamesNothing (p : Plan V) : Prop :=
  ∀ node ∈ p.preorder, ∀ name ∈ Mermaid.names, ¬ name <:+: node.service.label.toList

theorem pictured_caption {p : Plan V} (plain : p.NamesNothing) : p.preorder.map pictured = p.preorder.map caption := by
  apply List.map_congr_left
  intro node member
  rw [pictured, caption, Mermaid.reading, Mermaid.unescape_plain (plain node member), String.ofList_toList]

theorem classes_pictured (costs : CostTable) {ps qs : List (Plan V)} (same : ps.map pictured = qs.map pictured) :
    (numbered costs 0 ps).flatMap Mermaid.classStatement = (numbered costs 0 qs).flatMap Mermaid.classStatement := by
  have told (id : Nat) (p q : Plan V) (same : p.pictured = q.pictured) :
      Mermaid.classStatement (rootNode costs id p) = Mermaid.classStatement (rootNode costs id q) := by
    have kinds : p.kind = q.kind := congrArg Prod.fst same
    simp [Mermaid.classStatement, rootNode, kinds]
  rw [List.flatMap_def, List.flatMap_def, numbered_alike told same]

theorem toMermaid_outline (costs : CostTable) (stamp stamp' : String) (p q : Plan V) :
    (p.graph costs stamp).toMermaid = (q.graph costs stamp').toMermaid ↔ p.outline pictured = q.outline pictured := by
  have kinds (p q : Plan V) (same : p.pictured = q.pictured) : p.kind = q.kind := congrArg Prod.fst same
  have shown : (p.graph costs stamp).nodes.map Node.pictured = (q.graph costs stamp').nodes.map Node.pictured ∧
      (p.graph costs stamp).edges = (q.graph costs stamp').edges ↔ p.outline pictured = q.outline pictured := by
    apply pictured_exact Prod.snd
    · intro id p q same
      obtain ⟨kinds, labels⟩ := Prod.mk.inj same
      simp [Node.pictured, rootNode, kinds, labels]
    · intro id node
      rfl
    · exact kinds
  rw [Graph.toMermaid, Graph.toMermaid, String.ofList_inj]
  constructor
  · intro same
    exact shown.mp (Mermaid.document_cut same)
  · intro same
    obtain ⟨nodes, edges⟩ := shown.mpr same
    obtain ⟨marks, _⟩ := (outline_lists kinds p q).mpr same
    have classes : (p.graph costs stamp).nodes.flatMap Mermaid.classStatement =
        (q.graph costs stamp').nodes.flatMap Mermaid.classStatement := by
      rw [graph_nodes, graph_nodes, classes_pictured costs marks]
    unfold Mermaid.document
    rw [flatMap_view Node.pictured (fun _ _ => Mermaid.nodeStatement_pictured) nodes, edges, classes]

end Plan

namespace Graph

-- No label ends its text, and pictures are equal exactly if the plans are the same tree of kinds and labels as they
-- read; labels that spell out no name read as they are.
theorem mermaid_exact (costs : CostTable) (stamp stamp' : String) (p q : Plan V) :
    (∀ label : String, ∀ c ∈ Mermaid.escape label, c ≠ '"' ∧ c ≠ '<' ∧ c ≠ '>') ∧
    ((p.graph costs stamp).toMermaid = (q.graph costs stamp').toMermaid ↔
      p.outline Plan.pictured = q.outline Plan.pictured) ∧
    (p.NamesNothing → q.NamesNothing →
      ((p.graph costs stamp).toMermaid = (q.graph costs stamp').toMermaid ↔
        p.outline Plan.caption = q.outline Plan.caption)) := by
  refine ⟨Mermaid.escaped_closed, Plan.toMermaid_outline costs stamp stamp' p q, ?_⟩
  intro plain plain'
  have kinds (p q : Plan V) (same : p.pictured = q.pictured) : p.kind = q.kind := congrArg Prod.fst same
  have captions (p q : Plan V) (same : p.caption = q.caption) : p.kind = q.kind := congrArg Prod.fst same
  rw [Plan.toMermaid_outline, ← Plan.outline_lists kinds, ← Plan.outline_lists captions,
    Plan.pictured_caption plain, Plan.pictured_caption plain']

theorem mermaid_exact_brackets :
    let plan (name : String) : Plan Value := .leaf (.serviceProvider (.ofInterface name))
    (plan "Vec<a>").NamesNothing ∧ (plan "Vec<b>").NamesNothing ∧
    ((plan "Vec<a>").graph .stock "").toMermaid ≠ ((plan "Vec<b>").graph .stock "").toMermaid := by
  have label : (Key.ofInterface "Vec<a>").label = "Vec<a>" ∧ (Key.ofInterface "Vec<b>").label = "Vec<b>" := by
    constructor <;> cbv
  have unnamed : ∀ name ∈ Mermaid.names, ¬ name <:+: "Vec<a>".toList ∧ ¬ name <:+: "Vec<b>".toList := by decide +kernel
  intro plan
  have plain : (plan "Vec<a>").NamesNothing := by
    intro node member name known
    rw [List.mem_singleton.mp member]
    exact label.1 ▸ (unnamed name known).1
  have plain' : (plan "Vec<b>").NamesNothing := by
    intro node member name known
    rw [List.mem_singleton.mp member]
    exact label.2 ▸ (unnamed name known).2
  refine ⟨plain, plain', ?_⟩
  intro same
  have trees := ((mermaid_exact .stock "" "" (plan "Vec<a>") (plan "Vec<b>")).2.2 plain plain').mp same
  have labels : (Key.ofInterface "Vec<a>").label = (Key.ofInterface "Vec<b>").label :=
    congrArg Prod.snd (Outline.node.inj trees).1
  rw [label.1, label.2] at labels
  simp at labels

-- A quote and the name of a quote.
theorem mermaid_quote_named :
    let plan (name : String) : Plan Value := .leaf (.serviceProvider (.ofInterface name))
    ((plan "\"").graph .stock "").toMermaid = ((plan "#quot;").graph .stock "").toMermaid ∧
    (plan "\"").outline Plan.caption ≠ (plan "#quot;").outline Plan.caption := by
  have quote : (Key.ofInterface "\"").label = "\"" := by cbv
  have name : (Key.ofInterface "#quot;").label = "#quot;" := by cbv
  have alike : Mermaid.reading "\"" = Mermaid.reading "#quot;" := by cbv
  intro plan
  constructor
  · apply (Plan.toMermaid_outline .stock "" "" _ _).mpr
    simp [plan, Plan.outline, Plan.pictured, Plan.kind, Plan.service, Leaf.kind, Leaf.service, quote, name, alike]
  · intro same
    simp [plan, Plan.outline, Plan.caption, Plan.service, Leaf.service, quote, name] at same

end Graph

end ResolutionPlan
