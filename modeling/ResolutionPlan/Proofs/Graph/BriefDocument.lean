import ResolutionPlan.Proofs.Graph.RoundTrip

namespace ResolutionPlan

open Text
open Text Json

variable {V : Type}

namespace Json

def ink (text : List Char) : Nat := text.countP (!isSpace ·)

@[simp] theorem ink_nil : ink [] = 0 := rfl

@[simp] theorem ink_append (left right : List Char) : ink (left ++ right) = ink left + ink right :=
  List.countP_append

theorem ink_mark {c : Char} (visible : isSpace c = false) (rest : List Char) : ink (c :: rest) = ink rest + 1 := by
  simp [ink, visible]

theorem ink_space {c : Char} (space : isSpace c = true) (rest : List Char) : ink (c :: rest) = ink rest := by
  simp [ink, space]

theorem ink_quote (s : String) : ink (JsonValue.quote s) = ink (s.toList.flatMap JsonValue.escapeChar) + 2 := by
  rw [quote_eq, ink_mark (c := '"') rfl, ink_append]
  rfl

theorem ink_member (name : String) (value : JsonValue) : ink (JsonValue.compactMember (name, value)) =
    ink (name.toList.flatMap JsonValue.escapeChar) + 3 + ink value.compact := by
  rw [JsonValue.compactMember, ink_append, ink_quote, ink_mark (c := ':') rfl]
  omega

theorem ink_blank {gap : List Char} (blank : Blank gap) : ink gap = 0 := by
  refine List.countP_eq_zero.mpr fun c member => ?_
  rw [blank c member]
  exact Bool.false_ne_true

theorem ink_quad {n : Nat} {digits : List Char} (quad : SpellsQuad n digits) : ink digits = 4 := by
  have visible {c : Char} {value : Nat} (digit : hexValue? c = some value) : isSpace c = false := by
    cases known : isSpace c with
    | false => rfl
    | true =>
      have space : ((c = ' ' ∨ c = '\n') ∨ c = '\t') ∨ c = '\r' := by simpa [isSpace] using known
      rcases space with ((rfl | rfl) | rfl) | rfl <;> cases digit
  cases quad with
  | quad first second third fourth _ =>
    simp [ink, visible first, visible second, visible third, visible fourth]

theorem escapeChar_raw {c : Char} (visible : 0x20 ≤ c.toNat) (notQuote : c ≠ '"') (notBackslash : c ≠ '\\') :
    JsonValue.escapeChar c = [c] := by
  have notControl : ¬ c.toNat < 0x20 := Nat.not_lt.mpr visible
  unfold JsonValue.escapeChar
  split
  · exact absurd rfl notQuote
  · exact absurd rfl notBackslash
  iterate 5 exact absurd (by decide) notControl
  · exact if_neg notControl

theorem length_escapeChar (c : Char) : (JsonValue.escapeChar c).length ≤ 6 := by
  unfold JsonValue.escapeChar
  split
  iterate 7 decide
  split
  · exact Nat.le_refl 6
  · exact Nat.succ_le_succ (Nat.zero_le 5)

theorem escapeChar_least {c : Char} {piece : List Char} (spelled : SpellsChar c piece) :
    ink (JsonValue.escapeChar c) ≤ ink piece := by
  have short : ink (JsonValue.escapeChar c) ≤ 6 := Nat.le_trans List.countP_le_length (length_escapeChar c)
  have unit {n : Nat} {digits : List Char} (quad : SpellsQuad n digits) : ink ('\\' :: 'u' :: digits) = 6 := by
    rw [ink_mark (c := '\\') rfl, ink_mark (c := 'u') rfl, ink_quad quad]
  cases spelled with
  | raw visible notQuote notBackslash =>
    exact Nat.le_of_eq (congrArg ink (escapeChar_raw visible notQuote notBackslash))
  | short known =>
    simp only [shortEscapes, List.mem_cons, Prod.mk.injEq, List.not_mem_nil, or_false] at known
    rcases known with h | h | h | h | h | h | h | h <;> obtain ⟨rfl, rfl⟩ := h <;> decide
  | unit code => exact Nat.le_trans short (Nat.le_of_eq (unit code).symm)
  | pair highCode lowCode =>
    rw [ink_append, unit highCode, unit lowCode]
    omega

theorem escaped_least {s pieces : List Char} (spelled : SpellsText s pieces) :
    ink (s.flatMap JsonValue.escapeChar) ≤ ink pieces := by
  induction spelled with
  | nil => exact Nat.le_refl 0
  | cons first others ih =>
    rw [List.flatMap_cons, ink_append, ink_append]
    exact Nat.add_le_add (escapeChar_least first) ih

theorem ink_leads {first : Bool} {lead : List Char} (leads : Leads first lead) :
    ink lead = ink (if first then [] else [',']) := by
  cases leads with
  | first blank => exact ink_blank blank
  | later before after =>
    rw [ink_append, ink_mark (c := ',') rfl, ink_blank before, ink_blank after]
    rfl

mutual
theorem compact_least : ∀ (j : JsonValue) {text : List Char}, Spells j text → ink j.compact ≤ ink text
  | .null, _, spelled => by
    cases spelled
    exact Nat.le_refl _
  | .flag b, _, spelled => by
    cases spelled
    exact Nat.le_refl _
  | .number n, _, spelled => by
    cases spelled
    exact Nat.le_refl _
  | .text s, _, spelled => by
    cases spelled with
    | text contents =>
      have inside := escaped_least contents
      have quote : ink ['"'] = 1 := rfl
      rw [JsonValue.compact, ink_quote, List.cons_append, ink_mark (c := '"') rfl, ink_append, quote]
      omega
  | .array items, _, spelled => by
    cases spelled with
    | array spelled =>
      have inside := compactItems_least items spelled
      rw [JsonValue.compact, List.cons_append, ink_mark (c := '[') rfl, ink_mark (c := '[') rfl]
      omega
  | .object members, _, spelled => by
    cases spelled with
    | object spelled =>
      have inside := compactMembers_least members spelled
      rw [JsonValue.compact, List.cons_append, ink_mark (c := '\x7b') rfl, ink_mark (c := '\x7b') rfl]
      omega

theorem compactItems_least : ∀ (items : List JsonValue) {first : Bool} {text : List Char},
    SpellsItems first items text → ink (JsonValue.compactItems first items ++ [']']) ≤ ink text
  | [], _, _, spelled => by
    cases spelled with
    | nil blank =>
      rw [ink_append, ink_append, ink_blank blank]
      exact Nat.le_refl _
  | item :: rest, _, _, spelled => by
    cases spelled with
    | cons leads spelled others =>
      have lead := ink_leads leads
      have here := compact_least item spelled
      have later := compactItems_least rest others
      simp only [JsonValue.compactItems, ink_append] at later ⊢
      omega

theorem compactMembers_least : ∀ (members : List (String × JsonValue)) {first : Bool} {text : List Char},
    SpellsMembers first members text → ink (JsonValue.compactMembers first members ++ ['\x7d']) ≤ ink text
  | [], _, _, spelled => by
    cases spelled with
    | nil blank =>
      rw [ink_append, ink_append, ink_blank blank]
      exact Nat.le_refl _
  | (name, value) :: rest, _, _, spelled => by
    cases spelled with
    | cons leads named before behind spelled others =>
      have lead := ink_leads leads
      have name := escaped_least named
      have here := compact_least value spelled
      have later := compactMembers_least rest others
      simp only [JsonValue.compactMembers, ink_member, ink_append, ink_mark (c := '"') rfl,
        ink_mark (c := ':') rfl] at later ⊢
      omega
end

end Json

-- What a name may hold if quotes alone are escaped, and what may stand in a text as it is.
def isClean (c : Char) : Bool := 0x20 ≤ c.toNat && c ≠ '\\'

def isBare (c : Char) : Bool := isClean c && c ≠ '"'

def Clean (s : List Char) : Prop := ∀ c ∈ s, isClean c = true

def Bare (s : List Char) : Prop := ∀ c ∈ s, isBare c = true

instance (s : List Char) : Decidable (Clean s) := List.decidableBAll _ s

instance (s : List Char) : Decidable (Bare s) := List.decidableBAll _ s

theorem isClean_exact {c : Char} : isClean c = true ↔ 0x20 ≤ c.toNat ∧ c ≠ '\\' := by
  simp [isClean]

theorem isBare_exact {c : Char} : isBare c = true ↔ isClean c = true ∧ c ≠ '"' := by
  simp [isBare]

theorem isBare_digit {c : Char} (digit : c.isDigit = true) : isBare c = true := by
  have atLeast : 48 ≤ c.toNat := of_decide_eq_true (Bool.and_eq_true_iff.mp digit).1
  refine isBare_exact.mpr ⟨isClean_exact.mpr ⟨Nat.le_trans (by decide) atLeast, ?_⟩, ?_⟩
  · rintro rfl
    cases digit
  · rintro rfl
    cases digit

theorem bare_decimal (n : Nat) : Bare (decimal n) :=
  fun _ member => isBare_digit (isDigit_of_mem_decimal member)

theorem bare_append {left right : List Char} (before : Bare left) (after : Bare right) : Bare (left ++ right) := by
  intro c member
  rcases List.mem_append.mp member with inLeft | inRight
  · exact before c inLeft
  · exact after c inRight

theorem Kind.name_bare (k : Kind) : Bare k.name.toList := by
  cases k <;> decide

theorem Relation.label_bare (r : Relation) : Bare r.label := by
  cases r with
  | wraps => decide
  | parameter position => exact bare_append (by decide) (bare_decimal position)
  | element position => exact bare_append (by decide) (bare_decimal position)

theorem bare_spells {s : List Char} (bare : Bare s) : SpellsText s s := by
  induction s with
  | nil => exact .nil
  | cons c rest ih =>
    obtain ⟨clean, notQuote⟩ := isBare_exact.mp (bare c List.mem_cons_self)
    obtain ⟨visible, notBackslash⟩ := isClean_exact.mp clean
    exact .cons (.raw visible notQuote notBackslash) (ih fun d member => bare d (List.mem_cons_of_mem c member))

theorem escape_spells {s : List Char} (clean : Clean s) : SpellsText s (s.flatMap Dot.escapeChar) := by
  induction s with
  | nil => exact .nil
  | cons c rest ih =>
    have others := ih fun d member => clean d (List.mem_cons_of_mem c member)
    obtain ⟨visible, notBackslash⟩ := isClean_exact.mp (clean c List.mem_cons_self)
    rw [List.flatMap_cons]
    refine .cons ?_ others
    unfold Dot.escapeChar
    split
    · next quote =>
      subst quote
      exact .short (by decide)
    · next notQuote => exact .raw visible notQuote notBackslash

theorem label_spelled (r : Relation) : Spells (.text (String.ofList r.label)) ('"' :: r.label ++ ['"']) := by
  have pieces := bare_spells r.label_bare
  rw [← String.toList_ofList (l := r.label)] at pieces
  have whole := Spells.text pieces
  rw [String.toList_ofList] at whole
  exact whole

-- A member as the document has it: a name without escapes, a colon and one space.
theorem member_spelled {first : Bool} {lead text after : List Char} (name : String) {value : JsonValue}
    {rest : List (String × JsonValue)} (leads : Leads first lead) (bare : Bare name.toList)
    (spelled : Spells value text) (others : SpellsMembers false rest after) :
    SpellsMembers first ((name, value) :: rest)
      (lead ++ '"' :: (name.toList ++ '"' :: ':' :: ' ' :: (text ++ after))) :=
  .cons leads (bare_spells bare) blank_nil blank_space spelled others

theorem blank_line (n : Nat) : Blank ('\n' :: List.replicate n ' ') :=
  blank_cons rfl fun _ member => List.eq_of_mem_replicate member ▸ rfl

theorem later_space : Leads false [',', ' '] := .later blank_nil blank_space

theorem later_line (n : Nat) : Leads false (',' :: '\n' :: List.replicate n ' ') := .later blank_nil (blank_line n)

-- How many characters of a name should have an escape and have none.
def missed (s : List Char) : Nat := s.countP (!isClean ·)

theorem missed_append (left right : List Char) : missed (left ++ right) = missed left + missed right :=
  List.countP_append

theorem escapeChar_missed (c : Char) : ink (Dot.escapeChar c) + missed [c] ≤ ink (JsonValue.escapeChar c) := by
  unfold JsonValue.escapeChar
  split
  iterate 7 decide
  next notQuote notBackslash _ _ _ _ _ =>
    have one : ink [c] ≤ 1 := List.countP_le_length
    have once : missed [c] ≤ 1 := List.countP_le_length
    have same : Dot.escapeChar c = [c] := if_neg notQuote
    rw [same]
    split
    · next control =>
      have mark : ink "\\u00".toList = 4 := by decide
      rw [ink_append, mark]
      omega
    · next visible =>
      have clean : isClean c = true := isClean_exact.mpr ⟨Nat.le_of_not_lt visible, notBackslash⟩
      have none : missed [c] = 0 := by simp [missed, clean]
      rw [none]
      exact Nat.le_refl _

theorem escape_missed (s : List Char) :
    ink (s.flatMap Dot.escapeChar) + missed s ≤ ink (s.flatMap JsonValue.escapeChar) := by
  induction s with
  | nil => exact Nat.le_refl 0
  | cons c rest ih =>
    have here := escapeChar_missed c
    have split : missed (c :: rest) = missed [c] + missed rest := missed_append [c] rest
    rw [List.flatMap_cons, List.flatMap_cons, ink_append, ink_append, split]
    omega

theorem ink_escaped (s : List Char) : ink s ≤ ink (s.flatMap JsonValue.escapeChar) := by
  induction s with
  | nil => exact Nat.le_refl 0
  | cons c rest ih =>
    have here := escapeChar_missed c
    have least : ink [c] ≤ ink (Dot.escapeChar c) := by
      unfold Dot.escapeChar
      split
      · next quote =>
        subst quote
        decide
      · exact Nat.le_refl _
    have split : ink (c :: rest) = ink [c] + ink rest := ink_append [c] rest
    rw [List.flatMap_cons, ink_append, split]
    omega

namespace Summary

theorem separated_cons (separator item : List Char) (rest : List (List Char)) :
    separated separator (item :: rest) = item ++ rest.flatMap (separator ++ ·) := by
  induction rest generalizing item with
  | nil => simp [separated]
  | cons next rest ih =>
    rw [separated, ih, List.flatMap_cons, List.append_assoc, List.append_assoc]
    exact List.cons_ne_nil next rest

namespace Json

theorem edge_spelled (e : Edge) : ∃ text, edge e = "    ".toList ++ text ∧ Spells e.brief.toJson text := by
  have members := member_spelled "from" (.first blank_space) (by decide) (.number e.source)
    (member_spelled "to" later_space (by decide) (.number e.target)
      (member_spelled "relation" later_space (by decide) (label_spelled e.relation) (.nil blank_space)))
  refine ⟨_, ?_, .object members⟩
  unfold edge
  simp

theorem node_spelled (n : Node) (clean : Clean n.service.toList) :
    ∃ text, node n = "    ".toList ++ text ∧ Spells n.brief.toJson text := by
  have kind : Spells n.kind.toJson ('"' :: n.kind.name.toList ++ ['"']) := .text (bare_spells n.kind.name_bare)
  have service : Spells (.text n.service) ('"' :: Dot.escape n.service ++ ['"']) := .text (escape_spells clean)
  have members := member_spelled "id" (.first blank_space) (by decide) (.number n.id)
    (member_spelled "kind" later_space (by decide) kind
      (member_spelled "service" later_space (by decide) service
        (member_spelled "base_cost" later_space (by decide) (.number n.baseCost.toNat) (.nil blank_space))))
  refine ⟨_, ?_, .object members⟩
  unfold node
  simp

theorem head_spelled (m : Metadata) (stamp : Bare m.exportedAt.toList) :
    ∃ text, header m = "\x7b\n  \"metadata\": ".toList ++ text ++ ",\n".toList ∧ Spells m.brief.toJson text := by
  have exportedAt : Spells (.text m.exportedAt) ('"' :: m.exportedAt.toList ++ ['"']) := .text (bare_spells stamp)
  have members := member_spelled "node_count" (.first (blank_line 4)) (by decide) (.number m.nodeCount)
    (member_spelled "estimated_size" (later_line 4) (by decide) (.number m.estimatedSize.toNat)
      (member_spelled "requires_scope_lock" (later_line 4) (by decide) (.flag m.requiresScopeLock)
        (member_spelled "exported_at" (later_line 4) (by decide) exportedAt (.nil (blank_line 2)))))
  refine ⟨_, ?_, .object members⟩
  unfold header
  simp [flag, JsonValue.word]

section items

variable {write : α → List Char} (encode : α → JsonValue)

theorem rest_spelled {as : List α}
    (each : ∀ a ∈ as, ∃ text, write a = "    ".toList ++ text ∧ Spells (encode a) text) :
    SpellsItems false (as.map encode) ((as.map write).flatMap (",\n".toList ++ ·) ++ "\n  ]".toList) := by
  induction as with
  | nil => exact .nil (blank_line 2)
  | cons a rest ih =>
    obtain ⟨text, shape, spelled⟩ := each a List.mem_cons_self
    have others := ih fun b member => each b (List.mem_cons_of_mem a member)
    have whole := SpellsItems.cons (later_line 4) spelled others
    simpa [shape] using whole

theorem lines_spelled {as : List α}
    (each : ∀ a ∈ as, ∃ text, write a = "    ".toList ++ text ∧ Spells (encode a) text) :
    Spells (.array (as.map encode)) ("[\n".toList ++ separated ",\n".toList (as.map write) ++ "\n  ]".toList) := by
  cases as with
  | nil =>
    have blank : Blank ['\n', '\n', ' ', ' '] := blank_cons rfl (blank_line 2)
    exact .array (.nil blank)
  | cons a rest =>
    obtain ⟨text, shape, spelled⟩ := each a List.mem_cons_self
    have others := rest_spelled encode fun b member => each b (List.mem_cons_of_mem a member)
    have whole := Spells.array (SpellsItems.cons (.first (blank_line 4)) spelled others)
    rw [List.map_cons, List.map_cons, separated_cons, shape]
    simpa using whole

end items

theorem document_spelled (g : Graph) (stamp : Bare g.metadata.exportedAt.toList)
    (clean : ∀ n ∈ g.nodes, Clean n.service.toList) : Spells g.brief.toJson (document g) := by
  obtain ⟨head, shape, headSpelled⟩ := head_spelled g.metadata stamp
  have nodes := lines_spelled (fun n => n.brief.toJson) fun n member => node_spelled n (clean n member)
  have edges := lines_spelled (fun e => e.brief.toJson) fun e (_ : e ∈ g.edges) => edge_spelled e
  have members := member_spelled "metadata" (.first (blank_line 2)) (by decide) headSpelled
    (member_spelled "nodes" (later_line 2) (by decide) nodes
      (member_spelled "edges" (later_line 2) (by decide) edges (.nil (blank_line 0))))
  have whole := Spells.object members
  unfold document
  rw [shape]
  simpa [Graph.brief, Brief.toJson, Function.comp_def] using whole

theorem ink_edge (e : Edge) : ink (edge e) ≤ ink e.brief.toJson.compact := by
  have relation := ink_escaped e.relation.label
  unfold edge
  simp [Edge.brief, BriefEdge.toJson, JsonValue.compact, JsonValue.compactMembers, ink_member, ink_quote,
    JsonValue.escapeChar, ink_mark, ink_space, isSpace]
  omega

theorem ink_node (n : Node) : ink (node n) + missed n.service.toList ≤ ink n.brief.toJson.compact := by
  have kind := ink_escaped n.kind.name.toList
  have service := escape_missed n.service.toList
  unfold node Dot.escape
  simp [Node.brief, BriefNode.toJson, Kind.toJson, JsonValue.compact, JsonValue.compactMembers, ink_member, ink_quote,
    JsonValue.escapeChar, ink_mark, ink_space, isSpace]
  omega

theorem ink_header (m : Metadata) : ink (header m) ≤ 13 + ink m.brief.toJson.compact := by
  have stamp := ink_escaped m.exportedAt.toList
  unfold header flag
  simp [Metadata.brief, BriefHead.toJson, JsonValue.compact, JsonValue.compactMembers, JsonValue.word, ink_member,
    ink_quote, JsonValue.escapeChar, ink_mark, ink_space, isSpace]
  omega

section items

variable {write : α → List Char} {encode : α → JsonValue} {name : α → List Char}

theorem ink_rest (each : ∀ a, ink (write a) + missed (name a) ≤ ink (encode a).compact) (as : List α) :
    ink ((as.map write).flatMap (",\n".toList ++ ·)) + missed (as.flatMap name) ≤
      ink (JsonValue.compactItems false (as.map encode)) := by
  induction as with
  | nil => exact Nat.le_refl 0
  | cons a rest ih =>
    have here := each a
    have comma : ink ",\n".toList = 1 := by decide
    have comma' : ink [','] = 1 := by decide
    simp only [List.map_cons, List.flatMap_cons, missed_append, JsonValue.compactItems, ink_append, comma,
      Bool.false_eq_true, if_false, comma']
    omega

theorem ink_lines (each : ∀ a, ink (write a) + missed (name a) ≤ ink (encode a).compact) (as : List α) :
    ink (separated ",\n".toList (as.map write)) + missed (as.flatMap name) ≤
      ink (JsonValue.compactItems true (as.map encode)) := by
  cases as with
  | nil => exact Nat.le_refl 0
  | cons a rest =>
    have here := each a
    have others := ink_rest each rest
    simp only [List.map_cons, separated_cons, List.flatMap_cons, missed_append, JsonValue.compactItems, ink_append,
      if_true, ink_nil]
    omega

end items

theorem ink_document (g : Graph) :
    ink (document g) + missed (g.nodes.flatMap (·.service.toList)) ≤ ink g.brief.toJson.compact := by
  have head := ink_header g.metadata
  have nodes := ink_lines ink_node g.nodes
  have each (e : Edge) : ink (edge e) + missed [] ≤ ink e.brief.toJson.compact := ink_edge e
  have edges := ink_lines each g.edges
  unfold document
  simp [Graph.brief, Brief.toJson, JsonValue.compact, JsonValue.compactMembers, ink_member, JsonValue.escapeChar,
    ink_mark, ink_space, isSpace, Function.comp_def] at *
  omega

-- The document spells its data exactly if no name has a character that it leaves without an escape.
theorem document_spelled_iff (g : Graph) (stamp : Bare g.metadata.exportedAt.toList) :
    Spells g.brief.toJson (document g) ↔ ∀ n ∈ g.nodes, Clean n.service.toList := by
  refine ⟨?_, document_spelled g stamp⟩
  intro spelled n member
  have least := compact_least _ spelled
  have all := ink_document g
  have none : missed (g.nodes.flatMap (·.service.toList)) = 0 := by omega
  intro c inName
  have listed : c ∈ g.nodes.flatMap (·.service.toList) := List.mem_flatMap.mpr ⟨n, member, inName⟩
  simpa using List.countP_eq_zero.mp none c listed

end Json

end Summary

namespace Plan

theorem services_clean (costs : CostTable) (exportedAt : String) (p : Plan V) :
    (∀ n ∈ (p.graph costs exportedAt).nodes, Clean n.service.toList) ↔
      ∀ node ∈ p.preorder, Clean node.service.displayName.toList := by
  have services : (p.graph costs exportedAt).nodes.map (·.service) = p.preorder.map (·.service.displayName) := by
    rw [graph_nodes]
    exact map_numbered (fun _ _ => rfl) 0 p.preorder
  have names : (∀ s ∈ (p.graph costs exportedAt).nodes.map (·.service), Clean s.toList) ↔
      ∀ s ∈ p.preorder.map (·.service.displayName), Clean s.toList := by
    rw [services]
  rw [List.forall_mem_map, List.forall_mem_map] at names
  exact names

theorem brief_document (costs : CostTable) (p : Plan V) (seconds : Nat) :
    let g := p.graph costs (String.ofList (decimal seconds))
    let clean := ∀ node ∈ p.preorder, Clean node.service.displayName.toList
    (Spells g.brief.toJson (g.render .brief .json).toList ↔ clean) ∧
    (clean → p.nodeCount < Size.limit →
      readAll Brief.reader (g.render .brief .json) = .ok g.brief ∧
      (Graph.ofJson (g.render .complete .json)).map Graph.brief = .ok g.brief) := by
  intro g clean
  have stamp : Bare g.metadata.exportedAt.toList := by
    change Bare (String.ofList (decimal seconds)).toList
    rw [String.toList_ofList]
    exact bare_decimal seconds
  have spelled : Spells g.brief.toJson (Summary.Json.document g) ↔ clean :=
    (Summary.Json.document_spelled_iff g stamp).trans (services_clean costs _ p)
  refine ⟨?_, ?_⟩
  · change Spells _ (String.ofList (Summary.Json.document g)).toList ↔ _
    rw [String.toList_ofList]
    exact spelled
  · intro names small
    have fits := p.graph_fits costs (String.ofList (decimal seconds)) small
    have complete := Graph.ofJson_spelled g fits (pretty_spells 0 g.toJson)
    refine ⟨readAll_spelled (Brief.reads g fits) (spelled.mpr names), ?_⟩
    change (Graph.ofJson (String.ofList (g.toJson.prettyAt 0))).map Graph.brief = _
    rw [complete]
    rfl

-- Quotes and characters beyond the basic plane do no harm.
theorem brief_document_quotes :
    let p : Plan Value := .constructor (.ofInterface "say \"\u00e9\"") "Speaker" [.leaf (.serviceProvider (.ofInterface "𝄞"))]
    let g := p.graph .stock (String.ofList (decimal 1700000000))
    (∀ node ∈ p.preorder, Clean node.service.displayName.toList) ∧ p.nodeCount < Size.limit ∧
      readAll Brief.reader (g.render .brief .json) = .ok g.brief :=
  ⟨by decide, by decide, ((brief_document .stock _ 1700000000).2 (by decide) (by decide)).1⟩

-- A backslash before the closing quote hides it, and the document is none.
theorem brief_document_backslash :
    let p : Plan Value := .leaf (.serviceProvider (.ofInterface "a\\"))
    let g := p.graph .stock (String.ofList (decimal 1700000000))
    ¬ Spells g.brief.toJson (g.render .brief .json).toList ∧
      ∀ b, readAll Brief.reader (g.render .brief .json) ≠ .ok b := by
  intro p g
  have stamp : Bare g.metadata.exportedAt.toList := by decide +kernel
  refine ⟨?_, readAll_fails (by decide +kernel)⟩
  change ¬ Spells _ (String.ofList (Summary.Json.document g)).toList
  rw [String.toList_ofList, Summary.Json.document_spelled_iff g stamp]
  decide +kernel

end Plan

end ResolutionPlan
