import ResolutionPlan.Proofs.Graph.Dot

namespace ResolutionPlan

open Text

variable {V : Type}

namespace Dot

inductive Piece where
  | plain (c : Char)
  | escaped (c : Char)
  deriving DecidableEq

-- An escaped quote or backslash stands for itself; what other escapes stand for is left to whoever draws them.
def Piece.decode : Piece → List Char
  | .plain c => [c]
  | .escaped c => if c = '"' ∨ c = '\\' then [c] else ['\\', c]

-- The pieces up to the first quote that is a piece of its own, and what comes behind this quote.
def pieces? : List Char → Option (List Piece × List Char)
  | [] => none
  | '"' :: rest => some ([], rest)
  | ['\\'] => none
  | '\\' :: c :: rest => (pieces? rest).map fun (others, rest) => (.escaped c :: others, rest)
  | c :: rest => (pieces? rest).map fun (others, rest) => (.plain c :: others, rest)

def lineBreak : Piece := .escaped 'n'

def lastLine? : List Piece → Option (List Piece × List Piece)
  | [] => none
  | piece :: rest =>
    match lastLine? rest with
    | some (before, behind) => some (piece :: before, behind)
    | none => if piece = lineBreak then some ([], rest) else none

def behind? (mark : List Char) : List Char → Option (List Char)
  | [] => none
  | c :: rest => if mark.isPrefixOf (c :: rest) then some ((c :: rest).drop mark.length) else behind? mark rest

-- A node statement as it is read: the lines before the last one, the last one, and what comes behind the closing quote.
structure Reading where
  label : List Char
  lastLine : List Char
  rest : List Char
  deriving DecidableEq

def readStatement (statement : List Char) : Option Reading := do
  let quoted ← behind? "label=\"".toList statement
  let (pieces, rest) ← pieces? quoted
  let (before, last) ← lastLine? pieces
  some ⟨before.flatMap Piece.decode, last.flatMap Piece.decode, rest⟩

-- Every backslash has a character behind it that is neither a quote nor a backslash.
def Readable : List Char → Prop
  | [] => True
  | c :: rest => (c = '\\' → ∃ d ∈ rest.head?, d ≠ '"' ∧ d ≠ '\\') ∧ Readable rest

theorem readable_plain {s : List Char} (noBackslash : '\\' ∉ s) : Readable s := by
  induction s with
  | nil => trivial
  | cons c rest ih =>
    obtain ⟨differ, later⟩ := not_or.mp (mt List.mem_cons.mpr noBackslash)
    exact ⟨fun same => absurd same.symm differ, ih later⟩

theorem pieces?_escaped (c : Char) (rest : List Char) :
    pieces? ('\\' :: c :: rest) = (pieces? rest).map fun (others, rest) => (.escaped c :: others, rest) := by
  rw [pieces?]

theorem pieces?_plain {c : Char} (notQuote : c ≠ '"') (notBackslash : c ≠ '\\') (rest : List Char) :
    pieces? (c :: rest) = (pieces? rest).map fun (others, rest) => (.plain c :: others, rest) := by
  rw [pieces?]
  all_goals simp_all

theorem pieces?_line {line : List Char} (noQuote : '"' ∉ line) (noBackslash : '\\' ∉ line) (rest : List Char) :
    pieces? (line ++ '"' :: rest) = some (line.map .plain, rest) := by
  induction line with
  | nil => rfl
  | cons c line ih =>
    obtain ⟨quote, noQuote⟩ := not_or.mp (mt List.mem_cons.mpr noQuote)
    obtain ⟨backslash, noBackslash⟩ := not_or.mp (mt List.mem_cons.mpr noBackslash)
    rw [List.cons_append, pieces?_plain (Ne.symm quote) (Ne.symm backslash), ih noQuote noBackslash]
    rfl

theorem lastLine?_plain (line : List Char) : lastLine? (line.map .plain) = none := by
  induction line with
  | nil => rfl
  | cons c line ih => simp [lastLine?, ih, lineBreak]

theorem lastLine?_other {piece : Piece} (other : piece ≠ lineBreak) (rest : List Piece) :
    lastLine? (piece :: rest) = (lastLine? rest).map fun (before, behind) => (piece :: before, behind) := by
  rw [lastLine?]
  cases lastLine? rest with
  | none => exact if_neg other
  | some found => rfl

theorem pieces?_first (piece : Piece) {text left : List Char} {pieces : List Piece}
    (read : (pieces? text).map (fun (others, rest) => (piece :: others, rest)) = some (pieces, left)) :
    ∃ others, pieces? text = some (others, left) ∧ pieces = piece :: others := by
  obtain ⟨⟨others, _⟩, inside, same⟩ := Option.map_eq_some_iff.mp read
  cases same
  exact ⟨others, inside, rfl⟩

theorem lastLine?_first {piece : Piece} {others before last : List Piece}
    (found : lastLine? (piece :: others) = some (before, last)) :
    before = [] ∨ ∃ earlier, lastLine? others = some (earlier, last) ∧ before = piece :: earlier := by
  rw [lastLine?] at found
  cases later : lastLine? others with
  | none =>
    rw [later] at found
    dsimp only at found
    split at found
    · cases found
      exact .inl rfl
    · cases found
  | some split =>
    rw [later] at found
    cases found
    exact .inr ⟨_, rfl, rfl⟩

theorem behind?_mark {m : Char} {mark front : List Char} (absent : m ∉ front) (rest : List Char) :
    behind? (m :: mark) (front ++ (m :: mark ++ rest)) = some rest := by
  induction front with
  | nil => simp [behind?]
  | cons c front ih =>
    obtain ⟨differ, later⟩ := not_or.mp (mt List.mem_cons.mpr absent)
    have read := ih later
    rw [List.cons_append] at read
    simp [behind?, differ, read]

-- No more is read of a label than there is in it, and all of it only if it is readable.
structure Within (s : List Char) (before : List Piece) : Prop where
  bound : (before.flatMap Piece.decode).length ≤ s.length
  whole : (before.flatMap Piece.decode).length = s.length → Readable s

namespace Within

theorem none {c : Char} {s : List Char} : Within (c :: s) [] := by
  refine ⟨Nat.zero_le _, fun same => ?_⟩
  cases same

variable {s : List Char} {earlier : List Piece} (within : Within s earlier)

include within

theorem first {piece : Piece} (own : List Char) (length : piece.decode.length = own.length)
    (kept : Readable s → Readable (own ++ s)) : Within (own ++ s) (piece :: earlier) := by
  have bound := within.bound
  have split : ((piece :: earlier).flatMap Piece.decode).length = own.length + (earlier.flatMap Piece.decode).length := by
    rw [List.flatMap_cons, List.length_append, length]
  refine ⟨?_, fun same => kept (within.whole ?_)⟩
  · rw [split, List.length_append]
    omega
  · rw [split, List.length_append] at same
    omega

theorem less {piece : Piece} (own : List Char) (length : piece.decode.length = 1) (more : 1 < own.length) :
    Within (own ++ s) (piece :: earlier) := by
  have bound := within.bound
  have split : ((piece :: earlier).flatMap Piece.decode).length = 1 + (earlier.flatMap Piece.decode).length := by
    rw [List.flatMap_cons, List.length_append, length]
  have longer : 1 + s.length < (own ++ s).length := by
    rw [List.length_append]
    omega
  exact ⟨by omega, fun same => by omega⟩

theorem quote : Within ('"' :: s) (.escaped '"' :: earlier) :=
  within.first ['"'] rfl fun readable => ⟨by simp, readable⟩

theorem plain {c : Char} (notBackslash : c ≠ '\\') : Within (c :: s) (.plain c :: earlier) :=
  within.first [c] rfl fun readable => ⟨fun same => absurd same notBackslash, readable⟩

theorem pair {d : Char} (notQuote : d ≠ '"') : Within ('\\' :: d :: s) (.escaped d :: earlier) := by
  by_cases backslash : d = '\\'
  · subst backslash
    exact within.less ['\\', '\\'] rfl (by decide)
  · refine within.first ['\\', d] ?_ fun readable => ?_
    · simp [Piece.decode, notQuote, backslash]
    · exact ⟨fun _ => ⟨d, rfl, notQuote, backslash⟩, fun same => absurd same backslash, readable⟩

end Within

section labels

variable {line : List Char} (noQuote : '"' ∉ line) (noBackslash : '\\' ∉ line) (rest : List Char)

include noQuote noBackslash

theorem pieces?_readable : ∀ s : List Char, Readable s →
    ∃ own, pieces? (s.flatMap escapeChar ++ '\\' :: 'n' :: (line ++ '"' :: rest)) =
      some (own ++ lineBreak :: line.map .plain, rest) ∧ own.flatMap Piece.decode = s
  | [], _ => ⟨[], by rw [List.flatMap_nil, List.nil_append, pieces?_escaped, pieces?_line noQuote noBackslash]; rfl, rfl⟩
  | c :: s, readable => by
    by_cases quote : c = '"'
    · subst quote
      obtain ⟨own, read, same⟩ := pieces?_readable s readable.2
      exact ⟨.escaped '"' :: own, by simp [escapeChar, pieces?_escaped, read], by simp [Piece.decode, same]⟩
    by_cases backslash : c = '\\'
    · subst backslash
      obtain ⟨d, head, notQuote, notBackslash⟩ := readable.1 rfl
      cases s with
      | nil => cases head
      | cons e s =>
        cases head
        obtain ⟨own, read, same⟩ := pieces?_readable s readable.2.2
        exact ⟨.escaped d :: own, by simp [escapeChar, notQuote, pieces?_escaped, read],
          by simp [Piece.decode, notQuote, notBackslash, same]⟩
    · obtain ⟨own, read, same⟩ := pieces?_readable s readable.2
      exact ⟨.plain c :: own, by simp [escapeChar, quote, pieces?_plain quote backslash, read],
        by simp [Piece.decode, same]⟩

-- A backslash that takes in the one behind it is decoded to one character less, or it leaves the next quote alone, or it
-- hides the line break.
theorem read_within : ∀ (s : List Char) {pieces before last : List Piece} {left : List Char},
    pieces? (s.flatMap escapeChar ++ '\\' :: 'n' :: (line ++ '"' :: rest)) = some (pieces, left) →
    lastLine? pieces = some (before, last) → Within s before
  | [], pieces, before, last, left, read, found => by
    rw [List.flatMap_nil, List.nil_append, pieces?_escaped, pieces?_line noQuote noBackslash] at read
    cases read
    rw [lastLine?, lastLine?_plain] at found
    cases found
    exact ⟨Nat.le_refl 0, fun _ => trivial⟩
  | c :: s, pieces, before, last, left, read, found => by
    by_cases quote : c = '"'
    · subst quote
      obtain ⟨others, readOthers, rfl⟩ := pieces?_first (.escaped '"') (by simpa [escapeChar, pieces?_escaped] using read)
      rcases lastLine?_first found with rfl | ⟨earlier, foundOthers, rfl⟩
      · exact .none
      · exact (read_within s readOthers foundOthers).quote
    by_cases backslash : c = '\\'
    · subst backslash
      cases s with
      | nil =>
        obtain ⟨others, readOthers, rfl⟩ := pieces?_first (.escaped '\\') (by simpa [escapeChar, pieces?_escaped] using read)
        rw [pieces?_plain (by decide) (by decide), pieces?_line noQuote noBackslash] at readOthers
        cases readOthers
        rw [lastLine?_other (by decide), lastLine?_other (by decide), lastLine?_plain] at found
        cases found
      | cons d s =>
        by_cases quoteBehind : d = '"'
        · subst quoteBehind
          obtain ⟨others, readOthers, rfl⟩ := pieces?_first (.escaped '\\') (by simpa [escapeChar, pieces?_escaped] using read)
          cases readOthers
          cases found
        · obtain ⟨others, readOthers, rfl⟩ := pieces?_first (.escaped d)
            (by simpa [escapeChar, quoteBehind, pieces?_escaped] using read)
          rcases lastLine?_first found with rfl | ⟨earlier, foundOthers, rfl⟩
          · exact .none
          · exact (read_within s readOthers foundOthers).pair quoteBehind
    · obtain ⟨others, readOthers, rfl⟩ := pieces?_first (.plain c)
        (by simpa [escapeChar, quote, pieces?_plain quote backslash] using read)
      rcases lastLine?_first found with rfl | ⟨earlier, foundOthers, rfl⟩
      · exact .none
      · exact (read_within s readOthers foundOthers).plain backslash

end labels

-- What there is to read in the statement of a node, when so much comes behind the statement.
def meant (n : Node) (after : List Char) : Reading where
  label := n.label.toList
  lastLine := n.kind.name.toList ++ " (+".toList ++ decimal n.baseCost.toNat ++ ")".toList
  rest := ", shape=".toList ++ shape n.kind ++ ", fillcolor=".toList ++ color n.lifetime
    ++ ", style=filled];\n".toList ++ after

theorem statement_split (n : Node) (after : List Char) :
    nodeStatement n ++ after = "  n".toList ++ decimal n.id ++ " [".toList ++ ('l' :: "abel=\"".toList ++
      (n.label.toList.flatMap escapeChar ++ '\\' :: 'n' :: (costLine n ++ '"' :: (meant n after).rest))) := by
  have mark : " [label=\"".toList = " [".toList ++ 'l' :: "abel=\"".toList := rfl
  have lineEnd : "\\n".toList = ['\\', 'n'] := rfl
  have quote : "\", shape=".toList = '"' :: ", shape=".toList := rfl
  unfold nodeStatement meant escape
  rw [mark, lineEnd, quote]
  simp only [List.append_assoc, List.cons_append, List.nil_append]

theorem statement_quoted (n : Node) (after : List Char) :
    behind? "label=\"".toList (nodeStatement n ++ after) = some
      (n.label.toList.flatMap escapeChar ++ '\\' :: 'n' :: (costLine n ++ '"' :: (meant n after).rest)) := by
  have number : 'l' ∉ decimal n.id := notMem_decimal n.id rfl
  have absent : 'l' ∉ "  n".toList ++ decimal n.id ++ " [".toList := by simp [number]
  rw [statement_split]
  exact behind?_mark absent _

theorem lastLine?_break (own : List Piece) (line : List Char) :
    lastLine? (own ++ lineBreak :: line.map .plain) = some (own, line.map .plain) := by
  induction own with
  | nil => rw [List.nil_append, lastLine?, lastLine?_plain, if_pos rfl]
  | cons piece own ih => rw [List.cons_append, lastLine?, ih]

theorem decode_plain (line : List Char) : (line.map Piece.plain).flatMap Piece.decode = line := by
  induction line with
  | nil => rfl
  | cons c line ih => rw [List.map_cons, List.flatMap_cons, ih]; rfl

theorem readStatement_exact (n : Node) (after : List Char) :
    readStatement (nodeStatement n ++ after) = some (meant n after) ↔ Readable n.label.toList := by
  obtain ⟨noQuote, noBackslash⟩ := costLine_plain n
  rw [readStatement, statement_quoted, Option.bind_eq_bind, Option.bind_some]
  constructor
  · intro read
    obtain ⟨⟨pieces, left⟩, readPieces, read⟩ := Option.bind_eq_some_iff.mp read
    obtain ⟨⟨before, last⟩, found, read⟩ := Option.bind_eq_some_iff.mp read
    have label : before.flatMap Piece.decode = n.label.toList := congrArg Reading.label (Option.some.inj read)
    exact (read_within noQuote noBackslash _ _ readPieces found).whole (congrArg List.length label)
  · intro readable
    obtain ⟨own, read, same⟩ := pieces?_readable noQuote noBackslash (meant n after).rest n.label.toList readable
    rw [read, Option.bind_eq_bind, Option.bind_some]
    dsimp only
    rw [lastLine?_break, Option.bind_eq_bind, Option.bind_some]
    dsimp only
    rw [same, decode_plain]
    rfl

theorem document_statement {g : Graph} {n : Node} (member : n ∈ g.nodes) :
    ∃ before after, g.toDot.toList = before ++ (nodeStatement n ++ after) := by
  obtain ⟨earlier, later, split⟩ := List.append_of_mem member
  rw [Graph.toDot, String.toList_ofList]
  unfold document
  rw [split, List.flatMap_append, List.flatMap_cons]
  simp only [List.append_assoc]
  exact ⟨_ ++ earlier.flatMap nodeStatement, _, (List.append_assoc _ _ _).symm⟩

-- The document has the statement of each node, and a statement is read as it was meant exactly if its label is readable, as
-- every label without backslashes is. So all of them are read as they were meant exactly if the keys of the plan are called
-- so.
theorem label_read_exact (costs : CostTable) (exportedAt : String) (p : Plan V) :
    let g := p.graph costs exportedAt
    (∀ n ∈ g.nodes, ∃ before after, g.toDot.toList = before ++ (nodeStatement n ++ after)) ∧
    (∀ (n : Node) (after : List Char),
      readStatement (nodeStatement n ++ after) = some (meant n after) ↔ Readable n.label.toList) ∧
    ((∀ n ∈ g.nodes, ∀ after, readStatement (nodeStatement n ++ after) = some (meant n after)) ↔
      ∀ node ∈ p.preorder, Readable node.service.label.toList) ∧
    ∀ s : List Char, '\\' ∉ s → Readable s := by
  intro g
  refine ⟨fun n member => document_statement member, readStatement_exact, ?_, fun s => readable_plain⟩
  have labels : g.nodes.map (·.label) = p.preorder.map (·.service.label) := by
    rw [Plan.graph_nodes]
    exact Plan.map_numbered (fun _ _ => rfl) 0 p.preorder
  constructor
  · intro all node member
    have listed : node.service.label ∈ g.nodes.map (·.label) := by
      rw [labels]
      exact List.mem_map_of_mem member
    obtain ⟨n, inGraph, same⟩ := List.mem_map.mp listed
    rw [← same]
    exact (readStatement_exact n []).mp (all n inGraph [])
  · intro all n member after
    have listed : n.label ∈ p.preorder.map (·.service.label) := by
      rw [← labels]
      exact List.mem_map_of_mem member
    obtain ⟨node, inPlan, same⟩ := List.mem_map.mp listed
    refine (readStatement_exact n after).mpr ?_
    rw [← same]
    exact all node inPlan

-- A backslash before a letter and a quote of its own do not keep a label from being read.
theorem label_read_exact_letter :
    let p : Plan Value := .leaf (.serviceProvider (.ofInterface "a\\n\"b\""))
    let g := p.graph .stock "1700000000"
    ∃ n ∈ g.nodes, n.label = "a\\n\"b\"" ∧
      (∃ before after, g.toDot.toList = before ++ (nodeStatement n ++ after)) ∧
      (∀ after, readStatement (nodeStatement n ++ after) = some (meant n after)) ∧
      '\\' ∉ "\"b\"".toList ∧ Readable "\"b\"".toList := by
  intro p g
  obtain ⟨written, exact, _, plain⟩ := label_read_exact .stock "1700000000" p
  obtain ⟨n, nodes, label⟩ : ∃ n, g.nodes = [n] ∧ n.label = "a\\n\"b\"" := ⟨_, rfl, by decide⟩
  have member : n ∈ g.nodes := nodes ▸ List.mem_singleton_self n
  have readable : Readable n.label.toList := by simp [label, Readable]
  have absent : '\\' ∉ "\"b\"".toList := by decide
  exact ⟨n, member, label, written n member, fun after => (exact n after).mpr readable, absent, plain _ absent⟩

-- The last backslash of the label takes in the one of the line break behind it, so there is one line and no label.
theorem label_read_backslash :
    let p : Plan Value := .leaf (.serviceProvider (.ofInterface "a\\"))
    ∃ n, (p.graph .stock "1700000000").nodes = [n] ∧ n.label = "a\\" ∧
      pieces? "a\\\\nServiceProvider (+1)\", shape=ellipse".toList = some
        (.plain 'a' :: .escaped '\\' :: "nServiceProvider (+1)".toList.map .plain, ", shape=ellipse".toList) ∧
      readStatement (nodeStatement n) ≠ some (meant n []) := by
  intro p
  exact ⟨_, rfl, by decide, by decide, by decide⟩

end Dot

end ResolutionPlan
