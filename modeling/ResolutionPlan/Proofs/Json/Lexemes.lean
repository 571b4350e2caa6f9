import ResolutionPlan.Json.Lexeme
import ResolutionPlan.Proofs.Text.ShortName

namespace ResolutionPlan.Json

open Text

def Blank (gap : List Char) : Prop := ∀ c ∈ gap, isSpace c = true

-- The letters of the escapes that have one, and what they stand for.
def shortEscapes : List (Char × Char) :=
  [('"', '"'), ('\\', '\\'), ('/', '/'), ('b', '\x08'), ('f', '\x0c'), ('n', '\n'), ('r', '\r'), ('t', '\t')]

inductive SpellsQuad : Nat → List Char → Prop
  | quad {p q r s : Char} {a b c d n : Nat} (first : hexValue? p = some a) (second : hexValue? q = some b)
      (third : hexValue? r = some c) (fourth : hexValue? s = some d)
      (value : n = ((a * 16 + b) * 16 + c) * 16 + d) : SpellsQuad n [p, q, r, s]

inductive SpellsChar : Char → List Char → Prop
  | raw {c : Char} (visible : 0x20 ≤ c.toNat) (notQuote : c ≠ '"') (notBackslash : c ≠ '\\') : SpellsChar c [c]
  | short {c letter : Char} (known : (letter, c) ∈ shortEscapes) : SpellsChar c ['\\', letter]
  | unit {c : Char} {digits : List Char} (code : SpellsQuad c.toNat digits) : SpellsChar c ('\\' :: 'u' :: digits)
  | pair {c : Char} {high low : Nat} {upper lower : List Char} (highCode : SpellsQuad high upper)
      (lowCode : SpellsQuad low lower) (isHigh : isHighSurrogate high = true) (isLow : isLowSurrogate low = true)
      (code : c.toNat = 0x10000 + (high - 0xD800) * 0x400 + (low - 0xDC00)) :
      SpellsChar c ('\\' :: 'u' :: upper ++ '\\' :: 'u' :: lower)

inductive SpellsText : List Char → List Char → Prop
  | nil : SpellsText [] []
  | cons {c : Char} {s piece pieces : List Char} (first : SpellsChar c piece) (others : SpellsText s pieces) :
      SpellsText (c :: s) (piece ++ pieces)

-- What comes before an item or a member: white space, with a comma in it for all but the first.
inductive Leads : Bool → List Char → Prop
  | first {gap : List Char} (blank : Blank gap) : Leads true gap
  | later {gap gap' : List Char} (before : Blank gap) (after : Blank gap') : Leads false (gap ++ ',' :: gap')

-- Items and members go up to their closing bracket and include it.
mutual
inductive Spells : JsonValue → List Char → Prop
  | null : Spells .null "null".toList
  | flag (b : Bool) : Spells (.flag b) (JsonValue.word b)
  | number (n : Nat) : Spells (.number n) (decimal n)
  | text {s : String} {pieces : List Char} (contents : SpellsText s.toList pieces) :
      Spells (.text s) ('"' :: pieces ++ ['"'])
  | array {items : List JsonValue} {inside : List Char} (spelled : SpellsItems true items inside) :
      Spells (.array items) ('[' :: inside)
  | object {members : List (String × JsonValue)} {inside : List Char} (spelled : SpellsMembers true members inside) :
      Spells (.object members) ('\x7b' :: inside)

inductive SpellsItems : Bool → List JsonValue → List Char → Prop
  | nil {first : Bool} {gap : List Char} (blank : Blank gap) : SpellsItems first [] (gap ++ [']'])
  | cons {first : Bool} {lead text after : List Char} {item : JsonValue} {rest : List JsonValue}
      (leads : Leads first lead) (spelled : Spells item text) (others : SpellsItems false rest after) :
      SpellsItems first (item :: rest) (lead ++ (text ++ after))

inductive SpellsMembers : Bool → List (String × JsonValue) → List Char → Prop
  | nil {first : Bool} {gap : List Char} (blank : Blank gap) : SpellsMembers first [] (gap ++ ['\x7d'])
  | cons {first : Bool} {lead pieces gap gap' text after : List Char} {name : String} {value : JsonValue}
      {rest : List (String × JsonValue)} (leads : Leads first lead) (named : SpellsText name.toList pieces)
      (before : Blank gap) (behind : Blank gap') (spelled : Spells value text)
      (others : SpellsMembers false rest after) :
      SpellsMembers first ((name, value) :: rest)
        (lead ++ '"' :: (pieces ++ '"' :: (gap ++ ':' :: (gap' ++ (text ++ after)))))
end

theorem blank_nil : Blank [] := by
  intro c member
  cases member

theorem blank_cons {c : Char} {gap : List Char} (space : isSpace c = true) (blank : Blank gap) :
    Blank (c :: gap) := by
  intro d member
  rcases List.mem_cons.mp member with rfl | inGap
  · exact space
  · exact blank d inGap

theorem blank_space : Blank [' '] :=
  blank_cons rfl blank_nil

theorem blank_margin (level : Nat) : Blank (JsonValue.margin level) := by
  intro c member
  rw [List.eq_of_mem_replicate member]
  rfl

theorem hexValue?_digitChar {n : Nat} (small : n < 16) : hexValue? n.digitChar = some n := by
  have all : ∀ n < 16, hexValue? n.digitChar = some n := by decide
  exact all n small

-- The writer spells every character, each under one of its forms.
theorem escapeChar_spells (c : Char) : SpellsChar c (JsonValue.escapeChar c) := by
  unfold JsonValue.escapeChar
  split
  iterate 7 exact .short (by decide)
  next notQuote notBackslash _ _ _ _ _ =>
    split
    · next control =>
      have upper := hexValue?_digitChar (n := c.toNat / 16) (by omega)
      have lower := hexValue?_digitChar (n := c.toNat % 16) (by omega)
      have zero : hexValue? '0' = some 0 := rfl
      exact .unit (.quad zero zero upper lower (by omega))
    · next visible => exact .raw (Nat.le_of_not_lt visible) notQuote notBackslash

theorem escaped_spells (s : List Char) : SpellsText s (s.flatMap JsonValue.escapeChar) := by
  induction s with
  | nil => exact .nil
  | cons c rest ih =>
    rw [List.flatMap_cons]
    exact .cons (escapeChar_spells c) ih

theorem quote_eq (s : String) : JsonValue.quote s = '"' :: (s.toList.flatMap JsonValue.escapeChar ++ ['"']) := rfl

theorem line_leads (first : Bool) (level : Nat) : Leads first (JsonValue.line first level) := by
  cases first with
  | true => exact .first (blank_cons rfl (blank_margin level))
  | false => exact .later blank_nil (blank_cons rfl (blank_margin level))

-- The indented form is a spelling. `outer` is the level of the closing bracket.
mutual
theorem pretty_spells (level : Nat) : ∀ j : JsonValue, Spells j (j.prettyAt level)
  | .null => .null
  | .flag b => .flag b
  | .number n => .number n
  | .text s => .text (escaped_spells s.toList)
  | .array [] => .array (.nil blank_nil)
  | .array (item :: rest) => by
    have inside := SpellsItems.cons (line_leads true (level + 1)) (pretty_spells (level + 1) item)
      (prettyItems_spell (level + 1) level rest)
    simpa [JsonValue.prettyAt] using Spells.array inside
  | .object [] => .object (.nil blank_nil)
  | .object ((name, value) :: rest) => by
    have inside := SpellsMembers.cons (line_leads true (level + 1)) (escaped_spells name.toList) blank_nil
      blank_space (pretty_spells (level + 1) value) (prettyMembers_spell (level + 1) level rest)
    simpa [JsonValue.prettyAt, JsonValue.prettyMember, quote_eq] using Spells.object inside

theorem prettyItems_spell (level outer : Nat) : ∀ rest : List JsonValue,
    SpellsItems false rest (JsonValue.prettyItems level rest ++ '\n' :: (JsonValue.margin outer ++ [']']))
  | [] => by
    have blank : Blank ('\n' :: JsonValue.margin outer) := blank_cons rfl (blank_margin outer)
    exact .nil blank
  | item :: rest => by
    have inside := SpellsItems.cons (line_leads false level) (pretty_spells level item)
      (prettyItems_spell level outer rest)
    simpa [JsonValue.prettyItems] using inside

theorem prettyMembers_spell (level outer : Nat) : ∀ rest : List (String × JsonValue),
    SpellsMembers false rest (JsonValue.prettyMembers level rest ++ '\n' :: (JsonValue.margin outer ++ ['\x7d']))
  | [] => by
    have blank : Blank ('\n' :: JsonValue.margin outer) := blank_cons rfl (blank_margin outer)
    exact .nil blank
  | (name, value) :: rest => by
    have inside := SpellsMembers.cons (line_leads false level) (escaped_spells name.toList) blank_nil
      blank_space (pretty_spells level value) (prettyMembers_spell level outer rest)
    simpa [JsonValue.prettyMembers, JsonValue.prettyMember, quote_eq] using inside
end

-- What may stand right behind a value inside a document.
def separates (c : Char) : Bool := isSpace c || c ∈ [',', ']', '\x7d']

def Ends (rest : List Char) : Prop := ∀ c ∈ rest.head?, separates c = true

theorem ends_cons {c : Char} {rest : List Char} (known : separates c = true) : Ends (c :: rest) := by
  intro d head
  cases head
  exact known

theorem skipSpace_gap {gap : List Char} (blank : Blank gap) (text : List Char) :
    skipSpace (gap ++ text) = skipSpace text :=
  List.dropWhile_append_of_pos blank

theorem skipSpace_blank {gap : List Char} (blank : Blank gap) : skipSpace gap = [] := by
  simpa [skipSpace] using skipSpace_gap blank []

theorem skipSpace_token {c : Char} {rest : List Char} (token : separates c = false) :
    skipSpace (c :: rest) = c :: rest := by
  have visible : isSpace c = false := (Bool.or_eq_false_iff.mp token).1
  simp [skipSpace, visible]

theorem readHex_quad {n : Nat} {digits : List Char} (quad : SpellsQuad n digits) (rest : List Char) :
    readHex (digits ++ rest) = .ok (n, rest) := by
  cases quad with
  | quad first second third fourth value =>
    simp [readHex, first, second, third, fourth, value]

theorem char_notSurrogate (c : Char) : isHighSurrogate c.toNat = false ∧ isLowSurrogate c.toNat = false := by
  have valid : c.toNat < 0xD800 ∨ (0xDFFF < c.toNat ∧ c.toNat < 0x110000) := c.valid
  simp only [isHighSurrogate, isLowSurrogate, Bool.and_eq_false_iff, decide_eq_false_iff_not]
  omega

theorem readEscape_short {c letter : Char} (known : (letter, c) ∈ shortEscapes) (rest : List Char) :
    readEscape (letter :: rest) = .ok (c, rest) := by
  simp only [shortEscapes, List.mem_cons, Prod.mk.injEq, List.not_mem_nil, or_false] at known
  rcases known with h | h | h | h | h | h | h | h <;> obtain ⟨rfl, rfl⟩ := h <;> rfl

-- A spelled character is itself, or it is what its escape is read as.
theorem spellsChar_cases {c : Char} {piece : List Char} (spelled : SpellsChar c piece) :
    (piece = [c] ∧ 0x20 ≤ c.toNat ∧ c ≠ '"' ∧ c ≠ '\\') ∨
      ∃ escape, piece = '\\' :: escape ∧ ∀ rest, readEscape (escape ++ rest) = .ok (c, rest) := by
  cases spelled with
  | raw visible notQuote notBackslash => exact .inl ⟨rfl, visible, notQuote, notBackslash⟩
  | short known => exact .inr ⟨_, rfl, fun rest => readEscape_short known rest⟩
  | unit code =>
    refine .inr ⟨_, rfl, fun rest => ?_⟩
    obtain ⟨notHigh, notLow⟩ := char_notSurrogate c
    have read := readHex_quad code rest
    simp [readEscape, read, notHigh, notLow, bind, Except.bind]
  | @pair high _ _ lower highCode lowCode isHigh isLow code =>
    refine .inr ⟨_, rfl, fun rest => ?_⟩
    have notLow : isLowSurrogate high = false := by
      simp only [isHighSurrogate, isLowSurrogate, Bool.and_eq_true, decide_eq_true_eq, Bool.and_eq_false_iff,
        decide_eq_false_iff_not] at isHigh ⊢
      omega
    have readHigh := readHex_quad highCode ('\\' :: 'u' :: (lower ++ rest))
    have readLow := readHex_quad lowCode rest
    simp [readEscape, readLowHalf, readHigh, readLow, notLow, isHigh, isLow, ← code, bind, Except.bind]

theorem readContents_spelled {s pieces : List Char} (spelled : SpellsText s pieces) (bound rest : List Char)
    (enough : pieces.length < bound.length) :
    readContents bound (pieces ++ '"' :: rest) = .ok (s, rest) := by
  induction spelled generalizing bound with
  | nil =>
    cases bound with
    | nil => cases enough
    | cons => rfl
  | @cons c s piece pieces first others ih =>
    cases bound with
    | nil => cases enough
    | cons b bound =>
      rcases spellsChar_cases first with ⟨rfl, visible, notQuote, notBackslash⟩ | ⟨escape, rfl, read⟩
      · have fits : pieces.length < bound.length := by simpa using enough
        have notControl : ¬ c.toNat < 0x20 := Nat.not_lt.mpr visible
        rw [List.singleton_append, List.cons_append, readContents, if_neg notControl, ih bound fits]
        · rfl
        · exact notQuote
        · exact notBackslash
      · have fits : pieces.length < bound.length := by
          simp only [List.length_append, List.length_cons] at enough
          omega
        have later := ih bound fits
        rw [List.append_assoc, List.cons_append, readContents, read]
        simp [later, bind, Except.bind]

theorem readQuoted_spelled {s : String} {pieces : List Char} (spelled : SpellsText s.toList pieces)
    (rest : List Char) : readQuoted (pieces ++ '"' :: rest) = .ok (s, rest) := by
  have enough : pieces.length < (pieces ++ '"' :: rest).length := by
    rw [List.length_append, List.length_cons]
    omega
  rw [readQuoted, readContents_spelled spelled _ rest enough]
  change Except.ok (String.ofList s.toList, rest) = _
  rw [String.ofList_toList]

theorem readWord_letters (letters rest : List Char) : readWord letters (letters ++ rest) = .ok ((), rest) := by
  induction letters with
  | nil => rfl
  | cons letter letters ih => rw [List.cons_append, readWord, if_pos rfl, ih]

namespace Number

theorem le_ofDigitChars (digits : List Char) (value : Nat) : value ≤ Nat.ofDigitChars 10 digits value := by
  induction digits generalizing value with
  | nil => exact Nat.le_refl value
  | cons c rest ih =>
    rw [Nat.ofDigitChars_cons]
    have later := ih (10 * value + (c.toNat - '0'.toNat))
    omega

theorem takeBelow_all {limit value : Nat} {digits : List Char} (below : Nat.ofDigitChars 10 digits value < limit) :
    takeBelow limit value digits = (Nat.ofDigitChars 10 digits value, []) := by
  induction digits generalizing value with
  | nil => rfl
  | cons c rest ih =>
    rw [Nat.ofDigitChars_cons] at below ⊢
    have next : value * 10 + digitValue c = 10 * value + (c.toNat - '0'.toNat) := by
      rw [digitValue, Nat.mul_comm]
    have here := le_ofDigitChars rest (10 * value + (c.toNat - '0'.toNat))
    rw [takeBelow, next, if_pos (Nat.lt_of_le_of_lt here below), ih below]

theorem decimal_cons (n : Nat) :
    ∃ c rest, decimal n = c :: rest ∧ c.isDigit = true ∧ (c = '0' → n = 0 ∧ rest = []) := by
  induction n using Nat.strongRecOn with
  | ind n ih =>
    by_cases small : n < 10
    · have one : ∀ d < 10, d.digitChar.isDigit = true ∧ (d.digitChar = '0' → d = 0) := by decide
      obtain ⟨digit, zero⟩ := one n small
      exact ⟨n.digitChar, [], Nat.toDigits_of_lt_base small, digit, fun isZero => ⟨zero isZero, rfl⟩⟩
    · obtain ⟨c, rest, shape, digit, zero⟩ := ih (n / 10) (by omega)
      have split : decimal n = decimal (n / 10) ++ [(n % 10).digitChar] :=
        Nat.toDigits_of_base_le (by decide) (Nat.le_of_not_lt small)
      refine ⟨c, rest ++ [(n % 10).digitChar], by rw [split, shape]; rfl, digit, ?_⟩
      intro isZero
      have none := (zero isZero).1
      omega

theorem separates_notDigit {c : Char} (known : separates c = true) : c.isDigit = false := by
  simp only [separates, isSpace, Bool.or_eq_true, decide_eq_true_eq, List.mem_cons, List.not_mem_nil, or_false]
    at known
  rcases known with (((rfl | rfl) | rfl) | rfl) | rfl | rfl | rfl <;> rfl

theorem digit_token {c : Char} (digit : c.isDigit = true) : separates c = false := by
  cases known : separates c with
  | false => rfl
  | true =>
    rw [separates_notDigit known] at digit
    cases digit

theorem decimal_span (n : Nat) {rest : List Char} (ends : Ends rest) :
    (decimal n ++ rest).takeWhile Char.isDigit = decimal n ∧ (decimal n ++ rest).dropWhile Char.isDigit = rest := by
  have outside : Outside Char.isDigit rest := fun c head => separates_notDigit (ends c head)
  exact span_class (fun c member => isDigit_of_mem_decimal member) outside

theorem readTail_natural (n : Nat) {rest : List Char} (ends : Ends rest) :
    readTail false n 0 rest = .ok (.natural n, rest) := by
  unfold readTail
  split
  · next decimals =>
    have known := ends '.' rfl
    cases known
  · next exponent =>
    have known := ends 'e' rfl
    cases known
  · next exponent =>
    have known := ends 'E' rfl
    cases known
  · rfl

theorem read_decimal {n : Nat} (fits : n < wordLimit) {rest : List Char} (ends : Ends rest) :
    Number.read false (decimal n ++ rest) = .ok (.natural n, rest) := by
  obtain ⟨c, tail, shape, digit, zero⟩ := decimal_cons n
  obtain ⟨taken, left⟩ := decimal_span n ends
  have value : takeBelow wordLimit 0 (decimal n) = (n, []) := by
    have whole : Nat.ofDigitChars 10 (decimal n) 0 = n := digitsValue_decimal n
    rw [takeBelow_all (whole.symm ▸ fits), whole]
  rw [shape, List.cons_append] at taken left ⊢
  unfold Number.read
  split
  · next h => cases h
  · next h =>
    obtain ⟨rfl, rfl⟩ := List.cons.inj h
    obtain ⟨rfl, rfl⟩ := zero rfl
    have notDigit : rest.head?.any Char.isDigit = false := by
      cases rest with
      | nil => rfl
      | cons d rest => exact separates_notDigit (ends d rfl)
    rw [List.nil_append, notDigit]
    exact readTail_natural 0 ends
  · next h =>
    obtain ⟨rfl, rfl⟩ := List.cons.inj h
    rw [if_pos digit, taken, left, ← shape, value]
    exact readTail_natural n ends

end Number

end ResolutionPlan.Json
