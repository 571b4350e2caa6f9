import ResolutionPlan.Proofs.Json.Range
import ResolutionPlan.Proofs.Json.Reading

namespace ResolutionPlan.Json

open Text

-- What stands between the quotes of a text. Nothing is said of what it stands for, so a half of a character may be
-- escaped alone.
inductive Contents : List Char → Prop
  | nil : Contents []
  | raw {c : Char} {others : List Char} (visible : 0x20 ≤ c.toNat) (notQuote : c ≠ '"') (notBackslash : c ≠ '\\')
      (later : Contents others) : Contents (c :: others)
  | short {c letter : Char} {others : List Char} (known : (letter, c) ∈ shortEscapes) (later : Contents others) :
      Contents ('\\' :: letter :: others)
  | unit {n : Nat} {digits others : List Char} (code : SpellsQuad n digits) (later : Contents others) :
      Contents ('\\' :: 'u' :: (digits ++ others))

def Digits (text : List Char) : Prop := text ≠ [] ∧ ∀ c ∈ text, c.isDigit = true

inductive Fraction : List Char → Prop
  | none : Fraction []
  | some {digits : List Char} (given : Digits digits) : Fraction ('.' :: digits)

inductive Exponent : List Char → Prop
  | none : Exponent []
  | some {letter : Char} {sign digits : List Char} (known : letter ∈ ['e', 'E']) (signed : sign ∈ [[], ['+'], ['-']])
      (given : Digits digits) : Exponent (letter :: (sign ++ digits))

-- An integer literal has no leading zeros.
inductive Literal : List Char → Prop
  | literal {sign fraction exponent : List Char} (signed : sign ∈ [[], ['-']]) (n : Nat) (decimals : Fraction fraction)
      (power : Exponent exponent) : Literal (sign ++ (decimal n ++ (fraction ++ exponent)))

-- A whole value, or the items or members that are left, up to the closing bracket.
inductive Form where
  | value
  | items (first : Bool)
  | members (first : Bool)

inductive WellFormed : Form → List Char → Prop
  | null : WellFormed .value "null".toList
  | flag (b : Bool) : WellFormed .value (JsonValue.word b)
  | number {text : List Char} (literal : Literal text) : WellFormed .value text
  | text {pieces : List Char} (contents : Contents pieces) : WellFormed .value ('"' :: (pieces ++ ['"']))
  | array {inside : List Char} (items : WellFormed (.items true) inside) : WellFormed .value ('[' :: inside)
  | object {inside : List Char} (members : WellFormed (.members true) inside) : WellFormed .value ('\x7b' :: inside)
  | lastItem {first : Bool} {gap : List Char} (blank : Blank gap) : WellFormed (.items first) (gap ++ [']'])
  | item {first : Bool} {lead text after : List Char} (leads : Leads first lead) (value : WellFormed .value text)
      (others : WellFormed (.items false) after) : WellFormed (.items first) (lead ++ (text ++ after))
  | lastMember {first : Bool} {gap : List Char} (blank : Blank gap) : WellFormed (.members first) (gap ++ ['\x7d'])
  | member {first : Bool} {lead pieces gap gap' text after : List Char} (leads : Leads first lead)
      (named : Contents pieces) (before : Blank gap) (behind : Blank gap') (value : WellFormed .value text)
      (others : WellFormed (.members false) after) :
      WellFormed (.members first) (lead ++ '"' :: (pieces ++ '"' :: (gap ++ ':' :: (gap' ++ (text ++ after)))))

section texts

theorem skipEscape_short {c letter : Char} (known : (letter, c) ∈ shortEscapes) (rest : List Char) :
    skipEscape (letter :: rest) = .ok rest := by
  simp only [shortEscapes, List.mem_cons, Prod.mk.injEq, List.not_mem_nil, or_false] at known
  rcases known with h | h | h | h | h | h | h | h <;> obtain ⟨rfl, _⟩ := h <;> rfl

theorem skipContents_formed {pieces : List Char} (contents : Contents pieces) (bound rest : List Char)
    (enough : pieces.length < bound.length) : skipContents bound (pieces ++ '"' :: rest) = .ok rest := by
  induction contents generalizing bound with
  | nil =>
    cases bound with
    | nil => cases enough
    | cons => rfl
  | raw visible notQuote notBackslash _ ih =>
    cases bound with
    | nil => cases enough
    | cons b bound =>
      have notControl := Nat.not_lt.mpr visible
      rw [List.cons_append, skipContents, if_neg notControl, ih bound (Nat.lt_of_succ_lt_succ enough)]
      · exact notQuote
      · exact notBackslash
  | short known _ ih =>
    cases bound with
    | nil => cases enough
    | cons b bound =>
      have later := ih bound (by simp only [List.length_cons] at enough; omega)
      simp only [List.cons_append, skipContents, skipEscape_short known]
      exact later
  | @unit _ digits others code _ ih =>
    cases bound with
    | nil => cases enough
    | cons b bound =>
      have later := ih bound (by simp only [List.length_cons, List.length_append] at enough; omega)
      have read := readHex_quad code (others ++ '"' :: rest)
      simp only [List.cons_append, List.append_assoc, skipContents, skipEscape, read]
      exact later

theorem skipQuoted_formed {pieces : List Char} (contents : Contents pieces) (rest : List Char) :
    skipQuoted (pieces ++ '"' :: rest) = .ok rest := by
  apply skipContents_formed contents
  rw [List.length_append, List.length_cons]
  omega

theorem skipName_formed {pieces gap : List Char} (named : Contents pieces) (blank : Blank gap) (rest : List Char) :
    skipName (pieces ++ '"' :: (gap ++ ':' :: rest)) = .ok rest := by
  have colon : skipSpace (':' :: rest) = ':' :: rest := rfl
  simp [skipName, skipQuoted_formed named, skipSpace_gap blank, colon, bind, Except.bind]

end texts

section numbers

theorem digits_span {digits rest : List Char} (given : Digits digits) (outside : Outside Char.isDigit rest) :
    (digits ++ rest).head?.any Char.isDigit = true ∧ (digits ++ rest).dropWhile Char.isDigit = rest := by
  obtain ⟨some, all⟩ := given
  refine ⟨?_, (span_class all outside).2⟩
  cases digits with
  | nil => exact absurd rfl some
  | cons c digits => exact all c List.mem_cons_self

theorem ends_outside {rest : List Char} (ends : Ends rest) : Outside Char.isDigit rest :=
  fun c head => Number.separates_notDigit (ends c head)

theorem ends_other {rest : List Char} (ends : Ends rest) {c : Char} (token : separates c = false) (others : List Char) :
    rest ≠ c :: others := by
  rintro rfl
  have known := ends c rfl
  rw [token] at known
  cases known

theorem exponent_outside {exponent rest : List Char} (power : Exponent exponent) (ends : Ends rest) :
    Outside Char.isDigit (exponent ++ rest) := by
  cases power with
  | none => exact ends_outside ends
  | some known =>
    apply outside_cons
    simp only [List.mem_cons, List.not_mem_nil, or_false] at known
    rcases known with rfl | rfl <;> rfl

theorem fraction_outside {fraction rest : List Char} (decimals : Fraction fraction)
    (outside : Outside Char.isDigit rest) : Outside Char.isDigit (fraction ++ rest) := by
  cases decimals with
  | none => exact outside
  | some => exact outside_cons rfl

namespace Number

theorem skipExponent_digits {sign digits rest : List Char} (signed : sign ∈ [[], ['+'], ['-']]) (given : Digits digits)
    (outside : Outside Char.isDigit rest) : skipExponent (sign ++ (digits ++ rest)) = .ok rest := by
  obtain ⟨begun, left⟩ := digits_span given outside
  cases shape : digits ++ rest with
  | nil =>
    rw [shape] at begun
    cases begun
  | cons c tail =>
    rw [shape] at begun left
    have digit : c.isDigit = true := begun
    have notPlus : c ≠ '+' := by
      rintro rfl
      cases digit
    have notMinus : c ≠ '-' := by
      rintro rfl
      cases digit
    simp only [List.mem_cons, List.not_mem_nil, or_false] at signed
    rcases signed with rfl | rfl | rfl <;> simp [skipExponent, digit, left, notPlus, notMinus]

theorem skipTail_exponent {exponent rest : List Char} (power : Exponent exponent) (ends : Ends rest) :
    skipTail (exponent ++ rest) = .ok rest := by
  cases power with
  | none =>
    rw [List.nil_append, skipTail]
    all_goals exact ends_other ends rfl
  | some known signed given =>
    have skipped := skipExponent_digits signed given (ends_outside ends)
    simp only [List.mem_cons, List.not_mem_nil, or_false] at known
    rcases known with rfl | rfl <;> simpa [skipTail] using skipped

theorem skipTail_formed {fraction exponent rest : List Char} (decimals : Fraction fraction) (power : Exponent exponent)
    (ends : Ends rest) : skipTail (fraction ++ (exponent ++ rest)) = .ok rest := by
  cases decimals with
  | none => exact skipTail_exponent power ends
  | some given =>
    obtain ⟨begun, left⟩ := digits_span given (exponent_outside power ends)
    rw [List.cons_append, skipTail, if_pos begun, left]
    cases power with
    | none =>
      rw [List.nil_append]
      split
      · exact absurd rfl (ends_other ends rfl _)
      · exact absurd rfl (ends_other ends rfl _)
      · rfl
    | some known signed given' =>
      have skipped := skipExponent_digits signed given' (ends_outside ends)
      simp only [List.mem_cons, List.not_mem_nil, or_false] at known
      rcases known with rfl | rfl <;> simpa using skipped

theorem skip_formed {fraction exponent rest : List Char} (n : Nat) (decimals : Fraction fraction)
    (power : Exponent exponent) (ends : Ends rest) :
    Number.skip (decimal n ++ (fraction ++ (exponent ++ rest))) = .ok rest := by
  have tail := skipTail_formed decimals power ends
  have outside := fraction_outside decimals (exponent_outside power ends)
  obtain ⟨c, digits, shape, digit, zero⟩ := decimal_cons n
  have left := (span_class (fun c member => isDigit_of_mem_decimal member) outside : _ ∧ (decimal n ++ _).dropWhile _ = _).2
  rw [shape, List.cons_append] at left ⊢
  unfold Number.skip
  split
  · next h => cases h
  · next h =>
    obtain ⟨rfl, rfl⟩ := List.cons.inj h
    obtain ⟨rfl, rfl⟩ := zero rfl
    have notDigit : (fraction ++ (exponent ++ rest)).head?.any Char.isDigit = false := by
      cases following : fraction ++ (exponent ++ rest) with
      | nil => rfl
      | cons d others => exact outside d (by rw [following]; rfl)
    rw [List.nil_append, notDigit]
    exact tail
  · next h =>
    obtain ⟨rfl, rfl⟩ := List.cons.inj h
    rw [if_pos digit, left]
    exact tail

end Number

end numbers

section skipping

theorem formed_token {text : List Char} (formed : WellFormed .value text) :
    ∃ c rest, text = c :: rest ∧ separates c = false := by
  cases formed with
  | null => exact ⟨'n', _, rfl, rfl⟩
  | flag b =>
    cases b with
    | true => exact ⟨'t', _, rfl, rfl⟩
    | false => exact ⟨'f', _, rfl, rfl⟩
  | number literal =>
    cases literal with
    | literal signed n _ _ =>
      simp only [List.mem_cons, List.not_mem_nil, or_false] at signed
      rcases signed with rfl | rfl
      · obtain ⟨c, digits, shape, digit, _⟩ := Number.decimal_cons n
        exact ⟨c, _, by rw [shape]; rfl, Number.digit_token digit⟩
      · exact ⟨'-', _, rfl, rfl⟩
  | text => exact ⟨'"', _, rfl, rfl⟩
  | array => exact ⟨'[', _, rfl, rfl⟩
  | object => exact ⟨'\x7b', _, rfl, rfl⟩

theorem skipSpace_formed {text gap : List Char} (formed : WellFormed .value text) (blank : Blank gap)
    (rest : List Char) : skipSpace (gap ++ (text ++ rest)) = text ++ rest := by
  obtain ⟨c, tail, rfl, token⟩ := formed_token formed
  rw [skipSpace_gap blank]
  exact skipSpace_token token

theorem skipScalar_null (rest : List Char) : skipScalar ("null".toList ++ rest) = .ok (some rest) := by
  have word := readWord_letters "ull".toList rest
  change skipScalar ('n' :: ("ull".toList ++ rest)) = _
  rw [skipScalar, word]
  rfl

theorem skipScalar_flag (b : Bool) (rest : List Char) : skipScalar (JsonValue.word b ++ rest) = .ok (some rest) := by
  cases b with
  | true =>
    have word := readWord_letters "rue".toList rest
    change skipScalar ('t' :: ("rue".toList ++ rest)) = _
    rw [skipScalar, word]
    rfl
  | false =>
    have word := readWord_letters "alse".toList rest
    change skipScalar ('f' :: ("alse".toList ++ rest)) = _
    rw [skipScalar, word]
    rfl

theorem skipScalar_digit {c : Char} (digit : c.isDigit = true) (rest : List Char) :
    skipScalar (c :: rest) = (Number.skip (c :: rest)).map some := by
  unfold skipScalar
  split
  case h_9 =>
    next h =>
    obtain ⟨rfl, rfl⟩ := List.cons.inj h
    rw [if_pos digit]
  all_goals
    next h =>
    cases h
    try cases digit

theorem skipScalar_literal {text rest : List Char} (literal : Literal text) (ends : Ends rest) :
    skipScalar (text ++ rest) = .ok (some rest) := by
  cases literal with
  | literal signed n decimals power =>
    have skipped := Number.skip_formed n decimals power ends
    simp only [List.mem_cons, List.not_mem_nil, or_false] at signed
    rcases signed with rfl | rfl
    · obtain ⟨c, digits, shape, digit, _⟩ := Number.decimal_cons n
      rw [shape, List.cons_append] at skipped
      simp only [shape, List.nil_append, List.cons_append, List.append_assoc, skipScalar_digit digit, skipped]
      rfl
    · simp only [List.cons_append, List.nil_append, List.append_assoc, skipScalar, skipped]
      rfl

-- What it is to skip each form. The bracket before the first item or member is passed in the call that finds it.
def Skips : Form → List Char → Prop
  | .value, text => ∀ bound gap rest, text.length ≤ bound.length → Blank gap → Ends rest →
      skipWithin bound (gap ++ (text ++ rest)) = .ok rest
  | .items true, text => ∀ b bound gap rest, text.length ≤ bound.length → Blank gap →
      skipWithin (b :: bound) (gap ++ '[' :: (text ++ rest)) = .ok rest
  | .items false, text => ∀ bound rest, text.length ≤ bound.length → skipItems bound (text ++ rest) = .ok rest
  | .members true, text => ∀ b bound gap rest, text.length ≤ bound.length → Blank gap →
      skipWithin (b :: bound) (gap ++ '\x7b' :: (text ++ rest)) = .ok rest
  | .members false, text => ∀ bound rest, text.length ≤ bound.length → skipMembers bound (text ++ rest) = .ok rest

theorem skipWithin_scalar {text rest gap bound : List Char} (formed : WellFormed .value text) (blank : Blank gap)
    (scalar : skipScalar (text ++ rest) = .ok (some rest)) (enough : text.length ≤ bound.length) :
    skipWithin bound (gap ++ (text ++ rest)) = .ok rest := by
  obtain ⟨c, tail, rfl, _⟩ := formed_token formed
  cases bound with
  | nil => cases enough
  | cons b bound =>
    simp only [skipWithin, skipSpace_formed formed blank rest, scalar]
    rfl

-- Behind a value stands what separates it from the next one.
theorem items_ends {text : List Char} (formed : WellFormed (.items false) text) (rest : List Char) :
    Ends (text ++ rest) := by
  cases formed with
  | lastItem blank =>
    rw [List.append_assoc]
    exact ends_gap blank (ends_cons rfl)
  | item leads =>
    rw [List.append_assoc]
    exact leads_ends leads _

theorem members_ends {text : List Char} (formed : WellFormed (.members false) text) (rest : List Char) :
    Ends (text ++ rest) := by
  cases formed with
  | lastMember blank =>
    rw [List.append_assoc]
    exact ends_gap blank (ends_cons rfl)
  | member leads =>
    rw [List.append_assoc]
    exact leads_ends leads _

theorem lastItem_skips (first : Bool) {gap : List Char} (blank : Blank gap) : Skips (.items first) (gap ++ [']']) := by
  have close (rest : List Char) : skipSpace (']' :: rest) = ']' :: rest := rfl
  cases first with
  | true =>
    intro b bound gap' rest _ blank'
    have opened (rest : List Char) : skipSpace ('[' :: rest) = '[' :: rest := rfl
    simp [skipWithin, skipScalar, skipSpace_gap blank', opened, skipSpace_gap blank, close, bind, Except.bind]
  | false =>
    intro bound rest enough
    cases bound with
    | nil => simp at enough
    | cons b bound => simp [skipItems, skipSpace_gap blank, close]

theorem item_skips {first : Bool} {lead text after : List Char} (leads : Leads first lead)
    (formed : WellFormed .value text) (value : Skips .value text) (formedOthers : WellFormed (.items false) after)
    (others : Skips (.items false) after) : Skips (.items first) (lead ++ (text ++ after)) := by
  cases leads with
  | first blank =>
    intro b bound gap' rest enough blank'
    simp only [List.length_append] at enough
    have here := value bound [] (after ++ rest) (by omega) blank_nil (items_ends formedOthers rest)
    have there := others bound rest (by omega)
    have opened (rest : List Char) : skipSpace ('[' :: rest) = '[' :: rest := rfl
    have start := skipSpace_formed formed blank (after ++ rest)
    obtain ⟨c, tail, rfl, token⟩ := formed_token formed
    have notClose : c ≠ ']' := by
      rintro rfl
      cases token
    simp only [List.nil_append, List.cons_append] at here start
    simp [skipWithin, skipScalar, skipSpace_gap blank', opened, start, notClose, here, there, bind, Except.bind]
  | @later gap gap' before behind =>
    intro bound rest enough
    cases bound with
    | nil => simp at enough
    | cons b bound =>
      simp only [List.length_append, List.length_cons] at enough
      have here := value bound gap' (after ++ rest) (by omega) behind (items_ends formedOthers rest)
      have there := others bound rest (by omega)
      have comma (rest : List Char) : skipSpace (',' :: rest) = ',' :: rest := rfl
      simp [skipItems, skipSpace_gap before, comma, here, there, bind, Except.bind]

theorem lastMember_skips (first : Bool) {gap : List Char} (blank : Blank gap) :
    Skips (.members first) (gap ++ ['\x7d']) := by
  have close (rest : List Char) : skipSpace ('\x7d' :: rest) = '\x7d' :: rest := rfl
  cases first with
  | true =>
    intro b bound gap' rest _ blank'
    have opened (rest : List Char) : skipSpace ('\x7b' :: rest) = '\x7b' :: rest := rfl
    simp [skipWithin, skipScalar, skipSpace_gap blank', opened, skipSpace_gap blank, close, bind, Except.bind]
  | false =>
    intro bound rest enough
    cases bound with
    | nil => simp at enough
    | cons b bound => simp [skipMembers, skipSpace_gap blank, close]

theorem member_skips {first : Bool} {lead pieces gap gap' text after : List Char} (leads : Leads first lead)
    (named : Contents pieces) (before : Blank gap) (behind : Blank gap') (value : Skips .value text)
    (formedOthers : WellFormed (.members false) after) (others : Skips (.members false) after) :
    Skips (.members first) (lead ++ '"' :: (pieces ++ '"' :: (gap ++ ':' :: (gap' ++ (text ++ after))))) := by
  have quote (rest : List Char) : skipSpace ('"' :: rest) = '"' :: rest := rfl
  cases leads with
  | first blank =>
    intro b bound gap'' rest enough blank'
    simp only [List.length_append, List.length_cons] at enough
    have name := skipName_formed named before (gap' ++ (text ++ (after ++ rest)))
    have here := value bound gap' (after ++ rest) (by omega) behind (members_ends formedOthers rest)
    have there := others bound rest (by omega)
    have opened (rest : List Char) : skipSpace ('\x7b' :: rest) = '\x7b' :: rest := rfl
    simp [skipWithin, skipScalar, skipSpace_gap blank', opened, skipSpace_gap blank, quote, name, here, there, bind,
      Except.bind]
  | @later start start' blank blank' =>
    intro bound rest enough
    cases bound with
    | nil => simp at enough
    | cons b bound =>
      simp only [List.length_append, List.length_cons] at enough
      have name := skipName_formed named before (gap' ++ (text ++ (after ++ rest)))
      have here := value bound gap' (after ++ rest) (by omega) behind (members_ends formedOthers rest)
      have there := others bound rest (by omega)
      have comma (rest : List Char) : skipSpace (',' :: rest) = ',' :: rest := rfl
      simp [skipMembers, skipSpace_gap blank, comma, skipSpace_gap blank', quote, name, here, there, bind, Except.bind]

-- Along the grammar. A list or an object is the form inside it, read behind its bracket with a bound that is one
-- shorter.
theorem formed_skips {form : Form} {text : List Char} (formed : WellFormed form text) : Skips form text := by
  induction formed with
  | null =>
    intro bound gap rest enough blank _
    exact skipWithin_scalar .null blank (skipScalar_null rest) enough
  | flag b =>
    intro bound gap rest enough blank _
    exact skipWithin_scalar (.flag b) blank (skipScalar_flag b rest) enough
  | number literal =>
    intro bound gap rest enough blank ends
    exact skipWithin_scalar (.number literal) blank (skipScalar_literal literal ends) enough
  | @text pieces contents =>
    intro bound gap rest enough blank _
    refine skipWithin_scalar (.text contents) blank ?_ enough
    have skipped := skipQuoted_formed contents rest
    simp [skipScalar, skipped, Except.map]
  | array _ inside =>
    intro bound gap rest enough blank _
    cases bound with
    | nil => cases enough
    | cons b bound => exact inside b bound gap rest (Nat.le_of_succ_le_succ enough) blank
  | object _ inside =>
    intro bound gap rest enough blank _
    cases bound with
    | nil => cases enough
    | cons b bound => exact inside b bound gap rest (Nat.le_of_succ_le_succ enough) blank
  | lastItem blank => exact lastItem_skips _ blank
  | item leads formed formedOthers value others => exact item_skips leads formed value formedOthers others
  | lastMember blank => exact lastMember_skips _ blank
  | member leads named before behind _ formedOthers value others =>
    exact member_skips leads named before behind value formedOthers others

theorem skipValue_formed {text gap rest : List Char} (formed : WellFormed .value text) (blank : Blank gap)
    (ends : Ends rest) : skipValue (gap ++ (text ++ rest)) = .ok rest := by
  apply formed_skips formed _ _ _ _ blank ends
  simp only [List.length_append]
  omega

end skipping

section naturals

namespace Number

theorem takeBelow_whole {limit value : Nat} {digits : List Char} (whole : (takeBelow limit value digits).2 = []) :
    (takeBelow limit value digits).1 = Nat.ofDigitChars 10 digits value := by
  induction digits generalizing value with
  | nil => rfl
  | cons c rest ih =>
    have next : value * 10 + digitValue c = 10 * value + (c.toNat - '0'.toNat) := by
      rw [digitValue, Nat.mul_comm]
    unfold takeBelow at whole ⊢
    split
    · next below =>
      rw [if_pos below] at whole
      rw [ih whole, Nat.ofDigitChars_cons, next]
    · next beyond =>
      rw [if_neg beyond] at whole
      cases whole

theorem unended {fraction exponent rest : List Char} (decimals : Fraction fraction) (power : Exponent exponent)
    (ended : ∀ c ∈ (fraction ++ (exponent ++ rest)).head?, c ∉ ['.', 'e', 'E']) : fraction = [] ∧ exponent = [] := by
  cases decimals with
  | some => exact absurd (by decide) (ended '.' rfl)
  | none =>
    cases power with
    | none => exact ⟨rfl, rfl⟩
    | some known => exact absurd (List.mem_cons_of_mem _ known) (ended _ rfl)

-- Of all literals only the plain ones are read as a natural number, and they as their own.
theorem read_natural_literal {isNegative : Bool} {fraction exponent rest left : List Char} {m n : Nat}
    (decimals : Fraction fraction) (power : Exponent exponent) (ends : Ends rest)
    (done : Number.read isNegative (decimal m ++ (fraction ++ (exponent ++ rest))) = .ok (.natural n, left)) :
    isNegative = false ∧ fraction = [] ∧ exponent = [] ∧ n = m ∧ left = rest := by
  have outside := fraction_outside decimals (exponent_outside power ends)
  obtain ⟨taken, behind⟩ := span_class (fun c member => isDigit_of_mem_decimal member) outside
  have finish {significand dropped : Nat} (whole : dropped = 0 → significand = m)
      (done : readTail isNegative significand dropped (fraction ++ (exponent ++ rest)) = .ok (.natural n, left)) :
      isNegative = false ∧ fraction = [] ∧ exponent = [] ∧ n = m ∧ left = rest := by
    have plain := readTail_plain done
    obtain ⟨rfl, rfl⟩ := unended decimals power plain.ended
    exact ⟨plain.unsigned, rfl, rfl, plain.value.trans (whole plain.whole), plain.untouched⟩
  obtain ⟨c, digits, shape, digit, zero⟩ := decimal_cons m
  rw [shape, List.cons_append] at taken behind done
  unfold Number.read at done
  split at done
  · next h => cases h
  · next h =>
    obtain ⟨rfl, rfl⟩ := List.cons.inj h
    obtain ⟨rfl, rfl⟩ := zero rfl
    split at done
    · cases done
    · exact finish (fun _ => rfl) done
  · next h =>
    obtain ⟨rfl, rfl⟩ := List.cons.inj h
    rw [if_pos digit, taken, behind, ← shape] at done
    refine finish (fun none => ?_) done
    rw [takeBelow_whole (List.eq_nil_of_length_eq_zero none)]
    exact digitsValue_decimal m

end Number

theorem begins_first {c : Char} {tail left : List Char} {n : Nat} (begins : Begins (c :: tail) n left) :
    c = '-' ∨ c.isDigit = true := by
  rcases begins with ⟨_, shape, _⟩ | ⟨_, _, shape, digit, _⟩
  · exact .inl (List.cons.inj shape).1
  · exact .inr ((List.cons.inj shape).1 ▸ digit)

theorem begins_literal {text rest left : List Char} {n : Nat} (literal : Literal text) (ends : Ends rest)
    (begins : Begins (text ++ rest) n left) : text = decimal n ∧ left = rest := by
  cases literal with
  | @literal sign fraction exponent signed m decimals power =>
    simp only [List.mem_cons, List.not_mem_nil, or_false] at signed
    simp only [List.append_assoc] at begins ⊢
    rcases signed with rfl | rfl <;> rcases begins with ⟨_, shape, read⟩ | ⟨_, _, shape, digit, read⟩
    · obtain ⟨c, digits, number, digit, _⟩ := Number.decimal_cons m
      rw [number] at shape
      cases shape
      cases digit
    · obtain ⟨_, rfl, rfl, rfl, rfl⟩ := Number.read_natural_literal decimals power ends read
      exact ⟨by simp, rfl⟩
    · cases shape
      obtain ⟨wrong, _⟩ := Number.read_natural_literal decimals power ends read
      cases wrong
    · cases shape
      cases digit

theorem readNatural_exact {text gap rest left : List Char} {n : Nat} (formed : WellFormed .value text)
    (blank : Blank gap) (ends : Ends rest) :
    readNatural (gap ++ (text ++ rest)) = .ok (n, left) ↔ text = decimal n ∧ n < Number.wordLimit ∧ left = rest := by
  constructor
  · intro done
    have fits := readNatural_yields _ _ _ done
    have begins := readNatural_begins done
    rw [skipSpace_formed formed blank rest] at begins
    cases formed with
    | null => exact absurd (begins_first begins) (by decide)
    | flag b => cases b <;> exact absurd (begins_first begins) (by decide)
    | number literal =>
      obtain ⟨same, behind⟩ := begins_literal literal ends begins
      exact ⟨same, fits, behind⟩
    | text => exact absurd (begins_first begins) (by decide)
    | array => exact absurd (begins_first begins) (by decide)
    | object => exact absurd (begins_first begins) (by decide)
  · rintro ⟨rfl, fits, rfl⟩
    exact readNatural_reads fits _ (.number n) gap left blank ends

end naturals

section objects

-- The members that are left of an object, with their names decoded and the texts of their values.
inductive Members : Bool → List (String × List Char) → List Char → Prop
  | nil {first : Bool} {gap : List Char} (blank : Blank gap) : Members first [] (gap ++ ['\x7d'])
  | cons {first : Bool} {lead pieces gap gap' text after : List Char} {name : String}
      {rest : List (String × List Char)} (leads : Leads first lead) (named : SpellsText name.toList pieces)
      (before : Blank gap) (behind : Blank gap') (value : WellFormed .value text) (others : Members false rest after) :
      Members first ((name, text) :: rest)
        (lead ++ '"' :: (pieces ++ '"' :: (gap ++ ':' :: (gap' ++ (text ++ after)))))

theorem named_contents {s pieces : List Char} (named : SpellsText s pieces) : Contents pieces := by
  induction named with
  | nil => exact .nil
  | @cons c s piece pieces first others ih =>
    cases first with
    | raw visible notQuote notBackslash => exact .raw visible notQuote notBackslash ih
    | short known => exact .short known ih
    | unit code => exact .unit code ih
    | pair highCode lowCode =>
      have both := Contents.unit highCode (.unit lowCode ih)
      simpa using both

theorem members_formed {first : Bool} {members : List (String × List Char)} {text : List Char}
    (object : Members first members text) : WellFormed (.members first) text := by
  induction object with
  | nil blank => exact .lastMember blank
  | cons leads named before behind value _ ih => exact .member leads (named_contents named) before behind value ih

theorem members_count {first : Bool} {members : List (String × List Char)} {text : List Char}
    (object : Members first members text) : members.length < text.length := by
  induction object with
  | nil => simp
  | cons _ _ _ _ _ _ ih =>
    simp only [List.length_append, List.length_cons]
    omega

-- What one member does to a record, told by the slot of its name.
theorem readMembers_member {fields : Fields σ α} {first : Bool} {lead pieces gap more bound : List Char} {b : Char}
    {name : String} {state : σ} (leads : Leads first lead) (named : SpellsText name.toList pieces)
    (before : Blank gap) :
    fields.readMembers (b :: bound) first state (lead ++ '"' :: (pieces ++ '"' :: (gap ++ ':' :: more))) =
      match fields.slot name state with
      | .unknown => skipValue more >>= fun rest => fields.readMembers bound false state rest
      | .taken => .error (.floating (.duplicateField name) (gap ++ ':' :: more))
      | .vacant value => value more >>= fun (next, rest) => fields.readMembers bound false next rest := by
  have next := nextName_leads leads named (gap ++ ':' :: more)
  have colon := readColon_gap before more
  rw [Fields.readMembers, next]
  cases known : fields.slot name state with
  | unknown => simp [known, colon, bind, Except.bind]
  | taken => simp [known, bind, Except.bind]
  | vacant value => simp [known, colon, bind, Except.bind]

end objects

end ResolutionPlan.Json
