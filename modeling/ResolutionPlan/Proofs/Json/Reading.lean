import ResolutionPlan.Json.Reader
import ResolutionPlan.Proofs.Json.Lexemes

namespace ResolutionPlan.Json

open Text

def Reads (value : Reader α) (j : JsonValue) (a : α) : Prop :=
  ∀ text, Spells j text → ∀ gap rest, Blank gap → Ends rest → value (gap ++ (text ++ rest)) = .ok (a, rest)

theorem spells_token {j : JsonValue} {text : List Char} (spelled : Spells j text) :
    ∃ c rest, text = c :: rest ∧ separates c = false ∧ (c = 'n' → j = .null) := by
  cases spelled with
  | null => exact ⟨'n', _, rfl, rfl, fun _ => rfl⟩
  | flag b =>
    cases b with
    | true => exact ⟨'t', _, rfl, rfl, fun same => absurd same (by decide)⟩
    | false => exact ⟨'f', _, rfl, rfl, fun same => absurd same (by decide)⟩
  | number n =>
    obtain ⟨c, rest, shape, digit, _⟩ := Number.decimal_cons n
    refine ⟨c, rest, shape, Number.digit_token digit, ?_⟩
    rintro rfl
    cases digit
  | text contents => exact ⟨'"', _, rfl, rfl, fun same => absurd same (by decide)⟩
  | array spelled => exact ⟨'[', _, rfl, rfl, fun same => absurd same (by decide)⟩
  | object spelled => exact ⟨'\x7b', _, rfl, rfl, fun same => absurd same (by decide)⟩

-- The white space before a value goes first in every reader.
theorem skipSpace_spelled {j : JsonValue} {text gap : List Char} (spelled : Spells j text) (blank : Blank gap)
    (rest : List Char) : skipSpace (gap ++ (text ++ rest)) = text ++ rest := by
  obtain ⟨c, tail, rfl, token, _⟩ := spells_token spelled
  rw [skipSpace_gap blank]
  exact skipSpace_token token

theorem readFlag_reads (b : Bool) : Reads readFlag (.flag b) b := by
  intro text spelled gap rest blank ends
  rw [readFlag, skipSpace_spelled spelled blank]
  cases spelled
  cases b with
  | true =>
    have word := readWord_letters "rue".toList rest
    change (readWord "rue".toList ("rue".toList ++ rest)).map _ = _
    rw [word]
    rfl
  | false =>
    have word := readWord_letters "alse".toList rest
    change (readWord "alse".toList ("alse".toList ++ rest)).map _ = _
    rw [word]
    rfl

theorem readText_reads (s : String) : Reads readText (.text s) s := by
  intro text spelled gap rest blank ends
  rw [readText, skipSpace_spelled spelled blank]
  cases spelled with
  | text contents =>
    have read := readQuoted_spelled contents rest
    simpa using read

theorem readNatural_reads {n : Nat} (fits : n < Number.wordLimit) : Reads readNatural (.number n) n := by
  intro text spelled gap rest blank ends
  have start := skipSpace_spelled spelled blank rest
  cases spelled
  have number := Number.read_decimal fits ends
  obtain ⟨c, tail, shape, digit, _⟩ := Number.decimal_cons n
  have notMinus : c ≠ '-' := by
    rintro rfl
    cases digit
  rw [shape, List.cons_append] at start number ⊢
  simp only [readNatural, start]
  rw [if_pos digit, number]
  rfl

theorem mapped_reads {value : Reader α} {j : JsonValue} {a : α} (f : α → β) (reads : Reads value j a) :
    Reads (mapped f value) j (f a) := by
  intro text spelled gap rest blank ends
  rw [mapped, reads text spelled gap rest blank ends]
  rfl

theorem readOption_none (value : Reader α) : Reads (readOption value) .null none := by
  intro text spelled gap rest blank ends
  rw [readOption, skipSpace_spelled spelled blank]
  cases spelled
  have word := readWord_letters "ull".toList rest
  change (readWord "ull".toList ("ull".toList ++ rest)).map _ = _
  rw [word]
  rfl

theorem readOption_some {value : Reader α} {j : JsonValue} {a : α} (reads : Reads value j a) (given : j ≠ .null) :
    Reads (readOption value) j (some a) := by
  intro text spelled gap rest blank ends
  have read := reads text spelled [] rest blank_nil ends
  obtain ⟨c, tail, shape, _, null⟩ := spells_token spelled
  have notNull : c ≠ 'n' := fun isNull => given (null isNull)
  rw [readOption, skipSpace_spelled spelled blank]
  rw [shape, List.cons_append] at read ⊢
  simp only [List.nil_append] at read
  simp [notNull, read, Except.map]

theorem readColon_gap {gap : List Char} (blank : Blank gap) (rest : List Char) :
    readColon (gap ++ ':' :: rest) = .ok ((), rest) := by
  have token : skipSpace (':' :: rest) = ':' :: rest := skipSpace_token rfl
  rw [readColon, skipSpace_gap blank, token]
  rfl

section lists

theorem nextItem_leads {first : Bool} {lead : List Char} {c : Char} (leads : Leads first lead)
    (token : separates c = false) (rest : List Char) : nextItem first (lead ++ c :: rest) = .ok (true, c :: rest) := by
  have start : skipSpace (c :: rest) = c :: rest := skipSpace_token token
  have notClose : c ≠ ']' := by
    rintro rfl
    cases token
  have notComma : c ≠ ',' := by
    rintro rfl
    cases token
  cases leads with
  | first blank => simp [nextItem, skipSpace_gap blank, start, notClose, notComma]
  | later before after =>
    have comma (text : List Char) : skipSpace (',' :: text) = ',' :: text := rfl
    simp [nextItem, skipSpace_gap before, comma, skipSpace_gap after, start, notClose]

theorem nextItem_close {first : Bool} {gap : List Char} (blank : Blank gap) (rest : List Char) :
    nextItem first (gap ++ ']' :: rest) = .ok (false, ']' :: rest) := by
  have start : skipSpace (']' :: rest) = ']' :: rest := rfl
  rw [nextItem, skipSpace_gap blank, start]
  rfl

theorem ends_gap {gap : List Char} (blank : Blank gap) {rest : List Char} (ends : Ends rest) :
    Ends (gap ++ rest) := by
  cases gap with
  | nil => exact ends
  | cons c gap =>
    have space := blank c List.mem_cons_self
    exact ends_cons (by rw [separates, space, Bool.true_or])

theorem leads_ends {lead : List Char} (leads : Leads false lead) (rest : List Char) : Ends (lead ++ rest) := by
  cases leads with
  | later before after =>
    rw [List.append_assoc]
    exact ends_gap before (ends_cons rfl)

theorem items_end {items : List JsonValue} {text : List Char} (spelled : SpellsItems false items text)
    (rest : List Char) : Ends (text ++ rest) := by
  cases spelled with
  | nil blank =>
    rw [List.append_assoc]
    exact ends_gap blank (ends_cons rfl)
  | cons leads =>
    rw [List.append_assoc]
    exact leads_ends leads _

theorem items_length {first : Bool} {items : List JsonValue} {text : List Char}
    (spelled : SpellsItems first items text) : items.length < text.length := by
  induction items generalizing first text with
  | nil =>
    cases spelled
    simp
  | cons item rest ih =>
    cases spelled with
    | cons leads spelled others =>
      obtain ⟨c, tail, rfl, _⟩ := spells_token spelled
      have fewer := ih others
      simp only [List.length_append, List.length_cons]
      omega

theorem readItems_spelled {item : Reader α} {encode : α → JsonValue} (as : List α)
    (reads : ∀ a ∈ as, Reads item (encode a) a) {first : Bool} {text : List Char}
    (spelled : SpellsItems first (as.map encode) text) (bound rest : List Char)
    (enough : (as.map encode).length < bound.length) :
    readItems item bound first (text ++ rest) = .ok (as, ']' :: rest) := by
  induction as generalizing first text bound with
  | nil =>
    cases bound with
    | nil => cases enough
    | cons b bound =>
      cases spelled with
      | nil blank =>
        rw [List.append_assoc, readItems, List.singleton_append, nextItem_close blank]
        rfl
  | cons a as ih =>
    cases bound with
    | nil => cases enough
    | cons b bound =>
      cases spelled with
      | @cons _ lead text after _ _ leads spelled others =>
        have fits := Nat.lt_of_succ_lt_succ enough
        have later : ∀ a ∈ as, Reads item (encode a) a := fun a member => reads a (List.mem_cons_of_mem _ member)
        have remaining := ih later others bound fits
        have here := reads a List.mem_cons_self text spelled [] (after ++ rest) blank_nil (items_end others rest)
        obtain ⟨c, start, rfl, token, _⟩ := spells_token spelled
        have next := nextItem_leads leads token (start ++ (after ++ rest))
        simp only [List.nil_append, List.append_assoc, List.cons_append] at here next ⊢
        simp [readItems, next, here, remaining, bind, Except.bind]

theorem readList_reads {item : Reader α} {encode : α → JsonValue} {as : List α}
    (reads : ∀ a ∈ as, Reads item (encode a) a) : Reads (readList item) (.array (as.map encode)) as := by
  intro text spelled gap rest blank ends
  rw [readList, skipSpace_spelled spelled blank]
  cases spelled with
  | @array _ inside spelled =>
    have enough : (as.map encode).length < (inside ++ rest).length := by
      have fewer := items_length spelled
      rw [List.length_append]
      omega
    have read := readItems_spelled as reads spelled (inside ++ rest) rest enough
    have start : skipSpace (']' :: rest) = ']' :: rest := rfl
    simp [closed, read, closeList, start]

end lists

section objects

theorem nextName_leads {first : Bool} {lead pieces : List Char} {name : String} (leads : Leads first lead)
    (named : SpellsText name.toList pieces) (rest : List Char) :
    nextName first (lead ++ '"' :: (pieces ++ '"' :: rest)) = .ok (some name, rest) := by
  have read := readQuoted_spelled named rest
  have start (text : List Char) : skipSpace ('"' :: text) = '"' :: text := rfl
  cases leads with
  | first blank => simp [nextName, skipSpace_gap blank, start, read, Except.map]
  | later before after =>
    have comma (text : List Char) : skipSpace (',' :: text) = ',' :: text := rfl
    simp [nextName, skipSpace_gap before, comma, skipSpace_gap after, start, read, Except.map]

theorem nextName_close {first : Bool} {gap : List Char} (blank : Blank gap) (rest : List Char) :
    nextName first (gap ++ '\x7d' :: rest) = .ok (none, '\x7d' :: rest) := by
  have start : skipSpace ('\x7d' :: rest) = '\x7d' :: rest := rfl
  rw [nextName, skipSpace_gap blank, start]
  rfl

theorem members_end {members : List (String × JsonValue)} {text : List Char}
    (spelled : SpellsMembers false members text) (rest : List Char) : Ends (text ++ rest) := by
  cases spelled with
  | nil blank =>
    rw [List.append_assoc]
    exact ends_gap blank (ends_cons rfl)
  | cons leads =>
    rw [List.append_assoc]
    exact leads_ends leads _

theorem members_length {first : Bool} {members : List (String × JsonValue)} {text : List Char}
    (spelled : SpellsMembers first members text) : members.length < text.length := by
  induction members generalizing first text with
  | nil =>
    cases spelled
    simp
  | cons member rest ih =>
    cases spelled with
    | cons leads named before behind spelled others =>
      have fewer := ih others
      simp only [List.length_append, List.length_cons]
      omega

end objects

namespace Choice

theorem readName_spelled {choice : Choice α} {name : String} {variant : Variant α} {pieces : List Char}
    (found : choice.lookup name = some variant) (named : SpellsText name.toList pieces) (rest : List Char) :
    choice.readName (pieces ++ '"' :: rest) = .ok (variant, rest) := by
  simp [readName, readQuoted_spelled named, found, bind, Except.bind]

theorem read_bare {choice : Choice α} {name : String} {a : α} (found : choice.lookup name = some (.bare a)) :
    Reads choice.read (.text name) a := by
  intro text spelled gap rest blank ends
  rw [read, skipSpace_spelled spelled blank]
  cases spelled with
  | text contents =>
    have named := readName_spelled found contents rest
    simp [named, bind, Except.bind]

theorem read_carrying {choice : Choice α} {name : String} {value : Reader α} {j : JsonValue} {a : α}
    (found : choice.lookup name = some (.carrying value)) (reads : Reads value j a) :
    Reads choice.read (.object [(name, j)]) a := by
  intro text spelled gap rest blank ends
  rw [read, skipSpace_spelled spelled blank]
  cases spelled with
  | object spelled =>
    cases spelled with
    | @cons _ lead pieces gap gap' text after _ _ _ leads named before behind spelled others =>
      have inner := reads text spelled gap' (after ++ rest) behind (members_end others rest)
      cases others with
      | @nil _ behindLast close =>
        cases leads with
        | first open' =>
          have quote (text : List Char) : skipSpace ('"' :: text) = '"' :: text := rfl
          have brace : skipSpace ('\x7d' :: rest) = '\x7d' :: rest := rfl
          have key := readName_spelled found named (gap ++ ':' :: (gap' ++ (text ++ (behindLast ++ '\x7d' :: rest))))
          have colon := readColon_gap before (gap' ++ (text ++ (behindLast ++ '\x7d' :: rest)))
          simp only [List.append_assoc, List.singleton_append] at inner
          simp [readKey, skipSpace_gap open', quote, key, colon, inner, skipSpace_gap close, brace, bind,
            Except.bind]

end Choice

namespace Fields

inductive Fills (fields : Fields σ α) : σ → List (String × JsonValue) → σ → Prop
  | nil {state : σ} : Fills fields state [] state
  | cons {state next final : σ} {name : String} {j : JsonValue} {rest : List (String × JsonValue)} {value : Reader σ}
      (vacant : fields.slot name state = .vacant value) (reads : Reads value j next)
      (others : Fills fields next rest final) : Fills fields state ((name, j) :: rest) final

-- The member's field is vacant, and the member's value is read into the next state.
def Accepts (fields : Fields σ α) (state : σ) (name : String) (j : JsonValue) (next : σ) : Prop :=
  ∃ value, fields.slot name state = .vacant value ∧ Reads value j next

-- The members are the fields in declaration order, and from no field at all they lead to the complete record.
structure Takes (fields : Fields σ α) (members : List (String × JsonValue)) (a : α) : Prop where
  named : members.map (·.1) = fields.names
  filled : fields.names.Nodup → ∃ final, Fills fields fields.blank members final ∧ fields.complete final = .ok a

theorem readMembers_spelled {fields : Fields σ α} {state final : σ} {members : List (String × JsonValue)} {a : α}
    (fills : Fills fields state members final) (complete : fields.complete final = .ok a) {first : Bool}
    {text : List Char} (spelled : SpellsMembers first members text) (bound rest : List Char)
    (enough : members.length < bound.length) :
    fields.readMembers bound first state (text ++ rest) = .ok (a, '\x7d' :: rest) := by
  induction fills generalizing first text bound with
  | nil =>
    cases bound with
    | nil => cases enough
    | cons b bound =>
      cases spelled with
      | nil blank => simp [readMembers, nextName_close blank, complete, bind, Except.bind]
  | cons vacant reads others ih =>
    cases bound with
    | nil => cases enough
    | cons b bound =>
      cases spelled with
      | @cons _ lead pieces gap gap' text after _ _ _ leads named before behind spelled remaining =>
        have fits := Nat.lt_of_succ_lt_succ enough
        have later := ih complete remaining bound fits
        have here := reads text spelled gap' (after ++ rest) behind (members_end remaining rest)
        have name := nextName_leads leads named (gap ++ ':' :: (gap' ++ (text ++ (after ++ rest))))
        have colon := readColon_gap before (gap' ++ (text ++ (after ++ rest)))
        simp [readMembers, name, vacant, colon, here, later, bind, Except.bind]

theorem read_filled {fields : Fields σ α} {final : σ} {members : List (String × JsonValue)} {a : α}
    (fills : Fills fields fields.blank members final) (complete : fields.complete final = .ok a) (record : String) :
    Reads (fields.read record) (.object members) a := by
  intro text spelled gap rest blank ends
  rw [read, skipSpace_spelled spelled blank]
  cases spelled with
  | @object _ inside spelled =>
    have enough : members.length < (inside ++ rest).length := by
      have fewer := members_length spelled
      rw [List.length_append]
      omega
    have read := readMembers_spelled fills complete spelled (inside ++ rest) rest enough
    have brace : skipSpace ('\x7d' :: rest) = '\x7d' :: rest := rfl
    simp [closed, read, closeObject, brace]

theorem read_object {fields : Fields σ α} {members : List (String × JsonValue)} {a : α}
    (takes : Takes fields members a) (distinct : fields.names.Nodup) (record : String) :
    Reads (fields.read record) (.object members) a := by
  obtain ⟨final, fills, complete⟩ := takes.filled distinct
  exact read_filled fills complete record

namespace Accepts

theorem fills {fields : Fields σ α} {state next final : σ} {name : String} {j : JsonValue}
    {rest : List (String × JsonValue)} (accepts : Accepts fields state name j next)
    (others : Fills fields next rest final) : Fills fields state ((name, j) :: rest) final := by
  obtain ⟨value, vacant, reads⟩ := accepts
  exact .cons vacant reads others

theorem own {field : Field α} {others : Fields σ β} {state : σ} {j : JsonValue} {a : α}
    (reads : Reads field.value j a) : Accepts (cons field others) (none, state) field.name j (some a, state) := by
  refine ⟨mapped (fun a => (some a, state)) field.value, ?_, mapped_reads _ reads⟩
  simp [cons]
  rfl

-- The members of the other fields leave a field as it is.
theorem other {field : Field α} {others : Fields σ β} {state next : σ} {name : String} {j : JsonValue}
    (accepts : Accepts others state name j next) (differ : name ≠ field.name) (found : Option α) :
    Accepts (cons field others) (found, state) name j (found, next) := by
  obtain ⟨value, vacant, reads⟩ := accepts
  refine ⟨mapped (fun filled => (found, filled)) value, ?_, mapped_reads _ reads⟩
  simp [cons, differ, vacant, Slot.into]
  rfl

theorem map {fields : Fields σ α} {state next : σ} {name : String} {j : JsonValue}
    (accepts : Accepts fields state name j next) (f : α → β) : Accepts (Fields.map f fields) state name j next :=
  accepts

end Accepts

theorem cons_fills {field : Field α} {others : Fields σ β} {state final : σ} {members : List (String × JsonValue)}
    (fills : Fills others state members final) (found : Option α)
    (apart : ∀ member ∈ members, member.1 ≠ field.name) :
    Fills (cons field others) (found, state) members (found, final) := by
  induction fills with
  | nil => exact .nil
  | cons vacant reads _ ih =>
    have later := ih fun member among => apart member (List.mem_cons_of_mem _ among)
    exact (Accepts.other ⟨_, vacant, reads⟩ (apart _ List.mem_cons_self) found).fills later

theorem map_fills {fields : Fields σ α} {state final : σ} {members : List (String × JsonValue)} (f : α → β)
    (fills : Fills fields state members final) : Fills (map f fields) state members final := by
  induction fills with
  | nil => exact .nil
  | cons vacant reads _ ih => exact .cons vacant reads ih

namespace Takes

protected theorem nil : Takes Fields.nil [] () :=
  ⟨rfl, fun _ => ⟨(), .nil, rfl⟩⟩

protected theorem cons {field : Field α} {others : Fields σ β} {j : JsonValue} {a : α} {b : β}
    {members : List (String × JsonValue)} (reads : Reads field.value j a) (takes : Takes others members b) :
    Takes (Fields.cons field others) ((field.name, j) :: members) (a, b) := by
  refine ⟨congrArg (field.name :: ·) takes.named, fun distinct => ?_⟩
  obtain ⟨alone, distinctOthers⟩ := List.nodup_cons.mp distinct
  obtain ⟨final, fills, complete⟩ := takes.filled distinctOthers
  have apart : ∀ member ∈ members, member.1 ≠ field.name := by
    intro member among same
    have named : member.1 ∈ others.names := takes.named ▸ List.mem_map_of_mem among
    exact alone (same ▸ named)
  refine ⟨(some a, final), (Accepts.own reads).fills (cons_fills fills (some a) apart), ?_⟩
  simp [Fields.cons, complete, Except.map]

protected theorem map {fields : Fields σ α} {members : List (String × JsonValue)} {a : α} (f : α → β)
    (takes : Takes fields members a) : Takes (Fields.map f fields) members (f a) := by
  refine ⟨takes.named, fun distinct => ?_⟩
  obtain ⟨final, fills, complete⟩ := takes.filled distinct
  exact ⟨final, map_fills f fills, by simp [Fields.map, complete, Except.map]⟩

end Takes

end Fields

theorem readAll_between {value : Reader α} {j : JsonValue} {a : α} (reads : Reads value j a)
    {before text after : List Char} (blank : Blank before) (spelled : Spells j text) (blank' : Blank after) :
    readAll value (String.ofList (before ++ (text ++ after))) = .ok a := by
  have ends : Ends after := by
    have none : Ends [] := fun c head => by cases head
    simpa using ends_gap blank' none
  have read := reads text spelled before after blank ends
  simp [readAll, read, skipSpace_blank blank']

theorem readAll_spelled {value : Reader α} {j : JsonValue} {a : α} (reads : Reads value j a) {text : List Char}
    (spelled : Spells j text) : readAll value (String.ofList text) = .ok a := by
  simpa using readAll_between reads blank_nil spelled blank_nil

-- Behind the value of a document nothing is left but white space.
theorem readAll_exact {value : Reader α} {text : List Char} {a : α} :
    readAll value (String.ofList text) = .ok a ↔ ∃ rest, value text = .ok (a, rest) ∧ skipSpace rest = [] := by
  rw [readAll, String.toList_ofList]
  cases read : value text with
  | error failure => simp
  | ok found =>
    obtain ⟨b, rest⟩ := found
    cases left : skipSpace rest with
    | nil => simp [left, and_assoc]
    | cons c others => simp [left, and_assoc]

theorem readAll_fails {value : Reader α} {text : List Char} (fails : (value text).isOk = false) (a : α) :
    readAll value (String.ofList text) ≠ .ok a := by
  intro done
  rw [readAll, String.toList_ofList] at done
  cases read : value text with
  | error failure =>
    rw [read] at done
    cases done
  | ok found =>
    rw [read] at fails
    cases fails

end ResolutionPlan.Json
