import Mathlib.Data.List.Infix
import ResolutionPlan.Key

namespace ResolutionPlan

open Text

namespace Text

-- The text is empty or begins with a character outside the class.
def Outside (p : Char → Bool) (rest : List Char) : Prop := ∀ c ∈ rest.head?, p c = false

theorem outside_cons {p : Char → Bool} {c : Char} {rest : List Char} (other : p c = false) : Outside p (c :: rest) := by
  intro d head
  cases head
  exact other

theorem outside_append {p : Char → Bool} {text : List Char} (begun : text.head?.any (!p ·) = true) (rest : List Char) :
    Outside p (text ++ rest) := by
  cases text with
  | nil => cases begun
  | cons c text => exact outside_cons (by simpa using begun)

theorem span_class {p : Char → Bool} {part rest : List Char} (inside : ∀ c ∈ part, p c = true) (outside : Outside p rest) :
    (part ++ rest).takeWhile p = part ∧ (part ++ rest).dropWhile p = rest := by
  rw [List.takeWhile_append_of_pos inside, List.dropWhile_append_of_pos inside]
  cases rest with
  | nil => simp
  | cons c rest => simp [outside c rfl]

theorem class_cut {p : Char → Bool} {part part' rest rest' : List Char} (inside : ∀ c ∈ part, p c = true)
    (inside' : ∀ c ∈ part', p c = true) (outside : Outside p rest) (outside' : Outside p rest')
    (same : part ++ rest = part' ++ rest') : part = part' ∧ rest = rest' := by
  obtain ⟨taken, left⟩ := span_class inside outside
  obtain ⟨taken', left'⟩ := span_class inside' outside'
  rw [same] at taken left
  exact ⟨taken.symm.trans taken', left.symm.trans left'⟩

theorem notMem_class {p : Char → Bool} {part : List Char} {c : Char} (inside : ∀ d ∈ part, p d = true)
    (other : p c = false) : c ∉ part := by
  intro member
  simp [inside c member] at other

theorem notMem_decimal {c : Char} (n : Nat) (other : c.isDigit = false) : c ∉ decimal n :=
  notMem_class (fun _ member => isDigit_of_mem_decimal member) other

theorem bne_class {c : Char} {part : List Char} (without : c ∉ part) : ∀ d ∈ part, (d != c) = true := by
  intro d member
  simp only [bne_iff_ne, ne_eq]
  intro equal
  exact without (equal ▸ member)

theorem first_cut {c : Char} {part part' rest rest' : List Char} (without : c ∉ part) (without' : c ∉ part')
    (same : part ++ c :: rest = part' ++ c :: rest') : part = part' ∧ rest = rest' := by
  obtain ⟨parts, rests⟩ :=
    class_cut (bne_class without) (bne_class without') (outside_cons (by simp)) (outside_cons (by simp)) same
  exact ⟨parts, (List.cons.inj rests).2⟩

-- The last occurrence of a character is the first from behind.
theorem last_cut {c : Char} {part part' rest rest' : List Char} (without : c ∉ rest) (without' : c ∉ rest')
    (same : part ++ c :: rest = part' ++ c :: rest') : part = part' ∧ rest = rest' := by
  have behind := congrArg List.reverse same
  simp only [List.reverse_append, List.reverse_cons, List.append_assoc, List.singleton_append] at behind
  obtain ⟨rests, parts⟩ := first_cut (by simpa using without) (by simpa using without') behind
  exact ⟨List.reverse_inj.mp parts, List.reverse_inj.mp rests⟩

theorem decimal_cut {m n : Nat} {rest rest' : List Char} (outside : Outside Char.isDigit rest)
    (outside' : Outside Char.isDigit rest') (same : decimal m ++ rest = decimal n ++ rest') : m = n ∧ rest = rest' := by
  obtain ⟨numerals, rests⟩ := class_cut (fun _ member => isDigit_of_mem_decimal member)
    (fun _ member => isDigit_of_mem_decimal member) outside outside' same
  exact ⟨decimal_injective numerals, rests⟩

section statements

variable {α β : Type} {write : α → List Char} (view : α → β)

-- A list of statements, of which each tells a view of its item and its own end, tells the view of every item and the
-- end of the list, provided that no statement begins what comes behind the list.
theorem flatMap_cut {as bs : List α} {tail tail' : List Char}
    (cut : ∀ a ∈ as, ∀ b ∈ bs, ∀ rest rest', write a ++ rest = write b ++ rest' → view a = view b ∧ rest = rest')
    (ends : ∀ a ∈ as, ∀ rest, write a ++ rest ≠ tail') (ends' : ∀ b ∈ bs, ∀ rest, write b ++ rest ≠ tail)
    (same : as.flatMap write ++ tail = bs.flatMap write ++ tail') : as.map view = bs.map view ∧ tail = tail' := by
  induction as generalizing bs with
  | nil =>
    cases bs with
    | nil => exact ⟨rfl, same⟩
    | cons b bs =>
      rw [List.flatMap_cons, List.append_assoc] at same
      exact absurd same.symm (ends' b List.mem_cons_self _)
  | cons a as ih =>
    rw [List.flatMap_cons, List.append_assoc] at same
    cases bs with
    | nil => exact absurd same (ends a List.mem_cons_self _)
    | cons b bs =>
      rw [List.flatMap_cons, List.append_assoc] at same
      obtain ⟨here, later⟩ := cut a List.mem_cons_self b List.mem_cons_self _ _ same
      obtain ⟨views, tails⟩ := ih
        (fun x among y among' => cut x (List.mem_cons_of_mem a among) y (List.mem_cons_of_mem b among'))
        (fun x among => ends x (List.mem_cons_of_mem a among))
        (fun y among => ends' y (List.mem_cons_of_mem b among)) later
      exact ⟨by rw [List.map_cons, List.map_cons, here, views], tails⟩

theorem flatMap_view {as bs : List α} (told : ∀ a b, view a = view b → write a = write b)
    (same : as.map view = bs.map view) : as.flatMap write = bs.flatMap write := by
  induction as generalizing bs with
  | nil =>
    cases bs with
    | nil => rfl
    | cons => cases same
  | cons a as ih =>
    cases bs with
    | nil => cases same
    | cons b bs =>
      obtain ⟨here, later⟩ := List.cons.inj same
      rw [List.flatMap_cons, List.flatMap_cons, told a b here, ih later]

end statements

end Text

theorem Kind.name_injective {k k' : Kind} (same : k.name = k'.name) : k = k' := by
  have named := ofName?_name k
  rw [same, ofName?_name k'] at named
  exact (Option.some.inj named).symm

theorem Kind.name_isAlpha (k : Kind) : ∀ c ∈ k.name.toList, c.isAlpha = true := by
  cases k <;> simp [name]

theorem Kind.name_cut {k k' : Kind} {rest rest' : List Char} (outside : Outside Char.isAlpha rest)
    (outside' : Outside Char.isAlpha rest') (same : k.name.toList ++ rest = k'.name.toList ++ rest') :
    k = k' ∧ rest = rest' := by
  obtain ⟨names, rests⟩ := class_cut k.name_isAlpha k'.name_isAlpha outside outside' same
  exact ⟨name_injective (String.toList_injective names), rests⟩

namespace Text

def delimiters : List Char := "<>, ()[]&;".toList

def pathMark : List Char := "::".toList

def parts (name : List Char) : List (List Char) :=
  name.splitOnP (· ∈ delimiters)

def between (name : List Char) : List Char :=
  name.filter (· ∈ delimiters)

-- The rightmost mark of a part and what follows it: of all endings the shortest one that begins with a mark.
def lastMarked? (part : List Char) : Option (List Char) :=
  part.tails.reverse.find? pathMark.isPrefixOf

def withoutPath (part : List Char) : List Char :=
  match lastMarked? part with
  | some ending => ending.drop pathMark.length
  | none => part

-- There is one part more than there are delimiters.
def rejoin : List (List Char) → List Char → List Char
  | part :: parts, d :: delimiters => part ++ d :: rejoin parts delimiters
  | parts, _ => parts.flatten

def Unmarked (text : List Char) : Prop := ¬ pathMark <:+: text

theorem isDelimiter_exact : isDelimiter = fun c => decide (c ∈ delimiters) := rfl

theorem delimiter_notColon {d : Char} (delimiter : isDelimiter d = true) : d ≠ ':' := by
  rintro rfl
  cases delimiter

theorem begins_mark (c : Char) (rest : List Char) : pathMark <+: c :: rest ↔ c = ':' ∧ rest.head? = some ':' := by
  have mark : pathMark = [':', ':'] := rfl
  rw [mark, List.cons_prefix_cons]
  cases rest with
  | nil => simp
  | cons d rest => simp [List.cons_prefix_cons, eq_comm]

theorem unmarked_nil : Unmarked [] := by
  simp [Unmarked, pathMark]

theorem unmarked_cons (c : Char) (rest : List Char) :
    Unmarked (c :: rest) ↔ ¬ (c = ':' ∧ rest.head? = some ':') ∧ Unmarked rest := by
  rw [Unmarked, List.infix_cons_iff, begins_mark, not_or, Unmarked]

theorem Unmarked.inside {part text : List Char} (unmarked : Unmarked text) (within : part <:+: text) : Unmarked part :=
  fun mark => unmarked (mark.trans within)

theorem unmarked_joined {d : Char} {left right : List Char} (notColon : d ≠ ':') (before : Unmarked left)
    (behind : Unmarked right) : Unmarked (left ++ d :: right) := by
  induction left with
  | nil => exact (unmarked_cons d right).mpr ⟨fun mark => notColon mark.1, behind⟩
  | cons c left ih =>
    obtain ⟨here, later⟩ := (unmarked_cons c left).mp before
    refine (unmarked_cons c _).mpr ⟨?_, ih later⟩
    rintro ⟨colon, next⟩
    cases left with
    | nil => exact notColon (Option.some.inj next)
    | cons e left => exact here ⟨colon, next⟩

theorem lastMarked?_cons (c : Char) (rest : List Char) :
    lastMarked? (c :: rest) =
      (lastMarked? rest).or (if c = ':' ∧ rest.head? = some ':' then some (c :: rest) else none) := by
  simp only [lastMarked?, List.tails_cons, List.reverse_cons, List.find?_append, List.find?_singleton,
    List.isPrefixOf_iff_prefix, begins_mark]

theorem afterPath?_lastMarked (part : List Char) : afterPath? part = (lastMarked? part).map (·.drop pathMark.length) := by
  induction part with
  | nil => rfl
  | cons c rest ih =>
    rw [afterPath?, lastMarked?_cons, ih]
    cases lastMarked? rest with
    | some ending => rfl
    | none =>
      by_cases mark : c = ':' ∧ rest.head? = some ':'
      · simp [mark, pathMark]
      · simp [mark]

theorem lastSegment_withoutPath (part : List Char) : lastSegment part = withoutPath part := by
  rw [lastSegment, withoutPath, afterPath?_lastMarked]
  cases lastMarked? part <;> rfl

theorem afterPath?_none (part : List Char) : afterPath? part = none ↔ Unmarked part := by
  induction part with
  | nil => simp [afterPath?, unmarked_nil]
  | cons c rest ih =>
    rw [afterPath?, unmarked_cons, ← ih]
    cases afterPath? rest <;> simp

-- What is found stands behind a mark, and no mark begins later, not even with the second colon of this one.
theorem afterPath?_found {part segment : List Char} (found : afterPath? part = some segment) :
    ∃ path, part = path ++ (pathMark ++ segment) ∧ Unmarked (':' :: segment) := by
  induction part with
  | nil => cases found
  | cons c rest ih =>
    rw [afterPath?] at found
    cases later : afterPath? rest with
    | some inner =>
      rw [later] at found
      cases found
      obtain ⟨path, rfl, unmarked⟩ := ih later
      exact ⟨c :: path, rfl, unmarked⟩
    | none =>
      simp only [later, Option.ite_none_right_eq_some] at found
      obtain ⟨⟨rfl, next⟩, ⟨⟩⟩ := found
      obtain ⟨behind, rfl⟩ := List.head?_eq_some_iff.mp next
      exact ⟨[], rfl, (afterPath?_none _).mp later⟩

theorem lastSegment_cases (part : List Char) :
    (Unmarked part ∧ lastSegment part = part) ∨
      ∃ path, part = path ++ (pathMark ++ lastSegment part) ∧ Unmarked (':' :: lastSegment part) := by
  unfold lastSegment
  cases found : afterPath? part with
  | none => exact .inl ⟨(afterPath?_none part).mp found, rfl⟩
  | some segment => exact .inr (afterPath?_found found)

theorem lastSegment_unmarked (part : List Char) : Unmarked (lastSegment part) := by
  rcases lastSegment_cases part with ⟨unmarked, whole⟩ | ⟨_, _, unmarked⟩
  · rwa [whole]
  · exact unmarked.inside (List.suffix_cons ':' _).isInfix

theorem lastSegment_suffix (part : List Char) : lastSegment part <:+ part := by
  rcases lastSegment_cases part with ⟨_, whole⟩ | ⟨path, split, _⟩
  · rw [whole]
  · exact ⟨path ++ pathMark, by rw [List.append_assoc, ← split]⟩

theorem lastSegment_whole {part : List Char} (unmarked : Unmarked part) : lastSegment part = part := by
  rw [lastSegment, (afterPath?_none part).mpr unmarked, Option.getD_none]

-- The part that the pass has begun stands before the rest of the name; a delimiter would have ended it.
theorem shortenFrom_cut (pending name : List Char) (begun : ∀ c ∈ pending.reverse, isDelimiter c = false) :
    shortenFrom pending name = rejoin ((parts (pending.reverse ++ name)).map withoutPath) (between name) := by
  rw [parts, between, ← isDelimiter_exact]
  fun_induction shortenFrom pending name with
  | case1 pending =>
    rw [List.append_nil, List.splitOnP_eq_singleton begun, lastSegment_withoutPath]
    simp [rejoin]
  | case2 pending c rest delimiter ih =>
    rw [List.splitOnP_append_cons_of_forall_mem begun c delimiter rest, List.filter_cons_of_pos delimiter, List.map_cons,
      rejoin, lastSegment_withoutPath, ih (by simp)]
    rfl
  | case3 pending c rest other ih =>
    have longer : ∀ d ∈ (c :: pending).reverse, isDelimiter d = false := by
      rw [List.reverse_cons]
      exact List.forall_mem_append.mpr ⟨begun, by simpa using other⟩
    rw [ih longer, List.filter_cons_of_neg other, List.reverse_cons, List.append_assoc]
    rfl

theorem shortenFrom_unmarked (pending name : List Char) : Unmarked (shortenFrom pending name) := by
  fun_induction shortenFrom pending name with
  | case1 pending => exact lastSegment_unmarked pending.reverse
  | case2 pending c rest delimiter ih =>
    exact unmarked_joined (delimiter_notColon delimiter) (lastSegment_unmarked pending.reverse) ih
  | case3 pending c rest other ih => exact ih

theorem shortenFrom_whole (pending name : List Char) (unmarked : Unmarked (pending.reverse ++ name)) :
    shortenFrom pending name = pending.reverse ++ name := by
  fun_induction shortenFrom pending name with
  | case1 pending =>
    rw [List.append_nil] at unmarked ⊢
    exact lastSegment_whole unmarked
  | case2 pending c rest delimiter ih =>
    have before := unmarked.inside (List.prefix_append pending.reverse (c :: rest)).isInfix
    have behind := unmarked.inside (List.suffix_append_of_suffix (List.suffix_cons c rest)).isInfix
    rw [lastSegment_whole before, ih behind]
    rfl
  | case3 pending c rest other ih =>
    have moved : (c :: pending).reverse ++ rest = pending.reverse ++ c :: rest := by simp
    rw [ih (moved ▸ unmarked), moved]

theorem shortenFrom_delimiter {d : Char} (delimiter : isDelimiter d = true) (pending left right : List Char) :
    shortenFrom pending (left ++ d :: right) = shortenFrom pending left ++ d :: shortenFrom [] right := by
  induction left generalizing pending with
  | nil => simp only [List.nil_append, shortenFrom, if_pos delimiter]
  | cons c left ih =>
    rw [List.cons_append, shortenFrom, shortenFrom]
    split
    · rw [ih, List.append_assoc, List.cons_append]
    · exact ih (c :: pending)

theorem shortenFrom_sublist (pending name : List Char) :
    (shortenFrom pending name).Sublist (pending.reverse ++ name) := by
  fun_induction shortenFrom pending name with
  | case1 pending =>
    rw [List.append_nil]
    exact (lastSegment_suffix pending.reverse).sublist
  | case2 pending c rest delimiter ih =>
    exact (lastSegment_suffix pending.reverse).sublist.append (ih.cons_cons c)
  | case3 pending c rest other ih => simpa using ih

end Text

namespace Key

open Text

theorem shortName_toList (k : Key) : k.shortName.toList = shortenFrom [] k.displayName.toList :=
  String.toList_ofList

theorem shortName_sublist (k : Key) : k.shortName.toList.Sublist k.displayName.toList := by
  rw [shortName_toList]
  exact shortenFrom_sublist [] k.displayName.toList

theorem shortName_unmarked (k : Key) : Unmarked k.shortName.toList := by
  rw [shortName_toList]
  exact shortenFrom_unmarked [] k.displayName.toList

theorem shortName_whole (k : Key) : k.shortName = k.displayName ↔ Unmarked k.displayName.toList := by
  constructor
  · intro same
    rw [← same]
    exact k.shortName_unmarked
  · intro unmarked
    apply String.toList_injective
    rw [shortName_toList]
    exact shortenFrom_whole [] k.displayName.toList unmarked

-- The one pass over a name has the same answer as cutting it, and what follows from that: a short name is short for good,
-- and the two sides of a delimiter are shortened each for itself.
theorem shortName_rejoined (k : Key) :
    k.shortName.toList = rejoin ((parts k.displayName.toList).map withoutPath) (between k.displayName.toList) ∧
    Unmarked k.shortName.toList ∧
    (∀ again : Key, again.displayName = k.shortName → again.shortName = k.shortName) ∧
    (k.shortName = k.displayName ↔ Unmarked k.displayName.toList) ∧
    ∀ left right : Key, ∀ d ∈ delimiters,
      k.displayName = left.displayName ++ String.singleton d ++ right.displayName →
      k.shortName = left.shortName ++ String.singleton d ++ right.shortName := by
  refine ⟨?rejoined, k.shortName_unmarked, ?again, k.shortName_whole, ?apart⟩
  case rejoined =>
    rw [shortName_toList]
    exact shortenFrom_cut [] k.displayName.toList (by simp)
  case again =>
    intro again same
    rw [← same]
    exact again.shortName_whole.mpr (same ▸ k.shortName_unmarked)
  case apart =>
    intro left right d member same
    have delimiter : isDelimiter d = true := decide_eq_true member
    apply String.toList_injective
    simp only [String.toList_append, String.toList_singleton, shortName_toList, same, List.append_assoc,
      List.singleton_append]
    exact shortenFrom_delimiter delimiter [] _ _

-- Three colons in a row, a path that ends in a mark, and delimiters side by side.
theorem shortName_rejoined_colons :
    let left : Key := .ofInterface "&a:::b"
    let right : Key := .named (.ofType ⟨"P"⟩ "(c::D, e::f::)>") "g::h"
    let k : Key := .ofInterface "&a:::b<(c::D, e::f::)>"
    let again : Key := .ofInterface "&b<(D, )>"
    parts k.displayName.toList =
      ["".toList, "a:::b".toList, "".toList, "c::D".toList, "".toList, "e::f::".toList, "".toList, "".toList] ∧
    again.displayName = k.shortName ∧ again.shortName = k.shortName ∧ '<' ∈ delimiters ∧
    k.displayName = left.displayName ++ String.singleton '<' ++ right.displayName ∧
    k.shortName = left.shortName ++ String.singleton '<' ++ right.shortName := by
  intro left right k again
  obtain ⟨_, _, short, _, sides⟩ := k.shortName_rejoined
  have same : again.displayName = k.shortName := by decide
  have delimiter : '<' ∈ delimiters := by decide
  have split : k.displayName = left.displayName ++ String.singleton '<' ++ right.displayName := by decide
  exact ⟨by decide, same, short again same, delimiter, split, sides left right '<' delimiter split⟩

end Key

end ResolutionPlan
