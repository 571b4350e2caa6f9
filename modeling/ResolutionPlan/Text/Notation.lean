import ResolutionPlan.Text.Characters

namespace ResolutionPlan.Text

def decimal (n : Nat) : List Char :=
  Nat.toDigits 10 n

def digitsValue (digits : List Char) : Nat :=
  Nat.ofDigitChars 10 digits 0

theorem digitsValue_decimal (n : Nat) : digitsValue (decimal n) = n :=
  Nat.ofDigitChars_toDigits (by decide) (by decide)

theorem decimal_injective {m n : Nat} (same : decimal m = decimal n) : m = n := by
  rw [← digitsValue_decimal m, same, digitsValue_decimal]

theorem isDigit_of_mem_decimal {c : Char} {n : Nat} (member : c ∈ decimal n) : c.isDigit = true :=
  Nat.isDigit_of_mem_toDigits (by decide) (by decide) member

-- The positive number mantissa · 2 ^ exponent, in the form in which a double holds it.
structure Binary where
  mantissa : Nat
  exponent : Int
  deriving DecidableEq

namespace Binary

def ofBits (bits : UInt64) : Binary :=
  let fraction : Nat := bits.toNat % Nat.pow 2 52
  let biased : Nat := bits.toNat / Nat.pow 2 52 % Nat.pow 2 11
  if biased = 0 then ⟨fraction, -1074⟩ else ⟨Nat.pow 2 52 + fraction, (biased : Int) - 1075⟩

-- Four times the number, and the ends of the interval of reals that round to it, over one denominator.
-- Below a power of two the neighbours are half as far apart.
structure Interval where
  low : Nat
  value : Nat
  high : Nat
  denominator : Nat
  endsIncluded : Bool

def interval (x : Binary) : Interval :=
  let scale := Nat.pow 2 x.exponent.toNat
  let gapBelow := if x.mantissa = Nat.pow 2 52 ∧ -1074 < x.exponent then 1 else 2
  { low := (4 * x.mantissa - gapBelow) * scale
    value := 4 * x.mantissa * scale
    high := (4 * x.mantissa + 2) * scale
    denominator := 4 * Nat.pow 2 (-x.exponent).toNat
    endsIncluded := x.mantissa % 2 == 0 }

-- Whether n / d, over the interval's own denominator, rounds to the number.
def Interval.contains (i : Interval) (n d : Nat) : Bool :=
  let point := n * i.denominator
  if i.endsIncluded then i.low * d ≤ point && point ≤ i.high * d
  else i.low * d < point && point < i.high * d

def distance (a b : Nat) : Nat := (a - b) + (b - a)

-- Of the two multiples of 10 ^ power next to the number one that reads back, the nearer first; of two
-- equally near ones the even.
def Interval.onGrid? (i : Interval) (power : Int) : Option Nat :=
  let times := Nat.pow 10 power.toNat
  let parts := Nat.pow 10 (-power).toNat
  let below := i.value * parts / (i.denominator * times)
  let above := below + 1
  let reads (n : Nat) : Bool := i.contains (n * times) parts
  let gap (n : Nat) : Nat := distance (n * times * i.denominator) (i.value * parts)
  let belowFirst := gap below < gap above || (gap below = gap above && below % 2 = 0)
  let candidates := if belowFirst then [below, above] else [above, below]
  candidates.find? reads

-- The power of ten of the first digit of n / d, for positive n and d.
def leadingPower (n d : Nat) : Int :=
  let estimate : Int := ((Nat.toDigits 10 n).length : Int) - ((Nat.toDigits 10 d).length : Int)
  if d * Nat.pow 10 estimate.toNat ≤ n * Nat.pow 10 (-estimate).toNat then estimate else estimate - 1

-- Digits and the power of ten of the first of them; the first grid that has a point wins.
def digitsFrom (i : Interval) (top : Int) : Nat → List Char × Int
  | 0 => ([], top)
  | remaining + 1 =>
    let power := top - (17 - (remaining + 1) : Nat)
    match i.onGrid? power with
    | some n =>
      let digits := decimal n
      let kept := (digits.reverse.dropWhile (· == '0')).reverse
      (kept, power + digits.length - 1)
    | none => digitsFrom i top remaining

def shortest (x : Binary) : List Char × Int :=
  let i := x.interval
  digitsFrom i (leadingPower i.value i.denominator) 17

end Binary

-- The powers of ten of the first digit for which a number is written positionally.
structure RealFormat where
  leastPositional : Int
  leastScientific : Int

-- Positional from 10 ^ -5 up to below 10 ^ 16, always with a point; other exponents have a sign.
def realFormat : RealFormat := ⟨-5, 16⟩

def zeros (n : Nat) : List Char := List.replicate n '0'

def positional (digits : List Char) (power : Int) : List Char :=
  if power < 0 then
    "0.".toList ++ zeros ((-power).toNat - 1) ++ digits
  else
    let whole := power.toNat + 1
    let fraction := digits.drop whole
    digits.take whole ++ zeros (whole - digits.length) ++ '.' :: (if fraction = [] then ['0'] else fraction)

def scientific (digits : List Char) (power : Int) : List Char :=
  let mantissa := match digits with
    | first :: second :: rest => first :: '.' :: second :: rest
    | _ => digits
  mantissa ++ 'e' :: (if power < 0 then '-' else '+') :: decimal power.natAbs

def realText (x : Float) : List Char :=
  let bits := x.toBits
  let sign := if Nat.pow 2 63 ≤ bits.toNat then ['-'] else []
  let magnitude := Binary.ofBits bits
  if magnitude.mantissa = 0 then
    sign ++ "0.0".toList
  else
    let (digits, power) := magnitude.shortest
    sign ++
      (if realFormat.leastPositional ≤ power ∧ power < realFormat.leastScientific then positional digits power
        else scientific digits power)

def codePointEscape (c : Char) : List Char :=
  "\\u\x7b".toList ++ Nat.toDigits 16 c.toNat ++ "\x7d".toList

def quotedChar (c : Char) : List Char :=
  match c with
  | '"' => "\\\"".toList
  | '\\' => "\\\\".toList
  | '\n' => "\\n".toList
  | '\r' => "\\r".toList
  | '\t' => "\\t".toList
  | '\x00' => "\\0".toList
  | _ => if isCombining c || isInvisible c then codePointEscape c else [c]

def quoted (text : String) : String :=
  String.ofList ('"' :: text.toList.flatMap quotedChar ++ ['"'])

inductive Description where
  | atom (text : String)
  | tuple (name : String) (parts : List Description)
  | record (name : String) (fields : List (String × Description))
  | list (items : List Description)

namespace Description

mutual
def inlineOnto (out : String) : Description → String
  | .atom text => out ++ text
  | .tuple name parts => inlineItems (out ++ name ++ "(") true parts ++ ")"
  | .record name fields => inlineFields (out ++ name ++ " \x7b ") true fields ++ " \x7d"
  | .list items => inlineItems (out ++ "[") true items ++ "]"

def inlineItems (out : String) (first : Bool) : List Description → String
  | [] => out
  | item :: rest => inlineItems (inlineOnto (if first then out else out ++ ", ") item) false rest

def inlineFields (out : String) (first : Bool) : List (String × Description) → String
  | [] => out
  | field :: rest => inlineFields (inlineField (if first then out else out ++ ", ") field) false rest

def inlineField (out : String) : String × Description → String
  | (name, value) => inlineOnto (out ++ name ++ ": ") value
end

def margin (level : Nat) : String :=
  String.ofList (List.replicate (4 * level) ' ')

-- `level` counts the enclosing descriptions. A list without items stays on its line.
mutual
def indentedOnto (out : String) (level : Nat) : Description → String
  | .atom text => out ++ text
  | .tuple name parts => indentedItems (out ++ name ++ "(\n") (level + 1) parts ++ margin level ++ ")"
  | .record name fields =>
    indentedFields (out ++ name ++ " \x7b\n") (level + 1) fields ++ margin level ++ "\x7d"
  | .list [] => out ++ "[]"
  | .list (item :: rest) =>
    indentedItems (indentedOnto (out ++ "[\n" ++ margin (level + 1)) (level + 1) item ++ ",\n") (level + 1) rest
      ++ margin level ++ "]"

def indentedItems (out : String) (level : Nat) : List Description → String
  | [] => out
  | item :: rest => indentedItems (indentedOnto (out ++ margin level) level item ++ ",\n") level rest

def indentedFields (out : String) (level : Nat) : List (String × Description) → String
  | [] => out
  | field :: rest => indentedFields (indentedField (out ++ margin level) level field ++ ",\n") level rest

def indentedField (out : String) (level : Nat) : String × Description → String
  | (name, value) => indentedOnto (out ++ name ++ ": ") level value
end

def inline (d : Description) : String :=
  d.inlineOnto ""

def indented (d : Description) : String :=
  d.indentedOnto "" 0

end Description

def isDelimiter (c : Char) : Bool :=
  c ∈ ['<', '>', ',', ' ', '(', ')', '[', ']', '&', ';']

-- What follows the rightmost "::"; of ":::" the last two colons count.
def afterPath? : List Char → Option (List Char)
  | [] => none
  | c :: rest =>
    match afterPath? rest with
    | some segment => some segment
    | none => if c = ':' ∧ rest.head? = some ':' then some rest.tail else none

def lastSegment (part : List Char) : List Char :=
  (afterPath? part).getD part

-- `pending` holds the part read so far, last character first.
def shortenFrom (pending : List Char) : List Char → List Char
  | [] => lastSegment pending.reverse
  | c :: rest =>
    if isDelimiter c then lastSegment pending.reverse ++ c :: shortenFrom [] rest
    else shortenFrom (c :: pending) rest

def shorten (name : String) : String :=
  String.ofList (shortenFrom [] name.toList)

end ResolutionPlan.Text
