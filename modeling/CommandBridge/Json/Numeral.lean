import CommandBridge.Json.Flaw

/-!
# Numerals

A number is read in two steps: first its digits, by the grammar alone, then the number they stand
for.

* `Numeral` — the digits before the point, those behind it, and the exponent;
* `scanNumeral` — the longest numeral at the front of a text, after the minus sign if there is one;
* `Number` — a natural number below 2^64, a negative one down to −2^63, or anything else;
* `Numeral.number?` — the number, unless it is too large for a binary floating-point number of 64
  bits.

Only whole numbers without fraction and exponent are ever used.  Of the others just one thing
matters, whether they are too large: `Scaled.overflows` decides it as the usual conversion does,
which keeps as many digits as fit into 64 bits, rounds them and the power of ten to 53 bits each,
and multiplies.
-/

namespace CommandBridge.Json

/-- A decimal digit. -/
def isDigit (c : Char) : Bool :=
  '0' ≤ c && c ≤ '9'

/-- The number that a digit stands for. -/
def digitValue (c : Char) : Nat :=
  c.toNat - '0'.toNat

/-- The number that a row of digits stands for. -/
def digitsValue (digits : List Char) : Nat :=
  digits.foldl (fun n c => n * 10 + digitValue c) 0

/-- A number as it is written, without its sign.  The exponent is the sign (`true` for minus) and
its digits. -/
structure Numeral where
  whole : List Char
  fraction : List Char := []
  exponent : Option (Bool × List Char) := none
  deriving DecidableEq, Repr

/-! ### Scanning -/

/-- One or more digits. -/
def scanDigits : Reader (List Char)
  | [] => .error .truncated
  | c :: rest =>
    if isDigit c then .ok (c :: rest.takeWhile isDigit, rest.dropWhile isDigit)
    else .error .malformed

/-- The digits before the point: a lone zero, or digits that do not start with one. -/
def scanWhole : Reader (List Char)
  | [] => .error .truncated
  | c :: rest =>
    if c = '0' then
      match rest with
      | d :: _ => if isDigit d then .error .malformed else .ok (['0'], rest)
      | [] => .ok (['0'], [])
    else scanDigits (c :: rest)

/-- The digits behind the point, if there is a point. -/
def scanFraction : Reader (List Char)
  | [] => .ok ([], [])
  | c :: rest => if c = '.' then scanDigits rest else .ok ([], c :: rest)

/-- The exponent, if there is one. -/
def scanExponent : Reader (Option (Bool × List Char))
  | [] => .ok (none, [])
  | c :: rest =>
    if c = 'e' || c = 'E' then
      match rest with
      | '+' :: rest => (scanDigits rest).map (fun (digits, rest) => (some (false, digits), rest))
      | '-' :: rest => (scanDigits rest).map (fun (digits, rest) => (some (true, digits), rest))
      | rest => (scanDigits rest).map (fun (digits, rest) => (some (false, digits), rest))
    else .ok (none, c :: rest)

/-- The longest numeral at the front of a text. -/
def scanNumeral : Reader Numeral := fun cs => do
  let (whole, rest) ← scanWhole cs
  let (fraction, rest) ← scanFraction rest
  let (exponent, rest) ← scanExponent rest
  .ok (⟨whole, fraction, exponent⟩, rest)

/-! ### Size -/

/-- A significand times a power of ten. -/
structure Scaled where
  significand : Nat
  exponent : Int
  deriving DecidableEq, Repr

namespace Scaled

/-- One more digit behind the significand, if the result still fits into 64 bits. -/
def push? (n : Nat) (digit : Char) : Option Nat :=
  let m := n * 10 + digitValue digit
  if m < UInt64.size then some m else none

/-- The digits before the point.  From the first one that does not fit on, digits count only for
the power of ten. -/
def ofWhole : Nat → List Char → Scaled
  | n, [] => ⟨n, 0⟩
  | n, digit :: rest =>
    match push? n digit with
    | some m => ofWhole m rest
    | none => ⟨n, rest.length + 1⟩

/-- Appends the digits behind the point, up to the first one that does not fit. -/
def appendFraction : Scaled → List Char → Scaled
  | s, [] => s
  | s, digit :: rest =>
    match push? s.significand digit with
    | some m => appendFraction ⟨m, s.exponent - 1⟩ rest
    | none => s

/-- Adds the written exponent. -/
def shift (s : Scaled) : Option (Bool × List Char) → Scaled
  | none => s
  | some (true, digits) => { s with exponent := s.exponent - digitsValue digits }
  | some (false, digits) => { s with exponent := s.exponent + digitsValue digits }

/-- A natural number rounded to 53 significant bits, halves to the even neighbour. -/
def round53 (n : Nat) : Nat :=
  let unit := 1 <<< (n.log2 + 1 - 53)
  let low := n % unit
  if unit < 2 * low ∨ unit = 2 * low ∧ n / unit % 2 = 1 then n - low + unit else n - low

/-- The largest power of ten that is rounded before it is multiplied with. -/
def largestPower : Int := 308

/-- The first real number that is rounded to infinity. -/
def infinityThreshold : Nat := 1 <<< 1024 - 1 <<< 970

/-- The number is too large for a binary floating-point number of 64 bits. -/
def overflows (s : Scaled) : Bool :=
  s.significand ≠ 0 &&
    (largestPower < s.exponent ||
      0 ≤ s.exponent &&
        infinityThreshold ≤ round53 s.significand * round53 (Nat.pow 10 s.exponent.toNat))

end Scaled

/-! ### Numbers -/

/-- What a numeral stands for, as far as it matters here. -/
inductive Number where
  /-- A natural number below 2^64. -/
  | natural (n : Nat)
  /-- The negative of `n`, which lies between 1 and 2^63. -/
  | negative (n : Nat)
  /-- Any other number. -/
  | fractional
  deriving DecidableEq, Repr

namespace Numeral

/-- The numeral has neither fraction nor exponent. -/
def isWhole (n : Numeral) : Bool :=
  n.fraction.isEmpty && n.exponent.isNone

/-- The numeral as a significand and a power of ten. -/
def scaled (n : Numeral) : Scaled :=
  ((Scaled.ofWhole 0 n.whole).appendFraction n.fraction).shift n.exponent

/-- The number that the numeral stands for after a minus sign or without one; nothing if it is too
large. -/
def number? (n : Numeral) (minus : Bool) : Option Number :=
  let value := digitsValue n.whole
  if n.isWhole && !minus && value < UInt64.size then some (.natural value)
  else if n.isWhole && minus && 1 ≤ value && value ≤ 1 <<< 63 then some (.negative value)
  else if n.scaled.overflows then none
  else some .fractional

end Numeral

/-- A number from its sign or first digit on. -/
def readNumber : Reader Number := fun cs => do
  let minus := cs.head? == some '-'
  let (numeral, rest) ← scanNumeral (if minus then cs.tail else cs)
  match numeral.number? minus with
  | some number => .ok (number, rest)
  | none => .error .malformed

/-- Passes over a number whose value does not matter.  Here a number that breaks off counts as
malformed. -/
def skipNumber (cs : List Char) : Except Flaw (List Char) :=
  let minus := cs.head? == some '-'
  match scanNumeral (if minus then cs.tail else cs) with
  | .ok (_, rest) => .ok rest
  | .error _ => .error .malformed

/-- The character can start a number. -/
def startsNumber (c : Char) : Bool :=
  c = '-' || isDigit c

example : Scaled.overflows ⟨17976931348623157, 292⟩ = false := by decide +kernel
example : Scaled.overflows ⟨17976931348623159, 292⟩ = true := by decide +kernel
example : Scaled.overflows ⟨1, 309⟩ = true := by decide +kernel
example : Scaled.overflows ⟨0, 999⟩ = false := by decide +kernel

end CommandBridge.Json
