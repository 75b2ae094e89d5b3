import CommandBridge.Json.Flaw

/-!
# Strings in JSON

* `escapeChar`, `quote` — a string between double quotes, with the short escapes where there are
  any and four hexadecimal digits for the other controls;
* `readText` — the string behind an opening quote and the rest behind the closing one;
* `skipText` — the rest alone, for a string whose escapes do not matter.

Reading goes character by character.  Between escapes any character but a control, a quote and a
backslash stands for itself.  Four hexadecimal digits name one unit of UTF-16; the two units of a
pair have to follow each other, and a unit of a pair never stands alone.
-/

namespace CommandBridge.Json

/-! ### Writing -/

/-- The last two of four hexadecimal digits for a control. -/
def controlDigits (c : Char) : List Char :=
  [Nat.digitChar (c.toNat / 16), Nat.digitChar (c.toNat % 16)]

/-- How a character is written between quotes. -/
def escapeChar (c : Char) : List Char :=
  if c = '"' then ['\\', '"']
  else if c = '\\' then ['\\', '\\']
  else if c = '\x08' then ['\\', 'b']
  else if c = '\x0c' then ['\\', 'f']
  else if c = '\n' then ['\\', 'n']
  else if c = '\r' then ['\\', 'r']
  else if c = '\t' then ['\\', 't']
  else if c < ' ' then ['\\', 'u', '0', '0'] ++ controlDigits c
  else [c]

/-- A string between double quotes. -/
def quote (s : String) : String :=
  String.ofList ('"' :: s.toList.flatMap escapeChar ++ ['"'])

/-! ### Reading -/

/-- The number of bytes of a text. -/
def byteLength (cs : List Char) : Nat :=
  cs.foldr (fun c length => c.utf8Size + length) 0

/-- The value of a hexadecimal digit in either case. -/
def hexValue? (c : Char) : Option Nat :=
  if '0' ≤ c && c ≤ '9' then some (c.toNat - '0'.toNat)
  else if 'a' ≤ c && c ≤ 'f' then some (c.toNat - 'a'.toNat + 10)
  else if 'A' ≤ c && c ≤ 'F' then some (c.toNat - 'A'.toNat + 10)
  else none

/-- What a letter behind a backslash stands for. -/
def shortEscape? (c : Char) : Option Char :=
  if c = '"' then some '"'
  else if c = '\\' then some '\\'
  else if c = '/' then some '/'
  else if c = 'b' then some '\x08'
  else if c = 'f' then some '\x0c'
  else if c = 'n' then some '\n'
  else if c = 'r' then some '\r'
  else if c = 't' then some '\t'
  else none

/-- A unit that starts a pair. -/
def isHighUnit (unit : Nat) : Bool :=
  0xD800 ≤ unit && unit ≤ 0xDBFF

/-- A unit that ends a pair. -/
def isLowUnit (unit : Nat) : Bool :=
  0xDC00 ≤ unit && unit ≤ 0xDFFF

/-- The character that a pair of units names. -/
def pairChar (high low : Nat) : Char :=
  Char.ofNat ((high - 0xD800) * 0x400 + (low - 0xDC00) + 0x10000)

/-- Where a reader stands inside a string. -/
inductive TextState where
  /-- Between characters. -/
  | plain
  /-- Behind a backslash. -/
  | escape
  /-- After `digits` digits with the value `unit`; `high` is the first unit of a pair. -/
  | digits (high : Option Nat) (digits unit : Nat)
  /-- After the first unit of a pair. -/
  | pair (high : Nat)
  /-- After the first unit of a pair and a backslash. -/
  | pairEscape (high : Nat)
  deriving DecidableEq, Repr

/-- A character where a hexadecimal digit is due, after `digits` digits: four bytes have to be left
for a unit, or the text has ended too early. -/
def digitFlaw (digits : Nat) (cs : List Char) : Flaw :=
  if digits + byteLength cs < 4 then .truncated else .malformed

/-- What one character does: it adds a character to the string or not, and moves on. -/
inductive TextMove where
  | emit (c : Char)
  | goto (state : TextState)
  | close
  | fail (flaw : Flaw)

/-- What a complete unit does.  Without `paired` every unit counts for itself. -/
def unitMove (paired : Bool) : Option Nat → Nat → TextMove
  | none, unit =>
    if !paired then .emit (Char.ofNat unit)
    else if isHighUnit unit then .goto (.pair unit)
    else if isLowUnit unit then .fail .malformed
    else .emit (Char.ofNat unit)
  | some high, unit => if isLowUnit unit then .emit (pairChar high unit) else .fail .malformed

/-- What the character `c` does in front of `rest`. -/
def textMove (paired : Bool) (c : Char) (rest : List Char) : TextState → TextMove
  | .plain =>
    if c = '"' then .close
    else if c = '\\' then .goto .escape
    else if c < ' ' then .fail .malformed
    else .emit c
  | .escape =>
    if c = 'u' then .goto (.digits none 0 0)
    else match shortEscape? c with
      | some d => .emit d
      | none => .fail .malformed
  | .digits high digits unit =>
    match hexValue? c with
    | none => .fail (digitFlaw digits (c :: rest))
    | some value =>
      if digits < 3 then .goto (.digits high (digits + 1) (unit * 16 + value))
      else unitMove paired high (unit * 16 + value)
  | .pair high => if c = '\\' then .goto (.pairEscape high) else .fail .malformed
  | .pairEscape high => if c = 'u' then .goto (.digits (some high) 0 0) else .fail .malformed

/-- The string from a state on, and the rest behind its closing quote. -/
def readTextFrom (paired : Bool) : TextState → List Char → Except Flaw (List Char × List Char)
  | _, [] => .error .truncated
  | state, c :: rest =>
    match textMove paired c rest state with
    | .emit d => (readTextFrom paired .plain rest).map (fun (s, r) => (d :: s, r))
    | .goto state => readTextFrom paired state rest
    | .close => .ok ([], rest)
    | .fail flaw => .error flaw

/-- The string behind an opening quote and the rest behind the closing one. -/
def readText : Reader String := fun cs =>
  (readTextFrom true .plain cs).map (fun (s, rest) => (String.ofList s, rest))

/-- Passes over a string behind its opening quote; units of pairs may stand alone in it. -/
def skipText (cs : List Char) : Except Flaw (List Char) :=
  (readTextFrom false .plain cs).map (·.2)

end CommandBridge.Json
