import CommandBridge.Text.Glyph

/-!
# Quoted text

A listing shows a text between double quotes.  Quotes and backslashes inside it get a backslash;
the common controls have a letter; every other character without a shape of its own is written by
its number.

* `Quoted.hexDigits` — a number in lower-case hexadecimal digits;
* `Quoted.escape` — how a character is written;
* `Quoted.render` — a text between quotes.
-/

namespace CommandBridge.Quoted

/-- The number in lower-case hexadecimal digits, without leading zeros. -/
def hexDigits (n : Nat) : String :=
  String.ofList (Nat.toDigits 16 n)

/-- How a character is written between quotes. -/
def escape (c : Char) : String :=
  if c = '"' then "\\\""
  else if c = '\\' then "\\\\"
  else if c = '\n' then "\\n"
  else if c = '\r' then "\\r"
  else if c = '\t' then "\\t"
  else if c = '\x00' then "\\0"
  else if isGlyphless c then "\\u\x7b" ++ hexDigits c.toNat ++ "\x7d"
  else String.singleton c

/-- A text between double quotes. -/
def render (s : String) : String :=
  "\"" ++ String.join (s.toList.map escape) ++ "\""

end CommandBridge.Quoted
