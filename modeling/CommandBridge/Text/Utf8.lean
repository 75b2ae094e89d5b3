/-!
# Text as UTF-8

A byte sequence is read one byte at a time.  Between characters the reader waits for a first byte;
inside one it knows how many bytes are still owed and in which interval the next of them lies.  A
byte that cannot go on ends the character begun as ill-formed and is then read as a first byte, so
that each ill-formed piece is as long as it can be without ceasing to be the start of a character.

* `Utf8.Pending` — a character begun but not finished;
* `Utf8.decode` — the characters of a byte sequence, with `none` for each ill-formed piece;
* `Utf8.decodeLossy` — ill-formed pieces read as U+FFFD;
* `Utf8.decode?` — nothing if any piece is ill-formed;
* `Utf8.encode` — the bytes of a text.
-/

namespace CommandBridge.Utf8

/-! ### One byte -/

/-- A character begun: `owed + 1` more bytes are due, the next one between `low` and `high`; `bits`
holds what the bytes so far say about the character. -/
structure Pending where
  owed : Nat
  low : UInt8
  high : UInt8
  bits : Nat
  deriving DecidableEq, Repr

/-- What a byte leads to. -/
inductive Outcome where
  /-- The character is complete. -/
  | done (c : Char)
  /-- More bytes are due. -/
  | more (p : Pending)
  /-- The byte cannot stand here. -/
  | illFormed
  deriving DecidableEq, Repr

/-- The first byte of a character.  The bounds on the second byte leave out over-long forms,
surrogates and codes beyond U+10FFFF. -/
def first (b : UInt8) : Outcome :=
  if b < 0x80 then .done (Char.ofNat b.toNat)
  else if b < 0xC2 then .illFormed
  else if b < 0xE0 then .more ⟨0, 0x80, 0xBF, b.toNat - 0xC0⟩
  else if b = 0xE0 then .more ⟨1, 0xA0, 0xBF, 0⟩
  else if b = 0xED then .more ⟨1, 0x80, 0x9F, 0x0D⟩
  else if b < 0xF0 then .more ⟨1, 0x80, 0xBF, b.toNat - 0xE0⟩
  else if b = 0xF0 then .more ⟨2, 0x90, 0xBF, 0⟩
  else if b < 0xF4 then .more ⟨2, 0x80, 0xBF, b.toNat - 0xF0⟩
  else if b = 0xF4 then .more ⟨2, 0x80, 0x8F, 4⟩
  else .illFormed

/-- A further byte of a character begun. -/
def next (p : Pending) (b : UInt8) : Outcome :=
  if p.low ≤ b ∧ b ≤ p.high then
    let bits := p.bits * 64 + (b.toNat - 0x80)
    match p.owed with
    | 0 => .done (Char.ofNat bits)
    | owed + 1 => .more ⟨owed, 0x80, 0xBF, bits⟩
  else .illFormed

/-! ### A sequence -/

/-- The characters of a byte sequence after the start `begun` of one; `none` stands for an
ill-formed piece. -/
def decodeFrom : Option Pending → List UInt8 → List (Option Char)
  | none, [] => []
  | some _, [] => [none]
  | none, b :: rest =>
    match first b with
    | .done c => some c :: decodeFrom none rest
    | .more p => decodeFrom (some p) rest
    | .illFormed => none :: decodeFrom none rest
  | some p, b :: rest =>
    match next p b with
    | .done c => some c :: decodeFrom none rest
    | .more q => decodeFrom (some q) rest
    | .illFormed =>
      none :: match first b with
        | .done c => some c :: decodeFrom none rest
        | .more q => decodeFrom (some q) rest
        | .illFormed => none :: decodeFrom none rest

/-- The characters of a byte sequence, with `none` for each ill-formed piece. -/
def decode (bytes : List UInt8) : List (Option Char) :=
  decodeFrom none bytes

/-- The sign that stands in for an ill-formed piece. -/
def replacement : Char := '\uFFFD'

/-- The text of a byte sequence, with the replacement sign for each ill-formed piece. -/
def decodeLossy (bytes : List UInt8) : String :=
  String.ofList ((decode bytes).map (·.getD replacement))

/-- The text of a byte sequence without ill-formed pieces. -/
def decode? (bytes : List UInt8) : Option String :=
  ((decode bytes).mapM id).map String.ofList

/-- The bytes of a text. -/
def encode (s : String) : List UInt8 :=
  s.toList.flatMap String.utf8EncodeChar

example : decode [0xE2, 0x82, 0x41] = [none, some 'A'] := by decide
example : decode [0xF0, 0x9F, 0x94, 0x91] = [some '🔑'] := by decide
example : decode [0xED, 0xA0, 0x80] = [none, none, none] := by decide
example : decode [0xC3, 0xE9, 0xC3] = [none, none, none] := by decide

end CommandBridge.Utf8
