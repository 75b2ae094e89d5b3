import CommandBridge.Json.Numeral
import CommandBridge.Json.Text

/-!
# Values in JSON

The readers of this module put the pieces together.  They read a value of one wanted type from the
front of a text, blanks before it included.

* `readWhole`, `readString`, `readOptional` — scalars;
* `readElements`, `readMembers` — the inside of an array and of an object, behind its opening
  bracket;
* `skipValue` — any value at all;
* `refuse` — the flaw of a value that has the wrong type.  A scalar is read to its end first, so
  that a flaw inside it comes before the wrong type; an array or object is refused at its bracket.
-/

namespace CommandBridge.Json

/-! ### Blanks and words -/

/-- The characters that may stand between tokens. -/
def isBlank (c : Char) : Bool :=
  c = ' ' || c = '\n' || c = '\t' || c = '\r'

/-- The text behind the blanks at its front. -/
def skipBlanks (cs : List Char) : List Char :=
  cs.dropWhile isBlank

/-- Passes over a word, letter by letter. -/
def skipWord : List Char → List Char → Except Flaw (List Char)
  | [], rest => .ok rest
  | _ :: _, [] => .error .truncated
  | letter :: word, c :: rest => if c = letter then skipWord word rest else .error .malformed

/-- What follows the first letter of one of the three words. -/
def wordTail? (c : Char) : Option (List Char) :=
  if c = 'n' then some ['u', 'l', 'l']
  else if c = 't' then some ['r', 'u', 'e']
  else if c = 'f' then some ['a', 'l', 's', 'e']
  else none

/-! ### Scalars -/

/-- The flaw of a value that does not have the type wanted. -/
def refuse : List Char → Flaw
  | [] => .truncated
  | c :: rest =>
    match wordTail? c with
    | some word =>
      match skipWord word rest with
      | .ok _ => .unacceptable
      | .error flaw => flaw
    | none =>
      if startsNumber c then
        match readNumber (c :: rest) with
        | .ok _ => .unacceptable
        | .error flaw => flaw
      else if c = '"' then
        match readText rest with
        | .ok _ => .unacceptable
        | .error flaw => flaw
      else if c = '[' || c = '\x7b' then .unacceptable
      else .malformed

/-- A number, turned into what is wanted by `pick?`. -/
def readWhole (pick? : Number → Option α) : Reader α := fun cs =>
  match skipBlanks cs with
  | [] => .error .truncated
  | c :: rest =>
    if startsNumber c then do
      let (number, rest) ← readNumber (c :: rest)
      match pick? number with
      | some a => .ok (a, rest)
      | none => .error .unacceptable
    else .error (refuse (c :: rest))

/-- A string. -/
def readString : Reader String := fun cs =>
  match skipBlanks cs with
  | [] => .error .truncated
  | c :: rest => if c = '"' then readText rest else .error (refuse (c :: rest))

/-- `null`, or what `read` reads. -/
def readOptional (read : Reader α) : Reader (Option α) := fun cs =>
  match skipBlanks cs with
  | [] => .error .truncated
  | c :: rest =>
    if c = 'n' then (skipWord ['u', 'l', 'l'] rest).map (fun rest => (none, rest))
    else (read (c :: rest)).map (fun (a, rest) => (some a, rest))

/-! ### Arrays and objects -/

/-- Whether an array or object goes on. -/
inductive Next where
  /-- Another element or key starts; `rest` is the text from there on, without the quote that opens
  a key. -/
  | item (rest : List Char)
  /-- The closing bracket came; `rest` is the text behind it. -/
  | closed (rest : List Char)
  deriving DecidableEq, Repr

/-- Looks for the next element of an array; between two of them stands a comma. -/
def nextElement (isFirst : Bool) (cs : List Char) : Except Flaw Next :=
  match skipBlanks cs with
  | [] => .error .truncated
  | c :: rest =>
    if c = ']' then .ok (.closed rest)
    else if isFirst then .ok (.item (c :: rest))
    else if c = ',' then
      match skipBlanks rest with
      | [] => .error .truncated
      | d :: rest => if d = ']' then .error .malformed else .ok (.item (d :: rest))
    else .error .malformed

/-- Looks for the next key of an object; between two members stands a comma. -/
def nextKey (isFirst : Bool) (cs : List Char) : Except Flaw Next :=
  match skipBlanks cs with
  | [] => .error .truncated
  | c :: rest =>
    if c = '\x7d' then .ok (.closed rest)
    else if isFirst then
      if c = '"' then .ok (.item rest) else .error .malformed
    else if c = ',' then
      match skipBlanks rest with
      | [] => .error .truncated
      | d :: rest => if d = '"' then .ok (.item rest) else .error .malformed
    else .error .malformed

/-- The end of an array all of whose elements have been read. -/
def closeArray (cs : List Char) : Except Flaw (List Char) :=
  match skipBlanks cs with
  | [] => .error .truncated
  | c :: rest => if c = ']' then .ok rest else .error .malformed

/-- The colon between a key and its value. -/
def skipColon (cs : List Char) : Except Flaw (List Char) :=
  match skipBlanks cs with
  | [] => .error .truncated
  | c :: rest => if c = ':' then .ok rest else .error .malformed

/-- The elements of an array behind its opening bracket, at most `fuel` of them. -/
def readElements (read : Reader α) : Nat → Bool → Reader (List α)
  | 0, _, _ => .error .truncated
  | fuel + 1, isFirst, cs => do
    match ← nextElement isFirst cs with
    | .closed rest => .ok ([], rest)
    | .item rest =>
      let (a, rest) ← read rest
      let (as, rest) ← readElements read fuel false rest
      .ok (a :: as, rest)

/-- The members of an object behind its opening bracket, at most `fuel` of them.  Each is read by
`member` from behind the quote that opens its key, and changes the state. -/
def readMembers (member : σ → Reader σ) : Nat → Bool → σ → Reader σ
  | 0, _, _, _ => .error .truncated
  | fuel + 1, isFirst, state, cs => do
    match ← nextKey isFirst cs with
    | .closed rest => .ok (state, rest)
    | .item rest =>
      let (state, rest) ← member state rest
      readMembers member fuel false state rest

/-- An array.  Every element takes a character, so the length of the text bounds their number. -/
def readArray (read : Reader α) : Reader (List α) := fun cs =>
  match skipBlanks cs with
  | [] => .error .truncated
  | c :: rest =>
    if c = '[' then readElements read (rest.length + 1) true rest
    else .error (refuse (c :: rest))

/-! ### Values that do not matter -/

/-- Passes over a value with brackets nested less than `fuel` deep. -/
def skipValueWithin : Nat → Reader Unit
  | 0, _ => .error .truncated
  | fuel + 1, cs =>
    match skipBlanks cs with
    | [] => .error .truncated
    | c :: rest =>
      match wordTail? c with
      | some word => (skipWord word rest).map (fun rest => ((), rest))
      | none =>
        if startsNumber c then (skipNumber (c :: rest)).map (fun rest => ((), rest))
        else if c = '"' then (skipText rest).map (fun rest => ((), rest))
        else if c = '[' then do
          let (_, rest) ← readElements (skipValueWithin fuel) (rest.length + 1) true rest
          .ok ((), rest)
        else if c = '\x7b' then
          readMembers
            (fun _ rest => do
              let rest ← skipText rest
              let rest ← skipColon rest
              skipValueWithin fuel rest)
            (rest.length + 1) true () rest
        else .error .malformed

/-- Passes over any value.  Every bracket takes a character, so the length of the text bounds how
deep they can be nested. -/
def skipValue : Reader Unit := fun cs =>
  skipValueWithin (cs.length + 1) cs

end CommandBridge.Json
