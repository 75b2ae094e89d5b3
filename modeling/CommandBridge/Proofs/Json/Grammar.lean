import Mathlib.Data.List.Forall2
import CommandBridge.Json.Value

/-!
# The grammar of JSON

Which texts are JSON, said without a reader.  A text is a list of characters; each relation below
holds of exactly the texts of one token or of one value, without blanks around.

* `NumeralText`, `IsNumber` — numbers; `IntegerLiteral` — those without fraction and exponent, with
  the integer they stand for;
* `Spells`, `IsStringBody` — what may stand between two quotes, where it has to stand for a text and
  where it has not;
* `Enclosed`, `Member` — how arrays and objects are laid out from the texts of their items;
* `IsValue` — any value at all;
* `Reads` — a reader takes exactly the texts of a relation.

A string is more than a row of characters only where its escapes matter: two escapes can name the
units of one pair, and a unit of a pair without the other stands for no character.
-/

namespace CommandBridge.Json

variable {α β : Type}

/-- Blanks and nothing else. -/
def IsBlanks (b : List Char) : Prop :=
  ∀ c ∈ b, isBlank c = true

/-! ### Numbers -/

/-- One digit or more. -/
def IsDigits (ds : List Char) : Prop :=
  ds ≠ [] ∧ ∀ d ∈ ds, isDigit d = true

/-- The digits of a whole number: a zero comes first only if it stands alone. -/
def IsWhole (ds : List Char) : Prop :=
  IsDigits ds ∧ (ds.head? = some '0' → ds = ['0'])

/-- The digits behind the point, and how they are written. -/
inductive FractionText : List Char → List Char → Prop where
  | absent : FractionText [] []
  | present {ds : List Char} : IsDigits ds → FractionText ds ('.' :: ds)

/-- An exponent, and how it is written. -/
inductive ExponentText : Option (Bool × List Char) → List Char → Prop where
  | absent : ExponentText none []
  | unsigned {e : Char} {ds : List Char} : e = 'e' ∨ e = 'E' → IsDigits ds →
      ExponentText (some (false, ds)) (e :: ds)
  | plus {e : Char} {ds : List Char} : e = 'e' ∨ e = 'E' → IsDigits ds →
      ExponentText (some (false, ds)) (e :: '+' :: ds)
  | minus {e : Char} {ds : List Char} : e = 'e' ∨ e = 'E' → IsDigits ds →
      ExponentText (some (true, ds)) (e :: '-' :: ds)

/-- A numeral, and how it is written. -/
inductive NumeralText : Numeral → List Char → Prop where
  | intro {n : Numeral} {f e : List Char} : IsWhole n.whole → FractionText n.fraction f →
      ExponentText n.exponent e → NumeralText n (n.whole ++ (f ++ e))

/-- A number: a numeral, or one after a minus sign. -/
inductive IsNumber : List Char → Prop where
  | unsigned {n : Numeral} {t : List Char} : NumeralText n t → IsNumber t
  | minus {n : Numeral} {t : List Char} : NumeralText n t → IsNumber ('-' :: t)

/-- A number without fraction and exponent, and the integer that it stands for. -/
inductive IntegerLiteral : List Char → Int → Prop where
  | unsigned {ds : List Char} : IsWhole ds → IntegerLiteral ds (digitsValue ds)
  | minus {ds : List Char} : IsWhole ds → IntegerLiteral ('-' :: ds) (-digitsValue ds)

/-! ### Strings -/

/-- The letters behind a backslash that name a character. -/
inductive ShortEscape : Char → Char → Prop where
  | quote : ShortEscape '"' '"'
  | backslash : ShortEscape '\\' '\\'
  | slash : ShortEscape '/' '/'
  | backspace : ShortEscape 'b' '\x08'
  | formFeed : ShortEscape 'f' '\x0c'
  | lineFeed : ShortEscape 'n' '\n'
  | carriageReturn : ShortEscape 'r' '\r'
  | tabulator : ShortEscape 't' '\t'

/-- A character that stands for itself between quotes. -/
def IsPlain (c : Char) : Prop :=
  c ≠ '"' ∧ c ≠ '\\' ∧ ' ' ≤ c

/-- Four hexadecimal digits in either case, and the number that they stand for. -/
inductive Hex4 : List Char → Nat → Prop where
  | intro {a b c d : Char} {i j k l : Nat} : hexValue? a = some i → hexValue? b = some j →
      hexValue? c = some k → hexValue? d = some l →
      Hex4 [a, b, c, d] (((i * 16 + j) * 16 + k) * 16 + l)

/-- What stands between two quotes, and the text that it stands for.  Four digits name a character
by its code, so never half a pair; two units name the character of their pair. -/
inductive Spells : List Char → List Char → Prop where
  | nil : Spells [] []
  | plain {c : Char} {body s : List Char} : IsPlain c → Spells body s → Spells (c :: body) (c :: s)
  | short {letter c : Char} {body s : List Char} : ShortEscape letter c → Spells body s →
      Spells ('\\' :: letter :: body) (c :: s)
  | unit {hex : List Char} {c : Char} {body s : List Char} : Hex4 hex c.toNat → Spells body s →
      Spells ('\\' :: 'u' :: (hex ++ body)) (c :: s)
  | pair {hex hex' : List Char} {high low : Nat} {c : Char} {body s : List Char} :
      Hex4 hex high → Hex4 hex' low → 0xD800 ≤ high → high ≤ 0xDBFF → 0xDC00 ≤ low → low ≤ 0xDFFF →
      c.toNat = 0x10000 + (high - 0xD800) * 0x400 + (low - 0xDC00) → Spells body s →
      Spells ('\\' :: 'u' :: (hex ++ '\\' :: 'u' :: (hex' ++ body))) (c :: s)

/-- What stands between two quotes, whether or not it stands for a text. -/
inductive IsStringBody : List Char → Prop where
  | nil : IsStringBody []
  | plain {c : Char} {body : List Char} : IsPlain c → IsStringBody body → IsStringBody (c :: body)
  | short {letter c : Char} {body : List Char} : ShortEscape letter c → IsStringBody body →
      IsStringBody ('\\' :: letter :: body)
  | unit {hex : List Char} {n : Nat} {body : List Char} : Hex4 hex n → IsStringBody body →
      IsStringBody ('\\' :: 'u' :: (hex ++ body))

/-- A string, and the text that it stands for. -/
inductive StringLiteral : List Char → String → Prop where
  | intro {body s : List Char} : Spells body s →
      StringLiteral ('"' :: (body ++ ['"'])) (String.ofList s)

/-- A string, whether or not it stands for a text. -/
inductive IsString : List Char → Prop where
  | intro {body : List Char} : IsStringBody body → IsString ('"' :: (body ++ ['"']))

instance : DecidablePred IsPlain :=
  fun _ => inferInstanceAs (Decidable (_ ∧ _ ∧ _))

/-- A text without quotes, backslashes and control characters stands for itself. -/
theorem spells_of_isPlain {body : List Char} (h : ∀ c ∈ body, IsPlain c) : Spells body body := by
  induction body with
  | nil => exact .nil
  | cons c body ih =>
    obtain ⟨hc, hbody⟩ := List.forall_mem_cons.mp h
    exact .plain hc (ih hbody)

theorem stringLiteral_of_isPlain (name : String)
    (h : name.toList.all (fun c => IsPlain c) = true) :
    StringLiteral ('"' :: (name.toList ++ ['"'])) name := by
  have hplain : ∀ c ∈ name.toList, IsPlain c := by simpa using h
  conv => rhs; rw [← String.ofList_toList (s := name)]
  exact .intro (spells_of_isPlain hplain)

/-! ### Arrays and objects -/

/-- Items in their order, at least one, with commas between them and blanks around each. -/
inductive Listed : List (List Char) → List Char → Prop where
  | last {b t b' : List Char} : IsBlanks b → IsBlanks b' → Listed [t] (b ++ (t ++ b'))
  | more {b t b' body : List Char} {items : List (List Char)} : IsBlanks b → IsBlanks b' →
      Listed items body → Listed (t :: items) (b ++ (t ++ (b' ++ ',' :: body)))

/-- Items between two brackets, or blanks alone if there are none. -/
inductive Enclosed (opening closing : Char) : List (List Char) → List Char → Prop where
  | empty {b : List Char} : IsBlanks b → Enclosed opening closing [] (opening :: (b ++ [closing]))
  | items {items : List (List Char)} {body : List Char} : Listed items body →
      Enclosed opening closing items (opening :: (body ++ [closing]))

/-- A key and a value with a colon between them. -/
inductive Member : List Char → List Char → List Char → Prop where
  | intro {key b b' value : List Char} : IsBlanks b → IsBlanks b' →
      Member key value (key ++ (b ++ ':' :: (b' ++ value)))

/-- An array whose elements are what `P` says. -/
def ArrayOf (P : List Char → α → Prop) (t : List Char) (as : List α) : Prop :=
  ∃ items, Enclosed '[' ']' items t ∧ List.Forall₂ P items as

/-- An object whose members, key and value, are what `P` says. -/
def ObjectOf (P : List Char → List Char → α → Prop) (t : List Char) (as : List α) : Prop :=
  ∃ items, Enclosed '\x7b' '\x7d' items t ∧
    List.Forall₂ (fun item a => ∃ key value, Member key value item ∧ P key value a) items as

/-- The word `null`, or what `P` says. -/
inductive OptionalText (P : List Char → α → Prop) : List Char → Option α → Prop where
  | null : OptionalText P ['n', 'u', 'l', 'l'] none
  | some {t : List Char} {a : α} : P t a → OptionalText P t (some a)

/-- Any value. -/
inductive IsValue : List Char → Prop where
  | null : IsValue ['n', 'u', 'l', 'l']
  | true : IsValue ['t', 'r', 'u', 'e']
  | false : IsValue ['f', 'a', 'l', 's', 'e']
  | number {t : List Char} : IsNumber t → IsValue t
  | string {t : List Char} : IsString t → IsValue t
  | array {t : List Char} {items : List (List Char)} : Enclosed '[' ']' items t →
      (∀ item ∈ items, IsValue item) → IsValue t
  | object {t : List Char} {members : List (List Char × List Char)} {items : List (List Char)} :
      Enclosed '\x7b' '\x7d' items t → List.Forall₂ (fun m => Member m.1 m.2) members items →
      (∀ m ∈ members, IsString m.1) → (∀ m ∈ members, IsValue m.2) → IsValue t

/-! ### Readers -/

/-- What may stand behind a value: nothing, a blank, or what goes on or ends the array or object
that the value belongs to. -/
def Stops (rest : List Char) : Prop :=
  ∀ c ∈ rest.head?, isBlank c = true ∨ c = ',' ∨ c = ']' ∨ c = '\x7d'

/-- A text that starts as a value does: with no blank, and not with the end of an array. -/
def Starts (t : List Char) : Prop :=
  ∃ c s, t = c :: s ∧ isBlank c = false ∧ c ≠ ']'

/-- The reader takes exactly the texts of `P`, with any blanks in front, and returns what they
stand for. -/
structure Reads (read : Reader α) (P : List Char → α → Prop) : Prop where
  starts {t : List Char} {a : α} : P t a → Starts t
  sound {cs rest : List Char} {a : α} : read cs = .ok (a, rest) →
    ∃ b t, IsBlanks b ∧ P t a ∧ cs = b ++ (t ++ rest)
  complete {b t rest : List Char} {a : α} : IsBlanks b → P t a → Stops rest →
    read (b ++ (t ++ rest)) = .ok (a, rest)

/-- What a sequence that succeeded says. -/
theorem bind_eq_ok {x : Except Flaw α} {f : α → Except Flaw β} {b : β} :
    (x >>= f) = .ok b ↔ ∃ a, x = .ok a ∧ f a = .ok b := by
  cases x with
  | error flaw => exact ⟨nofun, fun ⟨_, h, _⟩ => nomatch h⟩
  | ok a => exact ⟨fun h => ⟨a, rfl, h⟩, fun ⟨_, rfl, h⟩ => h⟩

/-- What a result that was reworked says. -/
theorem map_eq_ok {x : Except Flaw α} {f : α → β} {b : β} :
    x.map f = .ok b ↔ ∃ a, x = .ok a ∧ f a = b := by
  cases x with
  | error flaw => exact ⟨nofun, fun ⟨_, h, _⟩ => nomatch h⟩
  | ok a => exact ⟨fun h => ⟨a, rfl, Except.ok.inj h⟩, fun ⟨_, rfl, h⟩ => congrArg Except.ok h⟩

end CommandBridge.Json
