import CommandBridge.Proofs.Json.Grammar

/-!
# Strings are read as the grammar spells them

The reader walks through a string one character at a time, the grammar goes from one whole character
of the text to the next.  `Leads` joins the two: it holds of what the reader has passed since the
last whole character and the state it is in.

* `Leads.emit`, `Leads.goto`, `Leads.close` — what one move does to that;
* `readTextFrom_sound` — so what was passed over is spelled as the grammar says;
* `readTextFrom_spells`, `exists_readTextFrom` — and every string of the grammar is passed over;
* `readText_sound`, `readText_complete`, `skipText_sound`, `skipText_complete` — the same for the
  two readers.
-/

namespace CommandBridge.Json

variable {paired : Bool} {cs rest p body hex s : List Char} {c d : Char} {state next : TextState}
  {n high low : Nat}

/-! ### Escapes -/

/-- The letters that the reader knows are those of the grammar. -/
theorem shortEscape?_eq_some : shortEscape? c = some d ↔ ShortEscape c d := by
  constructor
  · intro h
    rw [shortEscape?] at h
    split_ifs at h <;> cases h <;> subst_vars <;> constructor
  · intro h
    cases h <;> rfl

theorem ShortEscape.ne_u (h : ShortEscape c d) : c ≠ 'u' := by
  cases h <;> decide

theorem hexValue?_lt {value : Nat} (h : hexValue? c = some value) : value < 16 := by
  have h0 : '0'.toNat = 48 := rfl
  have ha : 'a'.toNat = 97 := rfl
  have hA : 'A'.toNat = 65 := rfl
  have h9 : '9'.toNat = 57 := rfl
  have hf : 'f'.toNat = 102 := rfl
  have hF : 'F'.toNat = 70 := rfl
  rw [hexValue?] at h
  simp only [Bool.and_eq_true, decide_eq_true_eq, Char.le_def, UInt32.le_iff_toNat_le,
    Char.toNat_val] at h
  split_ifs at h <;> cases h <;> omega

theorem Hex4.lt (h : Hex4 hex n) : n < 0x10000 := by
  obtain ⟨ha, hb, hc, hd⟩ := h
  have := hexValue?_lt ha
  have := hexValue?_lt hb
  have := hexValue?_lt hc
  have := hexValue?_lt hd
  omega

theorem toNat_ofNat_of_isValidChar (h : n.isValidChar) : (Char.ofNat n).toNat = n := by
  rw [Char.ofNat, dif_pos h]
  rfl

/-- A unit that belongs to no pair is the code of a character. -/
theorem Hex4.toNat_ofNat (h : Hex4 hex n) (hhigh : isHighUnit n = false)
    (hlow : isLowUnit n = false) : (Char.ofNat n).toNat = n := by
  have hlt := h.lt
  simp only [isHighUnit, isLowUnit, Bool.and_eq_false_iff, decide_eq_false_iff_not] at hhigh hlow
  exact toNat_ofNat_of_isValidChar (by rw [Nat.isValidChar]; omega)

theorem isHighUnit_iff : isHighUnit n = true ↔ 0xD800 ≤ n ∧ n ≤ 0xDBFF := by
  simp [isHighUnit]

theorem isLowUnit_iff : isLowUnit n = true ↔ 0xDC00 ≤ n ∧ n ≤ 0xDFFF := by
  simp [isLowUnit]

/-- The two units of a pair name a character beyond the first 65536. -/
theorem toNat_pairChar (hhigh : isHighUnit high = true) (hlow : isLowUnit low = true) :
    (pairChar high low).toNat = 0x10000 + (high - 0xD800) * 0x400 + (low - 0xDC00) := by
  rw [isHighUnit_iff] at hhigh
  rw [isLowUnit_iff] at hlow
  rw [pairChar, toNat_ofNat_of_isValidChar (by rw [Nat.isValidChar]; omega)]
  omega

/-! ### Both kinds of strings at once -/

/-- What stands between two quotes; only where units come in pairs it has to spell `s`. -/
def Body (paired : Bool) (body s : List Char) : Prop :=
  if paired then Spells body s else IsStringBody body

theorem Body.nil : Body paired [] [] := by
  cases paired
  · exact IsStringBody.nil
  · exact Spells.nil

theorem Body.plain (hc : IsPlain c) (h : Body paired body s) : Body paired (c :: body) (c :: s) := by
  cases paired
  · exact IsStringBody.plain hc h
  · exact Spells.plain hc h

theorem Body.short (hc : ShortEscape c d) (h : Body paired body s) :
    Body paired ('\\' :: c :: body) (d :: s) := by
  cases paired
  · exact IsStringBody.short hc h
  · exact Spells.short hc h

theorem Body.unit (hhex : Hex4 hex n)
    (halone : paired = true → isHighUnit n = false ∧ isLowUnit n = false)
    (h : Body paired body s) :
    Body paired ('\\' :: 'u' :: (hex ++ body)) (Char.ofNat n :: s) := by
  cases paired
  · exact IsStringBody.unit hhex h
  · obtain ⟨hhigh, hlow⟩ := halone rfl
    exact Spells.unit (by rwa [hhex.toNat_ofNat hhigh hlow]) h

theorem Body.pair {hex' : List Char} (hhex : Hex4 hex high) (hhex' : Hex4 hex' low)
    (hhigh : isHighUnit high = true) (hlow : isLowUnit low = true) (h : Body true body s) :
    Body true ('\\' :: 'u' :: (hex ++ '\\' :: 'u' :: (hex' ++ body))) (pairChar high low :: s) := by
  have hhigh' := isHighUnit_iff.mp hhigh
  have hlow' := isLowUnit_iff.mp hlow
  exact Spells.pair hhex hhex' hhigh'.1 hhigh'.2 hlow'.1 hlow'.2 (toNat_pairChar hhigh hlow) h

/-! ### Where the reader stands -/

/-- The first hexadecimal digits of a unit: how many, and their value so far. -/
inductive HexDigits : List Char → Nat → Nat → Prop where
  | nil : HexDigits [] 0 0
  | concat {hex : List Char} {count value v : Nat} {c : Char} : HexDigits hex count value →
      hexValue? c = some v → HexDigits (hex ++ [c]) (count + 1) (value * 16 + v)

/-- Four digits are a whole unit. -/
theorem HexDigits.hex4 {value : Nat} (h : HexDigits hex 4 value) : Hex4 hex value := by
  cases h with
  | concat h hd =>
    cases h with
    | concat h hc =>
      cases h with
      | concat h hb =>
        cases h with
        | concat h ha =>
          cases h
          simpa using Hex4.intro ha hb hc hd

/-- The reader is in `state` after it has passed `p` since the last whole character. -/
inductive Leads (paired : Bool) : List Char → TextState → Prop where
  | plain : Leads paired [] .plain
  | escape : Leads paired ['\\'] .escape
  | digits {hex : List Char} {count value : Nat} : HexDigits hex count value → count < 4 →
      Leads paired ('\\' :: 'u' :: hex) (.digits none count value)
  | pair {hex : List Char} {high : Nat} : paired = true → Hex4 hex high →
      isHighUnit high = true → Leads paired ('\\' :: 'u' :: hex) (.pair high)
  | pairEscape {hex : List Char} {high : Nat} : paired = true → Hex4 hex high →
      isHighUnit high = true → Leads paired ('\\' :: 'u' :: (hex ++ ['\\'])) (.pairEscape high)
  | pairDigits {hex hex' : List Char} {high count value : Nat} : paired = true → Hex4 hex high →
      isHighUnit high = true → HexDigits hex' count value → count < 4 →
      Leads paired ('\\' :: 'u' :: (hex ++ '\\' :: 'u' :: hex')) (.digits (some high) count value)

/-! ### Moves -/

/-- What the last of four digits does. -/
theorem unitMove_cases (paired : Bool) (first : Option Nat) (n : Nat) :
    (∃ d, unitMove paired first n = .emit d) ∨ (∃ next, unitMove paired first n = .goto next) ∨
      ∃ flaw, unitMove paired first n = .fail flaw := by
  cases first with
  | none =>
    rw [unitMove]
    split_ifs <;> simp
  | some high =>
    rw [unitMove]
    split_ifs <;> simp

/-- A digit goes on with the unit or completes it. -/
theorem textMove_digits (paired : Bool) (c : Char) (cs : List Char) {first : Option Nat}
    {count value : Nat} (hcount : count < 4) :
    (∃ flaw, textMove paired c cs (.digits first count value) = .fail flaw) ∨
      ∃ v, hexValue? c = some v ∧
        (count < 3 ∧ textMove paired c cs (.digits first count value) =
            .goto (.digits first (count + 1) (value * 16 + v)) ∨
          count = 3 ∧ textMove paired c cs (.digits first count value) =
            unitMove paired first (value * 16 + v)) := by
  cases hvalue : hexValue? c with
  | none => exact .inl ⟨digitFlaw count (c :: cs), by simp [textMove, hvalue]⟩
  | some v =>
    refine .inr ⟨v, rfl, ?_⟩
    by_cases hless : count < 3
    · exact .inl ⟨hless, by simp [textMove, hvalue, hless]⟩
    · exact .inr ⟨by omega, by simp [textMove, hvalue, hless]⟩

/-- The character that ends a string comes between whole characters. -/
theorem Leads.close (h : Leads paired p state) (hmove : textMove paired c cs state = .close) :
    p = [] ∧ c = '"' := by
  have hnotDigits : ∀ {first count value}, count < 4 →
      textMove paired c cs (.digits first count value) ≠ .close := by
    intro first count value hcount heq
    rcases textMove_digits paired c cs hcount with ⟨flaw, hfail⟩ |
      ⟨v, -, ⟨-, hgoto⟩ | ⟨-, hunit⟩⟩
    · cases hfail.symm.trans heq
    · cases hgoto.symm.trans heq
    · rw [hunit] at heq
      rcases unitMove_cases paired first _ with ⟨d, h⟩ | ⟨next, h⟩ | ⟨flaw, h⟩
      · cases h.symm.trans heq
      · cases h.symm.trans heq
      · cases h.symm.trans heq
  cases h with
  | plain =>
    rw [textMove] at hmove
    split_ifs at hmove with hquote
    exact ⟨rfl, hquote⟩
  | escape =>
    rw [textMove] at hmove
    split_ifs at hmove
    split at hmove <;> cases hmove
  | digits _ hcount => exact absurd hmove (hnotDigits hcount)
  | pair =>
    rw [textMove] at hmove
    split_ifs at hmove
  | pairEscape =>
    rw [textMove] at hmove
    split_ifs at hmove
  | pairDigits _ _ _ _ hcount => exact absurd hmove (hnotDigits hcount)

/-- A move on adds to what was passed. -/
theorem Leads.goto (h : Leads paired p state) (hmove : textMove paired c cs state = .goto next) :
    Leads paired (p ++ [c]) next := by
  cases h with
  | plain =>
    rw [textMove] at hmove
    split_ifs at hmove with _ hbackslash
    cases hmove
    rw [hbackslash]
    exact .escape
  | escape =>
    rw [textMove] at hmove
    split_ifs at hmove with hu
    · cases hmove
      rw [hu]
      exact .digits .nil (by decide)
    · split at hmove <;> cases hmove
  | @digits hex count value hhex hcount =>
    rcases textMove_digits paired c cs hcount with ⟨flaw, hfail⟩ |
      ⟨v, hv, ⟨hless, hgoto⟩ | ⟨rfl, hunit⟩⟩
    · cases hfail.symm.trans hmove
    · cases hgoto.symm.trans hmove
      exact .digits (hhex.concat hv) (by omega)
    · -- the unit starts a pair
      rw [hunit, unitMove] at hmove
      split_ifs at hmove with hpaired hhigh
      cases hmove
      exact .pair (by simpa using hpaired) (hhex.concat hv).hex4 hhigh
  | @pair hex high hpaired hhex hhigh =>
    rw [textMove] at hmove
    split_ifs at hmove with hbackslash
    cases hmove
    rw [hbackslash]
    exact .pairEscape hpaired hhex hhigh
  | @pairEscape hex high hpaired hhex hhigh =>
    rw [textMove] at hmove
    split_ifs at hmove with hu
    cases hmove
    rw [hu]
    simpa using Leads.pairDigits hpaired hhex hhigh .nil (by decide)
  | @pairDigits hex hex' high count value hpaired hhex hhigh hhex' hcount =>
    rcases textMove_digits paired c cs hcount with ⟨flaw, hfail⟩ |
      ⟨v, hv, ⟨hless, hgoto⟩ | ⟨rfl, hunit⟩⟩
    · cases hfail.symm.trans hmove
    · cases hgoto.symm.trans hmove
      simpa using Leads.pairDigits hpaired hhex hhigh (hhex'.concat hv) (by omega)
    · rw [hunit, unitMove] at hmove
      split_ifs at hmove

/-- A character of the text is complete when it is emitted. -/
theorem Leads.emit (h : Leads paired p state) (hmove : textMove paired c cs state = .emit d)
    (hbody : Body paired body s) : Body paired (p ++ c :: body) (d :: s) := by
  cases h with
  | plain =>
    rw [textMove] at hmove
    split_ifs at hmove with hquote hbackslash hcontrol
    cases hmove
    exact .plain ⟨hquote, hbackslash, Char.not_lt.mp hcontrol⟩ hbody
  | escape =>
    rw [textMove] at hmove
    split_ifs at hmove
    split at hmove
    · next e he =>
      cases hmove
      exact .short (shortEscape?_eq_some.mp he) hbody
    · cases hmove
  | @digits hex count value hhex hcount =>
    rcases textMove_digits paired c cs hcount with ⟨flaw, hfail⟩ |
      ⟨v, hv, ⟨hless, hgoto⟩ | ⟨rfl, hunit⟩⟩
    · cases hfail.symm.trans hmove
    · cases hgoto.symm.trans hmove
    · have hwhole := (hhex.concat hv).hex4
      rw [hunit, unitMove] at hmove
      have hd : Char.ofNat (value * 16 + v) = d ∧
          (paired = true → isHighUnit (value * 16 + v) = false ∧
            isLowUnit (value * 16 + v) = false) := by
        split_ifs at hmove with hpaired hhigh hlow
        · cases hmove
          exact ⟨rfl, fun htrue => by simp [htrue] at hpaired⟩
        · cases hmove
          exact ⟨rfl, fun _ => ⟨by simpa using hhigh, by simpa using hlow⟩⟩
      rw [← hd.1]
      simpa using Body.unit hwhole hd.2 hbody
  | pair =>
    rw [textMove] at hmove
    split_ifs at hmove
  | pairEscape =>
    rw [textMove] at hmove
    split_ifs at hmove
  | @pairDigits hex hex' high count value hpaired hhex hhigh hhex' hcount =>
    rcases textMove_digits paired c cs hcount with ⟨flaw, hfail⟩ |
      ⟨v, hv, ⟨hless, hgoto⟩ | ⟨rfl, hunit⟩⟩
    · cases hfail.symm.trans hmove
    · cases hgoto.symm.trans hmove
    · rw [hunit, unitMove] at hmove
      split_ifs at hmove with hlow
      subst hpaired
      rw [← TextMove.emit.inj hmove]
      simpa using Body.pair hhex (hhex'.concat hv).hex4 hhigh hlow hbody

/-! ### Soundness -/

/-- What a string that was read to its end says about the first character. -/
theorem readTextFrom_cons_eq_ok (h : readTextFrom paired state (c :: cs) = .ok (s, rest)) :
    (∃ d s', textMove paired c cs state = .emit d ∧ readTextFrom paired .plain cs = .ok (s', rest) ∧
        s = d :: s') ∨
      (∃ next, textMove paired c cs state = .goto next ∧
        readTextFrom paired next cs = .ok (s, rest)) ∨
      textMove paired c cs state = .close ∧ s = [] ∧ rest = cs := by
  rw [readTextFrom] at h
  split at h
  · next d hmove =>
    obtain ⟨⟨s', rest'⟩, hread, hpair⟩ := map_eq_ok.mp h
    cases hpair
    exact .inl ⟨d, s', hmove, hread, rfl⟩
  · next next hmove => exact .inr (.inl ⟨next, hmove, h⟩)
  · next hmove =>
    cases h
    exact .inr (.inr ⟨hmove, rfl, rfl⟩)
  · cases h

/-- **What the reader passes over is a string of the grammar.** -/
theorem readTextFrom_sound (h : readTextFrom paired state cs = .ok (s, rest))
    (hleads : Leads paired p state) :
    ∃ body, Body paired (p ++ body) s ∧ cs = body ++ '"' :: rest := by
  induction cs generalizing state p s with
  | nil => cases h
  | cons c cs ih =>
    rcases readTextFrom_cons_eq_ok h with ⟨d, s', hmove, hread, rfl⟩ | ⟨next, hmove, hread⟩ |
      ⟨hmove, rfl, rfl⟩
    · obtain ⟨body, hbody, rfl⟩ := ih hread .plain
      exact ⟨c :: body, hleads.emit hmove hbody, rfl⟩
    · obtain ⟨body, hbody, rfl⟩ := ih hread (hleads.goto hmove)
      exact ⟨c :: body, by simpa using hbody, rfl⟩
    · obtain ⟨rfl, rfl⟩ := hleads.close hmove
      exact ⟨[], .nil, rfl⟩

/-! ### Completeness -/

theorem readTextFrom_plain (hc : IsPlain c) : readTextFrom paired .plain (c :: cs) =
    (readTextFrom paired .plain cs).map (fun (s, r) => (c :: s, r)) := by
  obtain ⟨hquote, hbackslash, hcontrol⟩ := hc
  simp [readTextFrom, textMove, hquote, hbackslash, Char.not_lt.mpr hcontrol]

theorem readTextFrom_short (hc : ShortEscape c d) : readTextFrom paired .plain ('\\' :: c :: cs) =
    (readTextFrom paired .plain cs).map (fun (s, r) => (d :: s, r)) := by
  simp [readTextFrom, textMove, hc.ne_u, shortEscape?_eq_some.mpr hc]

/-- A digit before the last goes into the unit that is being read. -/
theorem readTextFrom_digit {first : Option Nat} {digits unit value : Nat}
    (hc : hexValue? c = some value) (hdigits : digits < 3) :
    readTextFrom paired (.digits first digits unit) (c :: cs) =
      readTextFrom paired (.digits first (digits + 1) (unit * 16 + value)) cs := by
  simp only [readTextFrom, textMove, hc, if_pos hdigits]

/-- Four digits are read as the unit that they name. -/
theorem readTextFrom_hex4 {first : Option Nat} (h : Hex4 hex n) :
    readTextFrom paired (.digits first 0 0) (hex ++ cs) =
      match unitMove paired first n with
      | .emit d => (readTextFrom paired .plain cs).map (fun (s, r) => (d :: s, r))
      | .goto next => readTextFrom paired next cs
      | .close => .ok ([], cs)
      | .fail flaw => .error flaw := by
  cases h with
  | @intro a b c d i j k l ha hb hc hd =>
    simp only [List.cons_append, List.nil_append]
    rw [readTextFrom_digit ha (by decide), readTextFrom_digit hb (by decide),
      readTextFrom_digit hc (by decide), Nat.zero_mul, Nat.zero_add i]
    cases hmove : unitMove paired first (((i * 16 + j) * 16 + k) * 16 + l) <;>
      simp only [readTextFrom, textMove, hd, if_neg (Nat.lt_irrefl 3), hmove]

theorem readTextFrom_unit (h : Hex4 hex n) (halone : unitMove paired none n = .emit d) :
    readTextFrom paired .plain ('\\' :: 'u' :: (hex ++ cs)) =
      (readTextFrom paired .plain cs).map (fun (s, r) => (d :: s, r)) := by
  show readTextFrom paired (.digits none 0 0) (hex ++ cs) = _
  rw [readTextFrom_hex4 h, halone]

theorem readTextFrom_quote : readTextFrom paired .plain ('"' :: rest) = .ok ([], rest) := rfl

/-- A character is no unit of a pair. -/
theorem unitMove_toNat (c : Char) : unitMove true none c.toNat = .emit c := by
  have hvalid : c.toNat.isValidChar := c.valid
  have hhigh : isHighUnit c.toNat = false := by
    rw [← Bool.not_eq_true, isHighUnit_iff]
    rw [Nat.isValidChar] at hvalid
    omega
  have hlow : isLowUnit c.toNat = false := by
    rw [← Bool.not_eq_true, isLowUnit_iff]
    rw [Nat.isValidChar] at hvalid
    omega
  simp [unitMove, hhigh, hlow, Char.ofNat_toNat]

/-- **A string that spells a text is read as that text.** -/
theorem readTextFrom_spells (h : Spells body s) :
    readTextFrom true .plain (body ++ '"' :: rest) = .ok (s, rest) := by
  induction h with
  | nil => exact readTextFrom_quote
  | plain hc _ ih => rw [List.cons_append, readTextFrom_plain hc, ih]; rfl
  | short hc _ ih => rw [List.cons_append, List.cons_append, readTextFrom_short hc, ih]; rfl
  | @unit hex c body s hhex _ ih =>
    rw [List.cons_append, List.cons_append, List.append_assoc,
      readTextFrom_unit hhex (unitMove_toNat c), ih]
    rfl
  | @pair hex hex' high low c body s hhex hhex' hhigh hhigh' hlow hlow' hc _ ih =>
    have hhighUnit : isHighUnit high = true := isHighUnit_iff.mpr ⟨hhigh, hhigh'⟩
    have hlowUnit : isLowUnit low = true := isLowUnit_iff.mpr ⟨hlow, hlow'⟩
    have hpair : pairChar high low = c :=
      Char.toNat_inj.mp ((toNat_pairChar hhighUnit hlowUnit).trans hc.symm)
    have hgoto : unitMove true none high = .goto (.pair high) := by
      simp [unitMove, hhighUnit]
    have hemit : unitMove true (some high) low = .emit c := by
      simp [unitMove, hlowUnit, hpair]
    simp only [List.cons_append, List.append_assoc]
    show readTextFrom true (.digits none 0 0) (hex ++ '\\' :: 'u' :: (hex' ++ (body ++ _))) = _
    rw [readTextFrom_hex4 hhex, hgoto]
    show readTextFrom true (.digits (some high) 0 0) (hex' ++ (body ++ _)) = _
    rw [readTextFrom_hex4 hhex', hemit, ih]
    rfl

/-- **Every string is passed over.** -/
theorem exists_readTextFrom (rest : List Char) (h : IsStringBody body) :
    ∃ s, readTextFrom false .plain (body ++ '"' :: rest) = .ok (s, rest) := by
  induction h with
  | nil => exact ⟨[], readTextFrom_quote⟩
  | @plain c body hc _ ih =>
    obtain ⟨s, ih⟩ := ih
    exact ⟨c :: s, by rw [List.cons_append, readTextFrom_plain hc, ih]; rfl⟩
  | @short letter c body hc _ ih =>
    obtain ⟨s, ih⟩ := ih
    exact ⟨c :: s, by rw [List.cons_append, List.cons_append, readTextFrom_short hc, ih]; rfl⟩
  | @unit hex n body hhex _ ih =>
    obtain ⟨s, ih⟩ := ih
    refine ⟨Char.ofNat n :: s, ?_⟩
    rw [List.cons_append, List.cons_append, List.append_assoc, readTextFrom_unit hhex rfl, ih]
    rfl

/-! ### The two readers -/

theorem readText_sound {text : String} (h : readText cs = .ok (text, rest)) :
    ∃ t, StringLiteral t text ∧ '"' :: cs = t ++ rest := by
  obtain ⟨⟨s, rest'⟩, hread, hpair⟩ := map_eq_ok.mp h
  cases hpair
  obtain ⟨body, hbody, rfl⟩ := readTextFrom_sound hread .plain
  exact ⟨_, .intro hbody, by simp⟩

theorem readText_complete {t : List Char} {text : String} (ht : StringLiteral t text) :
    ∃ tail, t = '"' :: tail ∧ ∀ rest, readText (tail ++ rest) = .ok (text, rest) := by
  obtain ⟨hbody⟩ := ht
  refine ⟨_, rfl, fun rest => ?_⟩
  rw [List.append_assoc]
  exact map_eq_ok.mpr ⟨_, readTextFrom_spells hbody, rfl⟩

theorem skipText_sound (h : skipText cs = .ok rest) : ∃ t, IsString t ∧ '"' :: cs = t ++ rest := by
  obtain ⟨⟨s, rest'⟩, hread, hpair⟩ := map_eq_ok.mp h
  cases hpair
  obtain ⟨body, hbody, rfl⟩ := readTextFrom_sound hread .plain
  exact ⟨_, .intro hbody, by simp⟩

theorem skipText_complete {t : List Char} (ht : IsString t) :
    ∃ tail, t = '"' :: tail ∧ ∀ rest, skipText (tail ++ rest) = .ok rest := by
  obtain ⟨hbody⟩ := ht
  refine ⟨_, rfl, fun rest => ?_⟩
  rw [List.append_assoc]
  obtain ⟨s, hread⟩ := exists_readTextFrom rest hbody
  exact map_eq_ok.mpr ⟨_, hread, rfl⟩

end CommandBridge.Json
