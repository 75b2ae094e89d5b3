import Mathlib.Algebra.GroupWithZero.Nat
import Mathlib.Algebra.Ring.Int.Defs
import Mathlib.Data.List.Induction
import CommandBridge.Proofs.Json.Grammar

/-!
# Numbers are read as the grammar writes them

* `scanNumeral_sound`, `scanNumeral_complete` — a numeral at the front of a text is found, digit for
  digit, if nothing behind it could belong to it;
* `skipNumber_sound`, `skipNumber_complete` — so numbers that do not matter are passed over exactly;
* `readNumber_sound`, `readNumber_complete` — a number in the range of 64-bit words is read with its
  value, unless it is minus zero;
* `IsWhole.toDigits_digitsValue`, `isWhole_toDigits` — whole numbers have one way to be written.
-/

namespace CommandBridge.Json

variable {cs rest ds t : List Char} {n : Numeral}

/-! ### Digits -/

/-- The text does not go on as a number would. -/
def EndsNumber (rest : List Char) : Prop :=
  ∀ c ∈ rest.head?, isDigit c = false ∧ c ≠ '.' ∧ c ≠ 'e' ∧ c ≠ 'E'

theorem Stops.endsNumber (h : Stops rest) : EndsNumber rest := by
  intro c hc
  rcases h c hc with hblank | rfl | rfl | rfl
  · simp only [isBlank, Bool.or_eq_true, decide_eq_true_eq] at hblank
    rcases hblank with ((rfl | rfl) | rfl) | rfl <;> decide
  · decide
  · decide
  · decide

/-- The digits at the front of a text, and what follows. -/
theorem takeWhile_isDigit_append (hds : ∀ d ∈ ds, isDigit d = true)
    (hrest : ∀ c ∈ rest.head?, isDigit c = false) :
    (ds ++ rest).takeWhile isDigit = ds ∧ (ds ++ rest).dropWhile isDigit = rest := by
  induction ds with
  | nil =>
    cases rest with
    | nil => exact ⟨rfl, rfl⟩
    | cons c rest =>
      have hc := hrest c rfl
      simp [hc]
  | cons d ds ih =>
    have hd := hds d List.mem_cons_self
    have htail := ih (fun e he => hds e (List.mem_cons_of_mem d he))
    simp [hd, htail]

theorem scanDigits_sound (h : scanDigits cs = .ok (ds, rest)) : IsDigits ds ∧ cs = ds ++ rest := by
  cases cs with
  | nil => cases h
  | cons c cs =>
    rw [scanDigits] at h
    split at h
    · next hc =>
      cases h
      refine ⟨⟨List.cons_ne_nil _ _, fun d hd => ?_⟩, by simp⟩
      rcases List.mem_cons.mp hd with rfl | hd
      · exact hc
      · exact List.all_eq_true.mp (List.all_takeWhile) d hd
    · cases h

theorem scanDigits_complete (hds : IsDigits ds) (hrest : ∀ c ∈ rest.head?, isDigit c = false) :
    scanDigits (ds ++ rest) = .ok (ds, rest) := by
  obtain ⟨hne, hall⟩ := hds
  cases ds with
  | nil => exact absurd rfl hne
  | cons d ds =>
    have hd := hall d List.mem_cons_self
    have htail := takeWhile_isDigit_append (fun e he => hall e (List.mem_cons_of_mem d he)) hrest
    simp [scanDigits, hd, htail]

/-! ### The parts of a numeral -/

theorem scanWhole_sound (h : scanWhole cs = .ok (ds, rest)) : IsWhole ds ∧ cs = ds ++ rest := by
  cases cs with
  | nil => cases h
  | cons c cs =>
    rw [scanWhole.eq_def] at h
    dsimp only at h
    split at h
    · next hc =>
      subst hc
      have hzero : IsWhole ['0'] := ⟨⟨List.cons_ne_nil _ _, by simp [isDigit]⟩, fun _ => rfl⟩
      cases cs with
      | nil =>
        cases h
        exact ⟨hzero, rfl⟩
      | cons d cs =>
        dsimp only at h
        split at h
        · cases h
        · cases h
          exact ⟨hzero, rfl⟩
    · next hc =>
      obtain ⟨hds, htext⟩ := scanDigits_sound h
      refine ⟨⟨hds, fun hhead => absurd ?_ hc⟩, htext⟩
      cases ds with
      | nil => cases hhead
      | cons d ds =>
        cases htext
        exact Option.some.inj hhead

theorem scanWhole_complete (hds : IsWhole ds) (hrest : ∀ c ∈ rest.head?, isDigit c = false) :
    scanWhole (ds ++ rest) = .ok (ds, rest) := by
  obtain ⟨hdigits, hzero⟩ := hds
  cases ds with
  | nil => exact absurd rfl hdigits.1
  | cons d ds =>
    by_cases hd : d = '0'
    · subst hd
      cases hzero rfl
      cases rest with
      | nil => rfl
      | cons c rest => simp [scanWhole, hrest c rfl]
    · rw [List.cons_append, scanWhole.eq_def]
      dsimp only
      rw [if_neg hd]
      exact scanDigits_complete hdigits hrest

theorem scanFraction_sound (h : scanFraction cs = .ok (ds, rest)) :
    ∃ t, FractionText ds t ∧ cs = t ++ rest := by
  cases cs with
  | nil =>
    cases h
    exact ⟨[], .absent, rfl⟩
  | cons c cs =>
    rw [scanFraction] at h
    split at h
    · next hc =>
      obtain ⟨hds, rfl⟩ := scanDigits_sound h
      exact ⟨'.' :: ds, .present hds, by rw [hc]; rfl⟩
    · cases h
      exact ⟨[], .absent, rfl⟩

theorem scanFraction_complete (ht : FractionText ds t)
    (hrest : ∀ c ∈ rest.head?, isDigit c = false ∧ c ≠ '.') :
    scanFraction (t ++ rest) = .ok (ds, rest) := by
  cases ht with
  | absent =>
    cases rest with
    | nil => rfl
    | cons c rest => simp [scanFraction, (hrest c rfl).2]
  | present hds =>
    rw [List.cons_append, scanFraction, if_pos rfl]
    exact scanDigits_complete hds (fun c hc => (hrest c hc).1)

theorem scanExponent_sound {e : Option (Bool × List Char)} (h : scanExponent cs = .ok (e, rest)) :
    ∃ t, ExponentText e t ∧ cs = t ++ rest := by
  cases cs with
  | nil =>
    cases h
    exact ⟨[], .absent, rfl⟩
  | cons c cs =>
    rw [scanExponent.eq_def] at h
    dsimp only at h
    split at h
    · next hc =>
      have hletter : c = 'e' ∨ c = 'E' := by simpa using hc
      split at h
      · obtain ⟨⟨ds, rest'⟩, hscan, hpair⟩ := map_eq_ok.mp h
        cases hpair
        obtain ⟨hds, rfl⟩ := scanDigits_sound hscan
        exact ⟨_, .plus hletter hds, rfl⟩
      · obtain ⟨⟨ds, rest'⟩, hscan, hpair⟩ := map_eq_ok.mp h
        cases hpair
        obtain ⟨hds, rfl⟩ := scanDigits_sound hscan
        exact ⟨_, .minus hletter hds, rfl⟩
      · obtain ⟨⟨ds, rest'⟩, hscan, hpair⟩ := map_eq_ok.mp h
        cases hpair
        obtain ⟨hds, rfl⟩ := scanDigits_sound hscan
        exact ⟨_, .unsigned hletter hds, rfl⟩
    · cases h
      exact ⟨[], .absent, rfl⟩

theorem scanExponent_complete {e : Option (Bool × List Char)} (ht : ExponentText e t)
    (hrest : EndsNumber rest) : scanExponent (t ++ rest) = .ok (e, rest) := by
  have hend : ∀ c ∈ rest.head?, isDigit c = false := fun c hc => (hrest c hc).1
  cases ht with
  | absent =>
    cases rest with
    | nil => rfl
    | cons c rest => simp [scanExponent, (hrest c rfl).2.2]
  | @unsigned e ds he hds =>
    have hscan := scanDigits_complete hds hend
    -- the first digit is no sign, so the third alternative is taken
    have hsign : ∀ d ∈ (ds ++ rest).head?, d ≠ '+' ∧ d ≠ '-' := by
      obtain ⟨hne, hall⟩ := hds
      cases ds with
      | nil => exact absurd rfl hne
      | cons d ds =>
        rintro _ ⟨⟩
        have hd := hall d List.mem_cons_self
        constructor
        · rintro rfl
          exact absurd hd (by decide)
        · rintro rfl
          exact absurd hd (by decide)
    rw [List.cons_append, scanExponent.eq_def]
    dsimp only
    rw [if_pos (by simpa using he)]
    split
    · next heq => exact absurd rfl (hsign _ (by rw [heq]; rfl)).1
    · next heq => exact absurd rfl (hsign _ (by rw [heq]; rfl)).2
    · rw [hscan]
      rfl
  | plus he hds =>
    have hscan := scanDigits_complete hds hend
    rw [List.cons_append, List.cons_append, scanExponent, if_pos (by simpa using he)]
    dsimp only
    rw [hscan]
    rfl
  | minus he hds =>
    have hscan := scanDigits_complete hds hend
    rw [List.cons_append, List.cons_append, scanExponent, if_pos (by simpa using he)]
    dsimp only
    rw [hscan]
    rfl

/-! ### Numerals and numbers -/

theorem scanNumeral_sound (h : scanNumeral cs = .ok (n, rest)) :
    ∃ t, NumeralText n t ∧ cs = t ++ rest := by
  obtain ⟨⟨whole, rest₁⟩, hwhole, h⟩ := bind_eq_ok.mp h
  obtain ⟨⟨fraction, rest₂⟩, hfraction, h⟩ := bind_eq_ok.mp h
  obtain ⟨⟨exponent, rest₃⟩, hexponent, h⟩ := bind_eq_ok.mp h
  cases h
  obtain ⟨hds, rfl⟩ := scanWhole_sound hwhole
  obtain ⟨f, hf, rfl⟩ := scanFraction_sound hfraction
  obtain ⟨e, he, rfl⟩ := scanExponent_sound hexponent
  exact ⟨whole ++ (f ++ e), .intro hds hf he, by simp⟩

/-- The first character of a fraction, if there is one. -/
theorem FractionText.head (h : FractionText ds t) : ∀ c ∈ t.head?, c = '.' := by
  cases h with
  | absent => exact nofun
  | present _ => rintro c ⟨⟩; rfl

/-- The first character of an exponent, if there is one. -/
theorem ExponentText.head {e : Option (Bool × List Char)} (h : ExponentText e t) :
    ∀ c ∈ t.head?, c = 'e' ∨ c = 'E' := by
  cases h with
  | absent => exact nofun
  | unsigned he _ => rintro c ⟨⟩; exact he
  | plus he _ => rintro c ⟨⟩; exact he
  | minus he _ => rintro c ⟨⟩; exact he

/-- What follows an optional part starts with that part, or as the text behind it does. -/
theorem mem_head?_append {c : Char} {s t : List Char} (h : c ∈ (s ++ t).head?) :
    c ∈ s.head? ∨ s = [] ∧ c ∈ t.head? := by
  cases s with
  | nil => exact .inr ⟨rfl, h⟩
  | cons d s => exact .inl h

theorem scanNumeral_complete (ht : NumeralText n t) (hrest : EndsNumber rest) :
    scanNumeral (t ++ rest) = .ok (n, rest) := by
  obtain ⟨hwhole, hf, he⟩ := ht
  rename_i f e
  have hafterFraction : ∀ c ∈ (e ++ rest).head?, isDigit c = false ∧ c ≠ '.' := by
    intro c hc
    rcases mem_head?_append hc with hc | ⟨-, hc⟩
    · rcases he.head c hc with rfl | rfl <;> decide
    · exact ⟨(hrest c hc).1, (hrest c hc).2.1⟩
  have hafterWhole : ∀ c ∈ (f ++ (e ++ rest)).head?, isDigit c = false := by
    intro c hc
    rcases mem_head?_append hc with hc | ⟨-, hc⟩
    · rw [hf.head c hc]
      decide
    · exact (hafterFraction c hc).1
  rw [List.append_assoc, List.append_assoc, scanNumeral, scanWhole_complete hwhole hafterWhole]
  show (scanFraction (f ++ (e ++ rest)) >>= _) = _
  rw [scanFraction_complete hf hafterFraction]
  show (scanExponent (e ++ rest) >>= _) = _
  rw [scanExponent_complete he hrest]
  rfl

/-- A numeral starts with a digit. -/
theorem NumeralText.head (ht : NumeralText n t) : ∃ d s, t = d :: s ∧ isDigit d = true := by
  obtain ⟨⟨⟨hne, hall⟩, -⟩, -, -⟩ := ht
  cases hds : n.whole with
  | nil => exact absurd hds hne
  | cons d ds =>
    rw [hds] at hall
    exact ⟨d, _, rfl, hall d List.mem_cons_self⟩

theorem ne_minus_of_isDigit {d : Char} (h : isDigit d = true) : d ≠ '-' := by
  rintro rfl
  exact absurd h (by decide)

/-- The sign in front of a number, taken off. -/
theorem head?_eq_minus_of_isDigit {d : Char} {s : List Char} (h : isDigit d = true) :
    ((d :: s).head? == some '-') = false := by
  simpa using ne_minus_of_isDigit h

theorem skipNumber_sound (h : skipNumber cs = .ok rest) : ∃ t, IsNumber t ∧ cs = t ++ rest := by
  rw [skipNumber] at h
  split at h
  · next numeral rest' hscan =>
    cases h
    split at hscan
    · next hminus =>
      obtain ⟨t, ht, htail⟩ := scanNumeral_sound hscan
      cases cs with
      | nil => cases hminus
      | cons c cs =>
        have hc : c = '-' := by simpa using hminus
        exact ⟨'-' :: t, .minus ht, by rw [hc, List.cons_append]; exact congrArg _ htail⟩
    · obtain ⟨t, ht, htext⟩ := scanNumeral_sound hscan
      exact ⟨t, .unsigned ht, htext⟩
  · cases h

theorem skipNumber_complete (ht : IsNumber t) (hrest : EndsNumber rest) :
    skipNumber (t ++ rest) = .ok rest := by
  cases ht with
  | unsigned hnumeral =>
    have hscan := scanNumeral_complete hnumeral hrest
    obtain ⟨d, s, rfl, hd⟩ := hnumeral.head
    rw [List.cons_append] at hscan ⊢
    rw [skipNumber]
    simp only [head?_eq_minus_of_isDigit hd, hscan, Bool.false_eq_true, if_false]
  | minus hnumeral =>
    have hscan := scanNumeral_complete hnumeral hrest
    rw [List.cons_append, skipNumber]
    simp [hscan]

/-! ### One way to write a number -/

theorem isDigit_eq (c : Char) : isDigit c = c.isDigit := by
  simp [isDigit, Char.isDigit, Char.le_def]

theorem digitsValue_eq (ds : List Char) : digitsValue ds = Nat.ofDigitChars 10 ds 0 := by
  simp only [digitsValue, digitValue, Nat.ofDigitChars_eq_foldl, Nat.mul_comm]

theorem digitsValue_concat (ds : List Char) (d : Char) :
    digitsValue (ds ++ [d]) = 10 * digitsValue ds + digitValue d := by
  simp [digitsValue, Nat.mul_comm]

theorem digitChar_digitValue {d : Char} (h : isDigit d = true) :
    digitValue d < 10 ∧ Nat.digitChar (digitValue d) = d := by
  rw [isDigit_eq, Char.isDigit_iff_toNat] at h
  have hzero : '0'.toNat = 48 := rfl
  have hnine : '9'.toNat = 57 := rfl
  have hvalue : digitValue d = d.toNat - 48 := rfl
  have hlt : digitValue d < 10 := by omega
  refine ⟨hlt, Char.toNat_inj.mp ?_⟩
  rw [Nat.toNat_digitChar_of_lt_ten hlt]
  omega

/-- Digits that do not start with a zero stand for a positive number, written as they are. -/
theorem toDigits_digitsValue_of_head (hds : IsDigits ds) (hhead : ds.head? ≠ some '0') :
    0 < digitsValue ds ∧ Nat.toDigits 10 (digitsValue ds) = ds := by
  induction ds using List.reverseRecOn with
  | nil => exact absurd rfl hds.1
  | append_singleton ds d ih =>
    have hd := digitChar_digitValue (hds.2 d (by simp))
    rw [digitsValue_concat]
    cases ds with
    | nil =>
      -- a single digit other than zero
      have hne : digitValue d ≠ 0 := fun hzero => by
        rw [hzero] at hd
        exact hhead (congrArg some hd.2.symm)
      show 0 < 10 * 0 + digitValue d ∧ Nat.toDigits 10 (10 * 0 + digitValue d) = [d]
      rw [Nat.mul_zero, Nat.zero_add, Nat.toDigits_of_lt_base hd.1, hd.2]
      exact ⟨Nat.pos_of_ne_zero hne, rfl⟩
    | cons e es =>
      have hprefix := ih ⟨List.cons_ne_nil _ _, fun c hc => hds.2 c (List.mem_append_left _ hc)⟩
        hhead
      refine ⟨by omega, ?_⟩
      rw [← Nat.toDigits_append_toDigits (by decide) hprefix.1 hd.1, hprefix.2,
        Nat.toDigits_of_lt_base hd.1, hd.2]

/-- **A whole number is written in one way.** -/
theorem IsWhole.toDigits_digitsValue (h : IsWhole ds) : Nat.toDigits 10 (digitsValue ds) = ds := by
  by_cases hhead : ds.head? = some '0'
  · rw [h.2 hhead]
    rfl
  · exact (toDigits_digitsValue_of_head h.1 hhead).2

theorem IsWhole.eq_zero (h : IsWhole ds) (hzero : digitsValue ds = 0) : ds = ['0'] := by
  rw [← h.toDigits_digitsValue, hzero]
  rfl

/-- The usual digits of a number start with a zero only if the number is zero. -/
theorem eq_zero_of_head?_toDigits {k : Nat} (h : (Nat.toDigits 10 k).head? = some '0') : k = 0 := by
  induction k using Nat.strongRecOn with
  | ind k ih =>
    rw [Nat.toDigits_eq_if (by decide)] at h
    split at h
    · exact Nat.digitChar_eq_zero.mp (Option.some.inj h)
    · rw [List.head?_append_of_ne_nil _ Nat.toDigits_ne_nil] at h
      have hprefix := ih (k / 10) (by omega) h
      omega

/-- **The usual digits of a number are a whole number with its value.** -/
theorem isWhole_toDigits (k : Nat) :
    IsWhole (Nat.toDigits 10 k) ∧ digitsValue (Nat.toDigits 10 k) = k := by
  have hdigits : ∀ d ∈ Nat.toDigits 10 k, isDigit d = true := fun d hd => by
    rw [isDigit_eq]
    exact Nat.isDigit_of_mem_toDigits (by decide) (by decide) hd
  refine ⟨⟨⟨Nat.toDigits_ne_nil, hdigits⟩, fun hhead => ?_⟩, ?_⟩
  · rw [eq_zero_of_head?_toDigits hhead]
    rfl
  · rw [digitsValue_eq, Nat.ofDigitChars_ten_toDigits]

/-! ### Integers -/

/-- The number with an integer value. -/
def Number.ofInt : Int → Number
  | .ofNat n => .natural n
  | .negSucc n => .negative (n + 1)

/-- An integer as it is read: minus zero counts as a fractional number. -/
def IsInteger (t : List Char) (v : Int) : Prop :=
  IntegerLiteral t v ∧ t ≠ ['-', '0']

theorem Numeral.isWhole_iff : n.isWhole = true ↔ n.fraction = [] ∧ n.exponent = none := by
  simp [Numeral.isWhole]

/-- A numeral without fraction and exponent is written as its digits. -/
theorem NumeralText.eq_whole (ht : NumeralText n t) (hwhole : n.isWhole = true) :
    IsWhole n.whole ∧ t = n.whole := by
  obtain ⟨hf, he⟩ := Numeral.isWhole_iff.mp hwhole
  obtain ⟨hds, hfraction, hexponent⟩ := ht
  rw [hf] at hfraction
  rw [he] at hexponent
  cases hexponent
  cases hfraction with
  | absent => exact ⟨hds, by simp⟩
  | present hempty => exact absurd rfl hempty.1

/-- The digits of a whole number as a numeral. -/
theorem IsWhole.numeralText (h : IsWhole ds) : NumeralText ⟨ds, [], none⟩ ds := by
  simpa using NumeralText.intro (n := ⟨ds, [], none⟩) h .absent .absent

theorem Numeral.number?_natural (h : digitsValue ds < 2 ^ 64) :
    Numeral.number? ⟨ds, [], none⟩ false = some (.ofInt (digitsValue ds)) := by
  have hsize : digitsValue ds < UInt64.size := h
  simp [Numeral.number?, Numeral.isWhole, hsize, Number.ofInt]

theorem Numeral.number?_negative (hpos : 1 ≤ digitsValue ds) (h : digitsValue ds ≤ 2 ^ 63) :
    Numeral.number? ⟨ds, [], none⟩ true = some (.ofInt (-digitsValue ds)) := by
  have hnumber : Number.ofInt (-digitsValue ds) = .negative (digitsValue ds) := by
    obtain ⟨m, hm⟩ := Nat.exists_eq_add_of_le' hpos
    rw [hm]
    rfl
  simp [Numeral.number?, Numeral.isWhole, hnumber, hpos]
  exact h

theorem readNumber_unsigned {d : Char} {number : Number} (hd : isDigit d = true)
    (hscan : scanNumeral (d :: cs) = .ok (n, rest)) (hnumber : n.number? false = some number) :
    readNumber (d :: cs) = .ok (number, rest) := by
  rw [readNumber]
  simp only [head?_eq_minus_of_isDigit hd, Bool.false_eq_true, if_false]
  exact bind_eq_ok.mpr ⟨_, hscan, by simp only [hnumber]⟩

theorem readNumber_minus {number : Number} (hscan : scanNumeral cs = .ok (n, rest))
    (hnumber : n.number? true = some number) : readNumber ('-' :: cs) = .ok (number, rest) := by
  rw [readNumber]
  exact bind_eq_ok.mpr ⟨_, hscan, by simp [hnumber]⟩

theorem toList_toString_int (v : Int) : (toString v).toList =
    if 0 ≤ v then Nat.toDigits 10 v.toNat else '-' :: Nat.toDigits 10 (-v).toNat := by
  show v.repr.toList = _
  rw [Int.repr_eq_if]
  split
  · rw [Nat.repr_eq_ofList_toDigits, String.toList_ofList]
  · simp only [String.toList_append, Nat.repr_eq_ofList_toDigits, String.toList_ofList]
    rfl

/-- **The integers are written as usual.** -/
theorem isInteger_iff {v : Int} : IsInteger t v ↔ t = (toString v).toList := by
  rw [toList_toString_int]
  constructor
  · rintro ⟨hliteral, hzero⟩
    cases hliteral with
    | unsigned hds => rw [if_pos (by omega), Int.toNat_natCast, hds.toDigits_digitsValue]
    | @minus ds hds =>
      have hne : digitsValue ds ≠ 0 := fun h => hzero (congrArg _ (hds.eq_zero h))
      rw [if_neg (by omega), Int.neg_neg, Int.toNat_natCast, hds.toDigits_digitsValue]
  · rintro rfl
    split
    · next hnonneg =>
      obtain ⟨hwhole, hvalue⟩ := isWhole_toDigits v.toNat
      refine ⟨?_, fun heq => ?_⟩
      · have hliteral := IntegerLiteral.unsigned hwhole
        rwa [hvalue, Int.toNat_of_nonneg hnonneg] at hliteral
      · exact absurd (hwhole.1.2 '-' (by rw [heq]; exact List.mem_cons_self)) (by decide)
    · next hneg =>
      obtain ⟨hwhole, hvalue⟩ := isWhole_toDigits (-v).toNat
      refine ⟨?_, fun heq => ?_⟩
      · have hliteral := IntegerLiteral.minus hwhole
        rwa [hvalue, Int.toNat_of_nonneg (by omega), Int.neg_neg] at hliteral
      · rw [(List.cons.inj heq).2] at hvalue
        have hzero : digitsValue ['0'] = 0 := rfl
        omega

/-- **What was read as an integer is written as one.** -/
theorem readNumber_sound {number : Number} (h : readNumber cs = .ok (number, rest)) :
    number = .fractional ∨ ∃ v t, number = .ofInt v ∧ IsInteger t v ∧ cs = t ++ rest := by
  obtain ⟨⟨numeral, rest'⟩, hscan, h⟩ := bind_eq_ok.mp h
  obtain ⟨t, ht, htext⟩ := scanNumeral_sound hscan
  dsimp only at h
  split at h
  · next number' hnumber =>
    cases h
    rw [Numeral.number?] at hnumber
    split at hnumber
    · next hnatural =>
      simp only [Bool.and_eq_true, Bool.not_eq_true', decide_eq_true_eq] at hnatural
      obtain ⟨hds, rfl⟩ := ht.eq_whole hnatural.1.1
      cases hnumber
      rw [hnatural.1.2, if_neg Bool.false_ne_true] at htext
      refine .inr ⟨digitsValue numeral.whole, numeral.whole, rfl, ⟨.unsigned hds, ?_⟩, htext⟩
      intro heq
      exact absurd (hds.1.2 '-' (by rw [heq]; exact List.mem_cons_self)) (by decide)
    · split at hnumber
      · next hnegative =>
        simp only [Bool.and_eq_true, decide_eq_true_eq] at hnegative
        obtain ⟨⟨⟨hwhole, hminus⟩, hpos⟩, -⟩ := hnegative
        obtain ⟨hds, rfl⟩ := ht.eq_whole hwhole
        cases hnumber
        rw [hminus, if_pos rfl] at htext
        refine .inr ⟨-digitsValue numeral.whole, '-' :: numeral.whole, ?_, ⟨.minus hds, ?_⟩, ?_⟩
        · obtain ⟨m, hm⟩ := Nat.exists_eq_add_of_le' hpos
          rw [hm]
          rfl
        · intro heq
          rw [(List.cons.inj heq).2] at hpos
          exact absurd hpos (by decide)
        · cases cs with
          | nil => cases hminus
          | cons c cs =>
            have hc : c = '-' := by simpa using hminus
            rw [hc, List.cons_append]
            exact congrArg _ htext
      · split at hnumber
        · cases hnumber
        · cases hnumber
          exact .inl rfl
  · cases h

/-- **An integer within 64 bits is read with its value.** -/
theorem readNumber_complete {v : Int} (ht : IsInteger t v) (hlow : -2 ^ 63 ≤ v) (hhigh : v < 2 ^ 64)
    (hrest : EndsNumber rest) : readNumber (t ++ rest) = .ok (.ofInt v, rest) := by
  obtain ⟨hliteral, hzero⟩ := ht
  cases hliteral with
  | unsigned hds =>
    have hscan := scanNumeral_complete hds.numeralText hrest
    obtain ⟨d, s, rfl, hd⟩ := hds.numeralText.head
    exact readNumber_unsigned hd hscan (Numeral.number?_natural (by omega))
  | @minus ds hds =>
    have hpos : 1 ≤ digitsValue ds := by
      by_contra hzeroValue
      exact hzero (congrArg _ (hds.eq_zero (by omega)))
    have hscan := scanNumeral_complete hds.numeralText hrest
    exact readNumber_minus hscan (Numeral.number?_negative hpos (by omega))

end CommandBridge.Json
