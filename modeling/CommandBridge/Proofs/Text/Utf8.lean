import CommandBridge.Text.Utf8
import Mathlib.Data.List.Basic

/-!
# Reading what was written in UTF-8

The encoder writes a character as one to four bytes.  The decoder goes through them one at a time,
and what it knows in between is a `Pending`: the bits so far and an interval for the next byte.

* `Utf8.first_of_ascii`, `first_of_two`, `first_of_three`, `first_of_four`, `next_of_mem` — the
  first byte of a character and a further one, in numbers;
* `Utf8.decodeFrom_char` — the bytes of one character are read as that character;
* `Utf8.decode_encode` — so a text is read back;
* `Utf8.takeWhile_encode` — zero bytes stand where the text has zero characters;
* `Utf8.Pending.IsProper` — every way to go on leads to a character, and not to the zero character;
* `Utf8.zero_not_mem_decodeFrom` — so the zero character is only read from a zero byte.
-/

namespace CommandBridge.Utf8

/-! ### One byte in numbers -/

theorem first_of_ascii : ∀ n, n < 0x80 → first (UInt8.ofNat n) = .done (Char.ofNat n) := by
  decide +kernel

theorem first_of_two : ∀ n, n < 0xE0 → 0xC2 ≤ n →
    first (UInt8.ofNat n) = .more ⟨0, 0x80, 0xBF, n - 0xC0⟩ := by
  decide +kernel

/-- Some first bytes of three leave out over-long forms or surrogates. -/
theorem first_of_three : ∀ n, n < 0xF0 → 0xE0 ≤ n → first (UInt8.ofNat n) =
    .more ⟨1, if n = 0xE0 then 0xA0 else 0x80, if n = 0xED then 0x9F else 0xBF, n - 0xE0⟩ := by
  decide +kernel

/-- Some first bytes of four leave out over-long forms or codes that are too large. -/
theorem first_of_four : ∀ n, n < 0xF5 → 0xF0 ≤ n → first (UInt8.ofNat n) =
    .more ⟨2, if n = 0xF0 then 0x90 else 0x80, if n = 0xF4 then 0x8F else 0xBF, n - 0xF0⟩ := by
  decide +kernel

theorem toNat_ofNat {n : Nat} (h : n < 256) : (UInt8.ofNat n).toNat = n := by
  rw [UInt8.toNat_ofNat', Nat.mod_eq_of_lt h]

/-- A byte in the interval brings six more bits. -/
theorem next_of_mem {p : Pending} {n : Nat} (hn : n < 256) (hlow : p.low.toNat ≤ n)
    (hhigh : n ≤ p.high.toNat) : next p (UInt8.ofNat n) = match p.owed with
      | 0 => .done (Char.ofNat (p.bits * 64 + (n - 0x80)))
      | owed + 1 => .more ⟨owed, 0x80, 0xBF, p.bits * 64 + (n - 0x80)⟩ := by
  obtain ⟨owed, low, high, bits⟩ := p
  have hmem : low ≤ UInt8.ofNat n ∧ UInt8.ofNat n ≤ high := by
    rw [UInt8.le_iff_toNat_le, UInt8.le_iff_toNat_le, toNat_ofNat hn]
    exact ⟨hlow, hhigh⟩
  cases owed with
  | zero => simp only [next, if_pos hmem, toNat_ofNat hn]
  | succ owed => simp only [next, if_pos hmem, toNat_ofNat hn]

/-! ### One character -/

section Characters

variable {n : Nat} {p q : Pending} {c : Char}

theorem decodeFrom_done (h : first (UInt8.ofNat n) = .done c) (rest : List UInt8) :
    decodeFrom none (UInt8.ofNat n :: rest) = some c :: decodeFrom none rest := by
  rw [decodeFrom, h]

theorem decodeFrom_begun (h : first (UInt8.ofNat n) = .more p) (rest : List UInt8) :
    decodeFrom none (UInt8.ofNat n :: rest) = decodeFrom (some p) rest := by
  rw [decodeFrom, h]

/-- A further byte that is not the last one. -/
theorem decodeFrom_more {owed : Nat} (howed : p.owed = owed + 1) (hn : n < 256)
    (hlow : p.low.toNat ≤ n) (hhigh : n ≤ p.high.toNat) (rest : List UInt8) :
    decodeFrom (some p) (UInt8.ofNat n :: rest) =
      decodeFrom (some ⟨owed, 0x80, 0xBF, p.bits * 64 + (n - 0x80)⟩) rest := by
  have hnext := next_of_mem hn hlow hhigh
  rw [howed] at hnext
  rw [decodeFrom, hnext]

/-- The last byte. -/
theorem decodeFrom_last (howed : p.owed = 0) (hn : n < 256) (hlow : p.low.toNat ≤ n)
    (hhigh : n ≤ p.high.toNat) (rest : List UInt8) :
    decodeFrom (some p) (UInt8.ofNat n :: rest) =
      some (Char.ofNat (p.bits * 64 + (n - 0x80))) :: decodeFrom none rest := by
  have hnext := next_of_mem hn hlow hhigh
  rw [howed] at hnext
  rw [decodeFrom, hnext]

/-- Two bytes. -/
theorem decodeFrom_two {a b : Nat} (ha : 0xC2 ≤ a) (ha' : a < 0xE0) (hb : 0x80 ≤ b)
    (hb' : b ≤ 0xBF) (rest : List UInt8) :
    decodeFrom none (UInt8.ofNat a :: UInt8.ofNat b :: rest) =
      some (Char.ofNat ((a - 0xC0) * 64 + (b - 0x80))) :: decodeFrom none rest := by
  rw [decodeFrom_begun (first_of_two a ha' ha), decodeFrom_last rfl (by omega) hb hb']

/-- Three bytes. -/
theorem decodeFrom_three {a b c : Nat} (ha : 0xE0 ≤ a) (ha' : a < 0xF0) (hb : 0x80 ≤ b)
    (hb' : b ≤ 0xBF) (hlow : a = 0xE0 → 0xA0 ≤ b) (hhigh : a = 0xED → b ≤ 0x9F) (hc : 0x80 ≤ c)
    (hc' : c ≤ 0xBF) (rest : List UInt8) :
    decodeFrom none (UInt8.ofNat a :: UInt8.ofNat b :: UInt8.ofNat c :: rest) =
      some (Char.ofNat (((a - 0xE0) * 64 + (b - 0x80)) * 64 + (c - 0x80))) ::
        decodeFrom none rest := by
  have hlow' : (if a = 0xE0 then (0xA0 : UInt8) else 0x80).toNat ≤ b := by
    split
    · next h => exact hlow h
    · exact hb
  have hhigh' : b ≤ (if a = 0xED then (0x9F : UInt8) else 0xBF).toNat := by
    split
    · next h => exact hhigh h
    · exact hb'
  rw [decodeFrom_begun (first_of_three a ha' ha), decodeFrom_more rfl (by omega) hlow' hhigh',
    decodeFrom_last rfl (by omega) hc hc']

/-- Four bytes. -/
theorem decodeFrom_four {a b c d : Nat} (ha : 0xF0 ≤ a) (ha' : a < 0xF5) (hb : 0x80 ≤ b)
    (hb' : b ≤ 0xBF) (hlow : a = 0xF0 → 0x90 ≤ b) (hhigh : a = 0xF4 → b ≤ 0x8F) (hc : 0x80 ≤ c)
    (hc' : c ≤ 0xBF) (hd : 0x80 ≤ d) (hd' : d ≤ 0xBF) (rest : List UInt8) :
    decodeFrom none (UInt8.ofNat a :: UInt8.ofNat b :: UInt8.ofNat c :: UInt8.ofNat d :: rest) =
      some (Char.ofNat ((((a - 0xF0) * 64 + (b - 0x80)) * 64 + (c - 0x80)) * 64 + (d - 0x80))) ::
        decodeFrom none rest := by
  have hlow' : (if a = 0xF0 then (0x90 : UInt8) else 0x80).toNat ≤ b := by
    split
    · next h => exact hlow h
    · exact hb
  have hhigh' : b ≤ (if a = 0xF4 then (0x8F : UInt8) else 0xBF).toNat := by
    split
    · next h => exact hhigh h
    · exact hb'
  rw [decodeFrom_begun (first_of_four a ha' ha), decodeFrom_more rfl (by omega) hlow' hhigh',
    decodeFrom_more rfl (by omega) hc hc', decodeFrom_last rfl (by omega) hd hd']

end Characters

/-- The bytes of a character, by its number. -/
theorem utf8EncodeChar_eq (c : Char) : String.utf8EncodeChar c =
    if c.toNat ≤ 127 then [UInt8.ofNat c.toNat]
    else if c.toNat ≤ 2047 then
      [UInt8.ofNat (c.toNat / 64 % 32 + 192), UInt8.ofNat (c.toNat % 64 + 128)]
    else if c.toNat ≤ 65535 then
      [UInt8.ofNat (c.toNat / 4096 % 16 + 224), UInt8.ofNat (c.toNat / 64 % 64 + 128),
        UInt8.ofNat (c.toNat % 64 + 128)]
    else
      [UInt8.ofNat (c.toNat / 262144 % 8 + 240), UInt8.ofNat (c.toNat / 4096 % 64 + 128),
        UInt8.ofNat (c.toNat / 64 % 64 + 128), UInt8.ofNat (c.toNat % 64 + 128)] := rfl

/-- **The bytes of a character are read as that character.** -/
theorem decodeFrom_char (c : Char) (rest : List UInt8) :
    decodeFrom none (String.utf8EncodeChar c ++ rest) = some c :: decodeFrom none rest := by
  have hvalid : c.toNat < 0xD800 ∨ 0xDFFF < c.toNat ∧ c.toNat < 0x110000 := c.valid
  have hchar : Char.ofNat c.toNat = c := Char.ofNat_toNat c
  rw [utf8EncodeChar_eq]
  generalize c.toNat = v at hvalid hchar
  split
  · rw [List.singleton_append, decodeFrom_done (first_of_ascii v (by omega)), hchar]
  split
  · have hbits : (v / 64 % 32 + 192 - 0xC0) * 64 + (v % 64 + 128 - 0x80) = v := by omega
    rw [List.cons_append, List.singleton_append,
      decodeFrom_two (by omega) (by omega) (by omega) (by omega), hbits, hchar]
  split
  · have hbits : ((v / 4096 % 16 + 224 - 0xE0) * 64 + (v / 64 % 64 + 128 - 0x80)) * 64 +
        (v % 64 + 128 - 0x80) = v := by omega
    rw [List.cons_append, List.cons_append, List.singleton_append,
      decodeFrom_three (by omega) (by omega) (by omega) (by omega) (by omega) (by omega)
        (by omega) (by omega), hbits, hchar]
  · have hbits : (((v / 262144 % 8 + 240 - 0xF0) * 64 + (v / 4096 % 64 + 128 - 0x80)) * 64 +
        (v / 64 % 64 + 128 - 0x80)) * 64 + (v % 64 + 128 - 0x80) = v := by omega
    rw [List.cons_append, List.cons_append, List.cons_append, List.singleton_append,
      decodeFrom_four (by omega) (by omega) (by omega) (by omega) (by omega) (by omega)
        (by omega) (by omega) (by omega) (by omega), hbits, hchar]

/-! ### A text -/

theorem decode_flatMap (cs : List Char) :
    decode (cs.flatMap String.utf8EncodeChar) = cs.map some := by
  induction cs with
  | nil => rfl
  | cons c cs ih =>
    rw [List.flatMap_cons, decode, decodeFrom_char, List.map_cons, ← ih]
    rfl

/-- **A text is read back** from its bytes, and no piece of them is ill-formed. -/
theorem decode_encode (s : String) : decode (encode s) = s.toList.map some :=
  decode_flatMap s.toList

theorem decodeLossy_encode (s : String) : decodeLossy (encode s) = s := by
  rw [decodeLossy, decode_encode, List.map_map]
  have hsame : ((fun x : Option Char => x.getD replacement) ∘ some) = id := rfl
  rw [hsame, List.map_id, String.ofList_toList]

/-- The bytes are those of the text itself. -/
theorem toByteArray_encode (s : String) : (encode s).toByteArray = s.toByteArray := by
  rw [← String.utf8Encode_toList]
  rfl

/-- Well-formed bytes are read as the text that has them. -/
theorem toByteArray_decodeLossy {bytes : List UInt8} (h : bytes.toByteArray.IsValidUTF8) :
    (decodeLossy bytes).toByteArray = bytes.toByteArray := by
  obtain ⟨cs, hcs⟩ := h
  have hencode : encode (String.ofList cs) = bytes := by
    rw [← List.toByteArray_inj, toByteArray_encode, String.toByteArray_ofList, hcs]
  rw [← hencode, decodeLossy_encode, toByteArray_encode]

theorem length_encode (s : String) : (encode s).length = s.utf8ByteSize := by
  rw [← List.size_toByteArray, toByteArray_encode, String.size_toByteArray]

/-! ### The zero character -/

theorem ofNat_ne_zero {n : Nat} (hpos : 0 < n) (hn : n < 256) : UInt8.ofNat n ≠ 0 := by
  intro hzero
  have hnat := congrArg UInt8.toNat hzero
  rw [toNat_ofNat hn] at hnat
  exact absurd hnat (Nat.ne_of_gt hpos)

/-- Only the zero character is written with a zero byte. -/
theorem eq_of_zero_mem {c : Char} (h : 0 ∈ String.utf8EncodeChar c) : c = '\x00' := by
  have hvalid : c.toNat < 0xD800 ∨ 0xDFFF < c.toNat ∧ c.toNat < 0x110000 := c.valid
  have hchar : c.toNat = 0 → c = '\x00' := by
    intro hzero
    rw [← Char.ofNat_toNat c, hzero]
  rw [utf8EncodeChar_eq] at h
  generalize c.toNat = v at h hvalid hchar
  by_cases hzero : v = 0
  · exact hchar hzero
  · -- every byte is the sum of something positive and a few bits
    exfalso
    split at h
    · rw [List.mem_singleton] at h
      exact ofNat_ne_zero (by omega) (by omega) h.symm
    split at h
    · simp only [List.mem_cons, List.not_mem_nil, or_false] at h
      rcases h with h | h <;> exact ofNat_ne_zero (by omega) (by omega) h.symm
    split at h
    · simp only [List.mem_cons, List.not_mem_nil, or_false] at h
      rcases h with h | h | h <;> exact ofNat_ne_zero (by omega) (by omega) h.symm
    · simp only [List.mem_cons, List.not_mem_nil, or_false] at h
      rcases h with h | h | h | h <;> exact ofNat_ne_zero (by omega) (by omega) h.symm

/-- **A text has a zero byte exactly if it has the zero character.** -/
theorem zero_mem_encode {s : String} : 0 ∈ encode s ↔ '\x00' ∈ s.toList := by
  rw [encode, List.mem_flatMap]
  constructor
  · rintro ⟨c, hc, hzero⟩
    rw [← eq_of_zero_mem hzero]
    exact hc
  · intro h
    exact ⟨_, h, by decide⟩

/-- The bytes before the first zero byte are those of the text before the first zero character. -/
theorem takeWhile_encode (s : String) : (encode s).takeWhile (· != 0) =
    encode (String.ofList (s.toList.takeWhile (· != '\x00'))) := by
  rw [encode, encode, String.toList_ofList]
  induction s.toList with
  | nil => rfl
  | cons c cs ih =>
    by_cases hc : c = '\x00'
    · rw [hc]
      rfl
    · have hbytes : ∀ b ∈ String.utf8EncodeChar c, (b != 0) = true := by
        intro b hb
        rw [bne_iff_ne]
        intro hzero
        exact hc (eq_of_zero_mem (hzero ▸ hb))
      have hkeep : (c :: cs).takeWhile (· != '\x00') = c :: cs.takeWhile (· != '\x00') :=
        List.takeWhile_cons_of_pos (bne_iff_ne.mpr hc)
      rw [hkeep, List.flatMap_cons, List.flatMap_cons, List.takeWhile_append_of_pos hbytes, ih]

/-- How many numbers are left open by this many bytes. -/
def span : Nat → Nat
  | 0 => 1
  | n + 1 => span n * 64

theorem span_pos (n : Nat) : 0 < span n := by
  induction n with
  | zero => exact Nat.one_pos
  | succ n ih => exact Nat.mul_pos ih (by decide)

/-- The least number that the character begun can have. -/
def Pending.least (p : Pending) : Nat :=
  (p.bits * 64 + (p.low.toNat - 0x80)) * span p.owed

/-- The greatest number that the character begun can have. -/
def Pending.greatest (p : Pending) : Nat :=
  (p.bits * 64 + (p.high.toNat - 0x80)) * span p.owed + (span p.owed - 1)

/-- Every way to go on leads to the number of a character, and not to zero. -/
def Pending.IsProper (p : Pending) : Prop :=
  0x80 ≤ p.low.toNat ∧ p.high.toNat ≤ 0xBF ∧ 0 < p.least ∧
    (p.greatest < 0xD800 ∨ 0xDFFF < p.least ∧ p.greatest < 0x110000)

instance (p : Pending) : Decidable p.IsProper :=
  inferInstanceAs (Decidable (_ ∧ _ ∧ _ ∧ _))

/-- The outcome is not the zero character, and does not lead to it. -/
def Outcome.IsProper : Outcome → Prop
  | .done c => c ≠ '\x00'
  | .more p => p.IsProper
  | .illFormed => True

instance : (o : Outcome) → Decidable o.IsProper
  | .done c => inferInstanceAs (Decidable (c ≠ '\x00'))
  | .more p => inferInstanceAs (Decidable p.IsProper)
  | .illFormed => inferInstanceAs (Decidable True)

theorem isProper_first_ofNat : ∀ n, n < 256 → n ≠ 0 → (first (UInt8.ofNat n)).IsProper := by
  decide +kernel

/-- A byte other than zero begins a character other than zero. -/
theorem isProper_first {b : UInt8} (hb : b ≠ 0) : (first b).IsProper := by
  have hnat : b.toNat ≠ 0 := by
    intro hzero
    exact hb (UInt8.toNat_inj.mp hzero)
  have hproper := isProper_first_ofNat b.toNat b.toNat_lt hnat
  rwa [UInt8.ofNat_toNat] at hproper

/-- **A further byte narrows the numbers that are left.** -/
theorem Pending.IsProper.next {p : Pending} (h : p.IsProper) (b : UInt8) :
    (next p b).IsProper := by
  obtain ⟨owed, low, high, bits⟩ := p
  obtain ⟨hlow, hhigh, hpos, hvalid⟩ := h
  unfold Utf8.next
  split
  · next hmem =>
    obtain ⟨hle, hge⟩ := hmem
    rw [UInt8.le_iff_toNat_le] at hle hge
    simp only [Pending.least, Pending.greatest] at hlow hhigh hpos hvalid hle hge
    cases owed with
    | zero =>
      simp only [span, Nat.mul_one, Nat.sub_self, Nat.add_zero] at hpos hvalid
      -- the number lies between the least and the greatest
      have hnumber : (bits * 64 + (b.toNat - 0x80)).isValidChar := by
        show _ < 0xD800 ∨ 0xDFFF < _ ∧ _ < 0x110000
        omega
      intro hzero
      have hnat := congrArg Char.toNat hzero
      rw [Char.ofNat, dif_pos hnumber] at hnat
      have hzero' : bits * 64 + (b.toNat - 0x80) = 0 := hnat
      omega
    | succ owed =>
      rw [span] at hpos hvalid
      have hspan := span_pos owed
      have hleast : (bits * 64 + (low.toNat - 0x80)) * (span owed * 64) ≤
          (bits * 64 + (b.toNat - 0x80)) * (span owed * 64) :=
        Nat.mul_le_mul_right _ (by omega)
      have hgreatest : (bits * 64 + (b.toNat - 0x80)) * (span owed * 64) ≤
          (bits * 64 + (high.toNat - 0x80)) * (span owed * 64) :=
        Nat.mul_le_mul_right _ (by omega)
      have hnew : ∀ m, ((bits * 64 + (b.toNat - 0x80)) * 64 + m) * span owed =
          (bits * 64 + (b.toNat - 0x80)) * (span owed * 64) + m * span owed := by
        intro m
        rw [Nat.add_mul, Nat.mul_assoc, Nat.mul_comm 64]
      refine ⟨Nat.le_refl _, Nat.le_refl _, ?_, ?_⟩
      · simp only [Pending.least]
        have hfirst := hnew (UInt8.toNat 128 - 128)
        omega
      · simp only [Pending.least, Pending.greatest]
        have hlast := hnew (UInt8.toNat 191 - 128)
        have hfirst := hnew (UInt8.toNat 128 - 128)
        have h63 : (UInt8.toNat 191 - 128) * span owed = 63 * span owed := rfl
        omega
  · trivial

/-- A character begun, if there is one, leads to a character other than zero. -/
def BegunProper : Option Pending → Prop
  | none => True
  | some p => p.IsProper

/-- What a byte leads to, with the rest read after any proper start, or the byte read again. -/
theorem zero_not_mem_of_isProper {o : Outcome} (ho : o.IsProper) {rest : List UInt8}
    (hrest : ∀ begun, BegunProper begun → some '\x00' ∉ decodeFrom begun rest)
    {again : List (Option Char)} (hagain : some '\x00' ∉ again) :
    some '\x00' ∉ match o with
      | .done c => some c :: decodeFrom none rest
      | .more p => decodeFrom (some p) rest
      | .illFormed => none :: again := by
  cases o with
  | done c =>
    have hc : some '\x00' ≠ some c := fun h => ho (Option.some.inj h).symm
    exact List.not_mem_cons_of_ne_of_not_mem hc (hrest none trivial)
  | more p => exact hrest (some p) ho
  | illFormed => exact List.not_mem_cons_of_ne_of_not_mem nofun hagain

/-- **The zero character is only read from a zero byte.** -/
theorem zero_not_mem_decodeFrom {bytes : List UInt8} (hbytes : 0 ∉ bytes) (begun : Option Pending)
    (hbegun : BegunProper begun) : some '\x00' ∉ decodeFrom begun bytes := by
  induction bytes generalizing begun with
  | nil => cases begun <;> simp [decodeFrom]
  | cons b rest ih =>
    have hb : b ≠ 0 := fun h => hbytes (h ▸ List.mem_cons_self)
    have hrest := ih (fun h => hbytes (List.mem_cons_of_mem b h))
    have hfirst := zero_not_mem_of_isProper (isProper_first hb) hrest (hrest none trivial)
    cases begun with
    | none =>
      rw [decodeFrom]
      exact hfirst
    | some p =>
      -- a byte that cannot go on is read again, as a first one
      rw [decodeFrom]
      exact zero_not_mem_of_isProper (hbegun.next b) hrest hfirst

theorem zero_not_mem_decodeLossy {bytes : List UInt8} (h : 0 ∉ bytes) :
    '\x00' ∉ (decodeLossy bytes).toList := by
  rw [decodeLossy, String.toList_ofList, List.mem_map]
  rintro ⟨piece, hmem, hzero⟩
  cases piece with
  | none => exact absurd hzero (by decide)
  | some c =>
    have hc : c = '\x00' := hzero
    rw [hc] at hmem
    exact zero_not_mem_decodeFrom h none trivial hmem

end CommandBridge.Utf8
