import CommandBridge.Proofs.Config.Language

/-!
# Integers and fields are read as their language says

* `reads_readInt32`, `reads_readUInt32`, `reads_readUInt64` — integers of the three widths;
* `member_of_setOnce`, `setOnce_of_member` — a field that may be set only once;
* `FillsSlot` — a kind of field with a slot of its own, and what that means for its members;
* `foldlM_slots` — an object whose fields fill three slots.

The reader of an object keeps the fields read so far, each kind in a slot of its own.  A whole object
is read if there is one field at most of every kind: those of one kind, one after the other, are what
the slot holds in the end.
-/

namespace CommandBridge

open Json

variable {α : Type} {cs rest b t : List Char}

/-! ### Integers -/

/-- Words without a sign are picked by their size. -/
theorem picks_natural {pick? : Number → Option α} {size : Nat} {ofNat : Nat → α} {toNat : α → Nat}
    (hnatural : ∀ n, pick? (.natural n) = if n < size then some (ofNat n) else none)
    (hnegative : ∀ n, pick? (.negative n) = none) (hfractional : pick? .fractional = none)
    (hsize : size ≤ 2 ^ 64) (hlt : ∀ a, toNat a < size)
    (hofNat : ∀ n < size, toNat (ofNat n) = n) (htoNat : ∀ a, ofNat (toNat a) = a) :
    Picks pick? (fun a => (toNat a : Int)) where
  fractional := hfractional
  ofInt {v a} := by
    cases v with
    | ofNat n =>
      rw [Number.ofInt, hnatural]
      split
      · next hn =>
        rw [Option.some.injEq]
        constructor
        · rintro rfl
          exact congrArg Int.ofNat (hofNat n hn).symm
        · intro h
          rw [Int.ofNat.inj h, htoNat]
      · next hn =>
        refine ⟨fun h => (by cases h), fun h => absurd (hlt a) ?_⟩
        rw [← Int.ofNat.inj h]
        exact hn
    | negSucc n =>
      rw [Number.ofInt, hnegative]
      exact ⟨fun h => (by cases h), fun h => (by cases h)⟩
  low a := by omega
  high a := by
    have := hlt a
    omega

theorem picks_uint64 : Picks Number.toUInt64? (fun n => (n.toNat : Int)) :=
  picks_natural (fun _ => rfl) (fun _ => rfl) rfl (Nat.le_refl _) UInt64.toNat_lt_size
    (fun _ hn => UInt64.toNat_ofNat_of_lt' hn) (fun _ => UInt64.ofNat_toNat)

theorem picks_uint32 : Picks Number.toUInt32? (fun n => (n.toNat : Int)) :=
  picks_natural (fun _ => rfl) (fun _ => rfl) rfl (by decide) UInt32.toNat_lt_size
    (fun _ hn => UInt32.toNat_ofNat_of_lt' hn) (fun _ => UInt32.ofNat_toNat)

theorem picks_int32 : Picks Number.toInt32? Int32.toInt where
  fractional := rfl
  ofInt {v c} := by
    have hlow := c.le_toInt
    have hhigh := c.toInt_lt
    cases v with
    | ofNat m =>
      simp only [Number.ofInt, Number.toInt32?]
      have hbound : (1 <<< 31 : Nat) = 2 ^ 31 := rfl
      split
      · next hm =>
        have hvalue : (Int32.ofInt m).toInt = m := Int32.toInt_ofInt_of_le (by omega) (by omega)
        rw [Option.some.injEq]
        constructor
        · rintro rfl
          exact hvalue.symm
        · intro h
          exact Int32.toInt_inj.mp (hvalue.trans h)
      · next hm =>
        refine ⟨fun h => (by cases h), fun h => ?_⟩
        have : (m : Int) = c.toInt := h
        omega
    | negSucc m =>
      simp only [Number.ofInt, Number.toInt32?]
      have hbound : (1 <<< 31 : Nat) = 2 ^ 31 := rfl
      split
      · next hm =>
        have hvalue : (Int32.ofInt (-((m + 1 : Nat) : Int))).toInt = -((m + 1 : Nat) : Int) :=
          Int32.toInt_ofInt_of_le (by omega) (by omega)
        rw [Option.some.injEq]
        constructor
        · rintro rfl
          exact hvalue.symm
        · intro h
          exact Int32.toInt_inj.mp (hvalue.trans h)
      · next hm =>
        refine ⟨fun h => (by cases h), fun h => ?_⟩
        rw [Int.negSucc_eq] at h
        omega
  low c := by
    have := c.le_toInt
    omega
  high c := by
    have := c.toInt_lt
    omega

theorem reads_readInt32 : Reads readInt32 (fun t c => IsInteger t c.toInt) :=
  picks_int32.reads_readWhole

theorem reads_readUInt32 : Reads readUInt32 (fun t n => IsInteger t n.toNat) :=
  picks_uint32.reads_readWhole

theorem reads_readUInt64 : Reads readUInt64 (fun t n => IsInteger t n.toNat) :=
  picks_uint64.reads_readWhole

/-! ### Fields of objects -/

variable {P : List Char → α → Prop} {read : Reader α} {a : α} {old : Option α}

/-- A field that was set was not set before; with its key it is a member. -/
theorem member_of_setOnce {key : List Char} (h : Reads read P) (htext : '"' :: cs = key ++ b)
    (hset : setOnce old read b = .ok (a, rest)) :
    old = none ∧ ∃ item value, Member key value item ∧ P value a ∧ '"' :: cs = item ++ rest := by
  rw [setOnce.eq_def] at hset
  split at hset
  · cases hset
  · obtain ⟨rest', hcolon, hread⟩ := bind_eq_ok.mp hset
    obtain ⟨b', hb, rfl⟩ := skipColon_sound hcolon
    obtain ⟨b'', t, hb', ht, rfl⟩ := h.sound hread
    exact ⟨rfl, _, t, .intro hb hb', ht, by simp [htext]⟩

/-- A member is read by its key, and then by a field that was not set before. -/
theorem setOnce_of_member {key value item : List Char} {name : String} (h : Reads read P)
    (hkey : StringLiteral key name) (hitem : Member key value item) (hvalue : P value a) :
    ∃ tail, item = '"' :: tail ∧ ∀ rest, Stops rest →
      ∃ rest', readText (tail ++ rest) = .ok (name, rest') ∧
        setOnce none read rest' = .ok (a, rest) := by
  cases hitem with
  | @intro b b' _ hb hb' =>
    obtain ⟨body, rfl, hread⟩ := readText_complete hkey
    refine ⟨body ++ (b ++ ':' :: (b' ++ value)), rfl, fun rest hrest => ?_⟩
    refine ⟨b ++ ':' :: (b' ++ (value ++ rest)), by simpa using hread _, ?_⟩
    exact bind_eq_ok.mpr ⟨_, skipColon_complete hb, h.complete hb' hvalue hrest⟩

/-! ### Slots

The reader of an object has a slot for each kind of field and never fills one twice. -/

/-- The slot after a field that holds `new`, or holds nothing for this slot. -/
def fill : Option α → Option α → Option (Option α)
  | old, none => some old
  | none, some a => some (some a)
  | some _, some _ => none

theorem fill_some_eq_some {a : α} {o : Option α} :
    fill old (some a) = some o ↔ old = none ∧ o = some a := by
  cases old <;> simp [fill, eq_comm]

theorem fill_none_eq_some {o : Option α} : fill old none = some o ↔ o = old := by
  simp [fill, eq_comm]

/-- A slot and the fields that come later hold one value at most. -/
theorem exists_fill_iff {old new last : Option α} {later : List α} :
    (∃ o, fill old new = some o ∧ o.toList ++ later = last.toList) ↔
      old.toList ++ (new.toList ++ later) = last.toList := by
  cases new with
  | none => simp [fill]
  | some a =>
    cases old with
    | none => simp [fill]
    | some b =>
      refine ⟨nofun, fun h => ?_⟩
      have hlength := congrArg List.length h
      have hle : last.toList.length ≤ 1 := by cases last <;> simp
      simp only [Option.toList_some, List.length_append, List.length_cons, List.length_nil] at hlength
      omega

theorem filterMap_cons_toList {μ : Type} (get : μ → Option α) (m : μ) (ms : List μ) :
    (m :: ms).filterMap get = (get m).toList ++ ms.filterMap get := by
  rw [List.filterMap_cons]
  cases get m <;> rfl

theorem toList_injective {o o' : Option α} (h : o.toList = o'.toList) : o = o' := by
  cases o <;> cases o' <;> simp_all

/-- **Three slots are filled by a whole object** if there is one value at most for each. -/
theorem foldlM_slots {σ μ β γ : Type} {add : σ → μ → Option σ} {slot₁ : σ → Option α}
    {slot₂ : σ → Option β} {slot₃ : σ → Option γ} {get₁ : μ → Option α} {get₂ : μ → Option β}
    {get₃ : μ → Option γ}
    (hadd : ∀ s m s', add s m = some s' ↔ fill (slot₁ s) (get₁ m) = some (slot₁ s') ∧
      fill (slot₂ s) (get₂ m) = some (slot₂ s') ∧ fill (slot₃ s) (get₃ m) = some (slot₃ s'))
    (hmake : ∀ a b c, ∃ s, slot₁ s = a ∧ slot₂ s = b ∧ slot₃ s = c)
    (hext : ∀ s s', slot₁ s = slot₁ s' → slot₂ s = slot₂ s' → slot₃ s = slot₃ s' → s = s')
    {ms : List μ} {s s' : σ} :
    ms.foldlM add s = some s' ↔
      (slot₁ s).toList ++ ms.filterMap get₁ = (slot₁ s').toList ∧
      (slot₂ s).toList ++ ms.filterMap get₂ = (slot₂ s').toList ∧
      (slot₃ s).toList ++ ms.filterMap get₃ = (slot₃ s').toList := by
  induction ms generalizing s with
  | nil =>
    simp only [List.filterMap_nil, List.append_nil]
    constructor
    · rintro ⟨⟩
      exact ⟨rfl, rfl, rfl⟩
    · rintro ⟨h₁, h₂, h₃⟩
      exact congrArg some
        (hext s s' (toList_injective h₁) (toList_injective h₂) (toList_injective h₃))
  | cons m ms ih =>
    rw [foldlM_cons_eq_some, filterMap_cons_toList, filterMap_cons_toList, filterMap_cons_toList,
      ← exists_fill_iff, ← exists_fill_iff, ← exists_fill_iff]
    constructor
    · rintro ⟨t, hstep, hlater⟩
      obtain ⟨h₁, h₂, h₃⟩ := (hadd s m t).mp hstep
      obtain ⟨k₁, k₂, k₃⟩ := ih.mp hlater
      exact ⟨⟨_, h₁, k₁⟩, ⟨_, h₂, k₂⟩, ⟨_, h₃, k₃⟩⟩
    · rintro ⟨⟨a, h₁, k₁⟩, ⟨b, h₂, k₂⟩, ⟨c, h₃, k₃⟩⟩
      obtain ⟨t, rfl, rfl, rfl⟩ := hmake a b c
      exact ⟨t, (hadd s m t).mpr ⟨h₁, h₂, h₃⟩, ih.mpr ⟨k₁, k₂, k₃⟩⟩

/-- Members with one name fill one slot: each is read into a slot that is empty, and is kept as the
field that it is. -/
structure FillsSlot {σ μ : Type} (member : σ → Reader σ) (add : σ → μ → Option σ) (name : String)
    (slot : σ → Option α) (put : σ → α → σ) (field : α → μ) (read : Reader α) : Prop where
  /-- Behind its name, the value is read. -/
  member_eq : ∀ s {cs rest}, readText cs = .ok (name, rest) →
    member s cs = do
      let (a, rest) ← setOnce (slot s) read rest
      .ok (put s a, rest)
  /-- The field is kept if there was none before. -/
  add_eq : ∀ {s a s'}, add s (field a) = some s' ↔ slot s = none ∧ s' = put s a

namespace FillsSlot

variable {σ μ : Type} {member : σ → Reader σ} {add : σ → μ → Option σ} {name : String}
  {slot : σ → Option α} {put : σ → α → σ} {field : α → μ} {s s' : σ}

/-- What is read under the name is a member, and is kept. -/
theorem sound (h : FillsSlot member add name slot put field read) (hread : Reads read P)
    (hname : readText cs = .ok (name, b)) (hmember : member s cs = .ok (s', rest)) :
    ∃ item key value a, Member key value item ∧ StringLiteral key name ∧ P value a ∧
      add s (field a) = some s' ∧ '"' :: cs = item ++ rest := by
  obtain ⟨key, hkey, htext⟩ := readText_sound hname
  rw [h.member_eq s hname] at hmember
  obtain ⟨⟨a, rest'⟩, hset, hpair⟩ := bind_eq_ok.mp hmember
  cases hpair
  obtain ⟨hold, item, value, hitem, hvalue, htext⟩ := member_of_setOnce hread htext hset
  exact ⟨item, key, value, a, hitem, hkey, hvalue, h.add_eq.mpr ⟨hold, rfl⟩, htext⟩

/-- A member with the name is read, wherever there was none before. -/
theorem takes (h : FillsSlot member add name slot put field read) (hread : Reads read P)
    {key value item : List Char} (hkey : StringLiteral key name) (hitem : Member key value item)
    (hvalue : P value a) : TakesMember member add item (field a) := by
  obtain ⟨tail, rfl, htail⟩ := setOnce_of_member hread hkey hitem hvalue
  refine ⟨tail, rfl, fun s s' rest hadd hrest => ?_⟩
  obtain ⟨hold, rfl⟩ := h.add_eq.mp hadd
  obtain ⟨rest', hname, hset⟩ := htail rest hrest
  rw [h.member_eq s hname, hold]
  exact bind_eq_ok.mpr ⟨_, hset, rfl⟩

end FillsSlot

end CommandBridge
