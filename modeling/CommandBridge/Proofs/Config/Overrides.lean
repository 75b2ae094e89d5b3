import CommandBridge.Proofs.Config.Fields

/-!
# Overrides are read as their language says

Main statement: `reads_readOverrides`.

The reader keeps a map and puts every override into it, so that the last one for a status is the one
that stays: `getElem?_foldl_insert`.  A status is read between its quotes, digit by digit, and the
only digits that give it are its own: `readCodeKey_sound`, `readCodeKey_complete`.
-/

namespace CommandBridge

open Json

variable {cs rest : List Char} {code : Int32}

/-! ### Keys -/

/-- A status that was read stands there in its own digits, up to the quote. -/
theorem readCodeKey_sound (h : readCodeKey cs = .ok (code, rest)) :
    cs = (toString code.toInt).toList ++ '"' :: rest := by
  cases cs with
  | nil => cases h
  | cons c cs =>
    rw [readCodeKey] at h
    split at h
    · obtain ⟨⟨number, rest'⟩, hnumber, hcode⟩ := bind_eq_ok.mp h
      dsimp only at hcode
      split at hcode
      · cases hcode
      · next code' hpick =>
        split at hcode
        · cases hcode
          rcases readNumber_sound hnumber with rfl | ⟨v, t, rfl, ht, htext⟩
          · cases hpick
          · rw [htext, isInteger_iff.mp ht, picks_int32.ofInt.mp hpick]
        · cases hcode
    · cases h

/-- **The digits of a status are read as the status.** -/
theorem readCodeKey_complete :
    readCodeKey ((toString code.toInt).toList ++ '"' :: rest) = .ok (code, rest) := by
  have hinteger : IsInteger (toString code.toInt).toList code.toInt := isInteger_iff.mpr rfl
  have hend : EndsNumber ('"' :: rest) := by
    rintro _ ⟨⟩
    decide
  have hnumber := readNumber_complete hinteger (picks_int32.low code) (picks_int32.high code) hend
  obtain ⟨c, s, htext, hstart⟩ := hinteger.1.isNumber.startsNumber
  rw [htext, List.cons_append] at hnumber ⊢
  rw [readCodeKey, if_pos hstart]
  refine bind_eq_ok.mpr ⟨_, hnumber, ?_⟩
  simp only [picks_int32.ofInt.mpr rfl]

/-! ### Members -/

/-- An override as its key and its value. -/
def OverrideMember (item : List Char) (entry : Int32 × String) : Prop :=
  ∃ key value, Member key value item ∧ OverrideText key value entry

/-- The map with one more override in it. -/
def addOverride (overrides : Std.ExtTreeMap Int32 String) (entry : Int32 × String) :
    Option (Std.ExtTreeMap Int32 String) :=
  some (overrides.insert entry.1 entry.2)

/-- What is read as an override is one, and is put into the map. -/
theorem soundMember_override : SoundMember readOverride OverrideMember addOverride := by
  intro cs rest m m' h
  obtain ⟨⟨code, rest₁⟩, hkey, h₁⟩ := bind_eq_ok.mp h
  obtain ⟨rest₂, hcolon, h₂⟩ := bind_eq_ok.mp h₁
  obtain ⟨⟨name, rest₃⟩, hname, hpair⟩ := bind_eq_ok.mp h₂
  cases hpair
  obtain ⟨b, hb, rfl⟩ := skipColon_sound hcolon
  obtain ⟨b', value, hb', hvalue, rfl⟩ := reads_readString.sound hname
  refine ⟨_, (code, name), ⟨_, value, .intro hb hb', rfl, hvalue⟩, rfl, ?_⟩
  simp [readCodeKey_sound hkey]

/-- An override is read, whatever the map holds. -/
theorem takesMember_override {item : List Char} {entry : Int32 × String}
    (h : OverrideMember item entry) : TakesMember readOverride addOverride item entry := by
  obtain ⟨_, value, hitem, rfl, hvalue⟩ := h
  cases hitem with
  | @intro b b' _ hb hb' =>
    refine ⟨(toString entry.1.toInt).toList ++ '"' :: (b ++ ':' :: (b' ++ value)), by simp, ?_⟩
    intro m m' rest hadd hrest
    cases hadd
    have hkey : readCodeKey ((toString entry.1.toInt).toList ++ '"' :: (b ++ ':' :: (b' ++ value)) ++
        rest) = .ok (entry.1, b ++ ':' :: (b' ++ (value ++ rest))) := by
      simpa using readCodeKey_complete
    refine bind_eq_ok.mpr ⟨_, hkey, bind_eq_ok.mpr ⟨_, skipColon_complete hb, ?_⟩⟩
    exact bind_eq_ok.mpr ⟨_, reads_readString.complete hb' hvalue hrest, rfl⟩

/-! ### The map -/

/-- **The last of the entries for a status stays.** -/
theorem getElem?_foldl_insert (entries : List (Int32 × String)) (code : Int32) :
    (entries.foldl (fun m entry => m.insert entry.1 entry.2)
      (∅ : Std.ExtTreeMap Int32 String))[code]? =
      (entries.reverse.find? (·.1 == code)).map (·.2) := by
  induction entries using List.reverseRecOn with
  | nil => exact Std.ExtTreeMap.getElem?_empty
  | append_singleton entries entry ih =>
    rw [List.foldl_append, List.reverse_append, List.foldl_cons, List.foldl_nil,
      Std.ExtTreeMap.getElem?_insert, ih]
    simp only [List.reverse_cons, List.reverse_nil, List.nil_append, List.singleton_append,
      List.find?_cons]
    by_cases hcode : entry.1 = code
    · simp [hcode]
    · simp [hcode, beq_eq_false_iff_ne.mpr hcode]

/-- Entries are put into the map one after the other. -/
theorem foldlM_addOverride {entries : List (Int32 × String)}
    {overrides : Std.ExtTreeMap Int32 String} : entries.foldlM addOverride ∅ = some overrides ↔
      ∀ code, overrides[code]? = (entries.reverse.find? (·.1 == code)).map (·.2) := by
  have hfold : entries.foldlM addOverride ∅ =
      some (entries.foldl (fun m entry => m.insert entry.1 entry.2) ∅) :=
    List.foldlM_pure
  rw [hfold, Option.some.injEq]
  constructor
  · rintro rfl code
    exact getElem?_foldl_insert entries code
  · intro h
    refine Std.ExtTreeMap.ext_getElem? fun code => ?_
    rw [getElem?_foldl_insert, h]

/-! ### Overrides -/

/-- **Overrides are read**, the last one for each status, and nothing else is. -/
theorem reads_readOverrides : Reads readOverrides OverridesText := by
  refine .of_front ?_ (fun cs => ?_) nofun ?_ ?_
  · rintro t overrides ⟨entries, ⟨items, ht, -⟩, -⟩
    exact ht.starts_object
  · rw [readOverrides, readOverrides, skipBlanks_skipBlanks]
  · intro c cs overrides rest hc hread
    rw [readOverrides, skipBlanks_cons hc] at hread
    dsimp only at hread
    split at hread
    · next hbracket =>
      obtain ⟨t, items, entries, ht, hitems, hfold, htext⟩ :=
        readMembers_sound soundMember_override hread
      exact ⟨t, ⟨entries, ⟨items, ht, hitems⟩, foldlM_addOverride.mp hfold⟩, hbracket ▸ htext⟩
    · cases hread
  · rintro t overrides rest ⟨entries, ⟨items, ht, hitems⟩, hlookup⟩ hrest
    have htakes : List.Forall₂ (TakesMember readOverride addOverride) items entries :=
      hitems.imp fun _ _ => takesMember_override
    have hfold := foldlM_addOverride.mpr hlookup
    have hfuel := ht.length_lt
    obtain ⟨body, rfl⟩ := ht.exists_cons
    rw [List.cons_append, readOverrides, skipBlanks_cons (by decide)]
    refine readMembers_complete htakes hfold ht ?_
    simp only [List.length_cons, List.length_append] at hfuel ⊢
    omega

end CommandBridge
