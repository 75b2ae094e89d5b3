import CommandBridge.Proofs.Config.Fields

/-!
# Parameter ranges are read as their language says

Main statement: `reads_readRange`.

`RangeFields.add` is what a field of an object does to the fields before it, and
`RangeFields.foldlM_add_range` says when the fields of a whole object make a range: each of the three
comes once.
-/

namespace CommandBridge

open Json

variable {α : Type} {cs rest b t : List Char} {a : α} {P : List Char → α → Prop} {read : Reader α}

/-! ### Fields -/

namespace RangeFields

/-- One more field, if none of its kind came before. -/
def add (fields : RangeFields) (field : RangeField) : Option RangeFields := do
  some ⟨← fill fields.firstCode field.firstCode?, ← fill fields.lastCode field.lastCode?,
    ← fill fields.firstIndex field.firstIndex?⟩

theorem add_eq_some (s : RangeFields) (field : RangeField) (s' : RangeFields) :
    s.add field = some s' ↔ fill s.firstCode field.firstCode? = some s'.firstCode ∧
      fill s.lastCode field.lastCode? = some s'.lastCode ∧
      fill s.firstIndex field.firstIndex? = some s'.firstIndex := by
  obtain ⟨firstCode, lastCode, firstIndex⟩ := s'
  simp only [add, bind, Option.bind_eq_some_iff, Option.some.injEq, RangeFields.mk.injEq]
  constructor
  · rintro ⟨a, ha, b, hb, c, hc, rfl, rfl, rfl⟩
    exact ⟨ha, hb, hc⟩
  · rintro ⟨ha, hb, hc⟩
    exact ⟨_, ha, _, hb, _, hc, rfl, rfl, rfl⟩

theorem range?_eq_some {s : RangeFields} {r : ParameterRange} : s.range? = some r ↔
    s = ⟨some r.firstCode, some r.lastCode, some r.firstIndex⟩ := by
  obtain ⟨firstCode, lastCode, firstIndex⟩ := s
  obtain ⟨first, last, index⟩ := r
  cases firstCode <;> cases lastCode <;> cases firstIndex <;> simp [range?]

/-- **The fields of an object make a range if each of the three comes once.** -/
theorem foldlM_add_range {fs : List RangeField} {r : ParameterRange} :
    (∃ s, fs.foldlM add {} = some s ∧ s.range? = some r) ↔
      fs.filterMap RangeField.firstCode? = [r.firstCode] ∧
      fs.filterMap RangeField.lastCode? = [r.lastCode] ∧
      fs.filterMap RangeField.firstIndex? = [r.firstIndex] := by
  have hslots : ∀ {s : RangeFields}, fs.foldlM add {} = some s ↔ _ :=
    foldlM_slots add_eq_some (fun a b c => ⟨⟨a, b, c⟩, rfl, rfl, rfl⟩)
      (fun s s' h₁ h₂ h₃ => by cases s; cases s'; simp_all)
  constructor
  · rintro ⟨s, hfold, hr⟩
    cases range?_eq_some.mp hr
    exact hslots.mp hfold
  · intro h
    have hfold : fs.foldlM add {} =
        some ⟨some r.firstCode, some r.lastCode, some r.firstIndex⟩ := hslots.mpr h
    exact ⟨_, hfold, range?_eq_some.mpr rfl⟩

end RangeFields

namespace RangeFields

theorem fills_firstCode : FillsSlot readMember add "first_code" RangeFields.firstCode
    (fun s code => { s with firstCode := some code }) .firstCode readInt32 where
  member_eq s _ _ hname := by
    rw [readMember, hname]
    rfl
  add_eq {s a s'} := by
    obtain ⟨firstCode, lastCode, firstIndex⟩ := s'
    simp only [add_eq_some, RangeField.firstCode?, RangeField.lastCode?, RangeField.firstIndex?,
      fill_some_eq_some, fill_none_eq_some, RangeFields.mk.injEq, and_assoc]

theorem fills_lastCode : FillsSlot readMember add "last_code" RangeFields.lastCode
    (fun s code => { s with lastCode := some code }) .lastCode readInt32 where
  member_eq s _ _ hname := by
    rw [readMember, hname]
    rfl
  add_eq {s a s'} := by
    obtain ⟨firstCode, lastCode, firstIndex⟩ := s'
    simp only [add_eq_some, RangeField.firstCode?, RangeField.lastCode?, RangeField.firstIndex?,
      fill_some_eq_some, fill_none_eq_some, RangeFields.mk.injEq]
    tauto

theorem fills_firstIndex : FillsSlot readMember add "first_index" RangeFields.firstIndex
    (fun s index => { s with firstIndex := some index }) .firstIndex readUInt32 where
  member_eq s _ _ hname := by
    rw [readMember, hname]
    rfl
  add_eq {s a s'} := by
    obtain ⟨firstCode, lastCode, firstIndex⟩ := s'
    simp only [add_eq_some, RangeField.firstCode?, RangeField.lastCode?, RangeField.firstIndex?,
      fill_some_eq_some, fill_none_eq_some, RangeFields.mk.injEq]
    tauto

end RangeFields

/-- A field of a range as its key and its value. -/
def RangeMember (item : List Char) (field : RangeField) : Prop :=
  ∃ key value, Member key value item ∧ field.Key .exact key ∧ field.Value .exact value

/-- What is read as a field of a range is one, and is kept. -/
theorem soundMember_range : SoundMember RangeFields.readMember RangeMember RangeFields.add := by
  intro cs rest s s' h
  obtain ⟨⟨name, rest₁⟩, hname, hfield⟩ := bind_eq_ok.mp h
  by_cases hfirst : name = "first_code"
  · subst hfirst
    obtain ⟨item, key, value, code, hitem, hkey, hvalue, hadd, htext⟩ :=
      RangeFields.fills_firstCode.sound reads_readInt32 hname h
    exact ⟨item, .firstCode code, ⟨key, value, hitem, hkey, .firstCode hvalue⟩, hadd, htext⟩
  by_cases hlast : name = "last_code"
  · subst hlast
    obtain ⟨item, key, value, code, hitem, hkey, hvalue, hadd, htext⟩ :=
      RangeFields.fills_lastCode.sound reads_readInt32 hname h
    exact ⟨item, .lastCode code, ⟨key, value, hitem, hkey, .lastCode hvalue⟩, hadd, htext⟩
  by_cases hindex : name = "first_index"
  · subst hindex
    obtain ⟨item, key, value, index, hitem, hkey, hvalue, hadd, htext⟩ :=
      RangeFields.fills_firstIndex.sound reads_readUInt32 hname h
    exact ⟨item, .firstIndex index, ⟨key, value, hitem, hkey, .firstIndex hvalue⟩, hadd, htext⟩
  -- a name that no field has
  obtain ⟨key, hkey, htext⟩ := readText_sound hname
  dsimp only at hfield
  rw [if_neg hfirst, if_neg hlast, if_neg hindex] at hfield
  obtain ⟨rest₂, hcolon, hrest⟩ := bind_eq_ok.mp hfield
  obtain ⟨⟨_, rest₃⟩, hskip, hpair⟩ := bind_eq_ok.mp hrest
  cases hpair
  obtain ⟨b, hb, hcs⟩ := skipColon_sound hcolon
  obtain ⟨b', value, hb', hvalue, hcs'⟩ := reads_skipValue.sound hskip
  have hother : name ∉ RangeField.keys := by
    simp [RangeField.keys, hfirst, hlast, hindex]
  refine ⟨_, .other, ⟨key, value, .intro hb hb', ⟨name, hkey, hother⟩, .other hvalue⟩, rfl, ?_⟩
  simp [htext, hcs, hcs']

/-- A field of a range is read, wherever its kind may still come. -/
theorem takesMember_range {item : List Char} {field : RangeField} (h : RangeMember item field) :
    TakesMember RangeFields.readMember RangeFields.add item field := by
  obtain ⟨key, value, hitem, hkey, hvalue⟩ := h
  cases hvalue with
  | firstCode hcode => exact RangeFields.fills_firstCode.takes reads_readInt32 hkey hitem hcode
  | lastCode hcode => exact RangeFields.fills_lastCode.takes reads_readInt32 hkey hitem hcode
  | firstIndex hindex => exact RangeFields.fills_firstIndex.takes reads_readUInt32 hkey hitem hindex
  | other hignored =>
    obtain ⟨name, hstring, hother⟩ := hkey
    have hnames : name ≠ "first_code" ∧ name ≠ "last_code" ∧ name ≠ "first_index" := by
      simpa [RangeField.keys] using hother
    cases hitem with
    | @intro b b' _ hb hb' =>
      obtain ⟨body, rfl, hread⟩ := readText_complete hstring
      refine ⟨body ++ (b ++ ':' :: (b' ++ value)), rfl, fun s s' rest hadd hrest => ?_⟩
      cases hadd
      have hname : readText (body ++ (b ++ ':' :: (b' ++ value)) ++ rest) =
          .ok (name, b ++ ':' :: (b' ++ (value ++ rest))) := by simpa using hread _
      refine bind_eq_ok.mpr ⟨_, hname, ?_⟩
      dsimp only
      rw [if_neg hnames.1, if_neg hnames.2.1, if_neg hnames.2.2]
      refine bind_eq_ok.mpr ⟨_, skipColon_complete hb, ?_⟩
      exact bind_eq_ok.mpr ⟨((), rest), reads_skipValue.complete hb' hignored hrest, rfl⟩

/-! ### Elements -/

/-- The first element of an array that must have one. -/
theorem readRequired_first_sound (h : Reads read P)
    (hread : readRequired true read cs = .ok (a, rest)) :
    ∃ b t, IsBlanks b ∧ P t a ∧ cs = b ++ (t ++ rest) := by
  obtain ⟨next, hnext, hread'⟩ := bind_eq_ok.mp hread
  obtain ⟨b, rest', hb, ⟨rfl, -⟩ | ⟨rfl, rfl⟩⟩ := nextElement_first_sound hnext
  · cases hread'
  · obtain ⟨b', t, hb', ht, rfl⟩ := h.sound hread'
    exact ⟨b ++ b', t, hb.append hb', ht, by simp⟩

/-- A later element of an array that must have one. -/
theorem readRequired_later_sound (h : Reads read P)
    (hread : readRequired false read cs = .ok (a, rest)) :
    ∃ b b' t, IsBlanks b ∧ IsBlanks b' ∧ P t a ∧ cs = b ++ ',' :: (b' ++ (t ++ rest)) := by
  obtain ⟨next, hnext, hread'⟩ := bind_eq_ok.mp hread
  obtain ⟨b, rest', hb, ⟨rfl, -⟩ | ⟨b', rfl, hb', rfl⟩⟩ := nextElement_later_sound hnext
  · cases hread'
  · obtain ⟨b'', t, hb'', ht, rfl⟩ := h.sound hread'
    exact ⟨b, b' ++ b'', t, hb, hb'.append hb'', ht, by simp⟩

/-- The array of its fields is read as a range. -/
theorem readRangeElements_sound {r : ParameterRange} (h : readRangeElements cs = .ok (r, rest)) :
    ∃ t, RangeText .exact t r ∧ '[' :: cs = t ++ rest := by
  obtain ⟨⟨firstCode, rest₁⟩, hfirst, h₁⟩ := bind_eq_ok.mp h
  obtain ⟨⟨lastCode, rest₂⟩, hlast, h₂⟩ := bind_eq_ok.mp h₁
  obtain ⟨⟨firstIndex, rest₃⟩, hindex, h₃⟩ := bind_eq_ok.mp h₂
  obtain ⟨rest₄, hclose, hpair⟩ := bind_eq_ok.mp h₃
  cases hpair
  obtain ⟨b₁, t₁, hb₁, ht₁, rfl⟩ := readRequired_first_sound reads_readInt32 hfirst
  obtain ⟨b₂, b₂', t₂, hb₂, hb₂', ht₂, rfl⟩ := readRequired_later_sound reads_readInt32 hlast
  obtain ⟨b₃, b₃', t₃, hb₃, hb₃', ht₃, rfl⟩ := readRequired_later_sound reads_readUInt32 hindex
  obtain ⟨b₄, hb₄, rfl⟩ := closeArray_sound hclose
  have hfollow₃ : ElementsFollow (RangeField.Value .exact) [] b₄ := .done hb₄
  have hfollow₂ := hfollow₃.more hb₃ hb₃' (.firstIndex ht₃)
  have hfollow₁ := hfollow₂.more hb₂ hb₂' (.lastCode ht₂)
  exact ⟨_, .elements (.of_follows hb₁ (.firstCode ht₁) hfollow₁), by simp⟩

/-- **The array of its fields is read as the range.** -/
theorem readRangeElements_complete {r : ParameterRange} {body : List Char}
    (h : ArrayOf (RangeField.Value .exact) ('[' :: body)
      [.firstCode r.firstCode, .lastCode r.lastCode, .firstIndex r.firstIndex]) :
    readRangeElements (body ++ rest) = .ok (r, rest) := by
  obtain ⟨text₁, body₁, hnext₁, hread₁, hfollow₁⟩ :=
    h.reads_first reads_readInt32 (fun | .firstCode hcode => hcode) rest
  obtain ⟨text₂, body₂, hnext₂, hread₂, hfollow₂⟩ :=
    hfollow₁.reads_next reads_readInt32 (fun | .lastCode hcode => hcode) rest
  obtain ⟨text₃, body₃, hnext₃, hread₃, hfollow₃⟩ :=
    hfollow₂.reads_next reads_readUInt32 (fun | .firstIndex hindex => hindex) rest
  refine bind_eq_ok.mpr ⟨_, bind_eq_ok.mpr ⟨_, hnext₁, hread₁⟩, ?_⟩
  refine bind_eq_ok.mpr ⟨_, bind_eq_ok.mpr ⟨_, hnext₂, hread₂⟩, ?_⟩
  refine bind_eq_ok.mpr ⟨_, bind_eq_ok.mpr ⟨_, hnext₃, hread₃⟩, ?_⟩
  exact bind_eq_ok.mpr ⟨_, closeArray_complete hfollow₃.isBlanks, rfl⟩

/-! ### Ranges -/

/-- The object of its fields is read as a range. -/
theorem readRangeMembers_sound {r : ParameterRange} (h : readRangeMembers cs = .ok (r, rest)) :
    ∃ t, RangeText .exact t r ∧ '\x7b' :: cs = t ++ rest := by
  obtain ⟨⟨fields, rest'⟩, hmembers, h'⟩ := bind_eq_ok.mp h
  dsimp only at h'
  split at h'
  · next r' hr =>
    cases h'
    obtain ⟨t, items, fs, ht, hitems, hfold, htext⟩ := readMembers_sound soundMember_range hmembers
    obtain ⟨hfirst, hlast, hindex⟩ := RangeFields.foldlM_add_range.mp ⟨fields, hfold, hr⟩
    exact ⟨t, .members ⟨items, ht, hitems⟩ hfirst hlast hindex, htext⟩
  · cases h'

/-- **The object of its fields is read as the range.** -/
theorem readRangeMembers_complete {r : ParameterRange} {items : List (List Char)}
    {fs : List RangeField} {body : List Char}
    (ht : Enclosed '\x7b' '\x7d' items ('\x7b' :: body)) (hitems : List.Forall₂ RangeMember items fs)
    (hfirst : fs.filterMap RangeField.firstCode? = [r.firstCode])
    (hlast : fs.filterMap RangeField.lastCode? = [r.lastCode])
    (hindex : fs.filterMap RangeField.firstIndex? = [r.firstIndex]) :
    readRangeMembers (body ++ rest) = .ok (r, rest) := by
  obtain ⟨fields, hfold, hr⟩ := RangeFields.foldlM_add_range.mpr ⟨hfirst, hlast, hindex⟩
  have htakes : List.Forall₂ (TakesMember RangeFields.readMember RangeFields.add) items fs :=
    hitems.imp fun _ _ => takesMember_range
  have hfuel : items.length < (body ++ rest).length + 1 := by
    have := ht.length_lt
    simp only [List.length_cons, List.length_append] at this ⊢
    omega
  exact bind_eq_ok.mpr ⟨_, readMembers_complete htakes hfold ht hfuel, by simp only [hr]⟩

/-- **A parameter range is read**, whichever way it is written, and nothing else is. -/
theorem reads_readRange : Reads readRange (RangeText .exact) := by
  refine .of_front ?_ (fun cs => ?_) nofun ?_ ?_
  · intro t r ht
    cases ht with
    | members hobject =>
      obtain ⟨items, hitems, -⟩ := hobject
      exact hitems.starts_object
    | elements harray =>
      obtain ⟨items, hitems, -⟩ := harray
      exact hitems.starts_array
  · rw [readRange, readRange, skipBlanks_skipBlanks]
  · intro c cs r rest hc hread
    rw [readRange, skipBlanks_cons hc] at hread
    dsimp only at hread
    split_ifs at hread with harray hobject
    · exact harray ▸ readRangeElements_sound hread
    · exact hobject ▸ readRangeMembers_sound hread
  · intro t r rest ht hrest
    cases ht with
    | members hobject hfirst hlast hindex =>
      obtain ⟨items, ht, hitems⟩ := hobject
      obtain ⟨body, rfl⟩ := ht.exists_cons
      rw [List.cons_append, readRange, skipBlanks_cons (by decide)]
      exact readRangeMembers_complete ht hitems hfirst hlast hindex
    | elements harray =>
      obtain ⟨items, ht, hitems⟩ := harray
      obtain ⟨body, rfl⟩ := ht.exists_cons
      rw [List.cons_append, readRange, skipBlanks_cons (by decide)]
      exact readRangeElements_complete ⟨items, ht, hitems⟩

end CommandBridge
