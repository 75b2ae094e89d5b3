import Mathlib.Data.List.Nodup
import CommandBridge.Proofs.Config.Overrides
import CommandBridge.Proofs.Config.Ranges

/-!
# Configurations are read as their language says

Main statement: `Config.reads_read`.

An object of settings is read like one of fields: `ConfigFields.add` is what a setting does to those
before it, and `ConfigFields.foldlM_add` says that the settings of a whole object are read if no key
comes twice.  An array of settings has at most three elements and is read one by one.
-/

namespace CommandBridge

open Json

variable {α : Type} {cs rest t : List Char} {settings : List Setting} {config : Config}

/-! ### Values -/

theorem IsNumber.head?_ne (h : IsNumber t) : t.head? ≠ some 'n' := by
  obtain ⟨c, s, rfl, hstart⟩ := h.startsNumber
  rintro ⟨⟩
  exact absurd hstart (by decide)

/-- **A waiting time is read.** -/
theorem reads_readCallTimeout :
    Reads readCallTimeout (OptionalText fun t ms => IsInteger t ms.toNat) :=
  reads_readUInt64.readOptional fun ht => IsNumber.head?_ne ht.1.isNumber

/-- **Parameter ranges are read.** -/
theorem reads_readParameterRanges :
    Reads readParameterRanges (OptionalText (ArrayOf (RangeText .exact))) := by
  refine reads_readRange.readArray.readOptional ?_
  rintro t ranges ⟨items, ht, -⟩
  obtain ⟨body, rfl⟩ := ht.exists_cons
  exact nofun

/-! ### Settings, each once -/

theorem eq_toList_iff {l : List α} {o : Option α} : l = o.toList ↔ l.length ≤ 1 ∧ o = l.head? := by
  cases l with
  | nil => cases o <;> simp
  | cons a l => cases o <;> cases l <;> simp [eq_comm]

namespace Setting

/-- The settings of one kind are those with its key. -/
theorem count_key {kind? : Setting → Option α} {key : String}
    (hkind : ∀ setting, (kind? setting).isSome = (setting.key == key)) :
    (settings.map Setting.key).count key = (settings.filterMap kind?).length := by
  rw [List.length_filterMap_eq_countP, List.count, List.countP_map]
  refine List.countP_congr fun setting _ => ?_
  rw [hkind, Function.comp_apply]

theorem count_callTimeoutMs : (settings.map key).count "call_timeout_ms" =
    (settings.filterMap callTimeoutMs?).length :=
  count_key fun setting => by cases setting <;> rfl

theorem count_parameterRanges : (settings.map key).count "parameter_ranges" =
    (settings.filterMap parameterRanges?).length :=
  count_key fun setting => by cases setting <;> rfl

theorem count_overrides : (settings.map key).count "overrides" =
    (settings.filterMap overrides?).length :=
  count_key fun setting => by cases setting <;> rfl

theorem key_eq_callTimeoutMs {setting : Setting} :
    setting.key = "call_timeout_ms" ↔ ∃ timeout, setting = .callTimeoutMs timeout := by
  cases setting <;> simp [key]

theorem key_eq_parameterRanges {setting : Setting} :
    setting.key = "parameter_ranges" ↔ ∃ ranges, setting = .parameterRanges ranges := by
  cases setting <;> simp [key]

theorem key_eq_overrides {setting : Setting} :
    setting.key = "overrides" ↔ ∃ overrides, setting = .overrides overrides := by
  cases setting <;> simp [key]

/-- No key comes twice if no kind of setting does. -/
theorem nodup_keys_iff : (settings.map key).Nodup ↔
    (settings.filterMap callTimeoutMs?).length ≤ 1 ∧
    (settings.filterMap parameterRanges?).length ≤ 1 ∧
    (settings.filterMap overrides?).length ≤ 1 := by
  rw [List.nodup_iff_count_le_one, ← count_callTimeoutMs, ← count_parameterRanges,
    ← count_overrides]
  constructor
  · exact fun h => ⟨h _, h _, h _⟩
  · rintro ⟨htimeout, hranges, hoverrides⟩ name
    by_cases hname : name ∈ settings.map key
    · obtain ⟨setting, -, rfl⟩ := List.mem_map.mp hname
      cases setting with
      | callTimeoutMs => exact htimeout
      | parameterRanges => exact hranges
      | overrides => exact hoverrides
    · rw [List.count_eq_zero_of_not_mem hname]
      exact Nat.zero_le 1

end Setting

namespace ConfigFields

/-- One more setting, if none of its kind came before. -/
def add (fields : ConfigFields) (setting : Setting) : Option ConfigFields := do
  some ⟨← fill fields.callTimeoutMs setting.callTimeoutMs?,
    ← fill fields.parameterRanges setting.parameterRanges?,
    ← fill fields.overrides setting.overrides?⟩

theorem add_eq_some (s : ConfigFields) (setting : Setting) (s' : ConfigFields) :
    s.add setting = some s' ↔ fill s.callTimeoutMs setting.callTimeoutMs? = some s'.callTimeoutMs ∧
      fill s.parameterRanges setting.parameterRanges? = some s'.parameterRanges ∧
      fill s.overrides setting.overrides? = some s'.overrides := by
  obtain ⟨timeout, ranges, overrides⟩ := s'
  simp only [add, bind, Option.bind_eq_some_iff, Option.some.injEq, ConfigFields.mk.injEq]
  constructor
  · rintro ⟨a, ha, b, hb, c, hc, rfl, rfl, rfl⟩
    exact ⟨ha, hb, hc⟩
  · rintro ⟨ha, hb, hc⟩
    exact ⟨_, ha, _, hb, _, hc, rfl, rfl, rfl⟩

/-- **The settings of an object are read if none comes twice**, and then all of them are. -/
theorem foldlM_add {s : ConfigFields} : settings.foldlM add {} = some s ↔
    (settings.map Setting.key).Nodup ∧
      s = ⟨settings.findSome? Setting.callTimeoutMs?, settings.findSome? Setting.parameterRanges?,
        settings.findSome? Setting.overrides?⟩ := by
  have hslots : settings.foldlM add {} = some s ↔
      settings.filterMap Setting.callTimeoutMs? = s.callTimeoutMs.toList ∧
      settings.filterMap Setting.parameterRanges? = s.parameterRanges.toList ∧
      settings.filterMap Setting.overrides? = s.overrides.toList :=
    foldlM_slots add_eq_some (fun a b c => ⟨⟨a, b, c⟩, rfl, rfl, rfl⟩)
      (fun s s' h₁ h₂ h₃ => by cases s; cases s'; simp_all)
  rw [hslots, eq_toList_iff, eq_toList_iff, eq_toList_iff, List.head?_filterMap,
    List.head?_filterMap, List.head?_filterMap, Setting.nodup_keys_iff]
  obtain ⟨timeout, ranges, overrides⟩ := s
  simp only [ConfigFields.mk.injEq]
  tauto

end ConfigFields

namespace ConfigFields

theorem fills_callTimeoutMs : FillsSlot readMember add "call_timeout_ms" ConfigFields.callTimeoutMs
    (fun s timeout => { s with callTimeoutMs := some timeout }) .callTimeoutMs readCallTimeout where
  member_eq s _ _ hname := by
    rw [readMember, hname]
    rfl
  add_eq {s a s'} := by
    obtain ⟨timeout, ranges, overrides⟩ := s'
    simp only [add_eq_some, Setting.callTimeoutMs?, Setting.parameterRanges?, Setting.overrides?,
      fill_some_eq_some, fill_none_eq_some, ConfigFields.mk.injEq]
    tauto

theorem fills_parameterRanges : FillsSlot readMember add "parameter_ranges" ConfigFields.parameterRanges
    (fun s ranges => { s with parameterRanges := some ranges }) .parameterRanges readParameterRanges where
  member_eq s _ _ hname := by
    rw [readMember, hname]
    rfl
  add_eq {s a s'} := by
    obtain ⟨timeout, ranges, overrides⟩ := s'
    simp only [add_eq_some, Setting.callTimeoutMs?, Setting.parameterRanges?, Setting.overrides?,
      fill_some_eq_some, fill_none_eq_some, ConfigFields.mk.injEq]
    tauto

theorem fills_overrides : FillsSlot readMember add "overrides" ConfigFields.overrides
    (fun s overrides => { s with overrides := some overrides }) .overrides readOverrides where
  member_eq s _ _ hname := by
    rw [readMember, hname]
    rfl
  add_eq {s a s'} := by
    obtain ⟨timeout, ranges, overrides⟩ := s'
    simp only [add_eq_some, Setting.callTimeoutMs?, Setting.parameterRanges?, Setting.overrides?,
      fill_some_eq_some, fill_none_eq_some, ConfigFields.mk.injEq]
    tauto

end ConfigFields

/-- A setting as its key and its value. -/
def SettingMember (item : List Char) (setting : Setting) : Prop :=
  ∃ key value, Member key value item ∧ StringLiteral key setting.key ∧ setting.Value .exact value

/-- What is read as a setting is one, and is kept. -/
theorem soundMember_setting : SoundMember ConfigFields.readMember SettingMember ConfigFields.add := by
  intro cs rest s s' h
  obtain ⟨⟨name, rest₁⟩, hname, hfield⟩ := bind_eq_ok.mp h
  dsimp only at hfield
  split_ifs at hfield with htimeout hranges hoverrides
  · subst htimeout
    obtain ⟨item, key, value, timeout, hitem, hkey, hvalue, hadd, htext⟩ :=
      ConfigFields.fills_callTimeoutMs.sound reads_readCallTimeout hname h
    exact ⟨item, .callTimeoutMs timeout, ⟨key, value, hitem, hkey, .callTimeoutMs hvalue⟩, hadd, htext⟩
  · subst hranges
    obtain ⟨item, key, value, ranges, hitem, hkey, hvalue, hadd, htext⟩ :=
      ConfigFields.fills_parameterRanges.sound reads_readParameterRanges hname h
    exact ⟨item, .parameterRanges ranges, ⟨key, value, hitem, hkey, .parameterRanges hvalue⟩, hadd,
      htext⟩
  · subst hoverrides
    obtain ⟨item, key, value, overrides, hitem, hkey, hvalue, hadd, htext⟩ :=
      ConfigFields.fills_overrides.sound reads_readOverrides hname h
    exact ⟨item, .overrides overrides, ⟨key, value, hitem, hkey, .overrides hvalue⟩, hadd, htext⟩

/-- A setting is read, wherever its kind may still come. -/
theorem takesMember_setting {item : List Char} {setting : Setting}
    (h : SettingMember item setting) :
    TakesMember ConfigFields.readMember ConfigFields.add item setting := by
  obtain ⟨key, value, hitem, hkey, hvalue⟩ := h
  cases hvalue with
  | callTimeoutMs hvalue =>
    exact ConfigFields.fills_callTimeoutMs.takes reads_readCallTimeout hkey hitem hvalue
  | parameterRanges hvalue =>
    exact ConfigFields.fills_parameterRanges.takes reads_readParameterRanges hkey hitem hvalue
  | overrides hvalue =>
    exact ConfigFields.fills_overrides.takes reads_readOverrides hkey hitem hvalue

namespace Config

/-- The object of its settings is read as a configuration. -/
theorem readMembers_configText (h : readMembers cs = .ok (config, rest)) :
    ∃ t, ConfigText .exact t config ∧ '\x7b' :: cs = t ++ rest := by
  obtain ⟨⟨fields, rest'⟩, hmembers, hpair⟩ := bind_eq_ok.mp h
  cases hpair
  obtain ⟨t, items, settings, ht, hitems, hfold, htext⟩ :=
    readMembers_sound soundMember_setting hmembers
  obtain ⟨hkeys, rfl⟩ := ConfigFields.foldlM_add.mp hfold
  exact ⟨t, .members ⟨items, ht, hitems⟩ hkeys, htext⟩

/-- **The object of its settings is read as the configuration.** -/
theorem readMembers_ofSettings {items : List (List Char)} {body : List Char}
    (ht : Enclosed '\x7b' '\x7d' items ('\x7b' :: body))
    (hitems : List.Forall₂ SettingMember items settings) (hkeys : (settings.map Setting.key).Nodup) :
    readMembers (body ++ rest) = .ok (ofSettings settings, rest) := by
  have htakes : List.Forall₂ (TakesMember ConfigFields.readMember ConfigFields.add) items settings :=
    hitems.imp fun _ _ => takesMember_setting
  have hfuel : items.length < (body ++ rest).length + 1 := by
    have := ht.length_lt
    simp only [List.length_cons, List.length_append] at this ⊢
    omega
  have hfold := ConfigFields.foldlM_add.mpr ⟨hkeys, rfl⟩
  exact bind_eq_ok.mpr ⟨_, Json.readMembers_complete htakes hfold ht hfuel, rfl⟩

/-! ### Settings, in their order -/

/-- An array of settings has the first ones. -/
theorem settings_of_prefix (h : settings.map Setting.key <+: Setting.keys) :
    settings = [] ∨ (∃ timeout, settings = [.callTimeoutMs timeout]) ∨
      (∃ timeout ranges, settings = [.callTimeoutMs timeout, .parameterRanges ranges]) ∨
      ∃ timeout ranges overrides,
        settings = [.callTimeoutMs timeout, .parameterRanges ranges, .overrides overrides] := by
  rcases settings with _ | ⟨a, _ | ⟨b, _ | ⟨c, _ | ⟨d, later⟩⟩⟩⟩
  · exact .inl rfl
  · have ha : a.key = "call_timeout_ms" := by simpa [Setting.keys] using h
    obtain ⟨timeout, rfl⟩ := Setting.key_eq_callTimeoutMs.mp ha
    exact .inr (.inl ⟨timeout, rfl⟩)
  · have hab : a.key = "call_timeout_ms" ∧ b.key = "parameter_ranges" := by
      simpa [Setting.keys] using h
    obtain ⟨timeout, rfl⟩ := Setting.key_eq_callTimeoutMs.mp hab.1
    obtain ⟨ranges, rfl⟩ := Setting.key_eq_parameterRanges.mp hab.2
    exact .inr (.inr (.inl ⟨timeout, ranges, rfl⟩))
  · have habc : a.key = "call_timeout_ms" ∧ b.key = "parameter_ranges" ∧ c.key = "overrides" := by
      simpa [Setting.keys] using h
    obtain ⟨timeout, rfl⟩ := Setting.key_eq_callTimeoutMs.mp habc.1
    obtain ⟨ranges, rfl⟩ := Setting.key_eq_parameterRanges.mp habc.2.1
    obtain ⟨overrides, rfl⟩ := Setting.key_eq_overrides.mp habc.2.2
    exact .inr (.inr (.inr ⟨timeout, ranges, overrides, rfl⟩))
  · have hlength := h.length_le
    have hkeys : Setting.keys.length = 3 := rfl
    rw [List.length_map, hkeys] at hlength
    simp only [List.length_cons] at hlength
    omega

/-- The array of its settings is read as a configuration. -/
theorem readSettings_sound (h : readSettings cs = .ok (config, rest)) :
    ∃ t, ConfigText .exact t config ∧ '[' :: cs = t ++ rest := by
  obtain ⟨next₁, hnext₁, h₁⟩ := bind_eq_ok.mp h
  obtain ⟨b₁, rest₁, hb₁, ⟨rfl, rfl⟩ | ⟨rfl, rfl⟩⟩ := nextElement_first_sound hnext₁
  · cases h₁
    have htext : ConfigText .exact _ (ofSettings []) :=
      .elements ⟨[], .empty hb₁, .nil⟩ List.nil_prefix
    exact ⟨_, htext, by simp⟩
  obtain ⟨⟨timeout, rest₂⟩, htimeout, h₂⟩ := bind_eq_ok.mp h₁
  obtain ⟨b₁', t₁, hb₁', ht₁, rfl⟩ := reads_readCallTimeout.sound htimeout
  obtain ⟨next₂, hnext₂, h₃⟩ := bind_eq_ok.mp h₂
  obtain ⟨b₂, rest₃, hb₂, ⟨rfl, rfl⟩ | ⟨b₂', rfl, hb₂', rfl⟩⟩ := nextElement_later_sound hnext₂
  · cases h₃
    have htext : ConfigText .exact _ (ofSettings [.callTimeoutMs timeout]) :=
      .elements (.of_follows (hb₁.append hb₁') (.callTimeoutMs ht₁) (.done hb₂))
        (by simp [Setting.key, Setting.keys])
    exact ⟨_, htext, by simp⟩
  obtain ⟨⟨ranges, rest₄⟩, hranges, h₄⟩ := bind_eq_ok.mp h₃
  obtain ⟨b₃, t₂, hb₃, ht₂, rfl⟩ := reads_readParameterRanges.sound hranges
  obtain ⟨next₃, hnext₃, h₅⟩ := bind_eq_ok.mp h₄
  obtain ⟨b₄, rest₅, hb₄, ⟨rfl, rfl⟩ | ⟨b₄', rfl, hb₄', rfl⟩⟩ := nextElement_later_sound hnext₃
  · cases h₅
    have htext : ConfigText .exact _
        (ofSettings [.callTimeoutMs timeout, .parameterRanges ranges]) :=
      .elements (.of_follows (hb₁.append hb₁') (.callTimeoutMs ht₁)
        (.more hb₂ (hb₂'.append hb₃) (.parameterRanges ht₂) (.done hb₄)))
        (by simp [Setting.key, Setting.keys])
    exact ⟨_, htext, by simp⟩
  obtain ⟨⟨overrides, rest₆⟩, hoverrides, h₆⟩ := bind_eq_ok.mp h₅
  obtain ⟨b₅, t₃, hb₅, ht₃, rfl⟩ := reads_readOverrides.sound hoverrides
  obtain ⟨rest₇, hclose, hpair⟩ := bind_eq_ok.mp h₆
  obtain ⟨b₆, hb₆, rfl⟩ := closeArray_sound hclose
  cases hpair
  have htext : ConfigText .exact _
      (ofSettings [.callTimeoutMs timeout, .parameterRanges ranges, .overrides overrides]) :=
    .elements (.of_follows (hb₁.append hb₁') (.callTimeoutMs ht₁)
      (.more hb₂ (hb₂'.append hb₃) (.parameterRanges ht₂)
        (.more hb₄ (hb₄'.append hb₅) (.overrides ht₃) (.done hb₆))))
      (by simp [Setting.key, Setting.keys])
  exact ⟨_, htext, by simp⟩

/-- **The array of its settings is read as the configuration.** -/
theorem readSettings_complete {body : List Char}
    (ht : ArrayOf (Setting.Value .exact) ('[' :: body) settings)
    (hkeys : settings.map Setting.key <+: Setting.keys) :
    readSettings (body ++ rest) = .ok (ofSettings settings, rest) := by
  obtain rfl | ⟨timeout, rfl⟩ | ⟨timeout, ranges, rfl⟩ | ⟨timeout, ranges, overrides, rfl⟩ :=
    settings_of_prefix hkeys
  · obtain ⟨b, hb, rfl⟩ := ht.isBlanks
    rw [List.append_assoc]
    exact bind_eq_ok.mpr ⟨_, nextElement_closed hb, rfl⟩
  all_goals
    obtain ⟨text₁, body₁, hnext₁, hread₁, hfollow₁⟩ :=
      ht.reads_first reads_readCallTimeout (fun | .callTimeoutMs htimeout => htimeout) rest
    refine bind_eq_ok.mpr ⟨_, hnext₁, bind_eq_ok.mpr ⟨_, hread₁, ?_⟩⟩
  · exact bind_eq_ok.mpr ⟨_, nextElement_closed hfollow₁.isBlanks, rfl⟩
  all_goals
    obtain ⟨text₂, body₂, hnext₂, hread₂, hfollow₂⟩ :=
      hfollow₁.reads_next reads_readParameterRanges (fun | .parameterRanges hranges => hranges) rest
    refine bind_eq_ok.mpr ⟨_, hnext₂, bind_eq_ok.mpr ⟨_, hread₂, ?_⟩⟩
  · exact bind_eq_ok.mpr ⟨_, nextElement_closed hfollow₂.isBlanks, rfl⟩
  obtain ⟨text₃, body₃, hnext₃, hread₃, hfollow₃⟩ :=
    hfollow₂.reads_next reads_readOverrides (fun | .overrides hoverrides => hoverrides) rest
  refine bind_eq_ok.mpr ⟨_, hnext₃, bind_eq_ok.mpr ⟨_, hread₃, ?_⟩⟩
  exact bind_eq_ok.mpr ⟨_, closeArray_complete hfollow₃.isBlanks, rfl⟩

/-! ### Configurations -/

/-- **A configuration is read**, whichever way it is written, and nothing else is. -/
theorem reads_read : Reads read (ConfigText .exact) := by
  refine .of_front ?_ (fun cs => ?_) nofun ?_ ?_
  · intro t config ht
    cases ht with
    | members hobject =>
      obtain ⟨items, hitems, -⟩ := hobject
      exact hitems.starts_object
    | elements harray =>
      obtain ⟨items, hitems, -⟩ := harray
      exact hitems.starts_array
  · rw [read, read, skipBlanks_skipBlanks]
  · intro c cs config rest hc hread
    rw [read, skipBlanks_cons hc] at hread
    dsimp only at hread
    split_ifs at hread with harray hobject
    · exact harray ▸ readSettings_sound hread
    · exact hobject ▸ readMembers_configText hread
  · intro t config rest ht hrest
    cases ht with
    | members hobject hkeys =>
      obtain ⟨items, ht, hitems⟩ := hobject
      obtain ⟨body, rfl⟩ := ht.exists_cons
      rw [List.cons_append, read, skipBlanks_cons (by decide)]
      exact readMembers_ofSettings ht hitems hkeys
    | elements harray hkeys =>
      obtain ⟨items, ht, hitems⟩ := harray
      obtain ⟨body, rfl⟩ := ht.exists_cons
      rw [List.cons_append, read, skipBlanks_cons (by decide)]
      exact readSettings_complete ⟨items, ht, hitems⟩ hkeys

end Config

end CommandBridge
