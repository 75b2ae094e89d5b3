import CommandBridge.Proofs.Config.Document
import CommandBridge.Proofs.Json.Tokens

/-!
# Written configurations are read back

A configuration is written as an object of its settings.  The same configuration is meant if the
settings stand in another order, if settings with their default are missing, and if there are blanks
between the tokens: `Config.Rewords` is the relation between a configuration and such a text.

Main statement: `Config.ofJson_toJson` — the written text is one of these, and all of them are read as
the configuration.
-/

namespace CommandBridge

open Json

variable {α : Type} {config : Config} {kept written : List Setting}

/-! ### Tokens -/

/-- The tokens of a parameter range. -/
def ParameterRange.tokens (r : ParameterRange) : List (List Char) :=
  enclosedTokens '\x7b' '\x7d'
    [memberTokens "first_code" [(toString r.firstCode).toList],
      memberTokens "last_code" [(toString r.lastCode).toList],
      memberTokens "first_index" [(toString r.firstIndex).toList]]

/-- The tokens of one override. -/
def overrideTokens (entry : Int32 × String) : List (List Char) :=
  memberTokens (toString entry.1) [(quote entry.2).toList]

namespace Setting

/-- The tokens of the value of a setting. -/
def valueTokens : Setting → List (List Char)
  | .callTimeoutMs none => [['n', 'u', 'l', 'l']]
  | .callTimeoutMs (some ms) => [(toString ms).toList]
  | .parameterRanges none => [['n', 'u', 'l', 'l']]
  | .parameterRanges (some ranges) => enclosedTokens '[' ']' (ranges.map ParameterRange.tokens)
  | .overrides entries => enclosedTokens '\x7b' '\x7d' (entries.toList.map overrideTokens)

/-- The tokens of a setting. -/
def tokens (setting : Setting) : List (List Char) :=
  memberTokens setting.key setting.valueTokens

/-- The setting has its default value. -/
def IsDefault : Setting → Prop
  | .callTimeoutMs timeout => timeout = none
  | .parameterRanges ranges => ranges = none
  | .overrides entries => entries = ∅

end Setting

namespace Config

/-- All settings of a configuration. -/
def settings (config : Config) : List Setting :=
  [.callTimeoutMs config.callTimeoutMs, .parameterRanges config.parameterRanges,
    .overrides config.overrides]

/-- The text is an object of the settings, in any order and with any blanks between the tokens;
settings with their default may be missing. -/
def Rewords (config : Config) (text : String) : Prop :=
  ∃ kept written : List Setting, kept.Sublist config.settings ∧
    (∀ setting ∈ config.settings, setting ∉ kept → setting.IsDefault) ∧ written.Perm kept ∧
    Spaced (enclosedTokens '\x7b' '\x7d' (written.map Setting.tokens)) text.toList

end Config

/-! ### The written text -/

theorem ParameterRange.toList_toJson (r : ParameterRange) : r.toJson.toList = r.tokens.flatten := by
  unfold toJson
  simp [tokens, enclosedTokens, memberTokens, flatten_commaTokens, List.intercalate_cons_cons]

theorem toList_overrideToJson (entry : Int32 × String) :
    (Config.overrideToJson entry).toList = (overrideTokens entry).flatten := by
  simp [Config.overrideToJson, overrideTokens, memberTokens]

/-- The written text of items, commas between them. -/
theorem toList_separated {write : α → String} {tokens : α → List (List Char)}
    (h : ∀ a, (write a).toList = (tokens a).flatten) (as : List α) :
    (Config.separated (as.map write)).toList = (commaTokens (as.map tokens)).flatten := by
  rw [Config.separated, String.toList_intercalate, flatten_commaTokens, List.map_map, List.map_map]
  have heq : String.toList ∘ write = List.flatten ∘ tokens := funext h
  rw [heq]
  rfl

theorem toList_timeoutToJson (timeout : Option UInt64) :
    (Config.timeoutToJson timeout).toList = (Setting.callTimeoutMs timeout).valueTokens.flatten := by
  cases timeout <;> simp [Config.timeoutToJson, Setting.valueTokens]

theorem toList_rangesToJson (ranges : Option (List ParameterRange)) :
    (Config.rangesToJson ranges).toList = (Setting.parameterRanges ranges).valueTokens.flatten := by
  cases ranges with
  | none => simp [Config.rangesToJson, Setting.valueTokens]
  | some ranges =>
    simp [Config.rangesToJson, Setting.valueTokens, enclosedTokens,
      toList_separated ParameterRange.toList_toJson]

theorem toList_overridesToJson (entries : Std.ExtTreeMap Int32 String) :
    (Config.overridesToJson entries).toList = (Setting.overrides entries).valueTokens.flatten := by
  simp [Config.overridesToJson, Setting.valueTokens, enclosedTokens,
    toList_separated toList_overrideToJson]

/-- **The written text is the tokens of the settings**, without blanks. -/
theorem Config.toList_toJson (config : Config) : config.toJson.toList =
    (enclosedTokens '\x7b' '\x7d' (config.settings.map Setting.tokens)).flatten := by
  unfold toJson
  simp [settings, Setting.tokens, Setting.key, enclosedTokens, memberTokens, flatten_commaTokens,
    List.intercalate_cons_cons, toList_timeoutToJson, toList_rangesToJson, toList_overridesToJson]

/-! ### What the tokens write -/

theorem writes_int32 (c : Int32) : Writes [(toString c).toList] (IsInteger · c.toInt) :=
  .of_token (isInteger_iff.mpr rfl)

theorem writes_uint32 (n : UInt32) : Writes [(toString n).toList] (IsInteger · n.toNat) :=
  .of_token (isInteger_iff.mpr rfl)

theorem writes_uint64 (n : UInt64) : Writes [(toString n).toList] (IsInteger · n.toNat) :=
  .of_token (isInteger_iff.mpr rfl)

theorem RangeField.stringLiteral_key {name : String} (h : name ∈ keys) :
    StringLiteral ('"' :: (name.toList ++ ['"'])) name := by
  refine stringLiteral_of_isPlain name ?_
  revert name
  decide

/-- **A parameter range is written as its language says.** -/
theorem ParameterRange.writes_tokens (r : ParameterRange) :
    Writes r.tokens (RangeText .exact · r) := by
  have hfirst : Writes (memberTokens "first_code" [(toString r.firstCode).toList])
      (RangeMember · (.firstCode r.firstCode)) :=
    (writes_member (writes_int32 r.firstCode)).imp fun _ ⟨_, hmember, hcode⟩ =>
      ⟨_, _, hmember, RangeField.stringLiteral_key (by decide), .firstCode hcode⟩
  have hlast : Writes (memberTokens "last_code" [(toString r.lastCode).toList])
      (RangeMember · (.lastCode r.lastCode)) :=
    (writes_member (writes_int32 r.lastCode)).imp fun _ ⟨_, hmember, hcode⟩ =>
      ⟨_, _, hmember, RangeField.stringLiteral_key (by decide), .lastCode hcode⟩
  have hindex : Writes (memberTokens "first_index" [(toString r.firstIndex).toList])
      (RangeMember · (.firstIndex r.firstIndex)) :=
    (writes_member (writes_uint32 r.firstIndex)).imp fun _ ⟨_, hmember, hvalue⟩ =>
      ⟨_, _, hmember, RangeField.stringLiteral_key (by decide), .firstIndex hvalue⟩
  have hfields : List.Forall₂ (fun ts field => Writes ts (RangeMember · field)) _
      [.firstCode r.firstCode, .lastCode r.lastCode, .firstIndex r.firstIndex] :=
    .cons hfirst (.cons hlast (.cons hindex .nil))
  exact (writes_enclosed hfields).imp fun _ hobject => .members hobject rfl rfl rfl

theorem writes_overrideTokens (entry : Int32 × String) :
    Writes (overrideTokens entry) (OverrideMember · entry) :=
  (writes_member (.of_token (stringLiteral_quote entry.2))).imp fun _ ⟨_, hmember, hname⟩ =>
    ⟨_, _, hmember, rfl, hname⟩

/-- The entries of a map, gone through from the last one, give what is in the map. -/
theorem getElem?_eq_find?_toList (entries : Std.ExtTreeMap Int32 String) (code : Int32) :
    entries[code]? = (entries.toList.reverse.find? (·.1 == code)).map (·.2) := by
  cases hfind : entries.toList.reverse.find? (·.1 == code) with
  | none =>
    refine Option.eq_none_iff_forall_ne_some.mpr fun name hname => ?_
    have hmem : (code, name) ∈ entries.toList.reverse :=
      List.mem_reverse.mpr (Std.ExtTreeMap.mem_toList_iff_getElem?_eq_some.mpr hname)
    exact List.find?_eq_none.mp hfind _ hmem (beq_self_eq_true code)
  | some entry =>
    have hmem := List.mem_reverse.mp (List.mem_of_find?_eq_some hfind)
    have hcode : entry.1 = code := by simpa using List.find?_some hfind
    rw [← hcode]
    exact Std.ExtTreeMap.mem_toList_iff_getElem?_eq_some.mp hmem

/-- **A setting is written as its language says.** -/
theorem Setting.writes_valueTokens (setting : Setting) :
    Writes setting.valueTokens (setting.Value .exact ·) := by
  cases setting with
  | callTimeoutMs timeout =>
    cases timeout with
    | none => exact .of_token (.callTimeoutMs .null)
    | some ms => exact (writes_uint64 ms).imp fun _ hms => .callTimeoutMs (.some hms)
  | parameterRanges ranges =>
    cases ranges with
    | none => exact .of_token (.parameterRanges .null)
    | some ranges =>
      have hranges : List.Forall₂ (fun ts r => Writes ts (RangeText .exact · r))
          (ranges.map ParameterRange.tokens) ranges := by
        rw [List.forall₂_map_left_iff, List.forall₂_same]
        exact fun r _ => r.writes_tokens
      exact (writes_enclosed hranges).imp fun _ harray => .parameterRanges (.some harray)
  | overrides entries =>
    have hentries : List.Forall₂ (fun ts entry => Writes ts (OverrideMember · entry))
        (entries.toList.map overrideTokens) entries.toList := by
      rw [List.forall₂_map_left_iff, List.forall₂_same]
      exact fun entry _ => writes_overrideTokens entry
    exact (writes_enclosed hentries).imp fun _ hobject =>
      .overrides ⟨entries.toList, hobject, getElem?_eq_find?_toList entries⟩

theorem Setting.isPlain_key (setting : Setting) :
    setting.key.toList.all (fun c => IsPlain c) = true := by
  cases setting <;> (rw [key]; decide)

theorem Setting.writes_tokens (setting : Setting) :
    Writes setting.tokens (SettingMember · setting) :=
  (writes_member setting.writes_valueTokens).imp fun _ ⟨_, hmember, hvalue⟩ =>
    ⟨_, _, hmember, stringLiteral_of_isPlain _ setting.isPlain_key, hvalue⟩

/-! ### Settings in another order, and without some defaults -/

/-- The settings of one kind hold the value, or the default if they are missing. -/
theorem findSome?_getD {kind? : Setting → Option α} {make : α → Setting} {a d : α}
    (hkind : ∀ setting x, kind? setting = some x ↔ setting = make x)
    (honly : ∀ x, make x ∈ written → x = a) (hmissing : make a ∉ written → a = d) :
    (written.findSome? kind?).getD d = a := by
  cases hfind : written.findSome? kind? with
  | none =>
    have hnone := List.findSome?_eq_none_iff.mp hfind
    refine (hmissing fun hmem => ?_).symm
    cases ((hkind _ a).mpr rfl).symm.trans (hnone _ hmem)
  | some x =>
    obtain ⟨setting, hmem, hx⟩ := List.exists_of_findSome?_eq_some hfind
    exact honly x ((hkind _ _).mp hx ▸ hmem)

namespace Config

/-- The settings that are not missing make up the configuration. -/
theorem ofSettings_of_rewords (hsub : ∀ setting ∈ written, setting ∈ config.settings)
    (hdefault : ∀ setting ∈ config.settings, setting ∉ written → setting.IsDefault) :
    ofSettings written = config := by
  have htimeout : (written.findSome? Setting.callTimeoutMs?).getD none = config.callTimeoutMs :=
    findSome?_getD (fun setting x => by cases setting <;> simp [Setting.callTimeoutMs?])
      (fun x hmem => by simpa [settings] using hsub _ hmem)
      (hdefault (.callTimeoutMs _) (by simp [settings]))
  have hranges : (written.findSome? Setting.parameterRanges?).getD none = config.parameterRanges :=
    findSome?_getD (fun setting x => by cases setting <;> simp [Setting.parameterRanges?])
      (fun x hmem => by simpa [settings] using hsub _ hmem)
      (hdefault (.parameterRanges _) (by simp [settings]))
  have hoverrides : (written.findSome? Setting.overrides?).getD ∅ = config.overrides :=
    findSome?_getD (fun setting x => by cases setting <;> simp [Setting.overrides?])
      (fun x hmem => by simpa [settings] using hsub _ hmem)
      (hdefault (.overrides _) (by simp [settings]))
  rw [ofSettings, htimeout, hranges, hoverrides]

/-- A configuration rewords itself as its written text. -/
theorem rewords_toJson (config : Config) : config.Rewords config.toJson := by
  refine ⟨_, _, .refl _, fun setting hmem hnot => absurd hmem hnot, .refl _, ?_⟩
  rw [toList_toJson]
  exact Spaced.flatten

/-- **A reworded configuration is read as it was.** -/
theorem ofJson_of_rewords {text : String} (h : config.Rewords text) :
    ofJson text = .ok config := by
  obtain ⟨kept, written, hsublist, hmissing, hperm, hspaced⟩ := h
  have hsettings : ofSettings written = config :=
    ofSettings_of_rewords (fun _ hmem => hsublist.subset (hperm.subset hmem))
      (fun setting hmem hnot => hmissing setting hmem fun hkept => hnot (hperm.mem_iff.mpr hkept))
  have hkeys : (written.map Setting.key).Nodup := by
    have hall : (config.settings.map Setting.key).Nodup := by
      simp [settings, Setting.key]
    exact (hperm.map Setting.key).nodup_iff.mpr (hall.sublist (hsublist.map Setting.key))
  have hwrites : List.Forall₂ (fun ts setting => Writes ts (SettingMember · setting))
      (written.map Setting.tokens) written := by
    rw [List.forall₂_map_left_iff, List.forall₂_same]
    exact fun setting _ => setting.writes_tokens
  obtain ⟨b, t, b', hb, hb', hobject, htext⟩ := writes_enclosed hwrites hspaced
  have hconfig : ConfigText .exact t config := hsettings ▸ .members hobject hkeys
  rw [ofJson_eq_ok, ofText_eq_ok_iff, htext]
  exact ⟨b, t, b', hb, hb', Spelling.isJson_exact.isValue hconfig, hconfig, rfl⟩

/-- **A written configuration is read back**, and so is every rewording of it: with the settings in
another order, without some that have their default, and with blanks between the tokens. -/
theorem ofJson_toJson (config : Config) : ofJson config.toJson = .ok config ∧
    config.Rewords config.toJson ∧ ∀ text, config.Rewords text → ofJson text = .ok config :=
  ⟨ofJson_of_rewords config.rewords_toJson, config.rewords_toJson, fun _ => ofJson_of_rewords⟩

/-- A configuration with a negative status, and with a quote and a control in its text. -/
def escaped : Config where
  callTimeoutMs := some 0
  overrides := (∅ : Std.ExtTreeMap Int32 String).insert (-1) "\"\x01é"

/-- Its settings the other way around, without the ranges and with blanks between the tokens. -/
def escapedText : String :=
  " \x7b\"overrides\"\t: \x7b\"-1\":\"\\\"\\u0001é\"\x7d,\n\"call_timeout_ms\":0\x7d\r"

theorem rewords_escapedText : escaped.Rewords escapedText := by
  have hentries : escaped.overrides.toList = [(-1, "\"\x01é")] := by rfl
  refine ⟨[.callTimeoutMs (some 0), .overrides escaped.overrides],
    [.overrides escaped.overrides, .callTimeoutMs (some 0)], ?_, ?_, .swap _ _ _, ?_⟩
  · exact .cons_cons _ (.cons _ (.refl _))
  · intro setting hmem hnot
    simp only [settings, List.mem_cons, List.not_mem_nil, or_false] at hmem
    rcases hmem with rfl | rfl | rfl
    · exact absurd List.mem_cons_self hnot
    · rfl
    · exact absurd (List.mem_cons_of_mem _ List.mem_cons_self) hnot
  · have htokens : enclosedTokens '\x7b' '\x7d'
          ([.overrides escaped.overrides, .callTimeoutMs (some 0)].map Setting.tokens) =
        [['\x7b'], "\"overrides\"".toList, [':'], ['\x7b'], "\"-1\"".toList, [':'],
          "\"\\\"\\u0001é\"".toList, ['\x7d'], [','], "\"call_timeout_ms\"".toList, [':'], ['0'],
          ['\x7d']] := by
      simp only [List.map_cons, List.map_nil, Setting.tokens, Setting.valueTokens, hentries]
      rfl
    rw [htokens, escapedText]
    simp only [String.reduceToList]
    iterate 13 refine Spaced.of_skipBlanks rfl ?_
    exact .done (by simp [IsBlanks, isBlank])

theorem ofJson_toJson_escaped :
    escaped.Rewords escapedText ∧ ofJson escapedText = .ok escaped :=
  ⟨rewords_escapedText, (ofJson_toJson escaped).2.2 _ rewords_escapedText⟩

end Config

end CommandBridge
