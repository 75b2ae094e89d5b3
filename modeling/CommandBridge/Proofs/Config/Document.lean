import CommandBridge.Proofs.Config.Settings

/-!
# Which texts are configurations

Main statement: `Config.ofJson_eq_ok_iff` — a text is accepted, with a certain configuration, exactly
if it is a document of the language of configurations that stands for this configuration.

The language is a little smaller than JSON suggests, and `Config.refused_documents` shows both gaps:
minus zero is no integer here, and a key that nobody looks at still has to stand for a text.
-/

namespace CommandBridge

open Json

variable {α : Type} {cs rest t : List Char} {s : Spelling} {config : Config}

/-! ### Texts that are JSON values -/

namespace Json

theorem isPlain_of_isDigit {c : Char} (h : isDigit c = true) : IsPlain c := by
  refine ⟨?_, ?_, ?_⟩
  · rintro rfl
    exact absurd h (by decide)
  · rintro rfl
    exact absurd h (by decide)
  · simp only [isDigit, Bool.and_eq_true, decide_eq_true_eq] at h
    exact Char.le_trans (by decide) h.1

/-- What stands for a text may stand between quotes. -/
theorem Spells.isStringBody {body text : List Char} (h : Spells body text) : IsStringBody body := by
  induction h with
  | nil => exact .nil
  | plain hc _ ih => exact .plain hc ih
  | short hescape _ ih => exact .short hescape ih
  | unit hhex _ ih => exact .unit hhex ih
  | pair hhigh hlow _ _ _ _ _ _ ih => exact .unit hhigh (.unit hlow ih)

theorem StringLiteral.isString {name : String} (h : StringLiteral t name) : IsString t := by
  obtain ⟨hspells⟩ := h
  exact .intro hspells.isStringBody

/-- The digits of an integer between quotes are a string. -/
theorem isString_quoted_toString (v : Int) : IsString ('"' :: ((toString v).toList ++ ['"'])) := by
  refine .intro (spells_of_isPlain fun c hc => ?_).isStringBody
  have hinteger : IsInteger (toString v).toList v := isInteger_iff.mpr rfl
  generalize (toString v).toList = t at hinteger hc
  obtain ⟨hliteral, -⟩ := hinteger
  cases hliteral with
  | unsigned hds => exact isPlain_of_isDigit (hds.1.2 c hc)
  | minus hds =>
    rcases List.mem_cons.mp hc with rfl | hc
    · exact ⟨by decide, by decide, by decide⟩
    · exact isPlain_of_isDigit (hds.1.2 c hc)

theorem ArrayOf.isValue {P : List Char → α → Prop} {as : List α} (h : ArrayOf P t as)
    (hvalue : ∀ {t a}, P t a → IsValue t) : IsValue t := by
  obtain ⟨items, ht, hitems⟩ := h
  have hvalues : List.Forall₂ (fun item a => IsValue item ∧ P item a) items as :=
    hitems.imp fun _ _ hP => ⟨hvalue hP, hP⟩
  exact .array ht ((List.forall₂_and_left _ _).mp hvalues).1

theorem ObjectOf.isValue {P : List Char → List Char → α → Prop} {as : List α} (h : ObjectOf P t as)
    (hmember : ∀ {key value a}, P key value a → IsString key ∧ IsValue value) : IsValue t := by
  obtain ⟨items, ht, hitems⟩ := h
  have hignored : List.Forall₂ IgnoredMember items (as.map fun _ => ()) := by
    rw [List.forall₂_map_right_iff]
    refine hitems.imp ?_
    rintro item a ⟨key, value, hitem, hP⟩
    exact ⟨key, value, hitem, hmember hP⟩
  exact .of_ignoredMembers ht hignored

theorem OptionalText.isValue {P : List Char → α → Prop} {o : Option α} (h : OptionalText P t o)
    (hvalue : ∀ {t a}, P t a → IsValue t) : IsValue t := by
  cases h with
  | null => exact .null
  | some ht => exact hvalue ht

theorem skipBlanks_eq_nil_iff : skipBlanks cs = [] ↔ IsBlanks cs := by
  constructor
  · intro h
    obtain ⟨b, hb, htext⟩ := exists_blanks cs
    rwa [htext, h, List.append_nil]
  · intro h
    rw [← List.append_nil cs, skipBlanks_append h]
    rfl

theorem IsBlanks.stops (h : IsBlanks cs) : Stops cs :=
  fun _ hc => .inl (h _ (List.mem_of_mem_head? hc))

end Json

/-! ### Every configuration is a JSON value -/

/-- What the texts of a spelling are in JSON. -/
structure Spelling.IsJson (s : Spelling) : Prop where
  isNumber {t : List Char} {v : Int} : s.integer t v → IsNumber t
  isString {t : List Char} : s.ignoredKey t → IsString t

theorem Spelling.isJson_json : Spelling.json.IsJson :=
  ⟨fun h => h.isNumber, fun h => h.1⟩

theorem Spelling.isJson_exact : Spelling.exact.IsJson :=
  ⟨fun h => h.1.isNumber, fun ⟨_, h, _⟩ => h.isString⟩

namespace Spelling.IsJson

variable (h : s.IsJson)
include h

theorem isValue_rangeField {field : RangeField} (ht : field.Value s t) : IsValue t := by
  cases ht with
  | firstCode hcode => exact .number (h.isNumber hcode)
  | lastCode hcode => exact .number (h.isNumber hcode)
  | firstIndex hindex => exact .number (h.isNumber hindex)
  | other hvalue => exact hvalue

theorem isString_rangeKey {field : RangeField} (ht : field.Key s t) : IsString t := by
  cases field with
  | firstCode => exact StringLiteral.isString ht
  | lastCode => exact StringLiteral.isString ht
  | firstIndex => exact StringLiteral.isString ht
  | other => exact h.isString ht

theorem isValue_range {r : ParameterRange} (ht : RangeText s t r) : IsValue t := by
  cases ht with
  | members hobject =>
    exact hobject.isValue fun ⟨hkey, hvalue⟩ => ⟨h.isString_rangeKey hkey, h.isValue_rangeField hvalue⟩
  | elements harray => exact harray.isValue h.isValue_rangeField

theorem isValue_setting {setting : Setting} (ht : setting.Value s t) : IsValue t := by
  cases ht with
  | callTimeoutMs htimeout => exact htimeout.isValue fun hms => .number (h.isNumber hms)
  | parameterRanges hranges => exact hranges.isValue fun harray => harray.isValue h.isValue_range
  | overrides hoverrides =>
    obtain ⟨entries, hobject, -⟩ := hoverrides
    refine hobject.isValue ?_
    rintro key value entry ⟨rfl, hvalue⟩
    exact ⟨isString_quoted_toString _, .string hvalue.isString⟩

/-- **Every configuration is a JSON value.** -/
theorem isValue (ht : ConfigText s t config) : IsValue t := by
  cases ht with
  | members hobject _ =>
    exact hobject.isValue fun ⟨hkey, hvalue⟩ => ⟨hkey.isString, h.isValue_setting hvalue⟩
  | elements harray _ => exact harray.isValue h.isValue_setting

end Spelling.IsJson

/-! ### Documents -/

namespace Config

/-- What a reader of the whole text accepts. -/
theorem ofText_eq_ok {cs : List Char} : ofText cs = .ok config ↔
    ∃ rest, read cs = .ok (config, rest) ∧ IsBlanks rest := by
  rw [ofText, bind_eq_ok]
  constructor
  · rintro ⟨⟨config', rest⟩, hread, hend⟩
    dsimp only at hend
    split at hend
    · next hrest =>
      cases hend
      exact ⟨rest, hread, skipBlanks_eq_nil_iff.mp (List.isEmpty_iff.mp hrest)⟩
    · cases hend
  · rintro ⟨rest, hread, hrest⟩
    refine ⟨_, hread, ?_⟩
    simp only [skipBlanks_eq_nil_iff.mpr hrest, List.isEmpty_nil, if_true]

/-- A text and the configuration that it stands for. -/
theorem ofText_eq_ok_iff : ofText cs = .ok config ↔ IsDocument .exact cs config := by
  rw [ofText_eq_ok]
  constructor
  · rintro ⟨b', hread, hb'⟩
    obtain ⟨b, t, hb, ht, rfl⟩ := reads_read.sound hread
    exact ⟨b, t, b', hb, hb', Spelling.isJson_exact.isValue ht, ht, rfl⟩
  · rintro ⟨b, t, b', hb, hb', -, ht, rfl⟩
    exact ⟨b', reads_read.complete hb ht hb'.stops, hb'⟩

theorem ofJson_eq_ok {text : String} : ofJson text = .ok config ↔ ofText text.toList = .ok config := by
  rw [ofJson]
  cases ofText text.toList <;> simp [Except.mapError]

/-- **A text is accepted as a configuration exactly if it is a document that stands for it.** -/
theorem ofJson_eq_ok_iff (text : String) (config : Config) :
    ofJson text = .ok config ↔ IsDocument .exact text.toList config :=
  ofJson_eq_ok.trans ofText_eq_ok_iff

/-- One range, written with minus zero for its first status. -/
def minusZero : String :=
  "\x7b\"parameter_ranges\":[[-0,1,1]]\x7d"

/-- One range with one more field, whose key is half a pair. -/
def loneUnit : String :=
  "\x7b\"parameter_ranges\":" ++
    "[\x7b\"\\ud800\":null,\"first_code\":1,\"last_code\":1,\"first_index\":1\x7d]\x7d"

/-- The document whose only setting are the parameter ranges. -/
theorem isDocument_parameterRanges {ranges : Option (List ParameterRange)} (h : s.IsJson)
    (ht : OptionalText (ArrayOf (RangeText s)) t ranges) :
    IsDocument s ('\x7b' :: '"' :: ("parameter_ranges".toList ++ '"' :: ':' :: (t ++ ['\x7d'])))
      { parameterRanges := ranges } := by
  have hkey := stringLiteral_of_isPlain "parameter_ranges" (by decide)
  have hobject : ConfigText s _ (ofSettings [.parameterRanges ranges]) :=
    .members ⟨_, .items (.last isBlanks_nil isBlanks_nil), .cons
      ⟨_, t, .intro isBlanks_nil isBlanks_nil, hkey, .parameterRanges ht⟩ .nil⟩ (List.nodup_singleton _)
  exact ⟨[], _, [], isBlanks_nil, isBlanks_nil, h.isValue hobject, hobject, by simp⟩

/-- **Two documents are refused** though all in them is JSON: one with minus zero, which stands for an
integer in the range of its field, and one with an ignored field whose key stands for no text. -/
theorem refused_documents :
    (IsDocument .json minusZero.toList { parameterRanges := some [⟨0, 1, 1⟩] } ∧
      ofJson minusZero = .error (.flawed .unacceptable)) ∧
    IsDocument .json loneUnit.toList { parameterRanges := some [⟨1, 1, 1⟩] } ∧
      ofJson loneUnit = .error (.flawed .malformed) := by
  have hone : IntegerLiteral ['1'] 1 :=
    .unsigned ⟨⟨by decide, List.forall_mem_singleton.mpr (by decide)⟩, nofun⟩
  have hzero : IntegerLiteral ['-', '0'] 0 :=
    .minus ⟨⟨by decide, List.forall_mem_singleton.mpr (by decide)⟩, fun _ => rfl⟩
  refine ⟨⟨?_, rfl⟩, ?_, rfl⟩
  · have hfields : ArrayOf (RangeField.Value .json) _ [.firstCode 0, .lastCode 1, .firstIndex 1] :=
      .of_follows isBlanks_nil (.firstCode hzero)
        (.more isBlanks_nil isBlanks_nil (.lastCode hone)
          (.more isBlanks_nil isBlanks_nil (.firstIndex hone) (.done isBlanks_nil)))
    have hranges : ArrayOf (RangeText .json) _ [⟨0, 1, 1⟩] :=
      .of_follows isBlanks_nil (.elements hfields) (.done isBlanks_nil)
    exact isDocument_parameterRanges Spelling.isJson_json (.some hranges)
  · have hignored : Spelling.json.ignoredKey ['"', '\\', 'u', 'd', '8', '0', '0', '"'] := by
      have hunit : Hex4 ['d', '8', '0', '0'] _ := .intro rfl rfl rfl rfl
      have hbody : IsStringBody ['\\', 'u', 'd', '8', '0', '0'] := .unit hunit .nil
      refine ⟨.intro hbody, fun name _ hname => ?_⟩
      obtain ⟨tail, htail, hread⟩ := readText_complete hname
      cases htail
      cases hread []
    have hfields : ObjectOf (fun key value (field : RangeField) =>
          field.Key .json key ∧ field.Value .json value) _
        [.other, .firstCode 1, .lastCode 1, .firstIndex 1] :=
      ⟨_, .items (.more isBlanks_nil isBlanks_nil (.more isBlanks_nil isBlanks_nil
          (.more isBlanks_nil isBlanks_nil (.last isBlanks_nil isBlanks_nil)))),
        .cons ⟨_, _, .intro isBlanks_nil isBlanks_nil, hignored, .other .null⟩ <|
        .cons ⟨_, _, .intro isBlanks_nil isBlanks_nil,
          stringLiteral_of_isPlain "first_code" (by decide), .firstCode hone⟩ <|
        .cons ⟨_, _, .intro isBlanks_nil isBlanks_nil,
          stringLiteral_of_isPlain "last_code" (by decide), .lastCode hone⟩ <|
        .cons ⟨_, _, .intro isBlanks_nil isBlanks_nil,
          stringLiteral_of_isPlain "first_index" (by decide), .firstIndex hone⟩ .nil⟩
    have hranges : ArrayOf (RangeText .json) _ [⟨1, 1, 1⟩] :=
      .of_follows isBlanks_nil (.members hfields rfl rfl rfl) (.done isBlanks_nil)
    exact isDocument_parameterRanges Spelling.isJson_json (.some hranges)

end Config

end CommandBridge
