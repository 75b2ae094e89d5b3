import CommandBridge.Proofs.Json.Text
import CommandBridge.Proofs.Json.Layout

/-!
# Texts made of tokens

A value is written as a row of tokens, and blanks may stand before, between and behind them.
Whichever blanks there are, the text is the value with blanks around it:

* `Spaced` — the text has these tokens, with any blanks; `Spaced.flatten` — or with none;
* `Writes` — these tokens, with any blanks, are what `P` says, with blanks around it;
* `writes_enclosed`, `writes_member` — arrays, objects and their members from their tokens;
* `stringLiteral_quote` — a written string is one token that stands for the string.
-/

namespace CommandBridge.Json

variable {α : Type} {b t text : List Char} {c : Char} {ts us : List (List Char)}
  {P Q : List Char → Prop}

/-- The text is the tokens in their order, with blanks before, between and behind them. -/
inductive Spaced : List (List Char) → List Char → Prop where
  | done {b : List Char} : IsBlanks b → Spaced [] b
  | token {b t text : List Char} {ts : List (List Char)} : IsBlanks b → Spaced ts text →
      Spaced (t :: ts) (b ++ (t ++ text))

/-- Whichever blanks stand between the tokens, what they make is a text of `P` with blanks around. -/
def Writes (ts : List (List Char)) (P : List Char → Prop) : Prop :=
  ∀ ⦃text : List Char⦄, Spaced ts text →
    ∃ b t b', IsBlanks b ∧ IsBlanks b' ∧ P t ∧ text = b ++ (t ++ b')

/-! ### Tokens and blanks -/

/-- The tokens alone, without blanks. -/
theorem Spaced.flatten : Spaced ts ts.flatten := by
  induction ts with
  | nil => exact .done isBlanks_nil
  | cons t ts ih => exact .token isBlanks_nil ih

/-- Tokens that follow others have their own part of the text. -/
theorem Spaced.exists_append (h : Spaced (ts ++ us) text) :
    ∃ front back, text = front ++ back ∧ Spaced ts front ∧ Spaced us back := by
  induction ts generalizing text with
  | nil => exact ⟨[], text, rfl, .done isBlanks_nil, h⟩
  | cons t ts ih =>
    cases h with
    | token hb htext =>
      obtain ⟨front, back, rfl, hfront, hback⟩ := ih htext
      exact ⟨_, back, by simp, .token hb hfront, hback⟩

/-- A token in front of others. -/
theorem Spaced.exists_token (h : Spaced (t :: ts) text) :
    ∃ b back, text = b ++ (t ++ back) ∧ IsBlanks b ∧ Spaced ts back := by
  cases h with
  | token hb hback => exact ⟨_, _, rfl, hb, hback⟩

/-- A token behind the blanks at the front. -/
theorem Spaced.of_skipBlanks {back : List Char} (h : skipBlanks text = t ++ back)
    (hback : Spaced ts back) : Spaced (t :: ts) text := by
  obtain ⟨b, hb, htext⟩ := exists_blanks text
  rw [htext, h]
  exact .token hb hback

theorem Spaced.isBlanks (h : Spaced [] text) : IsBlanks text := by
  cases h with
  | done hb => exact hb

theorem Writes.of_token (ht : P t) : Writes [t] P := by
  intro text h
  obtain ⟨b, back, rfl, hb, hback⟩ := h.exists_token
  exact ⟨b, t, back, hb, hback.isBlanks, ht, rfl⟩

theorem Writes.imp (h : Writes ts P) (hPQ : ∀ t, P t → Q t) : Writes ts Q := by
  intro text htext
  obtain ⟨b, t, b', hb, hb', ht, rfl⟩ := h htext
  exact ⟨b, t, b', hb, hb', hPQ t ht, rfl⟩

/-! ### Arrays and objects -/

/-- Items with a comma between each two. -/
def commaTokens (items : List (List (List Char))) : List (List Char) :=
  [[',']].intercalate items

/-- Items between two brackets. -/
def enclosedTokens (opening closing : Char) (items : List (List (List Char))) : List (List Char) :=
  [opening] :: (commaTokens items ++ [[closing]])

/-- A key without escapes and its value. -/
def memberTokens (key : String) (value : List (List Char)) : List (List Char) :=
  ('"' :: (key.toList ++ ['"'])) :: [':'] :: value

/-- Blanks behind the last item belong to it. -/
theorem Listed.append_blanks {items : List (List Char)} {body : List Char} (h : Listed items body)
    (hb : IsBlanks b) : Listed items (body ++ b) := by
  induction h with
  | last hb₁ hb₂ => simpa using Listed.last hb₁ (hb₂.append hb)
  | more hb₁ hb₂ _ ih => simpa using Listed.more hb₁ hb₂ ih

variable {R : List Char → α → Prop} {items : List (List (List Char))} {as : List α}

/-- Items are listed, each with its blanks, if there are any. -/
theorem exists_listed {item : List (List Char)} {a : α}
    (hitems : List.Forall₂ (fun ts a => Writes ts (R · a)) (item :: items) (a :: as))
    (h : Spaced (commaTokens (item :: items)) text) :
    ∃ texts, Listed texts text ∧ List.Forall₂ R texts (a :: as) := by
  induction items generalizing item a as text with
  | nil =>
    cases hitems with
    | cons hitem hnone =>
      cases hnone
      obtain ⟨b, t, b', hb, hb', ht, rfl⟩ := hitem (by simpa [commaTokens] using h)
      exact ⟨[t], .last hb hb', .cons ht .nil⟩
  | cons item' items ih =>
    cases hitems with
    | cons hitem hlater =>
      rw [commaTokens, List.intercalate_cons_cons, List.append_assoc] at h
      obtain ⟨front, back, rfl, hfront, hback⟩ := h.exists_append
      obtain ⟨b, t, b', hb, hb', ht, rfl⟩ := hitem hfront
      obtain ⟨b'', back', rfl, hb'', hback'⟩ := hback.exists_token
      cases hlater with
      | cons hitem' hlater =>
        obtain ⟨texts, hlisted, htexts⟩ := ih (.cons hitem' hlater) hback'
        refine ⟨t :: texts, ?_, .cons ht htexts⟩
        simpa using Listed.more (t := t) hb (hb'.append hb'') hlisted

/-- **Items between brackets** are enclosed, whichever blanks there are. -/
theorem writes_enclosed {opening closing : Char}
    (hitems : List.Forall₂ (fun ts a => Writes ts (R · a)) items as) :
    Writes (enclosedTokens opening closing items)
      (fun t => ∃ texts, Enclosed opening closing texts t ∧ List.Forall₂ R texts as) := by
  intro text h
  obtain ⟨b, back, rfl, hb, hback⟩ := h.exists_token
  obtain ⟨inside, end', rfl, hinside, hend⟩ := hback.exists_append
  obtain ⟨b', back', rfl, hb', hback'⟩ := hend.exists_token
  cases hitems with
  | nil =>
    have hblanks : IsBlanks (inside ++ b') := hinside.isBlanks.append hb'
    exact ⟨b, _, back', hb, hback'.isBlanks, ⟨[], .empty hblanks, .nil⟩, by simp⟩
  | cons hitem hlater =>
    obtain ⟨texts, hlisted, htexts⟩ := exists_listed (.cons hitem hlater) hinside
    have henclosed : Enclosed opening closing texts _ := .items (hlisted.append_blanks hb')
    exact ⟨b, _, back', hb, hback'.isBlanks, ⟨texts, henclosed, htexts⟩, by simp⟩

/-- **A key and its value** are a member, whichever blanks there are. -/
theorem writes_member {key : String} {value : List (List Char)} (hvalue : Writes value Q) :
    Writes (memberTokens key value)
      (fun t => ∃ v, Member ('"' :: (key.toList ++ ['"'])) v t ∧ Q v) := by
  intro text h
  obtain ⟨b, back, rfl, hb, hback⟩ := h.exists_token
  obtain ⟨b', back', rfl, hb', hback'⟩ := hback.exists_token
  obtain ⟨b'', v, end', hb'', hend, hv, rfl⟩ := hvalue hback'
  exact ⟨b, _, end', hb, hend, ⟨v, .intro hb' hb'', hv⟩, by simp⟩

/-- Without blanks, commas stand between the texts of the items. -/
theorem flatten_commaTokens :
    (commaTokens items).flatten = [','].intercalate (items.map List.flatten) := by
  induction items with
  | nil => rfl
  | cons item items ih =>
    cases items with
    | nil => simp [commaTokens]
    | cons item' items =>
      rw [commaTokens, List.intercalate_cons_cons, List.flatten_append, List.flatten_append,
        ← commaTokens, ih, List.map_cons, List.map_cons, List.map_cons, List.intercalate_cons_cons]
      simp

/-! ### Strings -/

theorem hexValue?_digitChar {d : Nat} (h : d < 16) : hexValue? (Nat.digitChar d) = some d := by
  revert d
  decide

/-- A character is written as something that stands for it. -/
theorem Spells.escapeChar {body s : List Char} (h : Spells body s) :
    Spells (escapeChar c ++ body) (c :: s) := by
  rw [Json.escapeChar]
  split_ifs with hquote hbackslash hbackspace hformFeed hlineFeed hreturn htab hcontrol
  · subst hquote
    exact .short .quote h
  · subst hbackslash
    exact .short .backslash h
  · subst hbackspace
    exact .short .backspace h
  · subst hformFeed
    exact .short .formFeed h
  · subst hlineFeed
    exact .short .lineFeed h
  · subst hreturn
    exact .short .carriageReturn h
  · subst htab
    exact .short .tabulator h
  · have hlt : c.toNat < 32 := hcontrol
    have hhex : Hex4 ('0' :: '0' :: controlDigits c) c.toNat := by
      have hhigh := hexValue?_digitChar (show c.toNat / 16 < 16 by omega)
      have hlow := hexValue?_digitChar (show c.toNat % 16 < 16 by omega)
      have hvalue : ((0 * 16 + 0) * 16 + c.toNat / 16) * 16 + c.toNat % 16 = c.toNat := by omega
      have hdigits : Hex4 ('0' :: '0' :: controlDigits c) _ := .intro rfl rfl hhigh hlow
      exact hvalue ▸ hdigits
    exact .unit hhex h
  · exact .plain ⟨hquote, hbackslash, Char.not_lt.mp hcontrol⟩ h

theorem spells_flatMap_escapeChar (s : List Char) : Spells (s.flatMap escapeChar) s := by
  induction s with
  | nil => exact .nil
  | cons c s ih => exact ih.escapeChar

/-- **A written string stands for the string.** -/
theorem stringLiteral_quote (s : String) : StringLiteral (quote s).toList s := by
  have h := StringLiteral.intro (spells_flatMap_escapeChar s.toList)
  rw [String.ofList_toList] at h
  rw [quote, String.toList_ofList]
  exact h

end CommandBridge.Json
