import CommandBridge.Proofs.Json.Grammar

/-!
# Arrays and objects are read as the grammar lays them out

Whatever the items are, an array or object is read item by item.  Behind an item stands either the
closing bracket or a comma and the items that follow: `Follows` is the text up to the bracket.

* `readElements_sound`, `readElements_complete` — the inside of an array;
* `readMembers_sound`, `readMembers_complete` — the inside of an object, whose members change a
  state one after the other;
* `Reads.of_front` — a reader that passes over blanks first needs to be examined without them;
* `Listed.length_le` — there are no more items than characters.

The readers count down while they go through the items, so what they start with is enough.
-/

namespace CommandBridge.Json

variable {α σ μ : Type} {cs rest b t body : List Char} {c : Char} {isFirst : Bool}
  {items : List (List Char)}

/-! ### Blanks and words -/

theorem isBlanks_nil : IsBlanks [] := nofun

theorem IsBlanks.append {b' : List Char} (hb : IsBlanks b) (hb' : IsBlanks b') :
    IsBlanks (b ++ b') :=
  fun c hc => (List.mem_append.mp hc).elim (hb c) (hb' c)

theorem skipBlanks_append (hb : IsBlanks b) : skipBlanks (b ++ cs) = skipBlanks cs :=
  List.dropWhile_append_of_pos hb

theorem skipBlanks_cons (hc : isBlank c = false) : skipBlanks (c :: cs) = c :: cs :=
  List.dropWhile_cons_of_neg (by simp [hc])

/-- A text is the blanks at its front and what follows. -/
theorem exists_blanks (cs : List Char) : ∃ b, IsBlanks b ∧ cs = b ++ skipBlanks cs :=
  ⟨cs.takeWhile isBlank, fun _ hc => List.all_eq_true.mp List.all_takeWhile _ hc,
    List.takeWhile_append_dropWhile.symm⟩

/-- No blank stands behind the blanks. -/
theorem isBlank_of_skipBlanks (h : skipBlanks cs = c :: rest) : isBlank c = false := by
  have hhead := List.head?_dropWhile_not isBlank cs
  rw [show cs.dropWhile isBlank = c :: rest from h] at hhead
  simpa using hhead

/-- A token behind blanks. -/
theorem skipBlanks_token (hb : IsBlanks b) (hc : isBlank c = false) :
    skipBlanks (b ++ c :: cs) = c :: cs := by
  rw [skipBlanks_append hb, skipBlanks_cons hc]

theorem exists_token (h : skipBlanks cs = c :: rest) : ∃ b, IsBlanks b ∧ cs = b ++ c :: rest := by
  obtain ⟨b, hb, htext⟩ := exists_blanks cs
  exact ⟨b, hb, by rw [← h]; exact htext⟩

theorem skipWord_eq_ok {word : List Char} : skipWord word cs = .ok rest ↔ cs = word ++ rest := by
  induction word generalizing cs with
  | nil => exact ⟨fun h => Except.ok.inj h, fun h => congrArg Except.ok h⟩
  | cons letter word ih =>
    cases cs with
    | nil => exact ⟨nofun, nofun⟩
    | cons c cs =>
      rw [skipWord]
      split
      · next hc => rw [ih, hc, List.cons_append, List.cons_inj_right]
      · next hc => exact ⟨nofun, fun h => absurd (List.cons.inj h).1 hc⟩

theorem skipColon_sound (h : skipColon cs = .ok rest) : ∃ b, IsBlanks b ∧ cs = b ++ ':' :: rest := by
  rw [skipColon] at h
  split at h
  · cases h
  · next c cs' hskip =>
    split at h
    · next hc =>
      cases h
      exact hc ▸ exists_token hskip
    · cases h

theorem skipColon_complete (hb : IsBlanks b) : skipColon (b ++ ':' :: rest) = .ok rest := by
  rw [skipColon, skipBlanks_token hb (by decide)]
  rfl

theorem closeArray_sound (h : closeArray cs = .ok rest) :
    ∃ b, IsBlanks b ∧ cs = b ++ ']' :: rest := by
  rw [closeArray] at h
  split at h
  · cases h
  · next c cs' hskip =>
    split at h
    · next hc =>
      cases h
      exact hc ▸ exists_token hskip
    · cases h

theorem closeArray_complete (hb : IsBlanks b) : closeArray (b ++ ']' :: rest) = .ok rest := by
  rw [closeArray, skipBlanks_token hb (by decide)]
  rfl

/-- A reader that passes over blanks first takes the texts of `P` if it does so without blanks. -/
theorem Reads.of_front {read : Reader α} {P : List Char → α → Prop}
    (hstarts : ∀ {t a}, P t a → Starts t)
    (hblanks : ∀ cs, read cs = read (skipBlanks cs)) (hnil : ∀ x, read [] ≠ .ok x)
    (hsound : ∀ {c cs a rest}, isBlank c = false → read (c :: cs) = .ok (a, rest) →
      ∃ t, P t a ∧ c :: cs = t ++ rest)
    (hcomplete : ∀ {t a rest}, P t a → Stops rest → read (t ++ rest) = .ok (a, rest)) :
    Reads read P where
  starts := hstarts
  sound {cs rest a} h := by
    rw [hblanks] at h
    cases hskip : skipBlanks cs with
    | nil =>
      rw [hskip] at h
      exact absurd h (hnil _)
    | cons c cs' =>
      rw [hskip] at h
      obtain ⟨t, ht, htext⟩ := hsound (isBlank_of_skipBlanks hskip) h
      obtain ⟨b, hb, hcs⟩ := exists_token hskip
      exact ⟨b, t, hb, ht, by rw [hcs, htext]⟩
  complete {b t rest a} hb ht hrest := by
    rw [hblanks, skipBlanks_append hb, ← hblanks]
    exact hcomplete ht hrest

/-! ### What stands behind an item -/

/-- The text between an item and the closing bracket, and the items in it. -/
inductive Follows : List (List Char) → List Char → Prop where
  | done {b : List Char} : IsBlanks b → Follows [] b
  | more {b body : List Char} {items : List (List Char)} : IsBlanks b → Listed items body →
      Follows items (b ++ ',' :: body)

theorem Listed.of_follows (hb : IsBlanks b) (h : Follows items body) :
    Listed (t :: items) (b ++ (t ++ body)) := by
  cases h with
  | done hb' => exact .last hb hb'
  | more hb' hlisted => exact .more hb hb' hlisted

/-- Items start with one, and the others follow. -/
theorem Listed.exists_follows (h : Listed items body) :
    ∃ b t items' body', items = t :: items' ∧ body = b ++ (t ++ body') ∧ IsBlanks b ∧
      Follows items' body' := by
  cases h with
  | last hb hb' => exact ⟨_, _, _, _, rfl, rfl, hb, .done hb'⟩
  | more hb hb' hlisted => exact ⟨_, _, _, _, rfl, rfl, hb, .more hb' hlisted⟩

/-- The first of the items that follow, behind its comma. -/
theorem Follows.exists_first (h : Follows (t :: items) body) :
    ∃ b b' body', body = b ++ ',' :: (b' ++ (t ++ body')) ∧ IsBlanks b ∧ IsBlanks b' ∧
      Follows items body' := by
  cases h with
  | more hb hlisted =>
    obtain ⟨b', t, items', body', heq, rfl, hb', hfollows⟩ := hlisted.exists_follows
    cases heq
    exact ⟨_, b', body', rfl, hb, hb', hfollows⟩

theorem Follows.isBlanks (h : Follows [] body) : IsBlanks body := by
  cases h with
  | done hb => exact hb
  | more _ hlisted =>
    obtain ⟨_, _, _, _, hitems, _⟩ := hlisted.exists_follows
    cases hitems

/-- There are no more items than characters between the brackets, but for the first. -/
theorem Listed.length_le (h : Listed items body) : items.length ≤ body.length + 1 := by
  induction h with
  | last => simp
  | more _ _ _ ih =>
    simp only [List.length_cons, List.length_append]
    omega

/-- What stands behind an item does not belong to it. -/
theorem Follows.stops {closing : Char} (hclosing : closing = ']' ∨ closing = '\x7d')
    (h : Follows items body) : Stops (body ++ closing :: rest) := by
  have hblanks : ∀ {b : List Char} {d : Char} {cs : List Char}, IsBlanks b →
      (d = ',' ∨ d = ']' ∨ d = '\x7d') → Stops (b ++ d :: cs) := by
    intro b d cs hb hd
    cases b with
    | nil =>
      rintro _ ⟨⟩
      exact .inr hd
    | cons e b =>
      rintro _ ⟨⟩
      exact .inl (hb e List.mem_cons_self)
  cases h with
  | done hb => exact hblanks hb (.inr hclosing)
  | more hb _ =>
    rw [List.append_assoc, List.cons_append]
    exact hblanks hb (.inl rfl)

/-! ### Elements -/

theorem nextElement_first_sound {next : Next} (h : nextElement true cs = .ok next) :
    ∃ b rest, IsBlanks b ∧
      (next = .closed rest ∧ cs = b ++ ']' :: rest ∨ next = .item rest ∧ cs = b ++ rest) := by
  rw [nextElement] at h
  split at h
  · cases h
  · next c cs' hskip =>
    obtain ⟨b, hb, rfl⟩ := exists_token hskip
    split at h
    · next hc =>
      cases h
      exact ⟨b, _, hb, .inl ⟨rfl, by rw [hc]⟩⟩
    · rw [if_pos rfl] at h
      cases h
      exact ⟨b, _, hb, .inr ⟨rfl, rfl⟩⟩

theorem nextElement_later_sound {next : Next} (h : nextElement false cs = .ok next) :
    ∃ b rest, IsBlanks b ∧ (next = .closed rest ∧ cs = b ++ ']' :: rest ∨
      ∃ b', next = .item rest ∧ IsBlanks b' ∧ cs = b ++ ',' :: (b' ++ rest)) := by
  rw [nextElement] at h
  split at h
  · cases h
  · next c cs' hskip =>
    obtain ⟨b, hb, rfl⟩ := exists_token hskip
    split at h
    · next hc =>
      cases h
      exact ⟨b, _, hb, .inl ⟨rfl, by rw [hc]⟩⟩
    · rw [if_neg Bool.false_ne_true] at h
      split at h
      · next hcomma =>
        split at h
        · cases h
        · next d cs'' hskip' =>
          obtain ⟨b', hb', rfl⟩ := exists_token hskip'
          split at h
          · cases h
          · cases h
            exact ⟨b, _, hb, .inr ⟨b', rfl, hb', by rw [hcomma]⟩⟩
      · cases h

theorem nextElement_closed (hb : IsBlanks b) :
    nextElement isFirst (b ++ ']' :: rest) = .ok (.closed rest) := by
  rw [nextElement, skipBlanks_token hb (by decide)]
  rfl

theorem nextElement_first (hb : IsBlanks b) (ht : Starts t) :
    nextElement true (b ++ (t ++ rest)) = .ok (.item (t ++ rest)) := by
  obtain ⟨c, s, rfl, hc, hbracket⟩ := ht
  rw [nextElement, List.cons_append, skipBlanks_token hb hc]
  simp [hbracket]

theorem nextElement_later {b' : List Char} (hb : IsBlanks b) (hb' : IsBlanks b') (ht : Starts t) :
    nextElement false (b ++ ',' :: (b' ++ (t ++ rest))) = .ok (.item (t ++ rest)) := by
  obtain ⟨c, s, rfl, hc, hbracket⟩ := ht
  rw [nextElement, skipBlanks_token hb (by decide)]
  simp only [List.cons_append, skipBlanks_token hb' hc]
  simp [hbracket]

variable {read : Reader α} {P : List Char → α → Prop} {as : List α} {a : α} {fuel : Nat}

/-- The elements behind one that was read. -/
theorem readElements_later_sound
    (hread : ∀ {cs rest a}, read cs = .ok (a, rest) →
      ∃ b t, IsBlanks b ∧ P t a ∧ cs = b ++ (t ++ rest))
    (h : readElements read fuel false cs = .ok (as, rest)) :
    ∃ items body, Follows items body ∧ List.Forall₂ P items as ∧ cs = body ++ ']' :: rest := by
  induction fuel generalizing cs as with
  | zero => cases h
  | succ fuel ih =>
    obtain ⟨next, hnext, hread'⟩ := bind_eq_ok.mp h
    obtain ⟨b, rest', hb, ⟨rfl, rfl⟩ | ⟨b', rfl, hb', rfl⟩⟩ := nextElement_later_sound hnext
    · cases hread'
      exact ⟨[], b, .done hb, .nil, rfl⟩
    · obtain ⟨⟨a, rest₁⟩, hitem, hread'⟩ := bind_eq_ok.mp hread'
      obtain ⟨⟨as', rest₂⟩, hitems, hpair⟩ := bind_eq_ok.mp hread'
      cases hpair
      obtain ⟨b'', t, hb'', ht, rfl⟩ := hread hitem
      obtain ⟨items, body, hfollows, hforall, rfl⟩ := ih hitems
      have hlisted : Listed (t :: items) ((b' ++ b'') ++ (t ++ body)) :=
        .of_follows (hb'.append hb'') hfollows
      exact ⟨t :: items, _, .more hb hlisted, .cons ht hforall, by simp⟩

/-- **The elements that were read are those of an array.** -/
theorem readElements_sound
    (hread : ∀ {cs rest a}, read cs = .ok (a, rest) →
      ∃ b t, IsBlanks b ∧ P t a ∧ cs = b ++ (t ++ rest))
    (h : readElements read fuel true cs = .ok (as, rest)) :
    ∃ t, ArrayOf P t as ∧ '[' :: cs = t ++ rest := by
  cases fuel with
  | zero => cases h
  | succ fuel =>
    obtain ⟨next, hnext, hread'⟩ := bind_eq_ok.mp h
    obtain ⟨b, rest', hb, ⟨rfl, rfl⟩ | ⟨rfl, rfl⟩⟩ := nextElement_first_sound hnext
    · cases hread'
      exact ⟨_, ⟨[], .empty hb, .nil⟩, by simp⟩
    · obtain ⟨⟨a, rest₁⟩, hitem, hread'⟩ := bind_eq_ok.mp hread'
      obtain ⟨⟨as', rest₂⟩, hitems, hpair⟩ := bind_eq_ok.mp hread'
      cases hpair
      obtain ⟨b', t, hb', ht, rfl⟩ := hread hitem
      obtain ⟨items, body, hfollows, hforall, rfl⟩ := readElements_later_sound hread hitems
      have hlisted : Listed (t :: items) ((b ++ b') ++ (t ++ body)) :=
        .of_follows (hb.append hb') hfollows
      exact ⟨_, ⟨t :: items, .items hlisted, .cons ht hforall⟩, by simp⟩

/-- The reader takes this text, wherever it stands as a value. -/
def Takes (read : Reader α) (t : List Char) (a : α) : Prop :=
  Starts t ∧ ∀ rest, Stops rest → read (t ++ rest) = .ok (a, rest)

/-- The elements behind one that was read are read if there is enough to count down from. -/
theorem readElements_later_complete (htakes : List.Forall₂ (Takes read) items as)
    (hfollows : Follows items body) (hfuel : items.length < fuel) :
    readElements read fuel false (body ++ ']' :: rest) = .ok (as, rest) := by
  induction htakes generalizing body fuel with
  | nil =>
    obtain ⟨fuel, rfl⟩ := Nat.exists_eq_add_of_lt hfuel
    cases hfollows with
    | done hb => exact bind_eq_ok.mpr ⟨_, nextElement_closed hb, rfl⟩
    | more _ hlisted =>
      obtain ⟨_, _, _, _, hitems, _⟩ := hlisted.exists_follows
      cases hitems
  | @cons t a items as ht _ ih =>
    obtain ⟨fuel, rfl⟩ := Nat.exists_eq_add_of_lt hfuel
    cases hfollows with
    | @more b body _ hb hlisted =>
      obtain ⟨b', t', items', body', heq, rfl, hb', hfollows'⟩ := hlisted.exists_follows
      cases heq
      have hnext : nextElement false (b ++ ',' :: (b' ++ (t ++ body')) ++ ']' :: rest) =
          .ok (.item (t ++ (body' ++ ']' :: rest))) := by
        simpa using nextElement_later hb hb' ht.1
      have hitems : readElements read (items.length + 1 + fuel) false (body' ++ ']' :: rest) =
          .ok (as, rest) := ih hfollows' (by omega)
      refine bind_eq_ok.mpr ⟨_, hnext, ?_⟩
      refine bind_eq_ok.mpr ⟨_, ht.2 _ (hfollows'.stops (.inl rfl)), ?_⟩
      exact bind_eq_ok.mpr ⟨_, hitems, rfl⟩

/-- **An array behind its opening bracket is read.** -/
theorem readElements_complete (htakes : List.Forall₂ (Takes read) items as)
    (ht : Enclosed '[' ']' items ('[' :: body)) (hfuel : items.length < fuel) :
    readElements read fuel true (body ++ rest) = .ok (as, rest) := by
  obtain ⟨fuel, rfl⟩ := Nat.exists_eq_add_of_lt hfuel
  cases ht with
  | empty hb =>
    cases htakes
    rw [List.append_assoc]
    exact bind_eq_ok.mpr ⟨_, nextElement_closed hb, rfl⟩
  | items hlisted =>
    obtain ⟨b, t, items', body, rfl, rfl, hb, hfollows⟩ := hlisted.exists_follows
    cases htakes with
    | cons ht htakes =>
      have hnext : nextElement true (b ++ (t ++ body) ++ [']'] ++ rest) =
          .ok (.item (t ++ (body ++ ']' :: rest))) := by
        simpa using nextElement_first hb ht.1
      have hitems : readElements read (items'.length + 1 + fuel) false (body ++ ']' :: rest) =
          .ok (_, rest) := readElements_later_complete htakes hfollows (by omega)
      refine bind_eq_ok.mpr ⟨_, hnext, ?_⟩
      refine bind_eq_ok.mpr ⟨_, ht.2 _ (hfollows.stops (.inl rfl)), ?_⟩
      exact bind_eq_ok.mpr ⟨_, hitems, rfl⟩

/-- The text between an element and the closing bracket, and what the elements in it are. -/
def ElementsFollow (P : List Char → α → Prop) (as : List α) (body : List Char) : Prop :=
  ∃ items, Follows items body ∧ List.Forall₂ P items as

theorem ElementsFollow.stops (h : ElementsFollow P as body) : Stops (body ++ ']' :: rest) := by
  obtain ⟨items, hfollows, -⟩ := h
  exact hfollows.stops (.inl rfl)

theorem ElementsFollow.isBlanks (h : ElementsFollow P [] body) : IsBlanks body := by
  obtain ⟨items, hfollows, hitems⟩ := h
  cases hitems
  exact hfollows.isBlanks

theorem ElementsFollow.done (hb : IsBlanks b) : ElementsFollow P [] b :=
  ⟨[], .done hb, .nil⟩

theorem ElementsFollow.more {b' : List Char} (hb : IsBlanks b) (hb' : IsBlanks b') (ht : P t a)
    (h : ElementsFollow P as body) : ElementsFollow P (a :: as) (b ++ ',' :: (b' ++ (t ++ body))) := by
  obtain ⟨items, hfollows, hitems⟩ := h
  exact ⟨t :: items, .more hb (.of_follows hb' hfollows), .cons ht hitems⟩

/-- An array is its first element and those that follow. -/
theorem ArrayOf.of_follows (hb : IsBlanks b) (ht : P t a) (h : ElementsFollow P as body) :
    ArrayOf P ('[' :: (b ++ (t ++ (body ++ [']'])))) (a :: as) := by
  obtain ⟨items, hfollows, hitems⟩ := h
  have henclosed : Enclosed '[' ']' (t :: items) ('[' :: (b ++ (t ++ body) ++ [']'])) :=
    .items (.of_follows hb hfollows)
  exact ⟨t :: items, by simpa using henclosed, .cons ht hitems⟩

/-- The next element stands behind a comma. -/
theorem ElementsFollow.exists_next (h : ElementsFollow P (a :: as) body) :
    ∃ b b' t body', body = b ++ ',' :: (b' ++ (t ++ body')) ∧ IsBlanks b ∧ IsBlanks b' ∧ P t a ∧
      ElementsFollow P as body' := by
  obtain ⟨items, hfollows, hitems⟩ := h
  cases hitems with
  | cons ht hitems =>
    obtain ⟨b, b', body', rfl, hb, hb', hfollows'⟩ := hfollows.exists_first
    exact ⟨b, b', _, body', rfl, hb, hb', ht, _, hfollows', hitems⟩

/-- The first element stands behind the opening bracket. -/
theorem ArrayOf.exists_first (h : ArrayOf P ('[' :: cs) (a :: as)) :
    ∃ b t body, cs = b ++ (t ++ (body ++ [']'])) ∧ IsBlanks b ∧ P t a ∧
      ElementsFollow P as body := by
  obtain ⟨items, henclosed, hitems⟩ := h
  cases hitems with
  | cons ht hitems =>
    cases henclosed with
    | items hlisted =>
      obtain ⟨b, t', items', body, heq, rfl, hb, hfollows⟩ := hlisted.exists_follows
      cases heq
      exact ⟨b, _, body, by simp, hb, ht, _, hfollows, hitems⟩

/-- The first element is found and read. -/
theorem ArrayOf.reads_first {β : Type} {readFirst : Reader β} {Q : List Char → β → Prop} {x : β}
    (hreads : Reads readFirst Q) (hvalue : ∀ {t}, P t a → Q t x) (rest : List Char)
    (h : ArrayOf P ('[' :: cs) (a :: as)) :
    ∃ text body, nextElement true (cs ++ rest) = .ok (.item text) ∧
      readFirst text = .ok (x, body ++ ']' :: rest) ∧ ElementsFollow P as body := by
  obtain ⟨b, t, body, rfl, hb, ht, hfollow⟩ := h.exists_first
  refine ⟨t ++ (body ++ ']' :: rest), body, ?_, ?_, hfollow⟩
  · simpa using nextElement_first hb (hreads.starts (hvalue ht))
  · exact hreads.complete isBlanks_nil (hvalue ht) hfollow.stops

/-- The next element is found and read. -/
theorem ElementsFollow.reads_next {β : Type} {readNext : Reader β} {Q : List Char → β → Prop}
    {x : β} (hreads : Reads readNext Q) (hvalue : ∀ {t}, P t a → Q t x) (rest : List Char)
    (h : ElementsFollow P (a :: as) body) :
    ∃ text body', nextElement false (body ++ ']' :: rest) = .ok (.item text) ∧
      readNext text = .ok (x, body' ++ ']' :: rest) ∧ ElementsFollow P as body' := by
  obtain ⟨b, b', t, body', rfl, hb, hb', ht, hfollow⟩ := h.exists_next
  refine ⟨t ++ (body' ++ ']' :: rest), body', ?_, ?_, hfollow⟩
  · simpa using nextElement_later hb hb' (hreads.starts (hvalue ht))
  · exact hreads.complete isBlanks_nil (hvalue ht) hfollow.stops

theorem ArrayOf.isBlanks (h : ArrayOf P ('[' :: cs) []) : ∃ b, IsBlanks b ∧ cs = b ++ [']'] := by
  obtain ⟨items, henclosed, hitems⟩ := h
  cases hitems
  cases henclosed with
  | empty hb => exact ⟨_, hb, rfl⟩
  | items hlisted =>
    obtain ⟨_, _, _, _, hitems, _⟩ := hlisted.exists_follows
    cases hitems

/-! ### Members -/

theorem nextKey_first_sound {next : Next} (h : nextKey true cs = .ok next) :
    ∃ b rest, IsBlanks b ∧
      (next = .closed rest ∧ cs = b ++ '\x7d' :: rest ∨
        next = .item rest ∧ cs = b ++ '"' :: rest) := by
  rw [nextKey] at h
  split at h
  · cases h
  · next c cs' hskip =>
    obtain ⟨b, hb, rfl⟩ := exists_token hskip
    split at h
    · next hc =>
      cases h
      exact ⟨b, _, hb, .inl ⟨rfl, by rw [hc]⟩⟩
    · rw [if_pos rfl] at h
      split at h
      · next hquote =>
        cases h
        exact ⟨b, _, hb, .inr ⟨rfl, by rw [hquote]⟩⟩
      · cases h

theorem nextKey_later_sound {next : Next} (h : nextKey false cs = .ok next) :
    ∃ b rest, IsBlanks b ∧ (next = .closed rest ∧ cs = b ++ '\x7d' :: rest ∨
      ∃ b', next = .item rest ∧ IsBlanks b' ∧ cs = b ++ ',' :: (b' ++ '"' :: rest)) := by
  rw [nextKey] at h
  split at h
  · cases h
  · next c cs' hskip =>
    obtain ⟨b, hb, rfl⟩ := exists_token hskip
    split at h
    · next hc =>
      cases h
      exact ⟨b, _, hb, .inl ⟨rfl, by rw [hc]⟩⟩
    · rw [if_neg Bool.false_ne_true] at h
      split at h
      · next hcomma =>
        split at h
        · cases h
        · next d cs'' hskip' =>
          obtain ⟨b', hb', rfl⟩ := exists_token hskip'
          split at h
          · next hquote =>
            cases h
            exact ⟨b, _, hb, .inr ⟨b', rfl, hb', by rw [hcomma, hquote]⟩⟩
          · cases h
      · cases h

theorem nextKey_closed (hb : IsBlanks b) :
    nextKey isFirst (b ++ '\x7d' :: rest) = .ok (.closed rest) := by
  rw [nextKey, skipBlanks_token hb (by decide)]
  rfl

theorem nextKey_first (hb : IsBlanks b) : nextKey true (b ++ '"' :: rest) = .ok (.item rest) := by
  rw [nextKey, skipBlanks_token hb (by decide)]
  rfl

theorem nextKey_later {b' : List Char} (hb : IsBlanks b) (hb' : IsBlanks b') :
    nextKey false (b ++ ',' :: (b' ++ '"' :: rest)) = .ok (.item rest) := by
  rw [nextKey, skipBlanks_token hb (by decide)]
  simp only [skipBlanks_token hb' (show isBlank '"' = false by decide)]
  rfl

variable {member : σ → Reader σ} {M : List Char → μ → Prop} {step : σ → μ → Option σ}
  {state state' : σ} {ms : List μ}

/-- What is read as a member is one of those that `M` describes, and changes the state as `step`
says. -/
def SoundMember (member : σ → Reader σ) (M : List Char → μ → Prop) (step : σ → μ → Option σ) :
    Prop :=
  ∀ ⦃cs rest : List Char⦄ ⦃state state' : σ⦄, member state cs = .ok (state', rest) →
    ∃ t m, M t m ∧ step state m = some state' ∧ '"' :: cs = t ++ rest

/-- The text is read as the member `m`, whatever the state, as long as `m` can change it. -/
def TakesMember (member : σ → Reader σ) (step : σ → μ → Option σ) (t : List Char) (m : μ) : Prop :=
  ∃ tail, t = '"' :: tail ∧ ∀ ⦃state state' : σ⦄ ⦃rest : List Char⦄, step state m = some state' →
    Stops rest → member state (tail ++ rest) = .ok (state', rest)

/-- Members change a state one after the other. -/
theorem foldlM_cons_eq_some {m : μ} : (m :: ms).foldlM step state = some state' ↔
    ∃ state₁, step state m = some state₁ ∧ ms.foldlM step state₁ = some state' := by
  rw [List.foldlM_cons]
  exact Option.bind_eq_some_iff

/-- The members behind one that was read. -/
theorem readMembers_later_sound (hmember : SoundMember member M step)
    (h : readMembers member fuel false state cs = .ok (state', rest)) :
    ∃ items body ms, Follows items body ∧ List.Forall₂ M items ms ∧
      ms.foldlM step state = some state' ∧ cs = body ++ '\x7d' :: rest := by
  induction fuel generalizing cs state with
  | zero => cases h
  | succ fuel ih =>
    obtain ⟨next, hnext, hread⟩ := bind_eq_ok.mp h
    obtain ⟨b, rest', hb, ⟨rfl, rfl⟩ | ⟨b', rfl, hb', rfl⟩⟩ := nextKey_later_sound hnext
    · cases hread
      exact ⟨[], b, [], .done hb, .nil, rfl, rfl⟩
    · obtain ⟨⟨state₁, rest₁⟩, hfirst, hread⟩ := bind_eq_ok.mp hread
      obtain ⟨t, m, ht, hstep, htext⟩ := hmember hfirst
      obtain ⟨items, body, ms, hfollows, hforall, hfold, rfl⟩ := ih hread
      refine ⟨t :: items, _, m :: ms, .more hb (.of_follows hb' hfollows), .cons ht hforall, ?_, ?_⟩
      · exact foldlM_cons_eq_some.mpr ⟨_, hstep, hfold⟩
      · simp [htext]

/-- **The members that were read are those of an object.** -/
theorem readMembers_sound (hmember : SoundMember member M step)
    (h : readMembers member fuel true state cs = .ok (state', rest)) :
    ∃ t items ms, Enclosed '\x7b' '\x7d' items t ∧ List.Forall₂ M items ms ∧
      ms.foldlM step state = some state' ∧ '\x7b' :: cs = t ++ rest := by
  cases fuel with
  | zero => cases h
  | succ fuel =>
    obtain ⟨next, hnext, hread⟩ := bind_eq_ok.mp h
    obtain ⟨b, rest', hb, ⟨rfl, rfl⟩ | ⟨rfl, rfl⟩⟩ := nextKey_first_sound hnext
    · cases hread
      exact ⟨_, [], [], .empty hb, .nil, rfl, by simp⟩
    · obtain ⟨⟨state₁, rest₁⟩, hfirst, hread⟩ := bind_eq_ok.mp hread
      obtain ⟨t, m, ht, hstep, htext⟩ := hmember hfirst
      obtain ⟨items, body, ms, hfollows, hforall, hfold, rfl⟩ :=
        readMembers_later_sound hmember hread
      refine ⟨_, t :: items, m :: ms, .items (.of_follows hb hfollows), .cons ht hforall, ?_, ?_⟩
      · exact foldlM_cons_eq_some.mpr ⟨_, hstep, hfold⟩
      · simp [htext]

/-- The members behind one that was read are read if there is enough to count down from. -/
theorem readMembers_later_complete (htakes : List.Forall₂ (TakesMember member step) items ms)
    (hfold : ms.foldlM step state = some state') (hfollows : Follows items body)
    (hfuel : items.length < fuel) :
    readMembers member fuel false state (body ++ '\x7d' :: rest) = .ok (state', rest) := by
  induction htakes generalizing body fuel state with
  | nil =>
    obtain ⟨fuel, rfl⟩ := Nat.exists_eq_add_of_lt hfuel
    cases hfold
    cases hfollows with
    | done hb => exact bind_eq_ok.mpr ⟨_, nextKey_closed hb, rfl⟩
    | more _ hlisted =>
      obtain ⟨_, _, _, _, hitems, _⟩ := hlisted.exists_follows
      cases hitems
  | @cons t m items ms ht _ ih =>
    obtain ⟨fuel, rfl⟩ := Nat.exists_eq_add_of_lt hfuel
    obtain ⟨state₁, hstep, hfold⟩ := foldlM_cons_eq_some.mp hfold
    obtain ⟨tail, rfl, ht⟩ := ht
    cases hfollows with
    | @more b body _ hb hlisted =>
      obtain ⟨b', t', items', body', heq, rfl, hb', hfollows'⟩ := hlisted.exists_follows
      cases heq
      have hnext : nextKey false (b ++ ',' :: (b' ++ ('"' :: tail ++ body')) ++ '\x7d' :: rest) =
          .ok (.item (tail ++ (body' ++ '\x7d' :: rest))) := by
        simpa using nextKey_later hb hb'
      have hitems : readMembers member (items.length + 1 + fuel) false state₁
          (body' ++ '\x7d' :: rest) = .ok (state', rest) := ih hfold hfollows' (by omega)
      refine bind_eq_ok.mpr ⟨_, hnext, ?_⟩
      exact bind_eq_ok.mpr ⟨_, ht hstep (hfollows'.stops (.inr rfl)), hitems⟩

/-- **An object behind its opening bracket is read.** -/
theorem readMembers_complete (htakes : List.Forall₂ (TakesMember member step) items ms)
    (hfold : ms.foldlM step state = some state')
    (ht : Enclosed '\x7b' '\x7d' items ('\x7b' :: body)) (hfuel : items.length < fuel) :
    readMembers member fuel true state (body ++ rest) = .ok (state', rest) := by
  obtain ⟨fuel, rfl⟩ := Nat.exists_eq_add_of_lt hfuel
  cases ht with
  | empty hb =>
    cases htakes
    cases hfold
    rw [List.append_assoc]
    exact bind_eq_ok.mpr ⟨_, nextKey_closed hb, rfl⟩
  | items hlisted =>
    obtain ⟨b, t, items', body, rfl, rfl, hb, hfollows⟩ := hlisted.exists_follows
    cases htakes with
    | @cons _ m _ ms ht htakes =>
      obtain ⟨state₁, hstep, hfold⟩ := foldlM_cons_eq_some.mp hfold
      obtain ⟨tail, rfl, ht⟩ := ht
      have hnext : nextKey true (b ++ ('"' :: tail ++ body) ++ ['\x7d'] ++ rest) =
          .ok (.item (tail ++ (body ++ '\x7d' :: rest))) := by
        simpa using nextKey_first hb
      have hitems : readMembers member (items'.length + 1 + fuel) false state₁
          (body ++ '\x7d' :: rest) = .ok (state', rest) :=
        readMembers_later_complete htakes hfold hfollows (by omega)
      refine bind_eq_ok.mpr ⟨_, hnext, ?_⟩
      exact bind_eq_ok.mpr ⟨_, ht hstep (hfollows.stops (.inr rfl)), hitems⟩

end CommandBridge.Json
