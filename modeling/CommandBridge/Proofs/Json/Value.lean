import CommandBridge.Proofs.Json.Layout
import CommandBridge.Proofs.Json.Numeral
import CommandBridge.Proofs.Json.Text

/-!
# Values are read as the grammar says

* `Picks.reads_readWhole` — integers of one width;
* `reads_readString` — strings that stand for a text;
* `Reads.readOptional`, `Reads.readArray` — values that may be `null`, and arrays;
* `reads_skipValue` — any value, where it does not matter.

The reader that passes over a value counts down at every bracket.  It finds the grammar's values by
induction on that count, and goes through each of them by induction on its length: the values inside
of brackets are shorter.
-/

namespace CommandBridge.Json

variable {α : Type} {cs rest b t : List Char} {c : Char} {a : α}
  {P : List Char → α → Prop} {read : Reader α}

/-! ### The first character of a value -/

theorem isBlank_of_isDigit (h : isDigit c = true) : isBlank c = false := by
  rw [← Bool.not_eq_true]
  intro hblank
  simp only [isBlank, Bool.or_eq_true, decide_eq_true_eq] at hblank
  rcases hblank with ((rfl | rfl) | rfl) | rfl <;> exact absurd h (by decide)

theorem starts_of_isDigit {s : List Char} (h : isDigit c = true) : Starts (c :: s) :=
  ⟨c, s, rfl, isBlank_of_isDigit h, by rintro rfl; exact absurd h (by decide)⟩

theorem starts_minus {s : List Char} : Starts ('-' :: s) := ⟨_, _, rfl, by decide, by decide⟩

theorem IntegerLiteral.isNumber {v : Int} (h : IntegerLiteral t v) : IsNumber t := by
  cases h with
  | unsigned hds => exact .unsigned hds.numeralText
  | minus hds => exact .minus hds.numeralText

theorem IsNumber.starts (h : IsNumber t) : Starts t := by
  cases h with
  | unsigned hnumeral =>
    obtain ⟨d, s, rfl, hd⟩ := hnumeral.head
    exact starts_of_isDigit hd
  | minus => exact starts_minus

/-- A number starts with a character that starts numbers. -/
theorem IsNumber.startsNumber (h : IsNumber t) : ∃ c s, t = c :: s ∧ startsNumber c = true := by
  cases h with
  | unsigned hnumeral =>
    obtain ⟨d, s, rfl, hd⟩ := hnumeral.head
    exact ⟨d, s, rfl, by simp [Json.startsNumber, hd]⟩
  | minus => exact ⟨_, _, rfl, by decide⟩

theorem wordTail?_of_startsNumber (h : startsNumber c = true) : wordTail? c = none := by
  have hletters : c ≠ 'n' ∧ c ≠ 't' ∧ c ≠ 'f' := by
    refine ⟨?_, ?_, ?_⟩ <;> (rintro rfl; exact absurd h (by decide))
  simp [wordTail?, hletters]

theorem StringLiteral.starts {text : String} (h : StringLiteral t text) : Starts t := by
  cases h
  exact ⟨_, _, rfl, by decide, by decide⟩

theorem IsString.starts (h : IsString t) : Starts t := by
  cases h
  exact ⟨_, _, rfl, by decide, by decide⟩

theorem Enclosed.starts_array {items : List (List Char)} (h : Enclosed '[' ']' items t) :
    Starts t := by
  cases h <;> exact ⟨_, _, rfl, by decide, by decide⟩

theorem Enclosed.starts_object {items : List (List Char)} (h : Enclosed '\x7b' '\x7d' items t) :
    Starts t := by
  cases h <;> exact ⟨_, _, rfl, by decide, by decide⟩

theorem IsValue.starts (h : IsValue t) : Starts t := by
  cases h with
  | null => exact ⟨_, _, rfl, by decide, by decide⟩
  | true => exact ⟨_, _, rfl, by decide, by decide⟩
  | false => exact ⟨_, _, rfl, by decide, by decide⟩
  | number h => exact h.starts
  | string h => exact h.starts
  | array h _ => exact h.starts_array
  | object h _ _ _ => exact h.starts_object

/-! ### Scalars -/

theorem skipBlanks_skipBlanks : skipBlanks (skipBlanks cs) = skipBlanks cs := by
  obtain ⟨b, hb, htext⟩ := exists_blanks cs
  conv => rhs; rw [htext, skipBlanks_append hb]

/-- A reader that stands at a token takes it from there on. -/
theorem Reads.sound_front (h : Reads read P) (hc : isBlank c = false)
    (hread : read (c :: cs) = .ok (a, rest)) : ∃ t, P t a ∧ c :: cs = t ++ rest := by
  obtain ⟨b, t, hb, ht, htext⟩ := h.sound hread
  cases b with
  | nil => exact ⟨t, ht, htext⟩
  | cons d b =>
    rw [(List.cons.inj htext).1, hb d List.mem_cons_self] at hc
    cases hc

theorem Reads.complete_front (h : Reads read P) (ht : P t a) (hrest : Stops rest) :
    read (t ++ rest) = .ok (a, rest) :=
  h.complete isBlanks_nil ht hrest

theorem Reads.takes (h : Reads read P) (ht : P t a) : Takes read t a :=
  ⟨h.starts ht, fun _ hrest => h.complete_front ht hrest⟩

/-- The numbers of one width: `pick?` takes those that are the value of some word. -/
structure Picks (pick? : Number → Option α) (value : α → Int) : Prop where
  fractional : pick? .fractional = none
  ofInt {v : Int} {a : α} : pick? (.ofInt v) = some a ↔ v = value a
  low (a : α) : -2 ^ 63 ≤ value a
  high (a : α) : value a < 2 ^ 64

/-- **An integer of the wanted width is read with its value**, and nothing else is. -/
theorem Picks.reads_readWhole {pick? : Number → Option α} {value : α → Int}
    (h : Picks pick? value) : Reads (readWhole pick?) (fun t a => IsInteger t (value a)) := by
  refine .of_front (fun ht => ht.1.isNumber.starts) (fun cs => ?_) nofun ?_ ?_
  · rw [readWhole, readWhole, skipBlanks_skipBlanks]
  · intro c cs a rest hc hread
    rw [readWhole, skipBlanks_cons hc] at hread
    dsimp only at hread
    split at hread
    · obtain ⟨⟨number, rest'⟩, hnumber, hpick⟩ := bind_eq_ok.mp hread
      dsimp only at hpick
      split at hpick
      · next a' ha =>
        cases hpick
        rcases readNumber_sound hnumber with rfl | ⟨v, t, rfl, ht, htext⟩
        · cases h.fractional.symm.trans ha
        · exact ⟨t, h.ofInt.mp ha ▸ ht, htext⟩
      · cases hpick
    · cases hread
  · intro t a rest ht hrest
    have hnumber := readNumber_complete ht (h.low a) (h.high a) hrest.endsNumber
    obtain ⟨c, s, rfl, hstart⟩ := ht.1.isNumber.startsNumber
    have hc : isBlank c = false := by
      obtain ⟨c', s', heq, hblank, -⟩ := ht.1.isNumber.starts
      cases heq
      exact hblank
    rw [List.cons_append] at hnumber ⊢
    rw [readWhole, skipBlanks_cons hc]
    simp only [hstart, if_true]
    exact bind_eq_ok.mpr ⟨_, hnumber, by simp only [h.ofInt.mpr rfl]⟩

/-- **A string is read as the text that it stands for.** -/
theorem reads_readString : Reads readString StringLiteral := by
  refine .of_front (fun ht => ht.starts) (fun cs => ?_) nofun ?_ ?_
  · rw [readString, readString, skipBlanks_skipBlanks]
  · intro c cs text rest hc hread
    rw [readString, skipBlanks_cons hc] at hread
    dsimp only at hread
    split at hread
    · next hquote => exact hquote ▸ readText_sound hread
    · cases hread
  · intro t text rest ht hrest
    obtain ⟨tail, rfl, hread⟩ := readText_complete ht
    rw [List.cons_append, readString, skipBlanks_cons (by decide)]
    exact hread rest

/-- **What may be missing is read as `null`.** -/
theorem Reads.readOptional (h : Reads read P) (hnull : ∀ {t a}, P t a → t.head? ≠ some 'n') :
    Reads (readOptional read) (OptionalText P) := by
  refine .of_front ?_ (fun cs => ?_) nofun ?_ ?_
  · intro t a ht
    cases ht with
    | null => exact ⟨_, _, rfl, by decide, by decide⟩
    | some ht => exact h.starts ht
  · rw [Json.readOptional, Json.readOptional, skipBlanks_skipBlanks]
  · intro c cs a rest hc hread
    rw [Json.readOptional, skipBlanks_cons hc] at hread
    dsimp only at hread
    split at hread
    · next hn =>
      obtain ⟨rest', hword, hpair⟩ := map_eq_ok.mp hread
      cases hpair
      exact ⟨_, .null, by rw [hn, skipWord_eq_ok.mp hword]; rfl⟩
    · obtain ⟨⟨a', rest'⟩, hsome, hpair⟩ := map_eq_ok.mp hread
      cases hpair
      obtain ⟨t, ht, htext⟩ := h.sound_front hc hsome
      exact ⟨t, .some ht, htext⟩
  · intro t a rest ht hrest
    cases ht with
    | null =>
      show (skipWord ['u', 'l', 'l'] (['u', 'l', 'l'] ++ rest)).map _ = _
      exact map_eq_ok.mpr ⟨rest, skipWord_eq_ok.mpr rfl, rfl⟩
    | some ht =>
      obtain ⟨c, s, rfl, hc, -⟩ := h.starts ht
      have hn : c ≠ 'n' := fun heq => hnull ht (by rw [heq]; rfl)
      rw [List.cons_append, Json.readOptional, skipBlanks_cons hc]
      simp only [hn, if_false]
      exact map_eq_ok.mpr ⟨_, h.complete_front ht hrest, rfl⟩

/-! ### Arrays -/

theorem Enclosed.exists_cons {opening closing : Char} {items : List (List Char)}
    (h : Enclosed opening closing items t) : ∃ body, t = opening :: body := by
  cases h <;> exact ⟨_, rfl⟩

/-- There are fewer items than characters. -/
theorem Enclosed.length_lt {opening closing : Char} {items : List (List Char)}
    (h : Enclosed opening closing items t) : items.length < t.length := by
  cases h with
  | empty => simp
  | items hlisted =>
    have := hlisted.length_le
    simp only [List.length_cons, List.length_append, List.length_nil]
    omega

/-- **An array is read element by element.** -/
theorem Reads.readArray (h : Reads read P) : Reads (readArray read) (ArrayOf P) := by
  refine .of_front ?_ (fun cs => ?_) nofun ?_ ?_
  · rintro t as ⟨items, ht, -⟩
    exact ht.starts_array
  · rw [Json.readArray, Json.readArray, skipBlanks_skipBlanks]
  · intro c cs as rest hc hread
    rw [Json.readArray, skipBlanks_cons hc] at hread
    dsimp only at hread
    split at hread
    · next hbracket => exact hbracket ▸ readElements_sound h.sound hread
    · cases hread
  · rintro t as rest ⟨items, ht, hitems⟩ hrest
    have htakes : List.Forall₂ (Takes read) items as := hitems.imp (fun _ _ => h.takes)
    obtain ⟨body, rfl⟩ := ht.exists_cons
    have hfuel := ht.length_lt
    rw [List.cons_append, Json.readArray, skipBlanks_cons (by decide)]
    refine readElements_complete htakes ht ?_
    simp only [List.length_cons, List.length_append] at hfuel ⊢
    omega

/-! ### Values that do not matter -/

/-- A member whose key and value do not matter. -/
def IgnoredMember (item : List Char) (_ : Unit) : Prop :=
  ∃ key value, Member key value item ∧ IsString key ∧ IsValue value

/-- The reader of such members. -/
def skipMember (fuel : Nat) (_ : Unit) : Reader Unit := fun cs => do
  let rest ← skipText cs
  let rest ← skipColon rest
  skipValueWithin fuel rest

theorem IsValue.of_ignoredMembers {items : List (List Char)} {units : List Unit}
    (ht : Enclosed '\x7b' '\x7d' items t) (hitems : List.Forall₂ IgnoredMember items units) :
    IsValue t := by
  have hmembers : ∃ members : List (List Char × List Char),
      List.Forall₂ (fun m => Member m.1 m.2) members items ∧
        ∀ m ∈ members, IsString m.1 ∧ IsValue m.2 := by
    clear ht
    induction hitems with
    | nil => exact ⟨[], .nil, nofun⟩
    | cons hitem _ ih =>
      obtain ⟨key, value, hmember, hkey, hvalue⟩ := hitem
      obtain ⟨members, hmembers, hall⟩ := ih
      exact ⟨(key, value) :: members, .cons hmember hmembers,
        List.forall_mem_cons.mpr ⟨⟨hkey, hvalue⟩, hall⟩⟩
  obtain ⟨members, hmembers, hall⟩ := hmembers
  exact .object ht hmembers (fun m hm => (hall m hm).1) (fun m hm => (hall m hm).2)

/-- What `skipMember` passes over is a member, if its value is one. -/
theorem soundMember_skipMember {fuel : Nat}
    (hskip : ∀ {cs rest}, skipValueWithin fuel cs = .ok ((), rest) →
      ∃ b t, IsBlanks b ∧ IsValue t ∧ cs = b ++ (t ++ rest)) :
    SoundMember (skipMember fuel) IgnoredMember (fun _ _ => some ()) := by
  intro cs rest _ _ h
  obtain ⟨rest₁, hkey, h⟩ := bind_eq_ok.mp h
  obtain ⟨rest₂, hcolon, hvalue⟩ := bind_eq_ok.mp h
  obtain ⟨key, hstring, htext⟩ := skipText_sound hkey
  obtain ⟨b, hb, rfl⟩ := skipColon_sound hcolon
  obtain ⟨b', value, hb', hisValue, rfl⟩ := hskip hvalue
  exact ⟨_, (), ⟨key, value, .intro hb hb', hstring, hisValue⟩, rfl, by simp [htext]⟩

/-- **What is passed over is a value.** -/
theorem skipValueWithin_sound {fuel : Nat} (h : skipValueWithin fuel cs = .ok ((), rest)) :
    ∃ b t, IsBlanks b ∧ IsValue t ∧ cs = b ++ (t ++ rest) := by
  induction fuel generalizing cs rest with
  | zero => cases h
  | succ fuel ih =>
    obtain ⟨b, hb, hcs⟩ := exists_blanks cs
    suffices ∃ t, IsValue t ∧ skipBlanks cs = t ++ rest by
      obtain ⟨t, ht, htext⟩ := this
      exact ⟨b, t, hb, ht, by rw [← htext]; exact hcs⟩
    rw [skipValueWithin] at h
    split at h
    · cases h
    · next c rest' hskip =>
      rw [hskip]
      split at h
      · next word hword =>
        obtain ⟨rest'', htail, hpair⟩ := map_eq_ok.mp h
        cases hpair
        rw [skipWord_eq_ok.mp htail]
        rw [wordTail?] at hword
        split_ifs at hword with hn ht hf
        · cases hword
          exact ⟨_, .null, by rw [hn]; rfl⟩
        · cases hword
          exact ⟨_, .true, by rw [ht]; rfl⟩
        · cases hword
          exact ⟨_, .false, by rw [hf]; rfl⟩
      · split_ifs at h with hstart hquote harray hobject
        · obtain ⟨rest'', hnumber, hpair⟩ := map_eq_ok.mp h
          cases hpair
          obtain ⟨t, ht, htext⟩ := skipNumber_sound hnumber
          exact ⟨t, .number ht, htext⟩
        · obtain ⟨rest'', hstring, hpair⟩ := map_eq_ok.mp h
          cases hpair
          obtain ⟨t, ht, htext⟩ := skipText_sound hstring
          exact ⟨t, .string ht, by rw [hquote]; exact htext⟩
        · obtain ⟨⟨units, rest''⟩, helements, hpair⟩ := bind_eq_ok.mp h
          cases hpair
          obtain ⟨t, ⟨items, ht, hitems⟩, htext⟩ :=
            readElements_sound (P := fun t _ => IsValue t) ih helements
          have hvalues : List.Forall₂ (fun item _ => IsValue item ∧ True) items units :=
            hitems.imp (fun _ _ hvalue => ⟨hvalue, trivial⟩)
          exact ⟨t, .array ht ((List.forall₂_and_left _ _).mp hvalues).1, by rw [harray]; exact htext⟩
        · obtain ⟨t, items, units, ht, hitems, -, htext⟩ :=
            readMembers_sound (soundMember_skipMember ih) h
          exact ⟨t, .of_ignoredMembers ht hitems, by rw [hobject]; exact htext⟩

/-- Items are shorter than the text between the brackets. -/
theorem Listed.length_of_mem {items : List (List Char)} {body item : List Char}
    (h : Listed items body) (hitem : item ∈ items) : item.length ≤ body.length := by
  induction h with
  | last =>
    cases List.mem_singleton.mp hitem
    simp only [List.length_append]
    omega
  | more _ _ _ ih =>
    simp only [List.length_append, List.length_cons]
    rcases List.mem_cons.mp hitem with rfl | hlater
    · omega
    · have := ih hlater
      omega

theorem Enclosed.length_of_mem {opening closing : Char} {items : List (List Char)}
    {item : List Char} (h : Enclosed opening closing items t) (hitem : item ∈ items) :
    item.length + 1 < t.length := by
  cases h with
  | empty => cases hitem
  | items hlisted =>
    have := hlisted.length_of_mem hitem
    simp only [List.length_cons, List.length_append, List.length_nil]
    omega

theorem Member.length_value {key value item : List Char} (h : Member key value item) :
    value.length < item.length := by
  cases h
  simp only [List.length_append, List.length_cons]
  omega

/-- A member whose value is passed over is passed over. -/
theorem takesMember_skipMember {fuel : Nat} {key value item : List Char}
    (hitem : Member key value item) (hkey : IsString key)
    (hvalue : ∀ {b rest}, IsBlanks b → Stops rest →
      skipValueWithin fuel (b ++ (value ++ rest)) = .ok ((), rest)) :
    TakesMember (skipMember fuel) (fun _ _ => some ()) item () := by
  cases hitem with
  | @intro b b' _ hb hb' =>
    obtain ⟨body, rfl, hskip⟩ := skipText_complete hkey
    refine ⟨body ++ (b ++ ':' :: (b' ++ value)), rfl, fun state state' rest _ hrest => ?_⟩
    simp only [List.append_assoc, List.cons_append]
    refine bind_eq_ok.mpr ⟨_, hskip _, ?_⟩
    exact bind_eq_ok.mpr ⟨_, skipColon_complete hb, hvalue hb' hrest⟩

/-- Every text on the right belongs to something on the left. -/
theorem exists_of_mem_right {R : α → List Char → Prop} {as : List α} {items : List (List Char)}
    {item : List Char} (h : List.Forall₂ R as items) (hitem : item ∈ items) :
    ∃ a ∈ as, R a item := by
  induction h with
  | nil => cases hitem
  | cons hfirst _ ih =>
    rcases List.mem_cons.mp hitem with rfl | hlater
    · exact ⟨_, List.mem_cons_self, hfirst⟩
    · obtain ⟨a, ha, hR⟩ := ih hlater
      exact ⟨a, List.mem_cons_of_mem _ ha, hR⟩

/-- **Every value is passed over** by a reader that may count down from its length. -/
theorem skipValueWithin_complete {fuel : Nat} (ht : IsValue t) (hfuel : t.length < fuel)
    (hb : IsBlanks b) (hrest : Stops rest) :
    skipValueWithin fuel (b ++ (t ++ rest)) = .ok ((), rest) := by
  induction fuel generalizing t b rest with
  | zero => exact absurd hfuel (Nat.not_lt_zero _)
  | succ fuel ih =>
    obtain ⟨c, s, hcons, hc, -⟩ := ht.starts
    have htoken : skipBlanks (b ++ (t ++ rest)) = c :: (s ++ rest) := by
      rw [hcons]
      exact skipBlanks_token hb hc
    rw [skipValueWithin, htoken]
    cases ht with
    | null =>
      cases hcons
      exact map_eq_ok.mpr ⟨_, skipWord_eq_ok.mpr rfl, rfl⟩
    | true =>
      cases hcons
      exact map_eq_ok.mpr ⟨_, skipWord_eq_ok.mpr rfl, rfl⟩
    | false =>
      cases hcons
      exact map_eq_ok.mpr ⟨_, skipWord_eq_ok.mpr rfl, rfl⟩
    | number hnumber =>
      have hskip := skipNumber_complete hnumber hrest.endsNumber
      obtain ⟨d, s', heq, hstart⟩ := hnumber.startsNumber
      cases hcons.symm.trans heq
      rw [hcons] at hskip
      simp only [wordTail?_of_startsNumber hstart, hstart, if_true]
      exact map_eq_ok.mpr ⟨_, hskip, rfl⟩
    | string hstring =>
      obtain ⟨body, heq, hskip⟩ := skipText_complete hstring
      cases hcons.symm.trans heq
      exact map_eq_ok.mpr ⟨_, hskip rest, rfl⟩
    | @array _ items henclosed hitems =>
      obtain ⟨body, heq⟩ := henclosed.exists_cons
      cases hcons.symm.trans heq
      have htakes : List.Forall₂ (Takes (skipValueWithin fuel)) items (items.map fun _ => ()) := by
        rw [List.forall₂_map_right_iff, List.forall₂_same]
        intro item hitem
        refine ⟨(hitems item hitem).starts, fun rest' hrest' => ?_⟩
        have hlength := henclosed.length_of_mem hitem
        exact ih (hitems item hitem) (by omega) isBlanks_nil hrest'
      have hlt := henclosed.length_lt
      have hread : readElements (skipValueWithin fuel) ((s ++ rest).length + 1) true (s ++ rest) =
          .ok (items.map fun _ => (), rest) := by
        refine readElements_complete htakes (heq ▸ henclosed) ?_
        rw [hcons, List.length_cons] at hlt
        rw [List.length_append]
        omega
      exact bind_eq_ok.mpr ⟨_, hread, rfl⟩
    | @object _ members items henclosed hitems hkeys hvalues =>
      obtain ⟨body, heq⟩ := henclosed.exists_cons
      cases hcons.symm.trans heq
      have htakes : List.Forall₂ (TakesMember (skipMember fuel) (fun _ _ => some ())) items
          (items.map fun _ => ()) := by
        rw [List.forall₂_map_right_iff, List.forall₂_same]
        intro item hitem
        obtain ⟨m, hm, hmember⟩ := exists_of_mem_right hitems hitem
        have hlength := henclosed.length_of_mem hitem
        have hvalue := hmember.length_value
        exact takesMember_skipMember hmember (hkeys m hm) (ih (hvalues m hm) (by omega))
      have hfold : (items.map fun _ => ()).foldlM (fun _ _ => some ()) () = some () := by
        generalize items.map (fun _ => ()) = ms
        induction ms with
        | nil => rfl
        | cons m ms ih => exact ih
      have hlt := henclosed.length_lt
      refine readMembers_complete htakes hfold (heq ▸ henclosed) ?_
      rw [hcons, List.length_cons] at hlt
      rw [List.length_append]
      omega

/-- **Any value is passed over**, and nothing else. -/
theorem reads_skipValue : Reads skipValue (fun t _ => IsValue t) where
  starts ht := ht.starts
  sound h := skipValueWithin_sound h
  complete hb ht hrest := by
    refine skipValueWithin_complete ht ?_ hb hrest
    simp only [List.length_append]
    omega

end CommandBridge.Json
