import CommandBridge.Proofs.Status.Table

/-!
# The positions that a range gives its codes

A range counts the positions of its codes in words, and it is checked at its last code only.  Said
in whole numbers, where nothing wraps, every position is exact, and the check of the last code
settles all codes before it.

* `ParameterRange.position` — the position of a code as a whole number, whether or not it fits;
* `indexOf?_eq_some_iff`, `exists_indexOf?_iff` — what is found for a code, and when something is;
* `ParameterRange.positions`, `map_indexOf?_codes` — the codes of a valid range have consecutive
  positions, and none of them is without one;
* `StatusTable.insertPositions`, `insertRange_eq_insertPositions` — so a table gets an entry for
  each of them;
* `ParameterRange.Numbers`, `ParameterRange.Fills` — the two results for a valid range;
* `ParameterRange.arithmetic_exact` — all of it, for every range.
-/

namespace CommandBridge

namespace ParameterRange

variable {r : ParameterRange} {code : Int32} {index : UInt32}

/-! ### Positions as whole numbers -/

/-- The position of a code, counted from that of the first code.  It is a whole number, and may be
one that no word holds. -/
def position (r : ParameterRange) (code : Int32) : Int :=
  r.firstIndex.toNat + (code.toInt - r.firstCode.toInt)

/-- **What is found for a code is its position**, exactly. -/
theorem indexOf?_eq_some_iff : r.indexOf? code = some index ↔
    r.contains code = true ∧ (index.toNat : Int) = r.position code := by
  constructor
  · intro hindex
    by_cases hcontains : r.contains code = true
    · refine ⟨hcontains, ?_⟩
      rw [indexOf?, if_pos hcontains] at hindex
      have hsum := toNat_checkedAdd hindex
      have hoffset := toNat_toUInt32_sub (contains_iff.mp hcontains).1
      rw [position]
      omega
    · rw [indexOf?, if_neg hcontains] at hindex
      cases hindex
  · rintro ⟨hcontains, hposition⟩
    have hoffset := toNat_toUInt32_sub (contains_iff.mp hcontains).1
    have hlt := index.toNat_lt
    rw [position] at hposition
    obtain ⟨sum, hsum, hnat⟩ := checkedAdd_eq_some (a := r.firstIndex)
      (b := code.toUInt32 - r.firstCode.toUInt32) (by omega)
    have hsame : sum = index := UInt32.toNat_inj.mp (by omega)
    rw [indexOf?, if_pos hcontains, hsum, hsame]

/-- Something is found for the codes of the range whose position fits into a word. -/
theorem exists_indexOf?_iff : (∃ index, r.indexOf? code = some index) ↔
    r.contains code = true ∧ r.position code ≤ 4294967295 := by
  constructor
  · rintro ⟨index, hindex⟩
    obtain ⟨hcontains, hposition⟩ := indexOf?_eq_some_iff.mp hindex
    have hlt := index.toNat_lt
    exact ⟨hcontains, by omega⟩
  · rintro ⟨hcontains, hfits⟩
    have hfirst := (contains_iff.mp hcontains).1
    have hpos : 0 ≤ r.position code := by
      rw [position]
      omega
    refine ⟨.ofNat (r.position code).toNat, indexOf?_eq_some_iff.mpr ⟨hcontains, ?_⟩⟩
    rw [UInt32.toNat_ofNat_of_lt' (by show _ < 4294967296; omega)]
    omega

/-- Within a range, no code has a position before the first or after the last one. -/
theorem position_le_last (hcontains : r.contains code = true) :
    r.firstIndex.toNat ≤ r.position code ∧ r.position code ≤ r.position r.lastCode := by
  obtain ⟨hfirst, hlast⟩ := contains_iff.mp hcontains
  unfold position
  omega

/-- The codes of a range are in ascending order, so none is there twice. -/
theorem codes_ascending (r : ParameterRange) : r.codes.Pairwise (· < ·) := by
  have hlast := r.lastCode.toInt_lt
  rw [codes, List.pairwise_map]
  refine List.pairwise_lt_range.imp_of_mem ?_
  intro a b ha hb hlt
  rw [List.mem_range] at ha hb
  rw [Int32.lt_iff_toInt_lt, toInt_add_ofNat (by omega), toInt_add_ofNat (by omega)]
  omega

/-! ### Valid ranges -/

/-- The words from the first position on, as many as the range has codes. -/
def positions (r : ParameterRange) : List UInt32 :=
  (List.range r.codes.length).map (fun offset => r.firstIndex + .ofNat offset)

/-- **The codes of a valid range have consecutive positions**, none of them left out. -/
theorem map_indexOf?_codes (hvalid : r.isValid = true) :
    r.codes.map r.indexOf? = r.positions.map some := by
  obtain ⟨-, hle, -, hfits⟩ := isValid_iff.mp hvalid
  have hlast := r.lastCode.toInt_lt
  have hlength : r.codes.length = (r.lastCode.toInt - r.firstCode.toInt + 1).toNat := by
    rw [codes, List.length_map, List.length_range]
  rw [positions, hlength, codes, List.map_map, List.map_map]
  refine List.map_congr_left ?_
  intro offset hoffset
  rw [List.mem_range] at hoffset
  have hcode : (r.firstCode + Int32.ofNat offset).toInt = r.firstCode.toInt + offset :=
    toInt_add_ofNat (by omega)
  have hword : (r.firstIndex + UInt32.ofNat offset).toNat = r.firstIndex.toNat + offset := by
    rw [UInt32.toNat_add, UInt32.toNat_ofNat_of_lt' (by show _ < 4294967296; omega),
      Nat.mod_eq_of_lt (by omega)]
  show r.indexOf? (r.firstCode + Int32.ofNat offset) = some (r.firstIndex + UInt32.ofNat offset)
  refine indexOf?_eq_some_iff.mpr ⟨contains_iff.mpr ?_, ?_⟩
  · omega
  · rw [position, hcode, hword]
    omega

end ParameterRange

/-! ### Entries -/

namespace StatusTable

variable {r : ParameterRange}

/-- Registers a position for each of several codes. -/
def insertPositions (t : StatusTable) (entries : List (Int32 × UInt32)) : StatusTable :=
  entries.foldl (fun t entry => t.insert entry.1 (.invalidParameter entry.2)) t

/-- Codes that all have a position are all registered. -/
theorem foldl_eq_insertPositions {codes : List Int32} {positions : List UInt32}
    (h : codes.map r.indexOf? = positions.map some) (t : StatusTable) :
    codes.foldl (fun t code => match r.indexOf? code with
      | some index => t.insert code (.invalidParameter index)
      | none => t) t = t.insertPositions (codes.zip positions) := by
  induction codes generalizing positions t with
  | nil => rfl
  | cons code codes ih =>
    cases positions with
    | nil => cases h
    | cons index positions =>
      rw [List.map_cons, List.map_cons] at h
      obtain ⟨hcode, hrest⟩ := List.cons.inj h
      rw [List.foldl_cons, hcode]
      exact ih hrest _

/-- **A valid range is entered code by code**, and no code is passed over. -/
theorem insertRange_eq_insertPositions (hvalid : r.isValid = true) (t : StatusTable) :
    t.insertRange r = t.insertPositions (r.codes.zip r.positions) :=
  foldl_eq_insertPositions (ParameterRange.map_indexOf?_codes hvalid) t

theorem build_append_cons (before after : List ParameterRange) (r : ParameterRange) :
    build (before ++ r :: after) = after.foldl insertRange ((build before).insertRange r) := by
  rw [build, List.foldl_append]
  rfl

end StatusTable

namespace ParameterRange

/-! ### The results -/

/-- A range numbers its codes: the codes of the range are those that have a position, later codes
have later positions, and from the position of the first code to that of the last one every position
is that of one code. -/
structure Numbers (r : ParameterRange) : Prop where
  total : ∀ code, r.contains code = true ↔ ∃ index, r.indexOf? code = some index
  increasing : ∀ code other index later, r.indexOf? code = some index →
    r.indexOf? other = some later → (code < other ↔ index < later)
  onto : ∀ index : UInt32, (r.firstIndex ≤ index ∧ (index.toNat : Int) ≤ r.position r.lastCode) ↔
    ∃! code, r.indexOf? code = some index

/-- A range fills a table: its codes, each once and in ascending order, are entered with their
positions one after the other, wherever in a list of ranges it stands, and a code of the range is
then found under its position. -/
structure Fills (r : ParameterRange) : Prop where
  ascending : r.codes.Pairwise (· < ·)
  mem : ∀ code, code ∈ r.codes ↔ r.contains code = true
  positions : r.codes.map r.indexOf? = r.positions.map some
  entered : ∀ before after, StatusTable.build (before ++ r :: after) =
    after.foldl StatusTable.insertRange
      ((StatusTable.build before).insertPositions (r.codes.zip r.positions))
  found : ∀ t : StatusTable, ∀ code ∈ r.codes, ∃ index, r.indexOf? code = some index ∧
    (t.insertPositions (r.codes.zip r.positions)).kindOf? code = some (.invalidParameter index)

variable {r : ParameterRange}

theorem numbers_of_isValid (hvalid : r.isValid = true) : r.Numbers := by
  refine ⟨fun code => ?_, fun code other index later hindex hlater => ?_, fun index => ?_⟩
  · constructor
    · intro hcontains
      obtain ⟨index, hindex, -⟩ := indexOf?_of_contains hvalid hcontains
      exact ⟨index, hindex⟩
    · intro hsome
      exact (exists_indexOf?_iff.mp hsome).1
  · have hcode := (indexOf?_eq_some_iff.mp hindex).2
    have hother := (indexOf?_eq_some_iff.mp hlater).2
    unfold position at hcode hother
    rw [Int32.lt_iff_toInt_lt, UInt32.lt_iff_toNat_lt]
    omega
  · constructor
    · rintro ⟨hfirst, hlast⟩
      rw [UInt32.le_iff_toNat_le] at hfirst
      have hmin := r.firstCode.le_toInt
      have hmax := r.lastCode.toInt_lt
      unfold position at hlast
      -- the code that is as far from the first one as the position is
      let code : Int32 := r.firstCode + .ofNat (index.toNat - r.firstIndex.toNat)
      have hcode : code.toInt = r.firstCode.toInt + (index.toNat - r.firstIndex.toNat : Nat) :=
        toInt_add_ofNat (by omega)
      refine ⟨code, indexOf?_eq_some_iff.mpr ⟨contains_iff.mpr (by omega), ?_⟩, ?_⟩
      · rw [position, hcode]
        omega
      · intro other hother
        have hposition := (indexOf?_eq_some_iff.mp hother).2
        rw [position] at hposition
        exact Int32.toInt_inj.mp (by omega)
    · rintro ⟨code, hcode, -⟩
      obtain ⟨hcontains, hposition⟩ := indexOf?_eq_some_iff.mp hcode
      obtain ⟨hfirst, hlast⟩ := position_le_last hcontains
      rw [UInt32.le_iff_toNat_le]
      omega

theorem fills_of_isValid (hvalid : r.isValid = true) : r.Fills := by
  refine ⟨r.codes_ascending, fun code => mem_codes, map_indexOf?_codes hvalid, ?_, ?_⟩
  · intro before after
    rw [StatusTable.build_append_cons, StatusTable.insertRange_eq_insertPositions hvalid]
  · intro t code hcode
    obtain ⟨index, hindex, -⟩ := indexOf?_of_contains hvalid (mem_codes.mp hcode)
    refine ⟨index, hindex, ?_⟩
    rw [← StatusTable.insertRange_eq_insertPositions hvalid, StatusTable.kindOf?_insertRange,
      hindex]
    rfl

/-- **The arithmetic of ranges is exact.**  Let `r` be any range, valid or not.

* A code has a position exactly if it lies in the range and the position, counted in whole numbers
  from that of the first code, is at most the largest word; and then it is this one.
* The range is valid exactly if its codes are positive, there is one, its positions start at one or
  later, and that of its last code is at most the largest word.
* If it is valid then it numbers its codes from the first position on without a gap, and a table is
  filled with an entry for each of its codes. -/
theorem arithmetic_exact (r : ParameterRange) :
    (∀ code i, (r.indexOf? code).map (fun index => (index.toNat : Int)) = some i ↔
      r.firstCode.toInt ≤ code.toInt ∧ code.toInt ≤ r.lastCode.toInt ∧
        i = r.firstIndex.toNat + (code.toInt - r.firstCode.toInt) ∧ i ≤ 4294967295) ∧
    (r.isValid = true ↔
      0 < r.firstCode.toInt ∧ r.firstCode.toInt ≤ r.lastCode.toInt ∧ 1 ≤ r.firstIndex.toNat ∧
        (r.firstIndex.toNat : Int) + (r.lastCode.toInt - r.firstCode.toInt) ≤ 4294967295) ∧
    (r.isValid = true → r.Numbers ∧ r.Fills) := by
  refine ⟨fun code i => ?_, ?_, fun hvalid => ?_⟩
  · constructor
    · intro h
      obtain ⟨index, hindex, rfl⟩ := Option.map_eq_some_iff.mp h
      obtain ⟨hcontains, hposition⟩ := indexOf?_eq_some_iff.mp hindex
      obtain ⟨hfirst, hlast⟩ := contains_iff.mp hcontains
      have hlt := index.toNat_lt
      exact ⟨hfirst, hlast, hposition, by omega⟩
    · rintro ⟨hfirst, hlast, hi, hfits⟩
      obtain ⟨index, hindex⟩ : ∃ index, r.indexOf? code = some index := by
        refine exists_indexOf?_iff.mpr ⟨contains_iff.mpr ⟨hfirst, hlast⟩, ?_⟩
        rw [position, ← hi]
        exact hfits
      refine Option.map_eq_some_iff.mpr ⟨index, hindex, ?_⟩
      rw [(indexOf?_eq_some_iff.mp hindex).2, hi, position]
  · rw [isValid_iff]
    constructor
    · rintro ⟨hpos, hle, hindex, hlt⟩
      exact ⟨hpos, hle, hindex, by omega⟩
    · rintro ⟨hpos, hle, hindex, hfits⟩
      exact ⟨hpos, hle, hindex, by omega⟩
  · exact ⟨numbers_of_isValid hvalid, fills_of_isValid hvalid⟩

/-- The range of all statuses. -/
def everyStatus : ParameterRange :=
  ⟨-2147483648, 2147483647, 1⟩

/-- The range of all positive statuses that ends with the largest word. -/
def latest : ParameterRange :=
  ⟨1, 2147483647, 2147483649⟩

/-- The range of all statuses has room for every position but that of the last status, and no room
for a valid range is left beyond `latest`, whose last status has the largest word. -/
theorem arithmetic_exact_latest :
    (everyStatus.indexOf? 2147483646).map (fun index => (index.toNat : Int)) = some 4294967295 ∧
      everyStatus.indexOf? 2147483647 = none ∧ latest.isValid = true ∧
      ∃! code, latest.indexOf? code = some 4294967295 := by
  have hall := (arithmetic_exact everyStatus).1
  obtain ⟨-, hvalid, hresults⟩ := arithmetic_exact latest
  have hlatest := hvalid.mpr (by decide)
  refine ⟨(hall 2147483646 4294967295).mpr (by decide), ?_, hlatest, ?_⟩
  · cases hindex : everyStatus.indexOf? 2147483647 with
    | none => rfl
    | some index =>
      obtain ⟨-, -, heq, hfits⟩ := (hall 2147483647 index.toNat).mp (by rw [hindex]; rfl)
      rw [heq] at hfits
      exact absurd hfits (by decide)
  · exact ((hresults hlatest).1.onto 4294967295).mp (by decide)

end ParameterRange

end CommandBridge
