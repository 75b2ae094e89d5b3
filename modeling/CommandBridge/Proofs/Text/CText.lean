import CommandBridge.Proofs.Text.Utf8
import CommandBridge.Text.CText

/-!
# Text on both sides of a boundary that ends it at a zero byte

* `CText.ofArgument_of_not_mem`, `CText.ofArgument_of_mem` — a text argument is passed on exactly if
  it has no zero character, and the error counts bytes;
* `CText.read_append_zero` — memory is read up to the first zero byte;
* `CText.survives_boundary` — text that has crossed over comes back unchanged.
-/

namespace CommandBridge.CText

variable {index : UInt32} {s : String} {bytes : List UInt8}

/-! ### To the native side -/

/-- How many bytes a text has before its first zero character. -/
def bytesBeforeZero (s : String) : Nat :=
  (String.ofList (s.toList.takeWhile (· != '\x00'))).utf8ByteSize

theorem ofString?_of_not_mem (h : '\x00' ∉ s.toList) :
    ofString? s = .ok ⟨Utf8.encode s, fun hzero => h (Utf8.zero_mem_encode.mp hzero)⟩ := by
  rw [ofString?, dif_pos]

theorem ofString?_of_mem (h : '\x00' ∈ s.toList) : ofString? s = .error (bytesBeforeZero s) := by
  rw [ofString?, dif_neg (not_not.mpr (Utf8.zero_mem_encode.mpr h)), Utf8.takeWhile_encode,
    Utf8.length_encode, bytesBeforeZero]

theorem ofArgument_of_not_mem (h : '\x00' ∉ s.toList) : ofArgument index s =
    .ok ⟨Utf8.encode s, fun hzero => h (Utf8.zero_mem_encode.mp hzero)⟩ := by
  rw [ofArgument, ofString?_of_not_mem h]

/-- The offset of the zero character is the number of bytes before it. -/
theorem ofArgument_of_mem (h : '\x00' ∈ s.toList) : ofArgument index s =
    .error (interiorZero index (bytesBeforeZero s)) := by
  rw [ofArgument, ofString?_of_mem h]

/-! ### From the native side -/

/-- Memory is read up to the first zero byte, whatever lies behind it. -/
theorem read_append_zero (h : 0 ∉ bytes) (rest : List UInt8) :
    read (some (bytes ++ 0 :: rest)) = Utf8.decodeLossy bytes := by
  have hbytes : ∀ b ∈ bytes, (b != 0) = true := by
    intro b hb
    rw [bne_iff_ne]
    rintro rfl
    exact h hb
  have hstop : (bytes ++ 0 :: rest).takeWhile (· != 0) = bytes := by
    rw [List.takeWhile_append_of_pos hbytes, List.takeWhile_cons_of_neg (by decide),
      List.append_nil]
  simp only [read, ofMemory, toString, hstop]

/-- What is written for a text is read as that text. -/
theorem read_of_ofArgument {t : CText} (h : ofArgument index s = .ok t) (rest : List UInt8) :
    read (some (t.bytes ++ 0 :: rest)) = s := by
  by_cases hzero : '\x00' ∈ s.toList
  · rw [ofArgument_of_mem hzero] at h
    cases h
  · rw [ofArgument_of_not_mem hzero] at h
    cases h
    rw [read_append_zero (fun hmem => hzero (Utf8.zero_mem_encode.mp hmem)) rest,
      Utf8.decodeLossy_encode]

/-- **Text survives the boundary in both directions.**

* A text is passed on exactly if it has no zero character, and it is read back unchanged, whatever
  follows it in memory.  Otherwise the error has the position of the argument, the status of the
  boundary and a message with the number of bytes before the first zero character.
* From memory that ends at a zero byte only what stands before the first one is read.  Bytes that
  are well-formed UTF-8 are read as the text with these bytes; and what is read of any bytes can be
  passed on, and is read again as it is. -/
theorem survives_boundary :
    (∀ (index : UInt32) (s : String),
      ((∃ t, ofArgument index s = .ok t) ↔ '\x00' ∉ s.toList) ∧
      (∀ t, ofArgument index s = .ok t → ∀ rest, read (some (t.bytes ++ 0 :: rest)) = s) ∧
      ('\x00' ∈ s.toList → ∃ e, ofArgument index s = .error e ∧
        e.kind = .invalidParameter index ∧ e.code = -1 ∧
        e.message =
          s!"argument {index} contains an interior NUL byte at {bytesBeforeZero s}")) ∧
    (∀ bytes : List UInt8, 0 ∉ bytes → ∀ rest,
      read (some (bytes ++ 0 :: rest)) = Utf8.decodeLossy bytes ∧
      (bytes.toByteArray.IsValidUTF8 →
        (read (some (bytes ++ 0 :: rest))).toByteArray = bytes.toByteArray) ∧
      ∀ index, ∃ t, ofArgument index (read (some (bytes ++ 0 :: rest))) = .ok t ∧
        ∀ after, read (some (t.bytes ++ 0 :: after)) = read (some (bytes ++ 0 :: rest))) := by
  constructor
  · intro index s
    refine ⟨⟨?_, fun h => ⟨_, ofArgument_of_not_mem h⟩⟩, fun t => read_of_ofArgument, fun h => ?_⟩
    · rintro ⟨t, ht⟩ hzero
      rw [ofArgument_of_mem hzero] at ht
      cases ht
    · exact ⟨_, ofArgument_of_mem h, rfl, rfl, rfl⟩
  · intro bytes hbytes rest
    rw [read_append_zero hbytes]
    refine ⟨rfl, Utf8.toByteArray_decodeLossy, fun index => ?_⟩
    -- no zero character is read, so that the text can be passed on again
    have hagain : ofArgument index (Utf8.decodeLossy bytes) = .ok _ :=
      ofArgument_of_not_mem (Utf8.zero_not_mem_decodeLossy hbytes)
    exact ⟨_, hagain, read_of_ofArgument hagain⟩

/-- A character of two bytes stands before the zero character; before the zero byte stand two bytes
that are ill-formed. -/
theorem survives_boundary_counts_bytes :
    (∃ e, ofArgument 3 "zürich\x00key" = .error e ∧ e.kind = .invalidParameter 3 ∧ e.code = -1 ∧
      e.message = "argument 3 contains an interior NUL byte at 7") ∧
    read (some [0xC3, 0x61, 0xFF, 0x00, 0x62]) = "\uFFFDa\uFFFD" ∧
    ∃ t, ofArgument 2 "\uFFFDa\uFFFD" = .ok t ∧
      read (some (t.bytes ++ [0])) = "\uFFFDa\uFFFD" := by
  have hread : read (some [0xC3, 0x61, 0xFF, 0x00, 0x62]) = "\uFFFDa\uFFFD" := by decide
  obtain ⟨hwrite, hmemory⟩ := survives_boundary
  obtain ⟨-, -, hfail⟩ := hwrite 3 "zürich\x00key"
  obtain ⟨-, -, hagain⟩ := hmemory [0xC3, 0x61, 0xFF] (by decide) [0x62]
  obtain ⟨t, ht, hsame⟩ := hagain 2
  refine ⟨hfail (by decide), hread, t, ?_, ?_⟩
  · rw [← hread]
    exact ht
  · rw [← hread]
    exact hsame []

end CommandBridge.CText
