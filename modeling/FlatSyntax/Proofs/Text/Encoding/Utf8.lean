import FlatSyntax.Text.Encoding.Utf8

/-! The eight-bit format read back. A sequence that is read for a code point is the one that the
code point is written as, and the other way round; so bytes are decoded to the text that they are
written for, and bytes that no text is written as are not decoded. -/
namespace FlatSyntax.Text.Encoding.Utf8

variable {bits code : Nat} {ranges : List (Nat × Nat)} {bytes rest : List UInt8}

theorem readContinuation_nil_eq_ok_iff :
    readContinuation bits [] bytes = .ok (code, rest) ↔ code = bits ∧ rest = bytes := by
  simp [readContinuation, eq_comm]

/-- The first byte of a continuation is in its range, and the others continue with its bits. -/
theorem readContinuation_cons_eq_ok_iff {first last : Nat} :
    readContinuation bits ((first, last) :: ranges) bytes = .ok (code, rest) ↔
      ∃ byte more, bytes = byte :: more ∧ (first ≤ byte.toNat ∧ byte.toNat ≤ last) ∧
        readContinuation (bits * 0x40 + byte.toNat % 0x40) ranges more = .ok (code, rest) := by
  cases bytes with
  | nil => simp [readContinuation]
  | cons byte more =>
      simp only [readContinuation, List.cons.injEq]
      constructor
      · intro hRead
        split at hRead
        case isTrue hRange =>
          refine ⟨byte, more, ⟨rfl, rfl⟩, hRange, ?_⟩
          cases hMore : readContinuation (bits * 0x40 + byte.toNat % 0x40) ranges more with
          | error =>
              rw [hMore] at hRead
              cases hRead
          | ok => rwa [hMore] at hRead
        case isFalse => cases hRead
      · rintro ⟨_, _, ⟨rfl, rfl⟩, hRange, hRead⟩
        rw [if_pos hRange, hRead]
        rfl

/-- How a code point is written, told by its number. -/
theorem utf8EncodeChar_ofNat (hValid : code.isValidChar) :
    String.utf8EncodeChar (Char.ofNat code) =
      if code ≤ 0x7F then [UInt8.ofNat code]
      else if code ≤ 0x7FF then
        [UInt8.ofNat (code / 0x40 % 0x20 + 0xC0), UInt8.ofNat (code % 0x40 + 0x80)]
      else if code ≤ 0xFFFF then
        [UInt8.ofNat (code / 0x1000 % 0x10 + 0xE0), UInt8.ofNat (code / 0x40 % 0x40 + 0x80),
          UInt8.ofNat (code % 0x40 + 0x80)]
      else
        [UInt8.ofNat (code / 0x40000 % 8 + 0xF0), UInt8.ofNat (code / 0x1000 % 0x40 + 0x80),
          UInt8.ofNat (code / 0x40 % 0x40 + 0x80), UInt8.ofNat (code % 0x40 + 0x80)] := by
  have hCode : (Char.ofNat code).val.toNat = code := by
    rw [Char.ofNat, dif_pos hValid]
    rfl
  rw [String.utf8EncodeChar, hCode]

theorem ofNat_eq_byte {byte : UInt8} {n : Nat} (hByte : n = byte.toNat) : UInt8.ofNat n = byte := by
  rw [hByte, UInt8.ofNat_toNat]

theorem utf8EncodeChar_two {a b : UInt8} (hA : 0xC2 ≤ a.toNat ∧ a.toNat < 0xE0)
    (hB : 0x80 ≤ b.toNat ∧ b.toNat ≤ 0xBF) :
    let code := a.toNat % 0x20 * 0x40 + b.toNat % 0x40
    code.isValidChar ∧ String.utf8EncodeChar (Char.ofNat code) = [a, b] := by
  intro code
  have hValid : code.isValidChar := by
    unfold Nat.isValidChar
    omega
  rw [utf8EncodeChar_ofNat hValid, if_neg (by omega), if_pos (by omega),
    ofNat_eq_byte (show _ = a.toNat by omega), ofNat_eq_byte (show _ = b.toNat by omega)]
  exact ⟨hValid, rfl⟩

theorem utf8EncodeChar_three {a b c : UInt8} (hA : 0xE0 ≤ a.toNat ∧ a.toNat < 0xF0)
    (hB : 0x80 ≤ b.toNat ∧ b.toNat ≤ 0xBF) (hC : 0x80 ≤ c.toNat ∧ c.toNat ≤ 0xBF)
    (hLow : a.toNat = 0xE0 → 0xA0 ≤ b.toNat) (hHigh : a.toNat = 0xED → b.toNat ≤ 0x9F) :
    let code := (a.toNat % 0x10 * 0x40 + b.toNat % 0x40) * 0x40 + c.toNat % 0x40
    code.isValidChar ∧ String.utf8EncodeChar (Char.ofNat code) = [a, b, c] := by
  intro code
  have hValid : code.isValidChar := by
    unfold Nat.isValidChar
    omega
  rw [utf8EncodeChar_ofNat hValid, if_neg (by omega), if_neg (by omega), if_pos (by omega),
    ofNat_eq_byte (show _ = a.toNat by omega), ofNat_eq_byte (show _ = b.toNat by omega),
    ofNat_eq_byte (show _ = c.toNat by omega)]
  exact ⟨hValid, rfl⟩

theorem utf8EncodeChar_four {a b c d : UInt8} (hA : 0xF0 ≤ a.toNat ∧ a.toNat ≤ 0xF4)
    (hB : 0x80 ≤ b.toNat ∧ b.toNat ≤ 0xBF) (hC : 0x80 ≤ c.toNat ∧ c.toNat ≤ 0xBF)
    (hD : 0x80 ≤ d.toNat ∧ d.toNat ≤ 0xBF)
    (hLow : a.toNat = 0xF0 → 0x90 ≤ b.toNat) (hHigh : a.toNat = 0xF4 → b.toNat ≤ 0x8F) :
    let code :=
      ((a.toNat % 8 * 0x40 + b.toNat % 0x40) * 0x40 + c.toNat % 0x40) * 0x40 + d.toNat % 0x40
    code.isValidChar ∧ String.utf8EncodeChar (Char.ofNat code) = [a, b, c, d] := by
  intro code
  have hValid : code.isValidChar := by
    unfold Nat.isValidChar
    omega
  rw [utf8EncodeChar_ofNat hValid, if_neg (by omega), if_neg (by omega), if_neg (by omega),
    ofNat_eq_byte (show _ = a.toNat by omega), ofNat_eq_byte (show _ = b.toNat by omega),
    ofNat_eq_byte (show _ = c.toNat by omega), ofNat_eq_byte (show _ = d.toNat by omega)]
  exact ⟨hValid, rfl⟩

theorem sequenceOf_one {lead : Nat} (hLead : lead < 0x80) : sequenceOf lead = some (lead, []) :=
  if_pos hLead

theorem sequenceOf_two {lead : Nat} (hLead : 0xC2 ≤ lead ∧ lead < 0xE0) :
    sequenceOf lead = some (lead % 0x20, [continuation]) := by
  rw [sequenceOf, if_neg (by omega), if_neg (by omega), if_pos (by omega)]

/-- Two lead bytes narrow the range of the second byte: one against longer spellings of what two
bytes spell, one against surrogates. -/
theorem sequenceOf_three {lead : Nat} (hLead : 0xE0 ≤ lead ∧ lead < 0xF0) :
    ∃ first last, sequenceOf lead = some (lead % 0x10, [(first, last), continuation]) ∧
      ∀ second, first ≤ second ∧ second ≤ last ↔ (0x80 ≤ second ∧ second ≤ 0xBF) ∧
        (lead = 0xE0 → 0xA0 ≤ second) ∧ (lead = 0xED → second ≤ 0x9F) := by
  unfold sequenceOf
  rw [if_neg (by omega), if_neg (by omega), if_neg (by omega)]
  split
  case isTrue hLowest =>
    rw [hLowest]
    exact ⟨0xA0, 0xBF, rfl, by omega⟩
  case isFalse =>
    split
    case isTrue hSurrogate =>
      rw [hSurrogate]
      exact ⟨0x80, 0x9F, rfl, by omega⟩
    case isFalse =>
      rw [if_pos (by omega)]
      exact ⟨0x80, 0xBF, rfl, by omega⟩

/-- Two lead bytes narrow the range of the second byte: one against longer spellings of what three
bytes spell, one against what is no code point. -/
theorem sequenceOf_four {lead : Nat} (hLead : 0xF0 ≤ lead ∧ lead ≤ 0xF4) :
    ∃ first last,
      sequenceOf lead = some (lead % 8, [(first, last), continuation, continuation]) ∧
      ∀ second, first ≤ second ∧ second ≤ last ↔ (0x80 ≤ second ∧ second ≤ 0xBF) ∧
        (lead = 0xF0 → 0x90 ≤ second) ∧ (lead = 0xF4 → second ≤ 0x8F) := by
  unfold sequenceOf
  rw [if_neg (by omega), if_neg (by omega), if_neg (by omega), if_neg (by omega),
    if_neg (by omega), if_neg (by omega)]
  split
  case isTrue hLowest =>
    rw [hLowest]
    exact ⟨0x90, 0xBF, rfl, by omega⟩
  case isFalse =>
    split
    case isTrue => exact ⟨0x80, 0xBF, rfl, by omega⟩
    case isFalse =>
      obtain rfl : lead = 0xF4 := by omega
      exact ⟨0x80, 0x8F, rfl, by omega⟩

theorem sequenceOf_eq_none {lead : Nat} (hLead : 0x80 ≤ lead ∧ lead < 0xC2 ∨ 0xF4 < lead) :
    sequenceOf lead = none := by
  unfold sequenceOf
  rcases hLead with hLead | hLead
  · rw [if_neg (by omega), if_pos (by omega)]
  · repeat rw [if_neg (by omega)]

/-- What is read as a character is written as that character. -/
theorem utf8EncodeChar_of_read {lead : UInt8}
    (hSequence : sequenceOf lead.toNat = some (bits, ranges))
    (hRead : readContinuation bits ranges bytes = .ok (code, rest)) :
    lead :: bytes = String.utf8EncodeChar (Char.ofNat code) ++ rest := by
  have hCases : lead.toNat < 0x80 ∨ (0x80 ≤ lead.toNat ∧ lead.toNat < 0xC2 ∨ 0xF4 < lead.toNat) ∨
      (0xC2 ≤ lead.toNat ∧ lead.toNat < 0xE0) ∨ (0xE0 ≤ lead.toNat ∧ lead.toNat < 0xF0) ∨
      (0xF0 ≤ lead.toNat ∧ lead.toNat ≤ 0xF4) := by omega
  rcases hCases with hLead | hLead | hLead | hLead | hLead
  · cases (sequenceOf_one hLead).symm.trans hSequence
    obtain ⟨rfl, rfl⟩ := readContinuation_nil_eq_ok_iff.mp hRead
    have hValid : lead.toNat.isValidChar := Or.inl (by omega)
    rw [utf8EncodeChar_ofNat hValid, if_pos (by omega), UInt8.ofNat_toNat]
    rfl
  · cases (sequenceOf_eq_none hLead).symm.trans hSequence
  · cases (sequenceOf_two hLead).symm.trans hSequence
    simp only [continuation, readContinuation_cons_eq_ok_iff, readContinuation_nil_eq_ok_iff]
      at hRead
    obtain ⟨b, more, rfl, hB, rfl, rfl⟩ := hRead
    rw [(utf8EncodeChar_two hLead hB).2]
    rfl
  · obtain ⟨first, last, hThree, hSecond⟩ := sequenceOf_three hLead
    cases hThree.symm.trans hSequence
    simp only [continuation, readContinuation_cons_eq_ok_iff, readContinuation_nil_eq_ok_iff,
      hSecond] at hRead
    obtain ⟨b, _, rfl, ⟨hB, hLow, hHigh⟩, c, more, rfl, hC, rfl, rfl⟩ := hRead
    rw [(utf8EncodeChar_three hLead hB hC hLow hHigh).2]
    rfl
  · obtain ⟨first, last, hFour, hSecond⟩ := sequenceOf_four hLead
    cases hFour.symm.trans hSequence
    simp only [continuation, readContinuation_cons_eq_ok_iff, readContinuation_nil_eq_ok_iff,
      hSecond] at hRead
    obtain ⟨b, _, rfl, ⟨hB, hLow, hHigh⟩, c, _, rfl, hC, d, more, rfl, hD, rfl, rfl⟩ := hRead
    rw [(utf8EncodeChar_four hLead hB hC hD hLow hHigh).2]
    rfl

theorem exists_byte {n : Nat} (hByte : n < 0x100) :
    ∃ byte : UInt8, UInt8.ofNat n = byte ∧ byte.toNat = n :=
  ⟨_, rfl, UInt8.toNat_ofNat_of_lt' hByte⟩

/-- What is written as a character is read as that character. -/
theorem exists_read_of_utf8EncodeChar (c : Char) (rest : List UInt8) :
    ∃ lead bytes bits ranges, String.utf8EncodeChar c ++ rest = lead :: bytes ∧
      sequenceOf lead.toNat = some (bits, ranges) ∧
      readContinuation bits ranges bytes = .ok (c.toNat, rest) := by
  have hValid : c.toNat.isValidChar := c.valid
  have hEncode := utf8EncodeChar_ofNat hValid
  rw [Char.ofNat_toNat] at hEncode
  generalize c.toNat = code at hValid hEncode
  rw [hEncode]
  unfold Nat.isValidChar at hValid
  obtain ⟨y, hY, hLast⟩ := exists_byte (show code % 0x40 + 0x80 < 0x100 by omega)
  obtain ⟨x, hX, hThird⟩ := exists_byte (show code / 0x40 % 0x40 + 0x80 < 0x100 by omega)
  rw [hY, hX]
  split
  · obtain ⟨a, hA, hLead⟩ := exists_byte (show code < 0x100 by omega)
    rw [hA]
    exact ⟨a, rest, a.toNat, [], rfl, sequenceOf_one (by omega),
      readContinuation_nil_eq_ok_iff.mpr ⟨hLead.symm, rfl⟩⟩
  · split
    · obtain ⟨a, hA, hLead⟩ := exists_byte (show code / 0x40 % 0x20 + 0xC0 < 0x100 by omega)
      rw [hA]
      refine ⟨a, y :: rest, _, _, rfl, sequenceOf_two (by omega), ?_⟩
      simp only [continuation, readContinuation_cons_eq_ok_iff, readContinuation_nil_eq_ok_iff]
      exact ⟨y, rest, rfl, by omega, by omega, rfl⟩
    · split
      · obtain ⟨a, hA, hLead⟩ := exists_byte (show code / 0x1000 % 0x10 + 0xE0 < 0x100 by omega)
        obtain ⟨first, last, hThree, hSecond⟩ :=
          sequenceOf_three (show 0xE0 ≤ a.toNat ∧ a.toNat < 0xF0 by omega)
        rw [hA]
        refine ⟨a, x :: y :: rest, _, _, rfl, hThree, ?_⟩
        simp only [continuation, readContinuation_cons_eq_ok_iff, readContinuation_nil_eq_ok_iff,
          hSecond]
        exact ⟨x, _, rfl, by omega, y, rest, rfl, by omega, by omega, rfl⟩
      · obtain ⟨a, hA, hLead⟩ := exists_byte (show code / 0x40000 % 8 + 0xF0 < 0x100 by omega)
        obtain ⟨b, hB, hNext⟩ := exists_byte (show code / 0x1000 % 0x40 + 0x80 < 0x100 by omega)
        obtain ⟨first, last, hFour, hSecond⟩ :=
          sequenceOf_four (show 0xF0 ≤ a.toNat ∧ a.toNat ≤ 0xF4 by omega)
        rw [hA, hB]
        refine ⟨a, b :: x :: y :: rest, _, _, rfl, hFour, ?_⟩
        simp only [continuation, readContinuation_cons_eq_ok_iff, readContinuation_nil_eq_ok_iff,
          hSecond]
        exact ⟨b, _, rfl, by omega, x, _, rfl, by omega, y, rest, rfl, by omega, by omega, rfl⟩

theorem decodeFrom_of_read {lead : UInt8} (hSequence : sequenceOf lead.toNat = some (bits, ranges))
    (hRead : readContinuation bits ranges bytes = .ok (code, rest)) (offset : Nat) :
    decodeFrom offset (lead :: bytes) =
      (decodeFrom (offset + 1 + ranges.length) rest).map (Char.ofNat code :: ·) := by
  rw [decodeFrom]
  simp only [hSequence]
  split
  case h_1 hOther => cases hRead.symm.trans hOther
  case h_2 hSame =>
    cases hRead.symm.trans hSame
    rfl

/-- Bytes are decoded to the text that they are written for, and to no other. -/
theorem decodeFrom_eq_ok_iff {offset : Nat} {text : List Char} :
    decodeFrom offset bytes = .ok text ↔ bytes = text.flatMap String.utf8EncodeChar := by
  constructor
  · intro hDecode
    fun_induction decodeFrom offset bytes generalizing text with
    | case1 =>
        cases hDecode
        rfl
    | case2 | case3 => cases hDecode
    | case4 offset lead bytes bits ranges hSequence code rest hRead ih =>
        cases hMore : decodeFrom (offset + 1 + ranges.length) rest with
        | error =>
            rw [hMore] at hDecode
            cases hDecode
        | ok more =>
            rw [hMore] at hDecode
            cases hDecode
            rw [utf8EncodeChar_of_read hSequence hRead, ih hMore]
            rfl
  · rintro rfl
    induction text generalizing offset with
    | nil => rw [List.flatMap_nil, decodeFrom]
    | cons c text ih =>
        obtain ⟨lead, bytes, bits, ranges, hBytes, hSequence, hRead⟩ :=
          exists_read_of_utf8EncodeChar c (text.flatMap String.utf8EncodeChar)
        rw [List.flatMap_cons, hBytes, decodeFrom_of_read hSequence hRead, ih, Char.ofNat_toNat]
        rfl

end FlatSyntax.Text.Encoding.Utf8
