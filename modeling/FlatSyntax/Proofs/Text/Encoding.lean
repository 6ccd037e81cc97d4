import FlatSyntax.Proofs.Text.Encoding.Utf16
import FlatSyntax.Proofs.Text.Encoding.Utf8
import FlatSyntax.Text.Encoding

/-! Encodings as ways to write text. What an encoding decodes is told by what is written in it, so
that bytes which are text are told from those which are not without a look at the decoders. -/
namespace FlatSyntax.Text.Encoding

/-- Bytes that a text may be written as. In the marked eight-bit format the mark may be left out,
where the bytes do not look like one, and a part of the mark counts as no text. In the sixteen-bit
format only an empty text goes without a mark. -/
def Writes (encoding : Encoding) (text : List Char) (data : List UInt8) : Prop :=
  match encoding with
  | .ascii => (∀ c ∈ text, c.toNat < 0x80) ∧ data = text.map fun c => UInt8.ofNat c.toNat
  | .latin1 => (∀ c ∈ text, c.toNat < 0x100) ∧ data = text.map fun c => UInt8.ofNat c.toNat
  | .utf8 => data = text.flatMap String.utf8EncodeChar
  | .utf8Marked =>
      data = 0xEF :: 0xBB :: 0xBF :: text.flatMap String.utf8EncodeChar ∨
        data <+: [0xEF, 0xBB, 0xBF] ∧ text = [] ∨
        ¬ [0xEF, 0xBB, 0xBF] <+: data ∧ ¬ data <+: [0xEF, 0xBB, 0xBF] ∧
          data = text.flatMap String.utf8EncodeChar
  | .utf16 =>
      data = 0xFF :: 0xFE :: Utf16.bytesOf .little text ∨
        data = 0xFE :: 0xFF :: Utf16.bytesOf .big text ∨ data = [] ∧ text = []
  | .utf16Ordered order => data = Utf16.bytesOf order text

variable {data : List UInt8} {text : List Char}

theorem reportMalformed_eq_ok_iff {codec : String} {decoded : Except Malformed (List Char)} :
    reportMalformed codec data decoded = .ok text ↔ decoded = .ok text := by
  cases decoded with
  | error => exact iff_of_false nofun nofun
  | ok =>
      constructor
      · rintro ⟨⟩
        rfl
      · rintro ⟨⟩
        rfl

theorem toNat_ofNat_toNat (byte : UInt8) : (Char.ofNat byte.toNat).toNat = byte.toNat :=
  Utf16.toNat_ofNat (Or.inl (Nat.lt_trans byte.toNat_lt (by decide)))

theorem decodeAscii_eq_ok_iff {offset : Nat} :
    decodeAscii offset data = .ok text ↔
      (∀ c ∈ text, c.toNat < 0x80) ∧ data = text.map fun c => UInt8.ofNat c.toNat := by
  constructor
  · intro hDecode
    fun_induction decodeAscii offset data generalizing text with
    | case1 =>
        cases hDecode
        exact ⟨List.forall_mem_nil _, rfl⟩
    | case2 offset byte rest hByte ih =>
        cases hRest : decodeAscii (offset + 1) rest with
        | error =>
            rw [hRest] at hDecode
            cases hDecode
        | ok more =>
            rw [hRest] at hDecode
            cases hDecode
            obtain ⟨hMore, hSame⟩ := ih hRest
            rw [List.map_cons, toNat_ofNat_toNat, UInt8.ofNat_toNat, ← hSame]
            exact ⟨List.forall_mem_cons.mpr ⟨by rwa [toNat_ofNat_toNat], hMore⟩, rfl⟩
    | case3 => cases hDecode
  · rintro ⟨hText, rfl⟩
    induction text generalizing offset with
    | nil => rfl
    | cons c text ih =>
        obtain ⟨hC, hMore⟩ := List.forall_mem_cons.mp hText
        have hByte : (UInt8.ofNat c.toNat).toNat = c.toNat :=
          UInt8.toNat_ofNat_of_lt' (Nat.lt_trans hC (by decide))
        rw [List.map_cons, decodeAscii, hByte, if_pos hC, ih hMore, Char.ofNat_toNat]
        rfl

theorem decodeLatin1_eq_iff :
    (data.map fun byte => Char.ofNat byte.toNat) = text ↔
      (∀ c ∈ text, c.toNat < 0x100) ∧ data = text.map fun c => UInt8.ofNat c.toNat := by
  constructor
  · rintro rfl
    refine ⟨fun c hMem => ?_, ?_⟩
    · obtain ⟨byte, -, rfl⟩ := List.mem_map.mp hMem
      rw [toNat_ofNat_toNat]
      exact byte.toNat_lt
    · simp only [List.map_map, Function.comp_def, toNat_ofNat_toNat, UInt8.ofNat_toNat,
        List.map_id']
  · rintro ⟨hText, rfl⟩
    rw [List.map_map]
    refine (List.map_congr_left fun c hMem => ?_).trans (List.map_id _)
    have hByte : (UInt8.ofNat c.toNat).toNat = c.toNat := UInt8.toNat_ofNat_of_lt' (hText c hMem)
    simp only [Function.comp_apply, hByte, Char.ofNat_toNat, id]

theorem decodeUtf8_eq_ok_iff :
    decodeUtf8 data = .ok text ↔ data = text.flatMap String.utf8EncodeChar :=
  reportMalformed_eq_ok_iff.trans Utf8.decodeFrom_eq_ok_iff

theorem decode_utf8Marked_eq_ok_iff :
    utf8Marked.decode data = .ok text ↔ utf8Marked.Writes text data := by
  have hMark : utf8Mark = [0xEF, 0xBB, 0xBF] := rfl
  rw [decode, Writes, ← hMark]
  split
  case isTrue hMarked =>
    obtain ⟨rest, rfl⟩ := List.isPrefixOf_iff_prefix.mp hMarked
    rw [List.drop_left, decodeUtf8_eq_ok_iff]
    constructor
    · rintro rfl
      exact Or.inl rfl
    · rintro (hRest | ⟨hPart, rfl⟩ | ⟨hNone, -⟩)
      · exact List.append_cancel_left hRest
      · have hLength := hPart.length_le
        rw [List.length_append] at hLength
        exact List.length_eq_zero_iff.mp (by omega)
      · exact absurd (List.prefix_append _ _) hNone
  case isFalse hMarked =>
    have hNone : ¬ utf8Mark <+: data := fun hPrefix =>
      hMarked (List.isPrefixOf_iff_prefix.mpr hPrefix)
    have hOther : data ≠ 0xEF :: 0xBB :: 0xBF :: text.flatMap String.utf8EncodeChar := by
      rintro rfl
      exact hNone (List.prefix_append utf8Mark _)
    split
    case isTrue hPart =>
      have hPrefix : data <+: utf8Mark := List.isPrefixOf_iff_prefix.mp hPart
      simp [hOther, hPrefix, eq_comm]
    case isFalse hPart =>
      have hPrefix : ¬ data <+: utf8Mark := fun hPrefix =>
        hPart (List.isPrefixOf_iff_prefix.mpr hPrefix)
      rw [decodeUtf8_eq_ok_iff]
      simp [hOther, hPrefix, hNone]

/-- Without a mark the bytes are read in one order, but even where that succeeds only an empty file
is text: fewer than two bytes are none or no unit, and more need the mark. -/
theorem decode_utf16_of_unmarked (hLittle : ∀ rest, data ≠ 0xFF :: 0xFE :: rest)
    (hBig : ∀ rest, data ≠ 0xFE :: 0xFF :: rest) :
    utf16.decode data = .ok text ↔ data = [] ∧ text = [] := by
  rw [decode]
  case x_2 => exact hLittle
  case x_3 => exact hBig
  match data with
  | [] =>
      constructor
      · rintro ⟨⟩
        exact ⟨rfl, rfl⟩
      · rintro ⟨-, rfl⟩
        rfl
  | [byte] => exact iff_of_false nofun nofun
  | a :: b :: rest =>
      split
      case h_1 => exact iff_of_false nofun nofun
      case h_2 =>
        have hMore : ¬ (a :: b :: rest).length < 2 := Nat.not_lt.mpr (Nat.le_add_left _ _)
        rw [if_neg hMore]
        exact iff_of_false nofun nofun

theorem decode_utf16_eq_ok_iff : utf16.decode data = .ok text ↔ utf16.Writes text data := by
  by_cases hLittle : ∃ rest, data = 0xFF :: 0xFE :: rest
  · obtain ⟨rest, rfl⟩ := hLittle
    exact (reportMalformed_eq_ok_iff.trans Utf16.decodeFrom_eq_ok_iff).trans (by simp [Writes])
  · by_cases hBig : ∃ rest, data = 0xFE :: 0xFF :: rest
    · obtain ⟨rest, rfl⟩ := hBig
      exact (reportMalformed_eq_ok_iff.trans Utf16.decodeFrom_eq_ok_iff).trans (by simp [Writes])
    · rw [not_exists] at hLittle hBig
      rw [decode_utf16_of_unmarked hLittle hBig]
      simp [Writes, hLittle, hBig]

/-- Bytes are decoded to a text exactly where the text may be written as these bytes. -/
theorem decode_eq_ok_iff (encoding : Encoding) :
    encoding.decode data = .ok text ↔ encoding.Writes text data := by
  cases encoding with
  | ascii => exact reportMalformed_eq_ok_iff.trans decodeAscii_eq_ok_iff
  | latin1 =>
      rw [decode, Except.ok.injEq]
      exact decodeLatin1_eq_iff
  | utf8 => exact decodeUtf8_eq_ok_iff
  | utf8Marked => exact decode_utf8Marked_eq_ok_iff
  | utf16 => exact decode_utf16_eq_ok_iff
  | utf16Ordered order => exact reportMalformed_eq_ok_iff.trans Utf16.decodeFrom_eq_ok_iff

/-- The names of the encodings in which every malformed file has a place where it is malformed. -/
def placing : List (String × Encoding) :=
  [("utf-8", .utf8), ("utf-8-sig", .utf8Marked), ("latin-1", .latin1), ("ascii", .ascii),
   ("utf-16-le", .utf16Ordered .little), ("utf-16-be", .utf16Ordered .big)]

theorem ofName?_of_mem_placing :
    ∀ entry ∈ placing, ofName? entry.1 = some entry.2 ∧ entry.2 ≠ .utf16 := by
  decide +kernel

theorem exists_fault_of_reportMalformed {codec : String} {data : List UInt8}
    {decoded : Except Malformed (List Char)} {error : DecodeError}
    (hReported : reportMalformed codec data decoded = .error error) :
    ∃ fault, error = .malformed fault := by
  cases decoded with
  | error malformed =>
      cases hReported
      exact ⟨_, rfl⟩
  | ok => cases hReported

/-- Only the encoding that needs a byte order mark fails without a place. -/
theorem exists_fault_of_decode {encoding : Encoding} (hEncoding : encoding ≠ .utf16)
    {bytes : List UInt8} {error : DecodeError} (hDecode : encoding.decode bytes = .error error) :
    ∃ fault, error = .malformed fault := by
  cases encoding with
  | utf16 => exact absurd rfl hEncoding
  | latin1 => cases hDecode
  | ascii | utf8 | utf16Ordered => exact exists_fault_of_reportMalformed hDecode
  | utf8Marked =>
      rw [decode] at hDecode
      split at hDecode
      · exact exists_fault_of_reportMalformed hDecode
      · split at hDecode
        · cases hDecode
        · exact exists_fault_of_reportMalformed hDecode

end FlatSyntax.Text.Encoding
