import FlatSyntax.Text.Encoding.Utf16

/-! The sixteen-bit format read back. Surrogates are not characters, so the units of a text are told
apart: bytes are decoded to the text that they are written for, and bytes that no text is written as
are not decoded. -/
namespace FlatSyntax.Text.Encoding.Utf16

/-- The bytes of a unit. -/
def ByteOrder.bytesOf (order : ByteOrder) (unit : Nat) : List UInt8 :=
  match order with
  | little => [UInt8.ofNat (unit % 0x100), UInt8.ofNat (unit / 0x100)]
  | big => [UInt8.ofNat (unit / 0x100), UInt8.ofNat (unit % 0x100)]

/-- The units of a character: one for its code point, or two surrogates that share the bits beyond
the first plane. -/
def unitsOf (c : Char) : List Nat :=
  if c.toNat < 0x10000 then [c.toNat]
  else [0xD800 + (c.toNat - 0x10000) / 0x400, 0xDC00 + (c.toNat - 0x10000) % 0x400]

/-- The bytes that a text is written as. -/
def bytesOf (order : ByteOrder) (text : List Char) : List UInt8 :=
  text.flatMap fun c => (unitsOf c).flatMap order.bytesOf

variable {order : ByteOrder} {bytes : List UInt8}

theorem ByteOrder.bytesOf_unit (order : ByteOrder) (a b : UInt8) :
    order.bytesOf (order.unit a b) = [a, b] := by
  have hA := a.toNat_lt
  have hB := b.toNat_lt
  have hUnit (x y : UInt8) (hY : y.toNat < 0x100) :
      UInt8.ofNat ((x.toNat * 0x100 + y.toNat) / 0x100) = x ∧
        UInt8.ofNat ((x.toNat * 0x100 + y.toNat) % 0x100) = y := by
    rw [show (x.toNat * 0x100 + y.toNat) / 0x100 = x.toNat by omega,
      show (x.toNat * 0x100 + y.toNat) % 0x100 = y.toNat by omega]
    exact ⟨UInt8.ofNat_toNat, UInt8.ofNat_toNat⟩
  cases order with
  | little => rw [unit, bytesOf, (hUnit b a hA).1, (hUnit b a hA).2]
  | big => rw [unit, bytesOf, (hUnit a b hB).1, (hUnit a b hB).2]

theorem ByteOrder.unit_lt (order : ByteOrder) (a b : UInt8) : order.unit a b < 0x10000 := by
  have hA := a.toNat_lt
  have hB := b.toNat_lt
  cases order <;> rw [unit] <;> omega

theorem ByteOrder.exists_bytes (order : ByteOrder) {unit : Nat} (hUnit : unit < 0x10000) :
    ∃ a b, order.bytesOf unit = [a, b] ∧ order.unit a b = unit := by
  have hHigh : (UInt8.ofNat (unit / 0x100)).toNat = unit / 0x100 :=
    UInt8.toNat_ofNat_of_lt' (show unit / 0x100 < 0x100 by omega)
  have hLow : (UInt8.ofNat (unit % 0x100)).toNat = unit % 0x100 :=
    UInt8.toNat_ofNat_of_lt' (show unit % 0x100 < 0x100 by omega)
  cases order with
  | little => exact ⟨_, _, rfl, by rw [ByteOrder.unit, hHigh, hLow]; omega⟩
  | big => exact ⟨_, _, rfl, by rw [ByteOrder.unit, hHigh, hLow]; omega⟩

theorem toNat_ofNat {code : Nat} (hValid : code.isValidChar) : (Char.ofNat code).toNat = code := by
  rw [Char.ofNat, dif_pos hValid]
  rfl

theorem unitsOf_single {unit : Nat} (hUnit : unit < 0x10000)
    (hLow : isLowSurrogate unit = false) (hHigh : isHighSurrogate unit = false) :
    unitsOf (Char.ofNat unit) = [unit] := by
  simp only [isLowSurrogate, isHighSurrogate, Bool.and_eq_false_iff, decide_eq_false_iff_not]
    at hLow hHigh
  have hValid : unit.isValidChar := by
    unfold Nat.isValidChar
    omega
  rw [unitsOf, toNat_ofNat hValid, if_pos hUnit]

theorem unitsOf_pair {high low : Nat} (hHigh : isHighSurrogate high = true)
    (hLow : isLowSurrogate low = true) :
    unitsOf (Char.ofNat (pairCode high low)) = [high, low] := by
  simp only [isLowSurrogate, isHighSurrogate, Bool.and_eq_true, decide_eq_true_eq] at hLow hHigh
  have hValid : (pairCode high low).isValidChar := by
    unfold Nat.isValidChar pairCode
    omega
  have hFirst : 0xD800 + (pairCode high low - 0x10000) / 0x400 = high := by
    unfold pairCode
    omega
  have hSecond : 0xDC00 + (pairCode high low - 0x10000) % 0x400 = low := by
    unfold pairCode
    omega
  have hBeyond : ¬ pairCode high low < 0x10000 := by
    unfold pairCode
    omega
  rw [unitsOf, toNat_ofNat hValid, if_neg hBeyond, hFirst, hSecond]

/-- A character is one unit that is no surrogate, or a pair of surrogates for its code point. -/
theorem unitsOf_cases (c : Char) :
    (unitsOf c = [c.toNat] ∧ c.toNat < 0x10000 ∧ isLowSurrogate c.toNat = false ∧
        isHighSurrogate c.toNat = false) ∨
      ∃ high low, unitsOf c = [high, low] ∧ high < 0x10000 ∧ low < 0x10000 ∧
        isHighSurrogate high = true ∧ isLowSurrogate low = true ∧ pairCode high low = c.toNat := by
  have hValid : c.toNat.isValidChar := c.valid
  unfold Nat.isValidChar at hValid
  simp only [isLowSurrogate, isHighSurrogate, Bool.and_eq_true, decide_eq_true_eq,
    Bool.and_eq_false_iff, decide_eq_false_iff_not]
  by_cases hPlane : c.toNat < 0x10000
  · exact Or.inl ⟨if_pos hPlane, by omega, by omega, by omega⟩
  · refine Or.inr ⟨_, _, if_neg hPlane, by omega, by omega, by omega, by omega, ?_⟩
    unfold pairCode
    omega

theorem isHighSurrogate_eq_false {unit : Nat} (hLow : isLowSurrogate unit = true) :
    isHighSurrogate unit = false := by
  simp only [isLowSurrogate, isHighSurrogate, Bool.and_eq_true, decide_eq_true_eq,
    Bool.and_eq_false_iff, decide_eq_false_iff_not] at hLow ⊢
  omega

theorem isLowSurrogate_eq_false {unit : Nat} (hHigh : isHighSurrogate unit = true) :
    isLowSurrogate unit = false := by
  cases hLow : isLowSurrogate unit with
  | false => rfl
  | true => exact absurd hHigh (by rw [isHighSurrogate_eq_false hLow]; exact Bool.false_ne_true)

theorem decodeFrom_single {a b : UInt8} (hLow : isLowSurrogate (order.unit a b) = false)
    (hHigh : isHighSurrogate (order.unit a b) = false) (offset : Nat) :
    decodeFrom order offset (a :: b :: bytes) =
      (decodeFrom order (offset + 2) bytes).map (Char.ofNat (order.unit a b) :: ·) := by
  rw [decodeFrom.eq_def]
  simp only [hLow, hHigh, Bool.false_eq_true, if_false]

theorem decodeFrom_pair {a b c d : UInt8} (hHigh : isHighSurrogate (order.unit a b) = true)
    (hLow : isLowSurrogate (order.unit c d) = true) (offset : Nat) :
    decodeFrom order offset (a :: b :: c :: d :: bytes) =
      (decodeFrom order (offset + 4) bytes).map
        (Char.ofNat (pairCode (order.unit a b) (order.unit c d)) :: ·) := by
  rw [decodeFrom.eq_def]
  simp only [hHigh, hLow, isLowSurrogate_eq_false hHigh, Bool.false_eq_true, if_false, if_true]

theorem bytesOf_cons (order : ByteOrder) (c : Char) (text : List Char) :
    bytesOf order (c :: text) = (unitsOf c).flatMap order.bytesOf ++ bytesOf order text :=
  List.flatMap_cons

/-- Bytes are decoded to the text that they are written for, and to no other. -/
theorem decodeFrom_eq_ok_iff {offset : Nat} {text : List Char} :
    decodeFrom order offset bytes = .ok text ↔ bytes = bytesOf order text := by
  constructor
  · intro hDecode
    fun_induction decodeFrom order offset bytes generalizing text with
    | case1 =>
        cases hDecode
        rfl
    | case2 | case3 | case5 | case6 => cases hDecode
    | case4 offset a b unit _ hHigh c d rest next hNext =>
        rename_i ih
        cases hRest : decodeFrom order (offset + 4) rest with
        | error =>
            rw [hRest] at hDecode
            cases hDecode
        | ok more =>
            rw [hRest] at hDecode
            cases hDecode
            rw [bytesOf_cons, unitsOf_pair hHigh hNext, ← ih hRest]
            simp [unit, next, ByteOrder.bytesOf_unit]
    | case7 offset a b rest unit hLow hHigh =>
        rename_i ih
        cases hRest : decodeFrom order (offset + 2) rest with
        | error =>
            rw [hRest] at hDecode
            cases hDecode
        | ok more =>
            rw [hRest] at hDecode
            cases hDecode
            rw [bytesOf_cons, unitsOf_single (order.unit_lt a b) (eq_false_of_ne_true hLow)
              (eq_false_of_ne_true hHigh), ← ih hRest]
            simp [ByteOrder.bytesOf_unit]
  · rintro rfl
    induction text generalizing offset with
    | nil => rfl
    | cons c text ih =>
        rw [bytesOf_cons]
        obtain ⟨hUnits, hUnit, hLow, hHigh⟩ |
            ⟨high, low, hUnits, hFirst, hSecond, hHigh, hLow, hCode⟩ := unitsOf_cases c
        · obtain ⟨a, b, hBytes, hRead⟩ := order.exists_bytes hUnit
          rw [hUnits, List.flatMap_singleton, hBytes]
          rw [← hRead] at hLow hHigh
          simp only [List.cons_append, List.nil_append]
          rw [decodeFrom_single hLow hHigh, ih, hRead, Char.ofNat_toNat]
          rfl
        · obtain ⟨a, b, hBytes, hRead⟩ := order.exists_bytes hFirst
          obtain ⟨d, e, hMore, hNext⟩ := order.exists_bytes hSecond
          rw [hUnits, List.flatMap_cons, List.flatMap_singleton, hBytes, hMore]
          rw [← hRead] at hHigh
          rw [← hNext] at hLow
          simp only [List.cons_append, List.nil_append]
          rw [decodeFrom_pair hHigh hLow, ih, hRead, hNext, hCode, Char.ofNat_toNat]
          rfl

end FlatSyntax.Text.Encoding.Utf16
