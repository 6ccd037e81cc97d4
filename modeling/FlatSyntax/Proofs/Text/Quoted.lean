import FlatSyntax.Text.Quoted
import Mathlib

/-! The quoted form of a text read back. Each character between the quotes is read off without
regard to what follows it, and none of them starts with the closing quote, so a quoted form tells
its text and where it ends. All of its characters have a printed form. -/
namespace FlatSyntax.Text

namespace Hex

/-- The value of a lower-case digit. -/
def digitValue (c : Char) : Nat :=
  if c.toNat < 0x61 then c.toNat - 0x30 else c.toNat - 0x57

/-- The number that lower-case digits stand for. -/
def ofDigits (digits : List Char) : Nat :=
  digits.foldl (fun number c => number * 16 + digitValue c) 0

theorem digitValue_digit : ∀ value < 16, digitValue (digit value) = value := by decide

theorem ofDigits_fixed {width value : Nat} (hValue : value < 16 ^ width) :
    ofDigits (fixed width value) = value := by
  induction width generalizing value with
  | zero => exact (Nat.lt_one_iff.mp hValue).symm
  | succ width ih =>
      have hFront : value / 16 < 16 ^ width := by
        rw [Nat.div_lt_iff_lt_mul (by decide), ← Nat.pow_succ]
        exact hValue
      calc ofDigits (fixed (width + 1) value)
        _ = ofDigits (fixed width (value / 16)) * 16 + digitValue (digit (value % 16)) := by
            rw [fixed, ofDigits, List.foldl_append]
            rfl
        _ = value / 16 * 16 + value % 16 := by
            rw [ih hFront, digitValue_digit _ (Nat.mod_lt value (by decide))]
        _ = value := Nat.div_add_mod' value 16

/-- Read a character off its code point, a numeral of the given width, and what follows it. -/
def readChar (width : Nat) (text : List Char) : Char × List Char :=
  (Char.ofNat (ofDigits (text.take width)), text.drop width)

theorem readChar_fixed {width : Nat} {c : Char} (hCode : c.toNat < 16 ^ width)
    (rest : List Char) : readChar width (fixed width c.toNat ++ rest) = (c, rest) := by
  have hLength := fixed_length width c.toNat
  rw [readChar, List.take_left' hLength, List.drop_left' hLength, ofDigits_fixed hCode,
    Char.ofNat_toNat]

end Hex

/-- Read one character off the inside of a quoted form, and what follows it. -/
def unquoteChar : List Char → Option (Char × List Char)
  | [] => none
  | '\\' :: 'n' :: rest => some ('\n', rest)
  | '\\' :: 'r' :: rest => some ('\r', rest)
  | '\\' :: 't' :: rest => some ('\t', rest)
  | '\\' :: 'x' :: rest => some (Hex.readChar 2 rest)
  | '\\' :: 'u' :: rest => some (Hex.readChar 4 rest)
  | '\\' :: 'U' :: rest => some (Hex.readChar 8 rest)
  | '\\' :: c :: rest => some (c, rest)
  | c :: rest => some (c, rest)

/-- Every quoted form stands between quotes of one of the two kinds. -/
def IsEnclosing (quote : Char) : Prop := quote = '\'' ∨ quote = '"'

theorem isEnclosing_enclosingQuote (text : List Char) : IsEnclosing (enclosingQuote text) := by
  unfold enclosingQuote
  split
  · exact Or.inr rfl
  · exact Or.inl rfl

/-- What a character stands as between quotes: as itself, behind a backslash, by a letter, or by its
code point. -/
inductive StandsAs (quote c : Char) : List Char → Prop where
  | itself (hQuote : c ≠ quote) (hEscape : c ≠ '\\') (hPrintable : isPrintable c = true) :
      StandsAs quote c [c]
  | escaped (hEither : c = quote ∨ c = '\\') : StandsAs quote c ['\\', c]
  | letter {sign : Char} (hSign : (sign, c) ∈ [('n', '\n'), ('r', '\r'), ('t', '\t')]) :
      StandsAs quote c ['\\', sign]
  | number {sign : Char} {width : Nat} (hSign : (sign, width) ∈ [('x', 2), ('u', 4), ('U', 8)])
      (hCode : c.toNat < 16 ^ width) :
      StandsAs quote c ('\\' :: sign :: Hex.fixed width c.toNat)

theorem standsAs_quotedChar (quote c : Char) : StandsAs quote c (quotedChar quote c) := by
  unfold quotedChar
  split
  · rename_i hEscaped
    simp only [Bool.or_eq_true, beq_iff_eq] at hEscaped
    exact .escaped hEscaped
  rename_i hPlain
  simp only [Bool.or_eq_true, beq_iff_eq, not_or] at hPlain
  split
  · rename_i hFeed
    exact .letter (by simp [beq_iff_eq.mp hFeed])
  split
  · rename_i hReturn
    exact .letter (by simp [beq_iff_eq.mp hReturn])
  split
  · rename_i hTab
    exact .letter (by simp [beq_iff_eq.mp hTab])
  split
  · rename_i hPrintable
    exact .itself hPlain.1 hPlain.2 hPrintable
  split
  · rename_i hShort
    exact .number (by simp) hShort
  split
  · rename_i hMiddle
    exact .number (by simp) hMiddle
  · exact .number (by simp) c.val.toNat_lt

theorem unquoteChar_plain {c : Char} (hEscape : c ≠ '\\') (rest : List Char) :
    unquoteChar (c :: rest) = some (c, rest) := by
  unfold unquoteChar
  split <;> simp_all

/-- A quoted character is read back, whatever follows it. -/
theorem unquoteChar_quotedChar {quote : Char} (hQuote : IsEnclosing quote) (c : Char)
    (rest : List Char) : unquoteChar (quotedChar quote c ++ rest) = some (c, rest) := by
  have hStands := standsAs_quotedChar quote c
  generalize quotedChar quote c = shown at hStands ⊢
  cases hStands with
  | itself _ hEscape _ => exact unquoteChar_plain hEscape rest
  | escaped hEither =>
      rcases hEither with rfl | rfl
      · rcases hQuote with rfl | rfl <;> rfl
      · rfl
  | letter hSign =>
      simp only [List.mem_cons, Prod.mk.injEq, List.not_mem_nil, or_false] at hSign
      rcases hSign with ⟨rfl, rfl⟩ | ⟨rfl, rfl⟩ | ⟨rfl, rfl⟩ <;> rfl
  | @number sign width hSign hCode =>
      have hRead := Hex.readChar_fixed hCode rest
      simp only [List.mem_cons, Prod.mk.injEq, List.not_mem_nil, or_false] at hSign
      rcases hSign with ⟨rfl, rfl⟩ | ⟨rfl, rfl⟩ | ⟨rfl, rfl⟩ <;> exact congrArg some hRead

theorem Hex.isPrintable_digit : ∀ value < 16, isPrintable (digit value) = true := by
  decide

theorem Hex.isPrintable_of_mem_fixed {width value : Nat} {c : Char}
    (hMem : c ∈ fixed width value) : isPrintable c = true := by
  induction width generalizing value with
  | zero => cases hMem
  | succ width ih =>
      rcases List.mem_append.mp hMem with hFront | hLast
      · exact ih hFront
      · rw [List.mem_singleton.mp hLast]
        exact isPrintable_digit _ (Nat.mod_lt value (by decide))

/-- The characters that a character stands as have a printed form. -/
theorem StandsAs.isPrintable {quote c : Char} {text : List Char} (hQuote : IsEnclosing quote)
    (hStands : StandsAs quote c text) : ∀ d ∈ text, isPrintable d = true := by
  have hSigns : ∀ d ∈ ['\'', '"', '\\', 'n', 'r', 't', 'x', 'u', 'U'],
      Text.isPrintable d = true := List.all_eq_true.mp (by decide)
  have hBackslash := hSigns '\\' (by simp)
  cases hStands with
  | itself _ _ hPrintable => exact List.forall_mem_singleton.mpr hPrintable
  | escaped hEither =>
      refine List.forall_mem_cons.mpr ⟨hBackslash, List.forall_mem_singleton.mpr ?_⟩
      rcases hEither with rfl | rfl
      · rcases hQuote with rfl | rfl <;> exact hSigns _ (by simp)
      · exact hBackslash
  | letter hSign =>
      refine List.forall_mem_cons.mpr ⟨hBackslash, List.forall_mem_singleton.mpr (hSigns _ ?_)⟩
      simp only [List.mem_cons, Prod.mk.injEq, List.not_mem_nil, or_false] at hSign
      rcases hSign with ⟨rfl, -⟩ | ⟨rfl, -⟩ | ⟨rfl, -⟩ <;> simp
  | number hSign =>
      refine List.forall_mem_cons.mpr ⟨hBackslash, List.forall_mem_cons.mpr ⟨hSigns _ ?_, ?_⟩⟩
      · simp only [List.mem_cons, Prod.mk.injEq, List.not_mem_nil, or_false] at hSign
        rcases hSign with ⟨rfl, -⟩ | ⟨rfl, -⟩ | ⟨rfl, -⟩ <;> simp
      · exact fun d hMem => Hex.isPrintable_of_mem_fixed hMem

/-- No character between the quotes is taken for the closing one. -/
theorem quotedChar_append_ne {quote : Char} (hQuote : IsEnclosing quote) (c : Char)
    (rest after : List Char) : quotedChar quote c ++ rest ≠ quote :: after := by
  have hEscape : '\\' ≠ quote := by rcases hQuote with rfl | rfl <;> decide
  have hStands := standsAs_quotedChar quote c
  generalize quotedChar quote c = shown at hStands ⊢
  cases hStands with
  | itself hOther => exact fun hSame => hOther (List.cons.inj hSame).1
  | escaped | letter | number => exact fun hSame => hEscape (List.cons.inj hSame).1

/-- The inside of a quoted form ends at its closing quote. -/
theorem flatMap_quotedChar_inj {quote : Char} (hQuote : IsEnclosing quote)
    {text text' after after' : List Char}
    (hSame : text.flatMap (quotedChar quote) ++ quote :: after =
      text'.flatMap (quotedChar quote) ++ quote :: after') :
    text = text' ∧ after = after' := by
  induction text generalizing text' with
  | nil =>
      cases text' with
      | nil => exact ⟨rfl, (List.cons.inj hSame).2⟩
      | cons c more =>
          rw [List.flatMap_cons, List.append_assoc] at hSame
          exact absurd hSame.symm (quotedChar_append_ne hQuote c _ _)
  | cons c more ih =>
      cases text' with
      | nil =>
          rw [List.flatMap_cons, List.append_assoc] at hSame
          exact absurd hSame (quotedChar_append_ne hQuote c _ _)
      | cons d more' =>
          rw [List.flatMap_cons, List.flatMap_cons, List.append_assoc, List.append_assoc] at hSame
          have hRead := congrArg unquoteChar hSame
          rw [unquoteChar_quotedChar hQuote, unquoteChar_quotedChar hQuote, Option.some.injEq,
            Prod.mk.injEq] at hRead
          obtain ⟨rfl, hMore⟩ := hRead
          obtain ⟨rfl, rfl⟩ := ih hMore
          exact ⟨rfl, rfl⟩

/-- A quoted form tells its text and where it ends. -/
theorem quotedChars_append_inj {text text' after after' : List Char}
    (hSame : quotedChars text ++ after = quotedChars text' ++ after') :
    text = text' ∧ after = after' := by
  simp only [quotedChars, List.cons_append, List.append_assoc, List.nil_append,
    List.cons.injEq] at hSame
  obtain ⟨hQuote, hInside⟩ := hSame
  rw [← hQuote] at hInside
  exact flatMap_quotedChar_inj (isEnclosing_enclosingQuote text) hInside

/-- A quoted form holds nothing without a printed form, so it is a single line. -/
theorem isPrintable_of_mem_quotedChars {text : List Char} {c : Char}
    (hMem : c ∈ quotedChars text) : isPrintable c = true := by
  have hQuote := isEnclosing_enclosingQuote text
  have hQuotes : isPrintable (enclosingQuote text) = true := by
    rcases hQuote with hKind | hKind <;> rw [hKind] <;> decide
  simp only [quotedChars, List.cons_append, List.mem_cons, List.mem_append, List.mem_flatMap,
    List.not_mem_nil, or_false] at hMem
  rcases hMem with rfl | ⟨d, -, hChar⟩ | rfl
  · exact hQuotes
  · exact (standsAs_quotedChar _ d).isPrintable hQuote c hChar
  · exact hQuotes

end FlatSyntax.Text
