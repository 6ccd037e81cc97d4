/-!
Hexadecimal numerals for code points and bytes, of a fixed width in lower case and of a least width
in upper case.
-/

namespace FlatSyntax.Text.Hex

/-- The lower-case digit of a value below sixteen. -/
def digit (value : Nat) : Char :=
  if value < 10 then Char.ofNat (0x30 + value) else Char.ofNat (0x57 + value)

/-- The last `width` hexadecimal digits of a number, with leading zeros. -/
def fixed : (width : Nat) → (value : Nat) → List Char
  | 0, _ => []
  | width + 1, value => fixed width (value / 16) ++ [digit (value % 16)]

/-- How many hexadecimal digits a code point needs, but no fewer than two. -/
def width (value : Nat) : Nat :=
  if value < 0x100 then 2
  else if value < 0x1000 then 3
  else if value < 0x10000 then 4
  else if value < 0x100000 then 5
  else 6

/-- The upper-case numeral of a code point, at least two digits wide. -/
def upper (value : Nat) : List Char :=
  (fixed (width value) value).map Char.toUpper

@[simp] theorem fixed_length (width value : Nat) : (fixed width value).length = width := by
  induction width generalizing value with
  | zero => rfl
  | succ width ih => simp [fixed, ih]

end FlatSyntax.Text.Hex
