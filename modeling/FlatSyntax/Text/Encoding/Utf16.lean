import FlatSyntax.Text.Encoding.Fault

/-!
The sixteen-bit transformation format of Unicode, in either byte order. A character is one unit that
is no surrogate, or a high surrogate and a low one.
-/

namespace FlatSyntax.Text.Encoding.Utf16

inductive ByteOrder where
  | little
  | big
deriving DecidableEq, Repr

/-- The unit that two bytes spell. -/
def ByteOrder.unit : ByteOrder → UInt8 → UInt8 → Nat
  | .little, low, high => high.toNat * 0x100 + low.toNat
  | .big, high, low => high.toNat * 0x100 + low.toNat

def isHighSurrogate (unit : Nat) : Bool := 0xD800 ≤ unit && unit < 0xDC00

def isLowSurrogate (unit : Nat) : Bool := 0xDC00 ≤ unit && unit < 0xE000

/-- The code point of a pair of surrogates. -/
def pairCode (high low : Nat) : Nat :=
  0x10000 + (high - 0xD800) * 0x400 + (low - 0xDC00)

/-- Decode the bytes from an offset of the data on. A high surrogate with less than one unit after
it is reported together with the byte that may follow it. -/
def decodeFrom (order : ByteOrder) (offset : Nat) : List UInt8 → Except Malformed (List Char)
  | [] => .ok []
  | [_] => .error ⟨offset, 1, "truncated data"⟩
  | a :: b :: rest =>
      let unit := order.unit a b
      if isLowSurrogate unit then .error ⟨offset, 2, "illegal encoding"⟩
      else if isHighSurrogate unit then
        match rest with
        | c :: d :: rest =>
            let next := order.unit c d
            if isLowSurrogate next then
              (decodeFrom order (offset + 4) rest).map (Char.ofNat (pairCode unit next) :: ·)
            else .error ⟨offset, 2, "illegal UTF-16 surrogate"⟩
        | short => .error ⟨offset, 2 + short.length, "unexpected end of data"⟩
      else (decodeFrom order (offset + 2) rest).map (Char.ofNat unit :: ·)

end FlatSyntax.Text.Encoding.Utf16
