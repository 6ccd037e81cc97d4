import FlatSyntax.Text.Encoding.Fault

/-!
The eight-bit transformation format of Unicode. A sequence is one byte below 80, or a lead byte and
one to three continuation bytes; some lead bytes narrow the range of the first continuation byte, so
that no character has two spellings and no surrogate is spelled.
-/

namespace FlatSyntax.Text.Encoding.Utf8

/-- The range of an ordinary continuation byte. -/
def continuation : Nat × Nat := (0x80, 0xBF)

/-- For a lead byte, the bits it contributes and the ranges of the bytes that have to follow. -/
def sequenceOf (lead : Nat) : Option (Nat × List (Nat × Nat)) :=
  if lead < 0x80 then some (lead, [])
  else if lead < 0xC2 then none
  else if lead < 0xE0 then some (lead % 0x20, [continuation])
  else if lead = 0xE0 then some (0, [(0xA0, 0xBF), continuation])
  else if lead = 0xED then some (0xD, [(0x80, 0x9F), continuation])
  else if lead < 0xF0 then some (lead % 0x10, [continuation, continuation])
  else if lead = 0xF0 then some (0, [(0x90, 0xBF), continuation, continuation])
  else if lead < 0xF4 then some (lead % 8, [continuation, continuation, continuation])
  else if lead = 0xF4 then some (4, [(0x80, 0x8F), continuation, continuation])
  else none

/-- Read the continuation bytes of a sequence. A failure gives the number of continuation bytes that
fitted, and whether the data ended there. -/
def readContinuation : (bits : Nat) → List (Nat × Nat) → List UInt8 →
    Except (Nat × Bool) (Nat × List UInt8)
  | bits, [], rest => .ok (bits, rest)
  | _, _ :: _, [] => .error (0, true)
  | bits, (first, last) :: more, byte :: rest =>
      if first ≤ byte.toNat ∧ byte.toNat ≤ last then
        (readContinuation (bits * 0x40 + byte.toNat % 0x40) more rest).mapError
          fun (fitted, ended) => (fitted + 1, ended)
      else .error (0, false)

theorem readContinuation_length_le {bits code : Nat} {ranges : List (Nat × Nat)}
    {bytes rest : List UInt8} (hRead : readContinuation bits ranges bytes = .ok (code, rest)) :
    rest.length ≤ bytes.length := by
  induction ranges generalizing bits bytes with
  | nil => simp only [readContinuation, Except.ok.injEq, Prod.mk.injEq] at hRead; simp [hRead.2]
  | cons range more ih =>
      cases bytes with
      | nil => simp [readContinuation] at hRead
      | cons byte bytes =>
          simp only [readContinuation] at hRead
          split at hRead
          · cases hNext : readContinuation (bits * 0x40 + byte.toNat % 0x40) more bytes with
            | error fault =>
                rw [hNext] at hRead
                cases hRead
            | ok result =>
                rw [hNext] at hRead
                cases hRead
                exact Nat.le_succ_of_le (ih hNext)
          · cases hRead

/-- Decode the bytes from an offset of the data on. -/
def decodeFrom (offset : Nat) : List UInt8 → Except Malformed (List Char)
  | [] => .ok []
  | lead :: bytes =>
      match sequenceOf lead.toNat with
      | none => .error ⟨offset, 1, "invalid start byte"⟩
      | some (bits, ranges) =>
          match _hRead : readContinuation bits ranges bytes with
          | .error (fitted, ended) =>
              .error ⟨offset, fitted + 1,
                if ended then "unexpected end of data" else "invalid continuation byte"⟩
          | .ok (code, rest) =>
              (decodeFrom (offset + 1 + ranges.length) rest).map (Char.ofNat code :: ·)
  termination_by bytes => bytes.length
  decreasing_by exact Nat.lt_succ_of_le (readContinuation_length_le _hRead)

end FlatSyntax.Text.Encoding.Utf8
