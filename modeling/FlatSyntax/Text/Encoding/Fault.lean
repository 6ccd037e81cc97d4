import FlatSyntax.Text.Hex

/-!
Faults of encoded text: a stretch of bytes that spells no character.
-/

namespace FlatSyntax.Text.Encoding

/-- A stretch of the data that cannot be decoded: its offset, its length and what is wrong. -/
structure Malformed where
  offset : Nat
  length : Nat
  reason : String
deriving DecidableEq, Repr

/-- A report of data that cannot be decoded. The faulty bytes are those from `first` up to but not
including `stop`. -/
structure Fault where
  codec : String
  data : List UInt8
  first : Nat
  stop : Nat
  reason : String
deriving DecidableEq, Repr

/-- The report on a stretch of the given data. -/
def Malformed.toFault (malformed : Malformed) (codec : String) (data : List UInt8) : Fault :=
  { codec, data, first := malformed.offset, stop := malformed.offset + malformed.length,
    reason := malformed.reason }

/-- The text of a report. A single faulty byte is shown, of several only the offsets are given. -/
def Fault.message (fault : Fault) : String :=
  let codec := "'" ++ fault.codec ++ "' codec can't decode byte"
  let subject :=
    match fault.data[fault.first]?, decide (fault.stop = fault.first + 1) with
    | some byte, true =>
        " 0x" ++ String.ofList (Hex.fixed 2 byte.toNat) ++ " in position " ++ toString fault.first
    | _, _ =>
        "s in position " ++ toString fault.first ++ "-" ++ toString ((fault.stop : Int) - 1)
  codec ++ subject ++ ": " ++ fault.reason

end FlatSyntax.Text.Encoding
