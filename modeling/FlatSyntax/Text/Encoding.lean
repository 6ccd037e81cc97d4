import FlatSyntax.Text.Encoding.Utf16
import FlatSyntax.Text.Encoding.Utf8
import FlatSyntax.Text.Lines

/-!
Encodings of source files: the names under which they are known and how each decodes a file's bytes.
-/

namespace FlatSyntax.Text

inductive Encoding where
  | ascii
  | latin1
  | utf8
  /-- The eight-bit format with an optional byte order mark that is not part of the text. -/
  | utf8Marked
  /-- The sixteen-bit format whose byte order mark tells the order. -/
  | utf16
  | utf16Ordered (order : Encoding.Utf16.ByteOrder)
deriving DecidableEq, Repr

namespace Encoding

/-- The names of each encoding, in the form that `canonicalName` gives. -/
def names : List (String × Encoding) :=
  [("ascii", .ascii), ("us_ascii", .ascii), ("us", .ascii), ("646", .ascii), ("cp367", .ascii),
   ("ibm367", .ascii), ("csascii", .ascii), ("iso646_us", .ascii), ("iso_646.irv_1991", .ascii),
   ("iso_ir_6", .ascii), ("ansi_x3.4_1968", .ascii), ("ansi_x3_4_1968", .ascii),
   ("ansi_x3.4_1986", .ascii),
   ("latin_1", .latin1), ("latin1", .latin1), ("latin", .latin1), ("l1", .latin1),
   ("8859", .latin1), ("iso8859", .latin1), ("iso8859_1", .latin1), ("iso_8859_1", .latin1),
   ("iso_8859_1_1987", .latin1), ("iso_ir_100", .latin1), ("csisolatin1", .latin1),
   ("cp819", .latin1), ("ibm819", .latin1),
   ("utf_8", .utf8), ("utf8", .utf8), ("utf", .utf8), ("u8", .utf8), ("cp65001", .utf8),
   ("utf8_ucs2", .utf8), ("utf8_ucs4", .utf8),
   ("utf_8_sig", .utf8Marked),
   ("utf_16", .utf16), ("utf16", .utf16), ("u16", .utf16),
   ("utf_16_le", .utf16Ordered .little), ("utf_16le", .utf16Ordered .little),
   ("unicodelittleunmarked", .utf16Ordered .little),
   ("utf_16_be", .utf16Ordered .big), ("utf_16be", .utf16Ordered .big),
   ("unicodebigunmarked", .utf16Ordered .big)]

def isNameChar (c : Char) : Bool :=
  c.isAlphanum || c == '.'

/-- The words of a name: its longest runs of letters, digits and dots. -/
def nameWords (name : List Char) : List (List Char) :=
  (name.splitBy fun a b => isNameChar a == isNameChar b).filter (·.all isNameChar)

/-- A name in lower case, its words joined by single underscores. -/
def canonicalName (name : String) : String :=
  "_".intercalate ((nameWords name.toList).map fun word => String.ofList (word.map Char.toLower))

/-- The encoding known under a name. Case and punctuation between the words do not matter. -/
def ofName? (name : String) : Option Encoding :=
  names.lookup (canonicalName name)

/-- Why the bytes of a file are not text in an encoding. -/
inductive DecodeError where
  | malformed (fault : Fault)
  /-- The data names no byte order where it has to. -/
  | missingMark
deriving DecidableEq, Repr

/-- The bytes of ASCII text stand for themselves and are below 80. -/
def decodeAscii (offset : Nat) : List UInt8 → Except Malformed (List Char)
  | [] => .ok []
  | byte :: rest =>
      if byte.toNat < 0x80 then
        (decodeAscii (offset + 1) rest).map (Char.ofNat byte.toNat :: ·)
      else .error ⟨offset, 1, "ordinal not in range(128)"⟩

/-- Report a malformed stretch in terms of the data that was decoded. -/
def reportMalformed (codec : String) (data : List UInt8) (decoded : Except Malformed (List Char)) :
    Except DecodeError (List Char) :=
  decoded.mapError fun malformed => .malformed (malformed.toFault codec data)

def decodeUtf8 (data : List UInt8) : Except DecodeError (List Char) :=
  reportMalformed "utf-8" data (Utf8.decodeFrom 0 data)

/-- The byte order mark in the eight-bit format. -/
def utf8Mark : List UInt8 := [0xEF, 0xBB, 0xBF]

def codecName : Utf16.ByteOrder → String
  | .little => "utf-16-le"
  | .big => "utf-16-be"

/-- The text that the bytes of a file spell. Offsets in reports count from the start of the file,
except that a mark in the eight-bit format is not counted; a file that is only part of that mark
is empty text. -/
def decode (encoding : Encoding) (data : List UInt8) : Except DecodeError (List Char) :=
  match encoding with
  | .ascii => reportMalformed "ascii" data (decodeAscii 0 data)
  | .latin1 => .ok (data.map fun byte => Char.ofNat byte.toNat)
  | .utf8 => decodeUtf8 data
  | .utf8Marked =>
      if utf8Mark.isPrefixOf data then decodeUtf8 (data.drop utf8Mark.length)
      else if data.isPrefixOf utf8Mark then .ok []
      else decodeUtf8 data
  | .utf16 =>
      match data with
      | 0xFF :: 0xFE :: rest =>
          reportMalformed (codecName .little) data (Utf16.decodeFrom .little 2 rest)
      | 0xFE :: 0xFF :: rest =>
          reportMalformed (codecName .big) data (Utf16.decodeFrom .big 2 rest)
      | _ =>
          match reportMalformed (codecName .little) data (Utf16.decodeFrom .little 0 data) with
          | .error fault => .error fault
          | .ok text => if data.length < 2 then .ok text else .error .missingMark
  | .utf16Ordered order => reportMalformed (codecName order) data (Utf16.decodeFrom order 0 data)

/-- The message for data that cannot be decoded. -/
def DecodeError.message : DecodeError → String
  | .malformed fault => fault.message
  | .missingMark => "UTF-16 stream does not start with BOM"

end Encoding

end FlatSyntax.Text
