import CallAtlas.Text.Hex
import CallAtlas.Text.Utf8

/-!
# Text encodings

The encodings a dump file may be read with, how their names are recognised, and what each makes of
a run of bytes.

## Main definitions

* `Encoding.ofName?` — a name's encoding, regardless of case and of what divides its words;
* `Encoding.decode` — bytes to text, or the first fault;
* `DecodeFault.message` — its wording;
* `Codec` and `Codec.ofName?` — what a name of an encoding makes of bytes;
* `EncodeFault` — why a text has no bytes.
-/

namespace CallAtlas.Text

/-- A known text encoding. -/
inductive Encoding where
  | utf8
  /-- UTF-8 whose leading byte-order mark, if any, is not part of the text. -/
  | utf8Signed
  | latin1
  | ascii
  deriving DecidableEq, Repr

namespace Encoding

/-- A character that counts in a name. -/
def isNameChar (c : Char) : Bool :=
  c.isAlphanum || c == '.'

/-- The characters of a name that count, in lower case, with an underscore for all that stands
between two of them; `divided` tells whether something stands before. -/
def canonicalChars (divided : Bool) : List Char → List Char
  | [] => []
  | c :: rest =>
    if isNameChar c then
      (if divided then ['_'] else []) ++ c.toLower :: canonicalChars false rest
    else
      canonicalChars true rest

/-- The form of a name under which it is looked up. -/
def canonicalName (name : String) : String :=
  String.ofList (canonicalChars false (name.toList.dropWhile fun c => !isNameChar c))

/-- The names that encodings are known by in the first place. -/
def properNames : List (String × Encoding) :=
  [("utf_8", .utf8), ("utf_8_sig", .utf8Signed), ("latin_1", .latin1), ("ascii", .ascii)]

/-- Other names of encodings. -/
def aliases : List (String × Encoding) :=
  [("u8", .utf8), ("utf", .utf8), ("utf8", .utf8), ("utf8_ucs2", .utf8), ("utf8_ucs4", .utf8),
    ("cp65001", .utf8), ("8859", .latin1), ("cp819", .latin1), ("csisolatin1", .latin1),
    ("ibm819", .latin1), ("iso8859", .latin1), ("iso8859_1", .latin1), ("iso_8859_1", .latin1),
    ("iso_8859_1_1987", .latin1), ("iso_ir_100", .latin1), ("l1", .latin1), ("latin", .latin1),
    ("latin1", .latin1), ("646", .ascii), ("ansi_x3.4_1968", .ascii), ("ansi_x3_4_1968", .ascii),
    ("ansi_x3.4_1986", .ascii), ("cp367", .ascii), ("csascii", .ascii), ("ibm367", .ascii),
    ("iso646_us", .ascii), ("iso_646.irv_1991", .ascii), ("iso_ir_6", .ascii), ("us", .ascii),
    ("us_ascii", .ascii)]

/-- The name that stands for the encoding of the system, UTF-8. -/
def systemName : String := "locale"

/-- The encoding that a name stands for.  A dot in a name may stand for an underscore in its
aliases. -/
def ofName? (name : String) : Option Encoding :=
  if name = systemName then some .utf8
  else
    let word := canonicalName name
    let undotted := String.ofList (word.toList.map fun c => if c = '.' then '_' else c)
    (aliases.lookup word).or ((aliases.lookup undotted).or (properNames.lookup word))

end Encoding

/-- Why bytes cannot be read as text. -/
inductive DecodeFault where
  | utf8 (fault : Utf8.Fault)
  /-- A byte past the end of ASCII. -/
  | notAscii (position : Nat) (byte : UInt8)
  /-- A fault of another codec, in its own words. -/
  | described (text : String)
  deriving DecidableEq, Repr

/-- The place of a fault: one byte by value and position, several by their positions. -/
def faultPlace (start length : Nat) (byte : UInt8) : String :=
  if length ≤ 1 then
    s!"byte 0x{String.ofList (hexDigits 2 byte.toNat)} in position {start}"
  else
    s!"bytes in position {start}-{start + length - 1}"

/-- The wording of a decoding fault. -/
def DecodeFault.message : DecodeFault → String
  | .utf8 f =>
    s!"'utf-8' codec can't decode {faultPlace f.start f.length f.byte}: {f.reason.message}"
  | .notAscii position byte =>
    s!"'ascii' codec can't decode {faultPlace position 1 byte}: ordinal not in range(128)"
  | .described text => text

namespace Encoding

/-- ASCII from `position` on. -/
def decodeAscii : Nat → List UInt8 → Except DecodeFault (List Char)
  | _, [] => .ok []
  | position, b :: rest =>
    if b.toNat < 0x80 then
      (decodeAscii (position + 1) rest).map (Char.ofNat b.toNat :: ·)
    else
      .error (.notAscii position b)

/-- Plain UTF-8. -/
def decodeUtf8 (bytes : List UInt8) : Except DecodeFault (List Char) :=
  match Utf8.decode bytes with
  | .ok text => .ok text
  | .error fault => .error (.utf8 fault)

/-- UTF-8 after an optional byte-order mark; positions count from after the mark.  Bytes that are a
proper beginning of the mark and nothing else are no text at all. -/
def decodeSigned : List UInt8 → Except DecodeFault (List Char)
  | [] => .ok []
  | [0xef] => .ok []
  | [0xef, 0xbb] => .ok []
  | 0xef :: 0xbb :: 0xbf :: rest => decodeUtf8 rest
  | bytes => decodeUtf8 bytes

/-- The characters that a run of bytes stands for. -/
def decode : Encoding → List UInt8 → Except DecodeFault (List Char)
  | .utf8, bytes => decodeUtf8 bytes
  | .utf8Signed, bytes => decodeSigned bytes
  | .latin1, bytes => .ok (bytes.map fun b => Char.ofNat b.toNat)
  | .ascii, bytes => decodeAscii 0 bytes

end Encoding

/-! ## Codecs -/

/-- What an encoding makes of a run of bytes. -/
abbrev Codec := List UInt8 → Except DecodeFault (List Char)

/-- The codec that a name stands for, among the known encodings. -/
def Codec.ofName? (name : String) : Option Codec :=
  (Encoding.ofName? name).map Encoding.decode

/-- Why a text has no UTF-8 form: code points that stand for no character, `length` of them from
`start` on, the first of them `code`.  A `String` has none, but may stand for a text that has. -/
structure EncodeFault where
  start : Nat
  length : Nat
  code : Nat
  deriving DecidableEq, Repr

/-- The wording of an encoding fault. -/
def EncodeFault.message (fault : EncodeFault) : String :=
  let place :=
    if fault.length ≤ 1 then
      s!"character '\\u{String.ofList (hexDigits 4 fault.code)}' in position {fault.start}"
    else
      s!"characters in position {fault.start}-{fault.start + fault.length - 1}"
  s!"'utf-8' codec can't encode {place}: surrogates not allowed"

end CallAtlas.Text
