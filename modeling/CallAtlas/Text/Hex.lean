/-!
# Hexadecimal text

Numbers in lower-case hexadecimal, padded with zeros on the left to a least number of digits.
-/

namespace CallAtlas.Text

/-- The lower-case hexadecimal digits of `n`, at least `width` of them. -/
def hexDigits (width n : Nat) : List Char :=
  let digits := Nat.toDigits 16 n
  List.replicate (width - digits.length) '0' ++ digits

/-- A signed number as `0x` and hexadecimal digits, zero-padded to `width` characters in all.  The
sign and the `0x` count towards the width. -/
def hexLiteral (width : Nat) (n : Int) : String :=
  if n < 0 then
    String.ofList ("-0x".toList ++ hexDigits (width - 3) n.natAbs)
  else
    String.ofList ("0x".toList ++ hexDigits (width - 2) n.natAbs)

end CallAtlas.Text
