/-!
# Strict UTF-8

Reading bytes as UTF-8.  Every fault is located: the bytes at fault are the longest run that could
still begin a character, or the single byte that begins none.

The reader goes byte by byte.  Between characters it has nothing pending; inside one it keeps
where the character began, the bits read so far and which values the next byte may have.  The
narrowed range of a second byte is what rules out overlong forms, surrogates and code points past
the last one.

## Main definitions

* `Fault` — what is wrong, and where;
* `decode` — the characters, or the first fault.
-/

namespace CallAtlas.Text.Utf8

/-- Why bytes are not UTF-8. -/
inductive Reason where
  /-- A byte that begins no character. -/
  | invalidStart
  /-- A byte that cannot continue the character begun before it. -/
  | invalidContinuation
  /-- The bytes end inside a character. -/
  | unexpectedEnd
  deriving DecidableEq, Repr

/-- The wording of a reason. -/
def Reason.message : Reason → String
  | .invalidStart => "invalid start byte"
  | .invalidContinuation => "invalid continuation byte"
  | .unexpectedEnd => "unexpected end of data"

/-- A fault in a run of bytes: the `length` bytes from `start` on, the first of them `byte`. -/
structure Fault where
  start : Nat
  length : Nat
  byte : UInt8
  reason : Reason
  deriving DecidableEq, Repr

/-- A character that has begun. -/
structure Pending where
  /-- Where its first byte stands. -/
  start : Nat
  /-- Its first byte. -/
  lead : UInt8
  /-- How many of its bytes have been read. -/
  taken : Nat
  /-- The bits read so far. -/
  bits : Nat
  /-- How many bytes are still to come. -/
  missing : Nat
  /-- The least value of the next byte. -/
  low : Nat
  /-- The greatest value of the next byte. -/
  high : Nat

/-- The character that the byte `b` at `start` begins, when it begins one of several bytes. -/
def Pending.ofLead? (start : Nat) (b : UInt8) : Option Pending :=
  let n := b.toNat
  if 0xc2 ≤ n && n ≤ 0xdf then some ⟨start, b, 1, n - 0xc0, 1, 0x80, 0xbf⟩
  else if 0xe0 ≤ n && n ≤ 0xef then
    some ⟨start, b, 1, n - 0xe0, 2, if n = 0xe0 then 0xa0 else 0x80,
      if n = 0xed then 0x9f else 0xbf⟩
  else if 0xf0 ≤ n && n ≤ 0xf4 then
    some ⟨start, b, 1, n - 0xf0, 3, if n = 0xf0 then 0x90 else 0x80,
      if n = 0xf4 then 0x8f else 0xbf⟩
  else none

/-- The fault of a character that goes no further. -/
def Pending.fault (p : Pending) (reason : Reason) : Fault :=
  ⟨p.start, p.taken, p.lead, reason⟩

/-- Reads bytes from `position` on, inside the pending character if there is one. -/
def decodeFrom : Nat → Option Pending → List UInt8 → Except Fault (List Char)
  | _, none, [] => .ok []
  | _, some p, [] => .error (p.fault .unexpectedEnd)
  | position, none, b :: rest =>
    if b.toNat < 0x80 then
      (decodeFrom (position + 1) none rest).map (Char.ofNat b.toNat :: ·)
    else
      match Pending.ofLead? position b with
      | none => .error ⟨position, 1, b, .invalidStart⟩
      | some p => decodeFrom (position + 1) (some p) rest
  | position, some p, b :: rest =>
    if p.low ≤ b.toNat && b.toNat ≤ p.high then
      let bits := p.bits * 64 + (b.toNat - 0x80)
      if p.missing ≤ 1 then
        (decodeFrom (position + 1) none rest).map (Char.ofNat bits :: ·)
      else
        decodeFrom (position + 1)
          (some { p with taken := p.taken + 1, bits, missing := p.missing - 1,
                         low := 0x80, high := 0xbf }) rest
    else
      .error (p.fault .invalidContinuation)

/-- The characters of a run of bytes, or its first fault. -/
def decode (bytes : List UInt8) : Except Fault (List Char) :=
  decodeFrom 0 none bytes

end CallAtlas.Text.Utf8
