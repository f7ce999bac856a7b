import ParamLens.Text.Basic

/-! Texts stored as UTF-8 bytes: decoding with the exact fault of the first byte that cannot be
read, and line ends made uniform. -/

namespace ParamLens.Text

/-- Why a byte sequence is no UTF-8 text. -/
inductive DecodeReason where
  | invalidStart
  | invalidContinuation
  | unexpectedEnd
deriving DecidableEq, Repr

/-- The wording of a reason. -/
def DecodeReason.message : DecodeReason → String
  | .invalidStart => "invalid start byte"
  | .invalidContinuation => "invalid continuation byte"
  | .unexpectedEnd => "unexpected end of data"

/-- The first fault of a byte sequence: where it starts, how many bytes belong to it, the first of
them, and what is wrong. -/
structure DecodeFault where
  position : Nat
  extent : Nat
  byte : UInt8
  reason : DecodeReason
deriving DecidableEq, Repr

/-- Two hexadecimal digits. -/
def hexByte (b : UInt8) : String :=
  String.ofList [Nat.digitChar (b.toNat / 16), Nat.digitChar (b.toNat % 16)]

/-- The wording of a fault. -/
def DecodeFault.message (fault : DecodeFault) : String :=
  if fault.extent ≤ 1 then
    "'utf-8' codec can't decode byte 0x" ++ hexByte fault.byte ++ " in position " ++
      toString fault.position ++ ": " ++ fault.reason.message
  else
    "'utf-8' codec can't decode bytes in position " ++ toString fault.position ++ "-" ++
      toString (fault.position + fault.extent - 1) ++ ": " ++ fault.reason.message

/-- How a character with this first byte goes on: the number of further bytes and the range of
the second byte. -/
def sequenceShape? (b : UInt8) : Option (Nat × UInt8 × UInt8) :=
  if b < 0xc2 then none
  else if b < 0xe0 then some (1, 0x80, 0xbf)
  else if b == 0xe0 then some (2, 0xa0, 0xbf)
  else if b == 0xed then some (2, 0x80, 0x9f)
  else if b < 0xf0 then some (2, 0x80, 0xbf)
  else if b == 0xf0 then some (3, 0x90, 0xbf)
  else if b < 0xf4 then some (3, 0x80, 0xbf)
  else if b == 0xf4 then some (3, 0x80, 0x8f)
  else none

/-- The number of good bytes after the first one, up to the number that the character needs. -/
def goodTail (low high : UInt8) : Nat → List UInt8 → Nat
  | 0, _ => 0
  | _ + 1, [] => 0
  | n + 1, b :: rest =>
    if low ≤ b && b ≤ high then goodTail 0x80 0xbf n rest + 1 else 0

/-- The code point of a character from its first byte and its further bytes. -/
def codePoint (first : UInt8) (more : List UInt8) : Nat :=
  let start := match more.length with
    | 0 => first.toNat
    | 1 => first.toNat - 0xc0
    | 2 => first.toNat - 0xe0
    | _ => first.toNat - 0xf0
  more.foldl (fun n b => n * 64 + (b.toNat - 0x80)) start

/-- The characters that the bytes encode, or the first fault; `position` counts the bytes before
these. -/
def decodeFrom (position : Nat) : List UInt8 → Except DecodeFault (List Char)
  | [] => .ok []
  | b :: rest =>
    if b < 0x80 then (decodeFrom (position + 1) rest).map (Char.ofNat b.toNat :: ·)
    else match sequenceShape? b with
      | none => .error ⟨position, 1, b, .invalidStart⟩
      | some (needed, low, high) =>
        let good := goodTail low high needed rest
        if good < needed then
          let reason := if rest.length ≤ good then DecodeReason.unexpectedEnd
            else DecodeReason.invalidContinuation
          .error ⟨position, good + 1, b, reason⟩
        else (decodeFrom (position + 1 + needed) (rest.drop needed)).map
          (Char.ofNat (codePoint b (rest.take needed)) :: ·)
termination_by bytes => bytes.length
decreasing_by
  · simp
  · simp only [List.length_drop, List.length_cons]; omega

/-- The text that the bytes encode, or the first fault. -/
def decode (bytes : List UInt8) : Except DecodeFault String :=
  (decodeFrom 0 bytes).map String.ofList

/-- Line ends made uniform: a carriage return, alone or before a line feed, becomes a line
feed. -/
def uniformLineEnds : List Char → List Char
  | [] => []
  | '\r' :: '\n' :: rest => '\n' :: uniformLineEnds rest
  | c :: rest => (if c = '\r' then '\n' else c) :: uniformLineEnds rest

/-- The text with uniform line ends; one without a carriage return, whose byte is 13, stays as it
is. -/
def withUniformLineEnds (s : String) : String :=
  if s.toByteArray.data.toList.contains 13 then String.ofList (uniformLineEnds s.toList) else s

end ParamLens.Text
