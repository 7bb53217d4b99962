/-!
# Lenient decoding of UTF-8

Reads bytes as UTF-8 and puts U+FFFD for each ill-formed part. A part is as long as the start of
some well-formed sequence allows, and at least one byte.
-/

namespace EventSnapshot.Text

/-- Whether a byte continues a sequence. -/
def isContinuation (b : UInt8) : Bool :=
  0x80 ≤ b && b ≤ 0xbf

/-- Whether `second` may follow the first byte `first` of a sequence of three bytes. -/
def opensThree (first second : UInt8) : Bool :=
  (first == 0xe0 && 0xa0 ≤ second && second ≤ 0xbf) ||
    (0xe1 ≤ first && first ≤ 0xec && isContinuation second) ||
    (first == 0xed && 0x80 ≤ second && second ≤ 0x9f) ||
    (0xee ≤ first && first ≤ 0xef && isContinuation second)

/-- Whether `second` may follow the first byte `first` of a sequence of four bytes. -/
def opensFour (first second : UInt8) : Bool :=
  (first == 0xf0 && 0x90 ≤ second && second ≤ 0xbf) ||
    (0xf1 ≤ first && first ≤ 0xf3 && isContinuation second) ||
    (first == 0xf4 && 0x80 ≤ second && second ≤ 0x8f)

/-- The six payload bits of a continuation byte, after the bits gathered so far. -/
def extendBits (bits : Nat) (b : UInt8) : Nat :=
  bits * 64 + (b.toNat - 0x80)

/-- The character that stands for an ill-formed part. -/
def replacement : Char := '\ufffd'

/-- The character that starts at byte `a`, and how many of the bytes after `a` it takes with it. -/
def lenientHead (a : UInt8) (rest : List UInt8) : Char × Nat :=
  if a < 0x80 then (Char.ofNat a.toNat, 0)
  else
    match rest with
    | [] => (replacement, 0)
    | b :: rest =>
      if 0xc2 ≤ a && a ≤ 0xdf && isContinuation b then
        (Char.ofNat (extendBits (a.toNat - 0xc0) b), 1)
      else if opensThree a b then
        match rest with
        | c :: _ =>
          if isContinuation c then
            (Char.ofNat (extendBits (extendBits (a.toNat - 0xe0) b) c), 2)
          else (replacement, 1)
        | [] => (replacement, 1)
      else if opensFour a b then
        match rest with
        | c :: d :: _ =>
          if !isContinuation c then (replacement, 1)
          else if !isContinuation d then (replacement, 2)
          else (Char.ofNat (extendBits (extendBits (extendBits (a.toNat - 0xf0) b) c) d), 3)
        | [c] => (replacement, if isContinuation c then 2 else 1)
        | [] => (replacement, 1)
      else (replacement, 0)

/-- The characters of a byte sequence, with U+FFFD for each ill-formed part. -/
def lenientChars : List UInt8 → List Char
  | [] => []
  | a :: rest =>
    let head := lenientHead a rest
    head.1 :: lenientChars (rest.drop head.2)
termination_by bytes => bytes.length
decreasing_by simp only [List.length_drop, List.length_cons]; omega

/-- Bytes read as text, with U+FFFD for each ill-formed part. -/
def lenient (bytes : ByteArray) : String :=
  String.ofList (lenientChars bytes.data.toList)

end EventSnapshot.Text
