/-!
# UTF-8

Decoding is strict: overlong forms, surrogates and numbers above U+10FFFF are refused. All of
strictness lies in the range that a leading byte allows for the *second* byte of its sequence;
later bytes may be any continuation byte.

A refusal says where the first bad sequence starts, and how much of it could have been the start
of a character. `SequenceFault.broken n` means that the first `n` bytes belong to a character that
the next byte does not continue; `SequenceFault.incomplete` means that the text ended first.

## Main definitions

* `encode`: the bytes of a text, by the encoding of the core library.
* `decode`: the text of a byte sequence, or the place of the first fault in it.
-/

namespace LoxLexer.Text.Utf8

/-- The bytes of a text. -/
def encode (cs : List Char) : List UInt8 := cs.flatMap String.utf8EncodeChar

@[simp] theorem encode_nil : encode [] = [] := rfl

@[simp] theorem encode_cons (c : Char) (cs : List Char) :
    encode (c :: cs) = String.utf8EncodeChar c ++ encode cs := by
  simp [encode]

@[simp] theorem encode_append (xs ys : List Char) : encode (xs ++ ys) = encode xs ++ encode ys := by
  simp [encode]

/-! ## One sequence -/

/-- What keeps a byte sequence from being a character. -/
inductive SequenceFault where
  /-- The first `length` bytes begin a character that the byte after them does not continue, or
  the first byte begins none, and then `length` is 1. -/
  | broken (length : Nat)
  /-- The bytes end inside a character that they have kept to so far. -/
  | incomplete
deriving DecidableEq, Repr

/-- What a leading byte says of its sequence: how many bytes follow, the range of the first of
them, and the bits that the leading byte itself brings to the scalar value. -/
structure Lead where
  owed : Nat
  low : UInt8
  high : UInt8
  bits : Nat
deriving DecidableEq, Repr

/-- The leading bytes. The bytes 80 to C1 and F5 to FF lead nothing: the former are continuation
bytes and the two that could only begin an overlong form, the latter lie beyond U+10FFFF. -/
def Lead.ofByte? (b : UInt8) : Option Lead :=
  if b < 0x80 then some ⟨0, 0x80, 0xBF, b.toNat⟩
  else if b < 0xC2 then none
  else if b < 0xE0 then some ⟨1, 0x80, 0xBF, b.toNat - 0xC0⟩
  else if b = 0xE0 then some ⟨2, 0xA0, 0xBF, 0⟩
  else if b = 0xED then some ⟨2, 0x80, 0x9F, 0xD⟩
  else if b < 0xF0 then some ⟨2, 0x80, 0xBF, b.toNat - 0xE0⟩
  else if b = 0xF0 then some ⟨3, 0x90, 0xBF, 0⟩
  else if b < 0xF4 then some ⟨3, 0x80, 0xBF, b.toNat - 0xF0⟩
  else if b = 0xF4 then some ⟨3, 0x80, 0x8F, 4⟩
  else none

/-- Reads the `owed` bytes that a sequence still lacks, the first of which has to lie between
`low` and `high`. So far the sequence has `length` bytes, and they bring the value `bits`. -/
def readTail : (owed : Nat) → (low high : UInt8) → (bits length : Nat) → List UInt8 →
    Except SequenceFault (Char × List UInt8)
  | 0, _, _, bits, _, bs => .ok (Char.ofNat bits, bs)
  | _ + 1, _, _, _, _, [] => .error .incomplete
  | owed + 1, low, high, bits, length, b :: bs =>
    if low ≤ b ∧ b ≤ high then
      readTail owed 0x80 0xBF (bits * 64 + (b.toNat - 0x80)) (length + 1) bs
    else .error (.broken length)

/-- Reads the character at the front of a byte sequence whose first byte is `b`. -/
def readChar (b : UInt8) (bs : List UInt8) : Except SequenceFault (Char × List UInt8) :=
  match Lead.ofByte? b with
  | none => .error (.broken 1)
  | some lead => readTail lead.owed lead.low lead.high lead.bits 1 bs

theorem length_le_of_readTail {owed : Nat} {low high : UInt8} {bits length : Nat}
    {bs : List UInt8} {c : Char} {rest : List UInt8}
    (h : readTail owed low high bits length bs = .ok (c, rest)) : rest.length ≤ bs.length := by
  induction owed generalizing low high bits length bs with
  | zero => simp_all [readTail]
  | succ owed ih =>
    cases bs with
    | nil => simp [readTail] at h
    | cons b bs =>
      simp only [readTail] at h
      split at h
      · have := ih h
        simp only [List.length_cons]
        omega
      · simp at h

theorem length_le_of_readChar {b : UInt8} {bs : List UInt8} {c : Char} {rest : List UInt8}
    (h : readChar b bs = .ok (c, rest)) : rest.length ≤ bs.length := by
  simp only [readChar] at h
  split at h
  · simp at h
  · exact length_le_of_readTail h

/-! ## A whole text -/

/-- The first fault of a byte sequence that is not UTF-8: how many bytes stand in front of the bad
sequence, and what is wrong with it. -/
structure Fault where
  index : Nat
  cause : SequenceFault
deriving DecidableEq, Repr

/-- The wording of a fault. -/
def Fault.message (fault : Fault) : String :=
  match fault.cause with
  | .broken length =>
    "invalid utf-8 sequence of " ++ toString length ++ " bytes from index " ++ toString fault.index
  | .incomplete => "incomplete utf-8 byte sequence from index " ++ toString fault.index

/-- The text of `bytes`, which stand at byte `index` of the whole. -/
def decodeFrom (index : Nat) (bytes : List UInt8) : Except Fault (List Char) :=
  match bytes with
  | [] => .ok []
  | b :: bs =>
    match _h : readChar b bs with
    | .error cause => .error ⟨index, cause⟩
    | .ok (c, rest) => (decodeFrom (index + c.utf8Size) rest).map (c :: ·)
termination_by bytes.length
decreasing_by
  have := length_le_of_readChar ‹_›
  simp only [List.length_cons]
  omega

/-- The text that a byte sequence encodes, or the first fault in it. -/
def decode (bytes : List UInt8) : Except Fault (List Char) := decodeFrom 0 bytes

end LoxLexer.Text.Utf8
