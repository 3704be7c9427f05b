import LoxLexer.Source.File
import Mathlib.Data.List.Basic
import Mathlib.Tactic.SplitIfs

/-!
# Decoding

The bytes of a character are a leading byte and the continuation bytes that it asks for. They hold
the scalar value in groups of six bits, behind what is left of the leading byte, and there are as
few of them as can hold it. So the range that some leading bytes set for the byte behind them keeps
out what no character is encoded as: forms that are too long, surrogates, and numbers above
U+10FFFF. Nothing else is kept out, and decoding undoes encoding in both directions.

## Main definitions

* `Text.Utf8.Continues`: the bytes may stand behind a leading byte.
* `Text.Utf8.scalar`: the number that a leading byte and the bytes behind it hold.
* `Text.Utf8.Lead.Opens`: the leading bytes by the number of bytes that they ask for.
* `Text.Utf8.byteValues`: the bytes of a scalar value as numbers.

## Main results

* `Text.Utf8.Lead.ofByte?_eq_some_iff`: which bytes lead a sequence, and of what form.
* `Text.Utf8.readChar_eq_ok_iff`: a character is read where its bytes stand.
* `Text.Utf8.decode_eq_ok_iff`: a text is decoded from its bytes and from no others.
* `SourceFile.load_decodes_utf8`: which bytes a file can be made from, and what it then holds.
-/

namespace LoxLexer

namespace Text.Utf8

/-! ## Behind the leading byte -/

/-- The bytes keep to a sequence: the first of them lies between `low` and `high`, and all others
are continuation bytes. -/
def Continues : (low high : UInt8) → List UInt8 → Prop
  | _, _, [] => True
  | low, high, b :: bs => (low ≤ b ∧ b ≤ high) ∧ Continues 0x80 0xBF bs

@[simp] theorem continues_nil (low high : UInt8) : Continues low high [] := trivial

theorem continues_cons (low high b : UInt8) (bs : List UInt8) :
    Continues low high (b :: bs) ↔
      (low.toNat ≤ b.toNat ∧ b.toNat ≤ high.toNat) ∧ Continues 0x80 0xBF bs := Iff.rfl

/-- A range that is narrower in some cases only. -/
theorem continues_cons_ite {p q : Prop} [Decidable p] [Decidable q] {low high b : UInt8}
    {bs : List UInt8} (hLow : 0x80 ≤ low.toNat) (hHigh : high.toNat ≤ 0xBF) :
    Continues (if p then low else 0x80) (if q then high else 0xBF) (b :: bs) ↔
      (p → low.toNat ≤ b.toNat) ∧ (q → b.toNat ≤ high.toNat) ∧ Continues 0x80 0xBF (b :: bs) := by
  have hRange : ((if p then low else 0x80).toNat ≤ b.toNat ∧
      b.toNat ≤ (if q then high else 0xBF).toNat) ↔
        (p → low.toNat ≤ b.toNat) ∧ (q → b.toNat ≤ high.toNat) ∧
          0x80 ≤ b.toNat ∧ b.toNat ≤ 0xBF := by
    simp only [apply_ite UInt8.toNat, UInt8.reduceToNat]
    grind
  rw [continues_cons, hRange]
  simp only [continues_cons, UInt8.reduceToNat, and_assoc]

/-- The number that the bits of a leading byte make up with the bytes behind it. -/
def scalar (bits : Nat) (tail : List UInt8) : Nat :=
  tail.foldl (fun bits b => bits * 64 + (b.toNat - 0x80)) bits

@[simp] theorem scalar_nil (bits : Nat) : scalar bits [] = bits := by
  simp only [scalar, List.foldl_nil]

@[simp] theorem scalar_cons (bits : Nat) (b : UInt8) (tail : List UInt8) :
    scalar bits (b :: tail) = scalar (bits * 64 + (b.toNat - 0x80)) tail := by
  simp only [scalar, List.foldl_cons]

theorem readTail_eq_ok_iff {owed : Nat} {low high : UInt8} {bits length : Nat} {bs rest : List UInt8}
    {c : Char} :
    readTail owed low high bits length bs = .ok (c, rest) ↔
      ∃ tail, tail ++ rest = bs ∧ tail.length = owed ∧ Continues low high tail ∧
        Char.ofNat (scalar bits tail) = c := by
  induction owed generalizing low high bits length bs with
  | zero =>
    constructor
    · intro h
      simp only [readTail, Except.ok.injEq, Prod.mk.injEq] at h
      exact ⟨[], h.2.symm, rfl, continues_nil _ _, h.1⟩
    · rintro ⟨tail, hText, hLength, -, hValue⟩
      rw [List.length_eq_zero_iff] at hLength
      subst hLength
      rw [← hText, ← hValue]
      rfl
  | succ owed ih =>
    rcases bs with _ | ⟨b, bs⟩
    · constructor
      · intro h
        simp [readTail] at h
      · rintro ⟨tail, hText, hLength, -, -⟩
        rw [(List.append_eq_nil_iff.1 hText).1] at hLength
        simp at hLength
    · rw [readTail]
      by_cases hByte : low ≤ b ∧ b ≤ high
      · rw [if_pos hByte, ih]
        constructor
        · rintro ⟨tail, hText, hLength, hTail, hValue⟩
          refine ⟨b :: tail, ?_, ?_, (continues_cons ..).2 ⟨hByte, hTail⟩, ?_⟩
          · rw [List.cons_append, hText]
          · rw [List.length_cons, hLength]
          · rw [scalar_cons, hValue]
        · rintro ⟨tail, hText, hLength, hTail, hValue⟩
          rcases tail with _ | ⟨d, tail⟩
          · simp at hLength
          · rcases List.cons.inj hText with ⟨rfl, hBehind⟩
            exact ⟨tail, hBehind, Nat.succ.inj hLength, ((continues_cons ..).1 hTail).2,
              by rw [← hValue, scalar_cons]⟩
      · rw [if_neg hByte]
        constructor
        · intro h
          simp at h
        · rintro ⟨tail, hText, hLength, hTail, -⟩
          rcases tail with _ | ⟨d, tail⟩
          · simp at hLength
          · rcases List.cons.inj hText with ⟨rfl, -⟩
            exact absurd ((continues_cons ..).1 hTail).1 hByte


/-! ## Characters -/

/-- The bytes of a scalar value as numbers. -/
def byteValues (n : Nat) : List Nat :=
  if n ≤ 0x7F then [n]
  else if n ≤ 0x7FF then [0xC0 + n / 64, 0x80 + n % 64]
  else if n ≤ 0xFFFF then [0xE0 + n / 4096, 0x80 + n / 64 % 64, 0x80 + n % 64]
  else [0xF0 + n / 262144, 0x80 + n / 4096 % 64, 0x80 + n / 64 % 64, 0x80 + n % 64]

theorem map_toNat_utf8EncodeChar (c : Char) :
    (String.utf8EncodeChar c).map UInt8.toNat = byteValues c.toNat := by
  have hLimit : c.toNat < 0x110000 := by
    rcases c.valid with h | h
    · exact Nat.lt_trans h (by decide)
    · exact h.2
  have hVal : c.val.toNat = c.toNat := rfl
  rw [String.utf8EncodeChar, hVal, byteValues]
  split_ifs
  all_goals
    simp only [List.map_cons, List.map_nil, UInt8.toNat_ofNat', List.cons.injEq, and_true]
    omega

theorem utf8EncodeChar_eq_iff {c : Char} {bs : List UInt8} :
    String.utf8EncodeChar c = bs ↔ byteValues c.toNat = bs.map UInt8.toNat := by
  have hInjective : Function.Injective UInt8.toNat := fun _ _ => UInt8.toNat_inj.1
  rw [← map_toNat_utf8EncodeChar, (List.map_injective_iff.2 hInjective).eq_iff]

/-- The byte opens a sequence as `lead` has it. The first of the bytes that open three, or four,
leaves out what fewer bytes could hold, and another one leaves out the surrogates, or what lies
beyond the last character. -/
inductive Lead.Opens (b : UInt8) : Lead → Prop where
  | one (byte : b.toNat < 0x80) : Opens b ⟨0, 0x80, 0xBF, b.toNat⟩
  | two {k : Nat} (byte : b.toNat = 0xC0 + k) (range : 2 ≤ k ∧ k < 32) :
    Opens b ⟨1, 0x80, 0xBF, k⟩
  | three {k : Nat} (byte : b.toNat = 0xE0 + k) (range : k < 16) :
    Opens b ⟨2, if k = 0 then 0xA0 else 0x80, if k = 0xD then 0x9F else 0xBF, k⟩
  | four {k : Nat} (byte : b.toNat = 0xF0 + k) (range : k < 5) :
    Opens b ⟨3, if k = 0 then 0x90 else 0x80, if k = 4 then 0x8F else 0xBF, k⟩

/-- The table of the leading bytes, on numbers. -/
theorem Lead.ofByte?_eq (b : UInt8) :
    Lead.ofByte? b =
      if b.toNat < 0x80 then some ⟨0, 0x80, 0xBF, b.toNat⟩
      else if b.toNat < 0xC2 then none
      else if b.toNat < 0xE0 then some ⟨1, 0x80, 0xBF, b.toNat - 0xC0⟩
      else if b.toNat = 0xE0 then some ⟨2, 0xA0, 0xBF, 0⟩
      else if b.toNat = 0xED then some ⟨2, 0x80, 0x9F, 0xD⟩
      else if b.toNat < 0xF0 then some ⟨2, 0x80, 0xBF, b.toNat - 0xE0⟩
      else if b.toNat = 0xF0 then some ⟨3, 0x90, 0xBF, 0⟩
      else if b.toNat < 0xF4 then some ⟨3, 0x80, 0xBF, b.toNat - 0xF0⟩
      else if b.toNat = 0xF4 then some ⟨3, 0x80, 0x8F, 4⟩
      else none := by
  simp only [Lead.ofByte?, UInt8.lt_iff_toNat_lt, ← UInt8.toNat_inj]
  rfl

theorem Lead.Opens.ofByte?_eq_some {b : UInt8} {lead : Lead} (h : Lead.Opens b lead) :
    Lead.ofByte? b = some lead := by
  rw [Lead.ofByte?_eq]
  cases h with
  | one byte => rw [if_pos byte]
  | @two k byte range =>
    rw [byte, if_neg (by omega), if_neg (by omega), if_pos (by omega), Nat.add_sub_cancel_left]
  | @three k byte range =>
    rw [byte, if_neg (by omega), if_neg (by omega), if_neg (by omega), Nat.add_sub_cancel_left]
    by_cases hFirst : k = 0
    · subst hFirst
      rfl
    by_cases hSurrogates : k = 0xD
    · subst hSurrogates
      rfl
    rw [if_neg (by omega), if_neg (by omega), if_pos (by omega), if_neg hFirst, if_neg hSurrogates]
  | @four k byte range =>
    rw [byte, if_neg (by omega), if_neg (by omega), if_neg (by omega), if_neg (by omega),
      if_neg (by omega), if_neg (by omega), Nat.add_sub_cancel_left]
    by_cases hFirst : k = 0
    · subst hFirst
      rfl
    by_cases hLast : k = 4
    · subst hLast
      rfl
    rw [if_neg (by omega), if_pos (by omega), if_neg hFirst, if_neg hLast]

/-- The bytes 80 to C1 and F5 to FF open nothing. -/
theorem Lead.ofByte?_eq_none {b : UInt8}
    (h : (0x80 ≤ b.toNat ∧ b.toNat < 0xC2) ∨ 0xF5 ≤ b.toNat) : Lead.ofByte? b = none := by
  rw [Lead.ofByte?_eq]
  rcases h with hContinues | hBeyond
  · rw [if_neg (by omega), if_pos hContinues.2]
  · rw [if_neg (by omega), if_neg (by omega), if_neg (by omega), if_neg (by omega),
      if_neg (by omega), if_neg (by omega), if_neg (by omega), if_neg (by omega),
      if_neg (by omega)]

theorem Lead.ofByte?_eq_some_iff {b : UInt8} {lead : Lead} :
    Lead.ofByte? b = some lead ↔ Lead.Opens b lead := by
  constructor
  · intro h
    have hSame {found : Lead} (hOpens : Lead.Opens b found) : Lead.Opens b lead := by
      rw [hOpens.ofByte?_eq_some] at h
      rwa [← Option.some.inj h]
    by_cases hOne : b.toNat < 0x80
    · exact hSame (.one hOne)
    by_cases hNone : b.toNat < 0xC2 ∨ 0xF5 ≤ b.toNat
    · rw [Lead.ofByte?_eq_none (by omega)] at h
      exact absurd h (by simp)
    by_cases hTwo : b.toNat < 0xE0
    · exact hSame (.two (by omega : b.toNat = 0xC0 + (b.toNat - 0xC0)) (by omega))
    by_cases hThree : b.toNat < 0xF0
    · exact hSame (.three (by omega : b.toNat = 0xE0 + (b.toNat - 0xE0)) (by omega))
    · exact hSame (.four (by omega : b.toNat = 0xF0 + (b.toNat - 0xF0)) (by omega))
  · exact Lead.Opens.ofByte?_eq_some

/-- A leading byte with the bytes that it asks for is a character. -/
theorem utf8EncodeChar_of_lead {b : UInt8} {lead : Lead} {tail : List UInt8}
    (hLead : Lead.ofByte? b = some lead) (hLength : tail.length = lead.owed)
    (hTail : Continues lead.low lead.high tail) :
    String.utf8EncodeChar (Char.ofNat (scalar lead.bits tail)) = b :: tail := by
  have hChar {n : Nat} (hValid : n < 0xD800 ∨ 0xDFFF < n ∧ n < 0x110000) :
      (Char.ofNat n).toNat = n := by
    rw [Char.ofNat, dif_pos hValid]
    rfl
  rw [utf8EncodeChar_eq_iff]
  cases Lead.ofByte?_eq_some_iff.1 hLead with
  | one byte =>
    obtain rfl := List.length_eq_zero_iff.1 hLength
    simp only [scalar_nil, List.map_cons, List.map_nil]
    rw [hChar (by omega), byteValues, if_pos (by omega)]
  | @two k byte range =>
    obtain ⟨x, rfl⟩ := List.length_eq_one_iff.1 hLength
    simp only [continues_cons, UInt8.reduceToNat] at hTail
    simp only [scalar_cons, scalar_nil, List.map_cons, List.map_nil, byte]
    rw [hChar (by omega), byteValues, if_neg (by omega), if_pos (by omega)]
    simp only [List.cons.injEq, and_true]
    omega
  | @three k byte range =>
    obtain ⟨x, y, rfl⟩ := List.length_eq_two.1 hLength
    rw [continues_cons_ite (by decide) (by decide)] at hTail
    simp only [continues_cons, UInt8.reduceToNat] at hTail
    simp only [scalar_cons, scalar_nil, List.map_cons, List.map_nil, byte]
    rw [hChar (by omega), byteValues, if_neg (by omega), if_neg (by omega), if_pos (by omega)]
    simp only [List.cons.injEq, and_true]
    omega
  | @four k byte range =>
    obtain ⟨x, y, z, rfl⟩ := List.length_eq_three.1 hLength
    rw [continues_cons_ite (by decide) (by decide)] at hTail
    simp only [continues_cons, UInt8.reduceToNat] at hTail
    simp only [scalar_cons, scalar_nil, List.map_cons, List.map_nil, byte]
    rw [hChar (by omega), byteValues, if_neg (by omega), if_neg (by omega), if_neg (by omega)]
    simp only [List.cons.injEq, and_true]
    omega

/-- The bytes of a character are a leading byte and those that it asks for. -/
theorem exists_lead_of_utf8EncodeChar {c : Char} {b : UInt8} {tail : List UInt8}
    (h : String.utf8EncodeChar c = b :: tail) :
    ∃ lead, Lead.ofByte? b = some lead ∧ tail.length = lead.owed ∧
      Continues lead.low lead.high tail ∧ Char.ofNat (scalar lead.bits tail) = c := by
  have hValid : c.toNat < 0xD800 ∨ 0xDFFF < c.toNat ∧ c.toNat < 0x110000 := c.valid
  have hLength : tail.length + 1 = (byteValues c.toNat).length := by
    rw [utf8EncodeChar_eq_iff.1 h, List.length_map, List.length_cons]
  -- A character is known by its scalar value.
  suffices hNumber : ∃ lead, Lead.ofByte? b = some lead ∧ tail.length = lead.owed ∧
      Continues lead.low lead.high tail ∧ scalar lead.bits tail = c.toNat by
    obtain ⟨lead, hLead, hOwed, hTail, hValue⟩ := hNumber
    exact ⟨lead, hLead, hOwed, hTail, by rw [hValue, Char.ofNat_toNat]⟩
  have hBytes := utf8EncodeChar_eq_iff.1 h
  rw [byteValues] at hBytes hLength
  by_cases hOne : c.toNat ≤ 0x7F
  · rw [if_pos hOne] at hBytes hLength
    obtain rfl := List.length_eq_zero_iff.1 (Nat.succ.inj hLength)
    simp only [List.map_cons, List.map_nil, List.cons.injEq, and_true] at hBytes
    refine ⟨⟨0, 0x80, 0xBF, b.toNat⟩, ?_, rfl, continues_nil _ _, ?_⟩
    · exact (Lead.Opens.one (by omega)).ofByte?_eq_some
    · rw [scalar_nil, hBytes]
  by_cases hTwo : c.toNat ≤ 0x7FF
  · rw [if_neg hOne, if_pos hTwo] at hBytes hLength
    obtain ⟨x, rfl⟩ := List.length_eq_one_iff.1 (Nat.succ.inj hLength)
    simp only [List.map_cons, List.map_nil, List.cons.injEq, and_true] at hBytes
    refine ⟨⟨1, 0x80, 0xBF, c.toNat / 64⟩, ?_, rfl, ?_, ?_⟩
    · exact (Lead.Opens.two (by omega) (by omega)).ofByte?_eq_some
    · simp only [continues_cons, continues_nil, UInt8.reduceToNat, and_true]
      omega
    · simp only [scalar_cons, scalar_nil]
      omega
  by_cases hThree : c.toNat ≤ 0xFFFF
  · rw [if_neg hOne, if_neg hTwo, if_pos hThree] at hBytes hLength
    obtain ⟨x, y, rfl⟩ := List.length_eq_two.1 (Nat.succ.inj hLength)
    simp only [List.map_cons, List.map_nil, List.cons.injEq, and_true] at hBytes
    refine ⟨⟨2, if c.toNat / 4096 = 0 then 0xA0 else 0x80,
      if c.toNat / 4096 = 0xD then 0x9F else 0xBF, c.toNat / 4096⟩, ?_, rfl, ?_, ?_⟩
    · exact (Lead.Opens.three (by omega) (by omega)).ofByte?_eq_some
    · rw [continues_cons_ite (by decide) (by decide)]
      simp only [continues_cons, continues_nil, UInt8.reduceToNat, and_true]
      omega
    · simp only [scalar_cons, scalar_nil]
      omega
  · rw [if_neg hOne, if_neg hTwo, if_neg hThree] at hBytes hLength
    obtain ⟨x, y, z, rfl⟩ := List.length_eq_three.1 (Nat.succ.inj hLength)
    simp only [List.map_cons, List.map_nil, List.cons.injEq, and_true] at hBytes
    refine ⟨⟨3, if c.toNat / 262144 = 0 then 0x90 else 0x80,
      if c.toNat / 262144 = 4 then 0x8F else 0xBF, c.toNat / 262144⟩, ?_, rfl, ?_, ?_⟩
    · exact (Lead.Opens.four (by omega) (by omega)).ofByte?_eq_some
    · rw [continues_cons_ite (by decide) (by decide)]
      simp only [continues_cons, continues_nil, UInt8.reduceToNat, and_true]
      omega
    · simp only [scalar_cons, scalar_nil]
      omega

/-- What is read at the front of a byte sequence is the character whose bytes stand there. -/
theorem readChar_eq_ok_iff {b : UInt8} {bs rest : List UInt8} {c : Char} :
    readChar b bs = .ok (c, rest) ↔ String.utf8EncodeChar c ++ rest = b :: bs := by
  constructor
  · intro h
    rw [readChar] at h
    cases hLead : Lead.ofByte? b with
    | none => simp [hLead] at h
    | some lead =>
      simp only [hLead] at h
      obtain ⟨tail, hText, hLength, hTail, rfl⟩ := readTail_eq_ok_iff.1 h
      rw [utf8EncodeChar_of_lead hLead hLength hTail, List.cons_append, hText]
  · intro h
    cases hBytes : String.utf8EncodeChar c with
    | nil => exact absurd hBytes String.utf8EncodeChar_ne_nil
    | cons d tail =>
      rw [hBytes, List.cons_append] at h
      obtain ⟨rfl, hText⟩ := List.cons.inj h
      obtain ⟨lead, hLead, hLength, hTail, hValue⟩ := exists_lead_of_utf8EncodeChar hBytes
      rw [readChar, hLead]
      exact readTail_eq_ok_iff.2 ⟨tail, hText, hLength, hTail, hValue⟩

/-! ## Texts -/

theorem decodeFrom_of_readChar {index : Nat} {b : UInt8} {bs rest : List UInt8} {c : Char}
    (h : readChar b bs = .ok (c, rest)) :
    decodeFrom index (b :: bs) = (decodeFrom (index + c.utf8Size) rest).map (c :: ·) := by
  rw [decodeFrom]
  split
  · rename_i cause hError
    simp [h] at hError
  · rename_i d others hRead
    rw [h] at hRead
    obtain ⟨rfl, rfl⟩ := Prod.mk.inj (Except.ok.inj hRead)
    rfl

/-- The text of a byte sequence is the one whose bytes these are. -/
theorem decodeFrom_eq_ok_iff {index : Nat} {bytes : List UInt8} {cs : List Char} :
    decodeFrom index bytes = .ok cs ↔ encode cs = bytes := by
  constructor
  · intro h
    fun_induction decodeFrom index bytes generalizing cs with
    | case1 =>
      obtain rfl := Except.ok.inj h
      rfl
    | case2 index b bs cause hRead => simp at h
    | case3 index b bs c rest hRead ih =>
      cases hRest : decodeFrom (index + c.utf8Size) rest with
      | error fault => simp [hRest, Except.map] at h
      | ok ds =>
        simp only [hRest, Except.map, Except.ok.injEq] at h
        rw [← h, encode_cons, ih hRest, readChar_eq_ok_iff.1 hRead]
  · intro h
    induction cs generalizing index bytes with
    | nil =>
      rw [← h, encode_nil, decodeFrom]
    | cons c cs ih =>
      rw [encode_cons] at h
      cases bytes with
      | nil => exact absurd (List.append_eq_nil_iff.1 h).1 String.utf8EncodeChar_ne_nil
      | cons b bs =>
        rw [decodeFrom_of_readChar (readChar_eq_ok_iff.2 h), ih rfl]
        rfl

theorem decode_eq_ok_iff {bytes : List UInt8} {cs : List Char} :
    decode bytes = .ok cs ↔ encode cs = bytes := decodeFrom_eq_ok_iff

end Text.Utf8

/-! ## Files -/

namespace SourceFile

open Text

/-- Where nothing is mapped there is nothing to decode. -/
theorem readText_mapped? (bytes : List UInt8) : readText (mapped? bytes) = Utf8.decode bytes := by
  rw [mapped?]
  split
  · rename_i hEmpty
    rw [List.length_eq_zero_iff.1 hEmpty]
    exact (Utf8.decode_eq_ok_iff.2 rfl).symm
  · rfl

theorem load_eq_ok_iff {path : String} {bytes : List UInt8} {file : SourceFile} :
    load path bytes = .ok file ↔ file.path = path ∧ Utf8.encode file.content.toList = bytes := by
  rw [load, readText_mapped?]
  constructor
  · intro h
    cases hDecode : Utf8.decode bytes with
    | error fault => simp [hDecode, Except.map] at h
    | ok cs =>
      simp only [hDecode, Except.map, Except.ok.injEq] at h
      rw [← h]
      refine ⟨rfl, ?_⟩
      rw [String.toList_ofList]
      exact Utf8.decode_eq_ok_iff.1 hDecode
  · rintro ⟨rfl, hBytes⟩
    rw [Utf8.decode_eq_ok_iff.2 hBytes]
    simp only [Except.map, String.ofList_toList]

/-- A file can be made from bytes if and only if these are the UTF-8 of a text, and then it holds
this text, whose bytes are again those of the file. So it can be made from the bytes of any text, by
a path or as a temporary file, and the scan of the file is then that of the text. -/
theorem load_decodes_utf8 :
    (∀ (path : String) (bytes : List UInt8),
      ((∃ file, load path bytes = .ok file) ↔ ∃ cs, Utf8.encode cs = bytes) ∧
        ∀ file, load path bytes = .ok file ↔
          file.path = path ∧ Utf8.encode file.content.toList = bytes) ∧
      ∀ path tag text : String,
        (∃ file, load path (Utf8.encode text.toList) = .ok file ∧ file.content = text ∧
          file.scan = Scan.ofSource text) ∧
          ∃ file, temporary tag text = .ok file ∧ file.content = text ∧
            file.scan = Scan.ofSource text := by
  have hLoad (path text : String) : load path (Utf8.encode text.toList) = .ok ⟨path, text⟩ :=
    load_eq_ok_iff.2 ⟨rfl, rfl⟩
  constructor
  · intro path bytes
    refine ⟨⟨?_, ?_⟩, fun file => load_eq_ok_iff⟩
    · rintro ⟨file, h⟩
      exact ⟨file.content.toList, (load_eq_ok_iff.1 h).2⟩
    · rintro ⟨cs, rfl⟩
      refine ⟨⟨path, String.ofList cs⟩, load_eq_ok_iff.2 ⟨rfl, ?_⟩⟩
      rw [String.toList_ofList]
  · intro path tag text
    exact ⟨⟨_, hLoad path text, rfl, rfl⟩, ⟨_, hLoad _ text, rfl, rfl⟩⟩

/-- A surrogate is refused. -/
example : (load "a.lox" [0xED, 0xA0, 0x80]).toOption = none := by cbv

end SourceFile

end LoxLexer
