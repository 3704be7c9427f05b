import LoxLexer.Proofs.Decoding

/-!
# Faults

Bytes that are not UTF-8 are refused, and the fault that is given says where and why. In front of
its index stands the longest part of the bytes that is UTF-8. Behind it either all bytes belong to a
character that lacks more of them, or a byte comes that this character cannot have there. In the
second case the length of the fault counts the bytes that stand in front of that one, or the first
byte if it begins no character.

So the reader never gives up too early: bytes that keep to the range of their leading byte can
always be completed, which is `Lead.exists_completion`.

## Main definitions

* `Text.Utf8.IsUtf8`: the bytes encode a text.
* `Text.Utf8.BeginsChar`: the bytes begin a character and are not all of it.
* `Text.Utf8.IsLongestPrefix`: how far the bytes are of a kind.

## Main results

* `Text.Utf8.beginsChar_cons_iff`: which bytes begin a character.
* `Text.Utf8.exists_of_decodeFrom_eq_error`: the character at a fault is one that cannot be read.
* `SourceFile.load_locates_fault`: which fault a file is refused for.
-/

namespace LoxLexer

namespace Text.Utf8

/-- The bytes encode a text. -/
def IsUtf8 (bytes : List UInt8) : Prop := ∃ cs, encode cs = bytes

/-- The bytes begin a character and are not all of it, so that more bytes would complete it. -/
def BeginsChar (bytes : List UInt8) : Prop :=
  ∃ c, bytes <+: String.utf8EncodeChar c ∧ bytes ≠ String.utf8EncodeChar c

/-- The first `n` of the bytes are of the kind, and no longer part at their front is. -/
structure IsLongestPrefix (kind : List UInt8 → Prop) (bytes : List UInt8) (n : Nat) : Prop where
  le_length : n ≤ bytes.length
  holds : kind (bytes.take n)
  longest : ∀ m ≤ bytes.length, kind (bytes.take m) → m ≤ n

/-! ## Bytes that can be completed -/

theorem continues_append {low high : UInt8} {bs ds : List UInt8}
    (h : Continues low high (bs ++ ds)) : Continues low high bs := by
  induction bs generalizing low high with
  | nil => exact continues_nil low high
  | cons b bs ih =>
    rw [List.cons_append, continues_cons] at h
    exact (continues_cons ..).2 ⟨h.1, ih h.2⟩

theorem continues_replicate (n : Nat) : Continues 0x80 0xBF (List.replicate n 0x80) := by
  induction n with
  | zero => exact continues_nil _ _
  | succ n ih =>
    rw [List.replicate_succ, continues_cons]
    exact ⟨by decide, ih⟩

/-- A range that is not empty has room for the byte that comes next, whatever stands there. -/
theorem exists_continues_append {low high : UInt8} {bs : List UInt8}
    (hRange : low.toNat ≤ high.toNat) (h : Continues low high bs) (n : Nat) :
    ∃ ds : List UInt8, ds.length = n ∧ Continues low high (bs ++ ds) := by
  induction bs generalizing low high with
  | nil =>
    cases n with
    | zero => exact ⟨[], rfl, h⟩
    | succ n =>
      refine ⟨low :: List.replicate n 0x80, by simp, ?_⟩
      exact (continues_cons ..).2 ⟨⟨Nat.le_refl _, hRange⟩, continues_replicate n⟩
  | cons b bs ih =>
    rw [continues_cons] at h
    obtain ⟨ds, hLength, hTail⟩ := ih (by decide) h.2
    exact ⟨ds, hLength, (continues_cons ..).2 ⟨h.1, hTail⟩⟩

theorem Lead.Opens.low_le_high {b : UInt8} {lead : Lead} (h : Lead.Opens b lead) :
    lead.low.toNat ≤ lead.high.toNat := by
  cases h with
  | one byte => exact (by decide : (0x80 : UInt8).toNat ≤ (0xBF : UInt8).toNat)
  | two byte range => exact (by decide : (0x80 : UInt8).toNat ≤ (0xBF : UInt8).toNat)
  | @three k byte range =>
    dsimp only
    by_cases hFirst : k = 0
    · subst hFirst
      decide
    · rw [if_neg hFirst]
      split <;> decide
  | @four k byte range =>
    dsimp only
    by_cases hFirst : k = 0
    · subst hFirst
      decide
    · rw [if_neg hFirst]
      split <;> decide

theorem Lead.Opens.owed_le {b : UInt8} {lead : Lead} (h : Lead.Opens b lead) : lead.owed ≤ 3 := by
  cases h <;> simp

/-- A leading byte and some bytes that keep to its range are the front of a character. -/
theorem Lead.exists_completion {b : UInt8} {lead : Lead} {bs : List UInt8}
    (hLead : Lead.ofByte? b = some lead) (hLength : bs.length ≤ lead.owed)
    (hTail : Continues lead.low lead.high bs) :
    ∃ (c : Char) (ds : List UInt8), ds.length = lead.owed - bs.length ∧
      String.utf8EncodeChar c = b :: bs ++ ds := by
  have hRange := (Lead.ofByte?_eq_some_iff.1 hLead).low_le_high
  obtain ⟨ds, hMore, hWhole⟩ := exists_continues_append hRange hTail (lead.owed - bs.length)
  have hOwed : (bs ++ ds).length = lead.owed := by
    rw [List.length_append]
    omega
  exact ⟨_, ds, hMore, utf8EncodeChar_of_lead hLead hOwed hWhole⟩

/-- Bytes begin a character when the first leads one, and those behind it keep to its range and are
fewer than it asks for. -/
theorem beginsChar_cons_iff {b : UInt8} {bs : List UInt8} :
    BeginsChar (b :: bs) ↔
      ∃ lead, Lead.ofByte? b = some lead ∧ bs.length < lead.owed ∧
        Continues lead.low lead.high bs := by
  constructor
  · rintro ⟨c, ⟨ds, hBytes⟩, hProper⟩
    rw [List.cons_append] at hBytes
    obtain ⟨lead, hLead, hOwed, hTail, -⟩ := exists_lead_of_utf8EncodeChar hBytes.symm
    have hMore : ds ≠ [] := by
      intro hNone
      rw [hNone, List.append_nil] at hBytes
      exact hProper hBytes
    have hPos := List.length_pos_iff.2 hMore
    rw [List.length_append] at hOwed
    exact ⟨lead, hLead, by omega, continues_append hTail⟩
  · rintro ⟨lead, hLead, hLength, hTail⟩
    obtain ⟨c, ds, hMore, hBytes⟩ := Lead.exists_completion hLead (Nat.le_of_lt hLength) hTail
    refine ⟨c, ⟨ds, hBytes.symm⟩, ?_⟩
    intro hWhole
    have hCount := congrArg List.length (hWhole.trans hBytes)
    rw [List.length_append] at hCount
    omega

theorem beginsChar_nil : BeginsChar [] :=
  ⟨'a', List.nil_prefix, String.utf8EncodeChar_ne_nil.symm⟩

/-! ## One sequence -/

/-- The end of the bytes is found before the end of the sequence when all bytes keep to it. -/
theorem readTail_eq_incomplete_iff {owed : Nat} {low high : UInt8} {bits length : Nat}
    {bs : List UInt8} :
    readTail owed low high bits length bs = .error .incomplete ↔
      bs.length < owed ∧ Continues low high bs := by
  induction owed generalizing low high bits length bs with
  | zero => simp [readTail]
  | succ owed ih =>
    cases bs with
    | nil => simp [readTail]
    | cons b bs =>
      rw [readTail, continues_cons, List.length_cons, Nat.add_lt_add_iff_right]
      by_cases hByte : low ≤ b ∧ b ≤ high
      · rw [if_pos hByte, ih]
        exact and_congr_right fun _ => (and_iff_right hByte).symm
      · rw [if_neg hByte]
        constructor
        · intro h
          simp at h
        · intro h
          exact absurd h.2.1 hByte

/-- A sequence breaks at the first byte that does not keep to it. -/
theorem exists_of_readTail_eq_broken {owed : Nat} {low high : UInt8} {bits length n : Nat}
    {bs : List UInt8} (h : readTail owed low high bits length bs = .error (.broken n)) :
    ∃ (front : List UInt8) (b : UInt8) (rest : List UInt8), bs = front ++ b :: rest ∧
      n = length + front.length ∧ front.length < owed ∧ Continues low high front ∧
        ¬Continues low high (front ++ [b]) := by
  induction owed generalizing low high bits length bs with
  | zero => simp [readTail] at h
  | succ owed ih =>
    cases bs with
    | nil => simp [readTail] at h
    | cons b bs =>
      rw [readTail] at h
      by_cases hByte : low ≤ b ∧ b ≤ high
      · rw [if_pos hByte] at h
        obtain ⟨front, d, rest, hText, hCount, hLength, hFront, hStop⟩ := ih h
        refine ⟨b :: front, d, rest, by rw [hText, List.cons_append], ?_, ?_,
          (continues_cons ..).2 ⟨hByte, hFront⟩, ?_⟩
        · rw [hCount, List.length_cons]
          omega
        · rw [List.length_cons]
          omega
        · intro hOn
          exact hStop ((continues_cons ..).1 hOn).2
      · rw [if_neg hByte] at h
        have hCount : length = n := by simpa using h
        refine ⟨[], b, bs, rfl, hCount.symm, Nat.succ_pos owed, continues_nil low high, ?_⟩
        intro hOn
        exact hByte ((continues_cons ..).1 hOn).1

/-- The bytes end inside a character exactly when they begin one. -/
theorem readChar_eq_incomplete_iff {b : UInt8} {bs : List UInt8} :
    readChar b bs = .error .incomplete ↔ BeginsChar (b :: bs) := by
  rw [readChar, beginsChar_cons_iff]
  cases hLead : Lead.ofByte? b with
  | none => simp
  | some lead => simp [readTail_eq_incomplete_iff]

/-- As many bytes are counted as begin a character, and at least one. -/
theorem longest_of_readChar_eq_broken {b : UInt8} {bs : List UInt8} {n : Nat}
    (h : readChar b bs = .error (.broken n)) :
    (∃ m, IsLongestPrefix BeginsChar (b :: bs) m ∧ n = max 1 m) ∧ n ≤ 3 ∧
      n ≤ (b :: bs).length := by
  rw [readChar] at h
  cases hLead : Lead.ofByte? b with
  | none =>
    have hOne : 1 = n := by simpa [hLead] using h
    subst hOne
    refine ⟨⟨0, ⟨Nat.zero_le _, beginsChar_nil, ?_⟩, rfl⟩, by decide, Nat.succ_pos _⟩
    intro m hm hBegins
    cases m with
    | zero => exact Nat.le_refl 0
    | succ m =>
      rw [List.take_succ_cons, beginsChar_cons_iff] at hBegins
      obtain ⟨lead, hSome, -⟩ := hBegins
      simp [hLead] at hSome
  | some lead =>
    simp only [hLead] at h
    obtain ⟨front, d, rest, rfl, rfl, hLength, hFront, hStop⟩ := exists_of_readTail_eq_broken h
    have hOwed := (Lead.ofByte?_eq_some_iff.1 hLead).owed_le
    refine ⟨⟨1 + front.length, ⟨?_, ?_, ?_⟩, ?_⟩, by omega, ?_⟩
    · simp only [List.length_cons, List.length_append]
      omega
    · rw [Nat.add_comm, List.take_succ_cons, List.take_left, beginsChar_cons_iff]
      exact ⟨lead, hLead, hLength, hFront⟩
    · -- A longer part has the byte at which the sequence breaks.
      intro m hm hBegins
      by_cases hShort : m ≤ 1 + front.length
      · exact hShort
      obtain ⟨k, rfl⟩ : ∃ k, m = front.length + k + 1 + 1 := ⟨m - (front.length + 2), by omega⟩
      rw [List.take_succ_cons, beginsChar_cons_iff] at hBegins
      obtain ⟨other, hOther, -, hOn⟩ := hBegins
      obtain rfl : other = lead := Option.some.inj (hOther.symm.trans hLead)
      rw [Nat.add_assoc, List.take_length_add_append, List.take_succ_cons, List.append_cons] at hOn
      exact absurd (continues_append hOn) hStop
    · omega
    · simp only [List.length_cons, List.length_append]
      omega

/-! ## Whole texts -/

/-- At a fault the character cannot be read that should stand there, and in front of it stands the
encoding of a text. -/
theorem exists_of_decodeFrom_eq_error {index : Nat} {bytes : List UInt8} {fault : Fault}
    (h : decodeFrom index bytes = .error fault) :
    ∃ (cs : List Char) (b : UInt8) (bs : List UInt8), bytes = encode cs ++ b :: bs ∧
      fault.index = index + (encode cs).length ∧ readChar b bs = .error fault.cause := by
  fun_induction decodeFrom index bytes with
  | case1 => simp at h
  | case2 index b bs cause hRead =>
    obtain rfl := Except.error.inj h
    exact ⟨[], b, bs, rfl, rfl, hRead⟩
  | case3 index b bs c rest hRead ih =>
    cases hRest : decodeFrom (index + c.utf8Size) rest with
    | ok ds => simp [hRest, Except.map] at h
    | error found =>
      simp only [hRest, Except.map, Except.error.injEq] at h
      subst h
      obtain ⟨cs, d, ds, hText, hIndex, hFault⟩ := ih hRest
      refine ⟨c :: cs, d, ds, ?_, ?_, hFault⟩
      · rw [encode_cons, List.append_assoc, ← hText, readChar_eq_ok_iff.1 hRead]
      · rw [hIndex, encode_cons, List.length_append, String.length_utf8EncodeChar, Nat.add_assoc]

/-- A character is known by its bytes, whatever follows them. -/
theorem eq_of_utf8EncodeChar_append {c d : Char} {bs ds : List UInt8}
    (h : String.utf8EncodeChar c ++ bs = String.utf8EncodeChar d ++ ds) : c = d ∧ bs = ds := by
  cases hBytes : String.utf8EncodeChar d ++ ds with
  | nil => exact absurd (List.append_eq_nil_iff.1 hBytes).1 String.utf8EncodeChar_ne_nil
  | cons b rest =>
    have hOne := readChar_eq_ok_iff.2 (h.trans hBytes)
    have hOther := readChar_eq_ok_iff.2 hBytes
    rw [hOne] at hOther
    exact Prod.mk.inj (Except.ok.inj hOther)

/-- No text reaches beyond a place where no character can be read. -/
theorem length_encode_le {cs ds : List Char} {b : UInt8} {bs rest : List UInt8}
    {cause : SequenceFault} (hFault : readChar b bs = .error cause)
    (h : encode ds ++ rest = encode cs ++ b :: bs) : (encode ds).length ≤ (encode cs).length := by
  induction cs generalizing ds with
  | nil =>
    cases ds with
    | nil => exact Nat.le_refl _
    | cons d ds =>
      rw [encode_cons, List.append_assoc, encode_nil, List.nil_append] at h
      rw [readChar_eq_ok_iff.2 h] at hFault
      simp at hFault
  | cons c cs ih =>
    cases ds with
    | nil => exact Nat.zero_le _
    | cons d ds =>
      rw [encode_cons, encode_cons, List.append_assoc, List.append_assoc] at h
      obtain ⟨rfl, hBehind⟩ := eq_of_utf8EncodeChar_append h
      have hRest := ih hBehind
      rw [encode_cons, encode_cons, List.length_append, List.length_append]
      omega

/-- The text in front of a fault is the longest that the bytes begin with. -/
theorem isLongestPrefix_isUtf8 {cs : List Char} {b : UInt8} {bs : List UInt8}
    {cause : SequenceFault} (hFault : readChar b bs = .error cause) :
    IsLongestPrefix IsUtf8 (encode cs ++ b :: bs) (encode cs).length := by
  refine ⟨?_, ⟨cs, List.take_left.symm⟩, ?_⟩
  · rw [List.length_append]
    exact Nat.le_add_right _ _
  · rintro m hm ⟨ds, hText⟩
    have hSplit := List.take_append_drop m (encode cs ++ b :: bs)
    have hLength := congrArg List.length hText
    rw [List.length_take, Nat.min_eq_left hm] at hLength
    rw [← hText] at hSplit
    rw [← hLength]
    exact length_encode_le hFault hSplit

end Text.Utf8

/-! ## Files -/

namespace SourceFile

open Text

/-- A file cannot be made from bytes that are not UTF-8. The index of the fault is the length of the
longest part at their front that is UTF-8. What stands behind it is called incomplete exactly when
more bytes would complete a character there. In all other cases the fault has a length, which counts
the bytes that begin a character, or the first byte if none do. -/
theorem load_locates_fault (path : String) {bytes : List UInt8} (h : ¬Utf8.IsUtf8 bytes) :
    ∃ fault, load path bytes = .error fault ∧
      Utf8.IsLongestPrefix Utf8.IsUtf8 bytes fault.index ∧
      (fault.cause = .incomplete ↔ Utf8.BeginsChar (bytes.drop fault.index)) ∧
      (fault.cause = .incomplete →
        fault.message = "incomplete utf-8 byte sequence from index " ++ toString fault.index) ∧
      ∀ length, fault.cause = .broken length →
        fault.message = "invalid utf-8 sequence of " ++ toString length ++ " bytes from index " ++
            toString fault.index ∧
          (∃ n, Utf8.IsLongestPrefix Utf8.BeginsChar (bytes.drop fault.index) n ∧
            length = max 1 n) ∧
          1 ≤ length ∧ length ≤ 3 ∧ fault.index + length ≤ bytes.length := by
  cases hDecode : Utf8.decode bytes with
  | ok cs => exact absurd ⟨cs, Utf8.decode_eq_ok_iff.1 hDecode⟩ h
  | error fault =>
    obtain ⟨cs, b, bs, rfl, hIndex, hFault⟩ := Utf8.exists_of_decodeFrom_eq_error hDecode
    rw [Nat.zero_add] at hIndex
    have hLoad : load path (Utf8.encode cs ++ b :: bs) = .error fault := by
      rw [load, readText_mapped?, hDecode]
      rfl
    have hDrop : (Utf8.encode cs ++ b :: bs).drop fault.index = b :: bs := by
      rw [hIndex, List.drop_left]
    refine ⟨fault, hLoad, hIndex ▸ Utf8.isLongestPrefix_isUtf8 hFault, ?_, ?_, ?_⟩
    · rw [hDrop, ← Utf8.readChar_eq_incomplete_iff, hFault, Except.error.injEq]
    · intro hCause
      rw [Utf8.Fault.message, hCause]
    · intro length hCause
      rw [hCause] at hFault
      obtain ⟨⟨n, hLongest, hMax⟩, hSmall, hLength⟩ := Utf8.longest_of_readChar_eq_broken hFault
      refine ⟨by rw [Utf8.Fault.message, hCause], ⟨n, ?_, hMax⟩, by omega, hSmall, ?_⟩
      · rw [hDrop]
        exact hLongest
      · rw [hIndex, List.length_append]
        omega

/-- Three bytes of a character of four are followed by a letter. -/
theorem load_locates_fault_broken :
    ¬Utf8.IsUtf8 [0x61, 0xF0, 0x9F, 0x98, 0x62] ∧
      load "a.lox" [0x61, 0xF0, 0x9F, 0x98, 0x62] = .error ⟨1, .broken 3⟩ ∧
        Utf8.IsLongestPrefix Utf8.IsUtf8 [0x61, 0xF0, 0x9F, 0x98, 0x62] 1 ∧
          ¬Utf8.BeginsChar [0xF0, 0x9F, 0x98, 0x62] ∧
            Utf8.IsLongestPrefix Utf8.BeginsChar [0xF0, 0x9F, 0x98, 0x62] 3 := by
  have hDecode : Utf8.decode [0x61, 0xF0, 0x9F, 0x98, 0x62] = .error ⟨1, .broken 3⟩ := by
    decide +kernel
  have hMalformed : ¬Utf8.IsUtf8 [0x61, 0xF0, 0x9F, 0x98, 0x62] := by
    rintro ⟨cs, hBytes⟩
    rw [Utf8.decode_eq_ok_iff.2 hBytes] at hDecode
    simp at hDecode
  obtain ⟨fault, hLoad, hFront, hIncomplete, -, hBroken⟩ := load_locates_fault "a.lox" hMalformed
  have hFound : load "a.lox" [0x61, 0xF0, 0x9F, 0x98, 0x62] = .error ⟨1, .broken 3⟩ := by
    rw [load, readText_mapped?, hDecode]
    rfl
  obtain rfl : fault = ⟨1, .broken 3⟩ := Except.error.inj (hLoad.symm.trans hFound)
  obtain ⟨-, ⟨n, hLongest, hMax⟩, -⟩ := hBroken 3 rfl
  obtain rfl : n = 3 := by omega
  exact ⟨hMalformed, hFound, hFront, mt hIncomplete.2 (by simp), hLongest⟩

end SourceFile

end LoxLexer
