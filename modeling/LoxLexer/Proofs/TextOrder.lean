import LoxLexer.Proofs.Decoding

/-!
# The order of texts

Texts are compared by their characters, from the first on, and characters by their code points. The
bytes of the texts are in the same order. For two characters this is settled within their bytes:
the one with more bytes has the greater leading byte, and of two with equally many the leading byte
holds the upper bits of the code point and each byte behind it the next six. So one encoding is
never a prefix of another, and what follows in the texts has no say before the characters are equal.

## Main results

* `compare_image`: a comparison carries over to images, if the lesser member has the lesser image.
* `Text.Utf8.compare_encode`: lists of characters compare as their bytes do.
* `Text.compare_codePoints`, `Text.compare_bytes`: strings compare as their code points and as their
  bytes do.
-/

namespace LoxLexer

/-! ## Comparisons that agree -/

section Agreement

variable {α β : Type} [Ord α] [Ord β]

/-- Two members compare as their images do, if of the two images the lesser is that of the lesser
member. -/
theorem compare_image [Std.TransOrd α] [Std.LawfulEqOrd α] [Std.TransOrd β] {f : α → β} {a b : α}
    (hLess : compare a b = .lt → compare (f a) (f b) = .lt)
    (hMore : compare b a = .lt → compare (f b) (f a) = .lt) :
    compare (f a) (f b) = compare a b := by
  cases hCompare : compare a b with
  | lt => exact hLess hCompare
  | eq => rw [Std.LawfulEqOrd.compare_eq_iff_eq.1 hCompare, Std.ReflOrd.compare_self]
  | gt =>
    have hSwapped : compare b a = .lt := Std.OrientedCmp.gt_iff_lt.1 hCompare
    exact Std.OrientedCmp.gt_iff_lt.2 (hMore hSwapped)

/-- Lists compare as their images do, if their members compare as theirs do. -/
theorem compare_map {f : α → β} (h : ∀ a b, compare (f a) (f b) = compare a b) (as bs : List α) :
    compare (as.map f) (bs.map f) = compare as bs := by
  induction as generalizing bs with
  | nil => cases bs <;> rfl
  | cons a as ih =>
    cases bs with
    | nil => rfl
    | cons b bs => simp only [List.map_cons, List.compare_cons_cons, h, ih]

/-- What two lists begin with in common does not count. -/
theorem compare_append_left [Std.ReflOrd α] (as bs cs : List α) :
    compare (as ++ bs) (as ++ cs) = compare bs cs := by
  induction as with
  | nil => rfl
  | cons a as ih =>
    rw [List.cons_append, List.cons_append, List.compare_cons_cons, Std.ReflOrd.compare_self, ih]
    rfl

/-- The lists of which one compares as less are those of which one is less. -/
theorem compare_list_eq_lt [LT α] [Std.LawfulEqOrd α] (h : ∀ a b : α, compare a b = .lt ↔ a < b)
    (as bs : List α) : compare as bs = .lt ↔ as < bs := by
  induction as generalizing bs with
  | nil => cases bs <;> simp
  | cons a as ih =>
    cases bs with
    | nil => simp
    | cons b bs =>
      rw [List.compare_cons_cons, Ordering.then_eq_lt, List.cons_lt_cons_iff, h, ih,
        Std.LawfulEqOrd.compare_eq_iff_eq]

end Agreement

namespace Text

/-! ## Code points -/

theorem compare_char_eq_lt {c d : Char} : compare c d = .lt ↔ c < d := compareOfLessAndEq_eq_lt

theorem compare_string_eq_lt {s t : String} : compare s t = .lt ↔ s.toList < t.toList := by
  rw [← String.lt_iff]
  exact compareOfLessAndEq_eq_lt

theorem toNat_lt_toNat {c d : Char} (h : c < d) : c.toNat < d.toNat := UInt32.lt_iff_toNat_lt.1 h

theorem compare_toNat (c d : Char) : compare c.toNat d.toNat = compare c d := by
  have hLess {c d : Char} (h : compare c d = .lt) : compare c.toNat d.toNat = .lt :=
    Nat.compare_eq_lt.2 (toNat_lt_toNat (compare_char_eq_lt.1 h))
  exact compare_image hLess hLess

theorem compare_toList (s t : String) : compare s.toList t.toList = compare s t := by
  have hLess {s t : String} (h : compare s t = .lt) : compare s.toList t.toList = .lt :=
    (compare_list_eq_lt (fun _ _ => compare_char_eq_lt) _ _).2 (compare_string_eq_lt.1 h)
  exact compare_image hLess hLess

/-- Strings compare as the sequences of their code points do. -/
theorem compare_codePoints (s t : String) :
    compare s t = compare (s.toList.map Char.toNat) (t.toList.map Char.toNat) := by
  rw [compare_map compare_toNat, compare_toList]

/-! ## Bytes -/

namespace Utf8

/-- The bytes of the lesser scalar value come first, whatever stands behind them. -/
theorem compare_byteValues_append_of_lt {m n : Nat} (h : m < n) (as bs : List Nat) :
    compare (byteValues m ++ as) (byteValues n ++ bs) = .lt := by
  rw [compare_list_eq_lt fun _ _ => Nat.compare_eq_lt, byteValues, byteValues]
  -- One case for each pair of lengths. Of different lengths the leading bytes differ, and of the
  -- same length `omega` finds the first group of six bits that does.
  split_ifs
  all_goals
    simp only [List.cons_append, List.nil_append, List.cons_lt_cons_iff]
    omega

theorem compare_byteValues_append (m n : Nat) (as bs : List Nat) :
    compare (byteValues m ++ as) (byteValues n ++ bs) = (compare m n).then (compare as bs) := by
  cases hCompare : compare m n with
  | lt => exact compare_byteValues_append_of_lt (Nat.compare_eq_lt.1 hCompare) as bs
  | eq => rw [Nat.compare_eq_eq.1 hCompare, compare_append_left, Ordering.eq_then]
  | gt =>
    have hSwapped := compare_byteValues_append_of_lt (Nat.compare_eq_gt.1 hCompare) bs as
    exact Std.OrientedCmp.gt_iff_lt.2 hSwapped

theorem map_toNat_encode_cons (c : Char) (cs : List Char) :
    (encode (c :: cs)).map UInt8.toNat = byteValues c.toNat ++ (encode cs).map UInt8.toNat := by
  rw [encode_cons, List.map_append, map_toNat_utf8EncodeChar]

theorem exists_byteValues_eq_cons (n : Nat) : ∃ lead tail, byteValues n = lead :: tail := by
  rw [byteValues]
  split_ifs
  all_goals exact ⟨_, _, rfl⟩

/-- Lists of characters compare as their bytes do. -/
theorem compare_encode (cs ds : List Char) : compare (encode cs) (encode ds) = compare cs ds := by
  have hBytes : ∀ a b : UInt8, compare a.toNat b.toNat = compare a b := fun a b =>
    (UInt8.compare_eq_toNat_compare_toNat a b).symm
  rw [← compare_map hBytes]
  induction cs generalizing ds with
  | nil =>
    cases ds with
    | nil => rfl
    | cons d ds =>
      obtain ⟨lead, tail, hForm⟩ := exists_byteValues_eq_cons d.toNat
      rw [map_toNat_encode_cons, hForm]
      rfl
  | cons c cs ih =>
    cases ds with
    | nil =>
      obtain ⟨lead, tail, hForm⟩ := exists_byteValues_eq_cons c.toNat
      rw [map_toNat_encode_cons, hForm]
      rfl
    | cons d ds =>
      rw [map_toNat_encode_cons, map_toNat_encode_cons, compare_byteValues_append, ih,
        compare_toNat, List.compare_cons_cons]

/-- The bytes that a string consists of are those of its characters. -/
theorem toList_toUTF8 (s : String) : s.toUTF8.data.toList = encode s.toList := by
  rw [String.toUTF8_eq_toByteArray, ← String.utf8Encode_toList, List.utf8Encode,
    List.data_toByteArray]
  rfl

end Utf8

/-- Strings compare as the sequences of their bytes do. -/
theorem compare_bytes (s t : String) :
    compare s t = compare s.toUTF8.data.toList t.toUTF8.data.toList := by
  rw [Utf8.toList_toUTF8, Utf8.toList_toUTF8, Utf8.compare_encode, compare_toList]

end Text

end LoxLexer
