/-!
# Sets of code points

A property of characters is a table of closed ranges of code points. The ranges of a table ascend
and lie apart, so that looking a code point up may stop at the first range that begins behind it.

## Main results

* `contains_iff`: looking up in an ascending table finds exactly the members of its ranges.
-/

namespace LoxLexer.Text

/-- Closed ranges of code points, each by its first and its last. -/
abbrev CodePoints := List (Nat × Nat)

namespace CodePoints

/-- Every range ends no earlier than it begins, and the next begins behind it with a gap. -/
def isAscending : CodePoints → Bool
  | [] => true
  | [r] => r.1 ≤ r.2
  | r :: s :: rs => r.1 ≤ r.2 && r.2 + 1 < s.1 && isAscending (s :: rs)

/-- Looks a code point up in an ascending table. -/
def contains : CodePoints → Nat → Bool
  | [], _ => false
  | (first, last) :: rs, n => if n < first then false else n ≤ last || contains rs n

theorem isAscending_tail {r : Nat × Nat} {rs : CodePoints} (h : isAscending (r :: rs) = true) :
    isAscending rs = true := by
  cases rs with
  | nil => rfl
  | cons s rs => exact (Bool.and_eq_true_iff.1 h).2

theorem lt_of_isAscending {r : Nat × Nat} {rs : CodePoints} (h : isAscending (r :: rs) = true) :
    ∀ s ∈ rs, r.2 < s.1 := by
  induction rs generalizing r with
  | nil => simp
  | cons s rs ih =>
    intro t ht
    have hGap : r.2 + 1 < s.1 := by
      have := (Bool.and_eq_true_iff.1 (Bool.and_eq_true_iff.1 h).1).2
      simpa using this
    have hTail := isAscending_tail h
    cases ht with
    | head => omega
    | tail _ ht =>
      have hLater := ih hTail t ht
      have hRange : s.1 ≤ s.2 := by
        cases rs with
        | nil => cases ht
        | cons u us =>
          have := (Bool.and_eq_true_iff.1 (Bool.and_eq_true_iff.1 hTail).1).1
          simpa using this
      omega

/-- Looking up is membership in one of the ranges. -/
theorem contains_iff {rs : CodePoints} (h : isAscending rs = true) (n : Nat) :
    contains rs n = true ↔ ∃ r ∈ rs, r.1 ≤ n ∧ n ≤ r.2 := by
  induction rs with
  | nil => simp [contains]
  | cons r rs ih =>
    have hLater := lt_of_isAscending h
    have ih := ih (isAscending_tail h)
    by_cases hBefore : n < r.1
    · simp only [contains, if_pos hBefore, Bool.false_eq_true, false_iff]
      rintro ⟨s, hs, hFirst, _⟩
      cases hs with
      | head => omega
      | tail _ hs =>
        have hGap := hLater s hs
        have hRange : r.1 ≤ r.2 := by
          cases rs with
          | nil => cases hs
          | cons t ts =>
            have := (Bool.and_eq_true_iff.1 (Bool.and_eq_true_iff.1 h).1).1
            simpa using this
        omega
    · simp only [contains, if_neg hBefore, Bool.or_eq_true, decide_eq_true_eq, ih, List.mem_cons]
      constructor
      · rintro (hLast | ⟨s, hs, hIn⟩)
        · exact ⟨r, .inl rfl, by omega, hLast⟩
        · exact ⟨s, .inr hs, hIn⟩
      · rintro ⟨s, rfl | hs, hIn⟩
        · exact .inl hIn.2
        · exact .inr ⟨s, hs, hIn⟩

end CodePoints

end LoxLexer.Text
