/-!
# Character classes

The lexical grammar sorts characters into blanks, digits and the letters of words. Every class is
a set of ASCII characters: a letter or digit of another script starts no element and continues
none, so it is a stray character wherever it stands outside a comment or a string.

Digits are `Char.isDigit`, the ten characters `0` to `9`.
-/

namespace LoxLexer.Text

/-- The four characters that separate elements and mean nothing else. -/
def isBlank (c : Char) : Bool := c == ' ' || c == '\r' || c == '\t' || c == '\n'

/-- The characters that begin a word: the ASCII letters and the underscore. -/
def isWordStart (c : Char) : Bool := c.isAlpha || c == '_'

/-- The characters that continue a word: those that begin one, and the digits. -/
def isWordPart (c : Char) : Bool := isWordStart c || c.isDigit

/-- The number of line feeds in a text, which is how many lines it closes. -/
def lineFeeds (cs : List Char) : Nat := cs.count '\n'

@[simp] theorem lineFeeds_nil : lineFeeds [] = 0 := rfl

theorem lineFeeds_cons (c : Char) (cs : List Char) :
    lineFeeds (c :: cs) = lineFeeds cs + if c = '\n' then 1 else 0 := by
  simp [lineFeeds, List.count_cons]

@[simp] theorem lineFeeds_append (xs ys : List Char) :
    lineFeeds (xs ++ ys) = lineFeeds xs + lineFeeds ys := by
  simp [lineFeeds]

theorem lineFeeds_eq_zero {cs : List Char} (h : '\n' ∉ cs) : lineFeeds cs = 0 :=
  List.count_eq_zero.2 h

theorem isWordPart_of_isWordStart {c : Char} (h : isWordStart c = true) : isWordPart c = true := by
  simp [isWordPart, h]

theorem isBlank_iff {c : Char} : isBlank c = true ↔ c = ' ' ∨ c = '\r' ∨ c = '\t' ∨ c = '\n' := by
  simp [isBlank, or_assoc]

/-- The characters of words and numbers are neither blanks nor quotes. -/
theorem isBlank_eq_false_of_isWordPart {c : Char} (h : isWordPart c = true) :
    isBlank c = false := by
  rw [Bool.eq_false_iff]
  intro hBlank
  obtain rfl | rfl | rfl | rfl := isBlank_iff.1 hBlank <;> revert h <;> decide

theorem ne_quote_of_isWordPart {c : Char} (h : isWordPart c = true) : c ≠ '"' := by
  rintro rfl
  revert h
  decide

theorem isWordPart_of_isDigit {c : Char} (h : c.isDigit = true) : isWordPart c = true := by
  simp [isWordPart, h]

theorem isDigit_eq_false_of_isWordStart {c : Char} (h : isWordStart c = true) :
    c.isDigit = false := by
  have hAlpha : c.isAlpha = (c.isUpper || c.isLower) := rfl
  have hUpper : c.isUpper = decide ('A'.val ≤ c.val ∧ c.val ≤ 'Z'.val) := rfl
  have hLower : c.isLower = (decide ('a'.val ≤ c.val) && decide (c.val ≤ 'z'.val)) := rfl
  have hRange : 65 ≤ c.toNat := by
    simp only [isWordStart, hAlpha, hUpper, hLower, Bool.or_eq_true, Bool.and_eq_true,
      decide_eq_true_eq, beq_iff_eq, UInt32.le_iff_toNat_le] at h
    obtain (h | h) | rfl := h
    · exact h.1
    · exact Nat.le_trans (by decide) h.1
    · decide
  rw [Bool.eq_false_iff]
  intro hDigit
  have hLast : c.toNat ≤ 57 := (Char.isDigit_iff_toNat.1 hDigit).2
  omega

/-! ## Runs of characters -/

/-- What a run of characters is taken for holds of each of them. -/
theorem of_mem_takeWhile {p : Char → Bool} {c : Char} {cs : List Char} (h : c ∈ cs.takeWhile p) :
    p c = true :=
  List.all_eq_true.1 List.all_takeWhile c h

theorem takeWhile_append_of_stop {p : Char → Bool} {xs ys : List Char}
    (hAll : ∀ c ∈ xs, p c = true) (hStop : ys.head?.any p = false) :
    (xs ++ ys).takeWhile p = xs := by
  rw [List.takeWhile_append_of_pos hAll]
  cases ys with
  | nil => simp
  | cons c cs => simp_all

theorem dropWhile_append_of_stop {p : Char → Bool} {xs ys : List Char}
    (hAll : ∀ c ∈ xs, p c = true) (hStop : ys.head?.any p = false) :
    (xs ++ ys).dropWhile p = ys := by
  rw [List.dropWhile_append_of_pos hAll]
  cases ys with
  | nil => simp
  | cons c cs => simp_all

/-- A run goes on where the next character is of its kind. -/
theorem length_lt_takeWhile_append {p : Char → Bool} {xs ys : List Char}
    (hAll : ∀ c ∈ xs, p c = true) (hGo : ys.head?.any p = true) :
    xs.length < ((xs ++ ys).takeWhile p).length := by
  rw [List.takeWhile_append_of_pos hAll]
  cases ys with
  | nil => simp at hGo
  | cons c cs => simp_all

/-! Strings and lines run up to a character that ends them. -/

theorem bne_of_not_mem {d : Char} {cs : List Char} (h : d ∉ cs) : ∀ c ∈ cs, (c != d) = true := by
  intro c hc
  rw [bne_iff_ne]
  rintro rfl
  exact h hc

theorem not_mem_takeWhile_bne (d : Char) (cs : List Char) : d ∉ cs.takeWhile (· != d) := by
  intro h
  simpa using of_mem_takeWhile h

/-- A run up to a character ends at that character, or with the text. -/
theorem dropWhile_bne (d : Char) (cs : List Char) :
    cs.dropWhile (· != d) = [] ∨ ∃ ds, cs.dropWhile (· != d) = d :: ds := by
  cases hRest : cs.dropWhile (· != d) with
  | nil => exact .inl rfl
  | cons c ds =>
    obtain rfl : c = d := by
      simpa [hRest] using List.head?_dropWhile_not (· != d) cs
    exact .inr ⟨ds, rfl⟩

end LoxLexer.Text
