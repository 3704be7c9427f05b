/-!
# Byte offsets in a text

A text is a list of characters, and its length in bytes is that of its UTF-8 encoding. The cuts
below take offsets in bytes. At an offset that is the byte length of some leading part of the
text, which is what a character boundary is, the cut is exact: `takeBytes_append` and
`dropBytes_append`.

## Main definitions

* `ByteRange`: a stretch of a text in bytes.
* `ByteRange.IsWithin`: the stretch lies in the text and cuts no character.

## Main results

* `byteLength_append`: byte lengths add up.
* `slice_append`: the bytes between two boundaries are the characters between them.
* `isWithin_of_append`: the bytes that some characters of a text take up lie in the text.
-/

namespace LoxLexer.Text

/-- The number of bytes of the UTF-8 encoding of a text. -/
def byteLength : List Char → Nat
  | [] => 0
  | c :: cs => c.utf8Size + byteLength cs

@[simp] theorem byteLength_nil : byteLength [] = 0 := rfl

@[simp] theorem byteLength_cons (c : Char) (cs : List Char) :
    byteLength (c :: cs) = c.utf8Size + byteLength cs := rfl

@[simp] theorem byteLength_append (xs ys : List Char) :
    byteLength (xs ++ ys) = byteLength xs + byteLength ys := by
  induction xs with
  | nil => simp
  | cons c xs ih => simp [ih, Nat.add_assoc]

theorem utf8ByteSize_ofList (cs : List Char) :
    (String.ofList cs).utf8ByteSize = byteLength cs := by
  induction cs with
  | nil => rfl
  | cons c cs ih =>
    rw [← List.singleton_append, String.ofList_append, String.utf8ByteSize_append, ih]
    simp

theorem utf8ByteSize_eq (s : String) : s.utf8ByteSize = byteLength s.toList := by
  rw [← utf8ByteSize_ofList, String.ofList_toList]

/-- The characters that begin before the first `n` bytes of a text are over. -/
def takeBytes (n : Nat) : List Char → List Char
  | [] => []
  | c :: cs => if n = 0 then [] else c :: takeBytes (n - c.utf8Size) cs

/-- The characters of a text that begin after its first `n` bytes. -/
def dropBytes (n : Nat) : List Char → List Char
  | [] => []
  | c :: cs => if n = 0 then c :: cs else dropBytes (n - c.utf8Size) cs

@[simp] theorem takeBytes_zero (cs : List Char) : takeBytes 0 cs = [] := by
  cases cs <;> simp [takeBytes]

@[simp] theorem dropBytes_zero (cs : List Char) : dropBytes 0 cs = cs := by
  cases cs <;> simp [dropBytes]

theorem takeBytes_append (xs ys : List Char) : takeBytes (byteLength xs) (xs ++ ys) = xs := by
  induction xs with
  | nil => simp
  | cons c xs ih =>
    have := c.utf8Size_pos
    simp [takeBytes, ih, show c.utf8Size ≠ 0 by omega]

theorem dropBytes_append (xs ys : List Char) : dropBytes (byteLength xs) (xs ++ ys) = ys := by
  induction xs with
  | nil => simp
  | cons c xs ih =>
    have := c.utf8Size_pos
    simp [dropBytes, ih, show c.utf8Size ≠ 0 by omega]

/-- A stretch of a text, from its first byte to the one after its last. -/
structure ByteRange where
  start : Nat
  stop : Nat
deriving DecidableEq, Repr

/-- The characters of a text within a range of its bytes. -/
def ByteRange.slice (range : ByteRange) (cs : List Char) : List Char :=
  takeBytes (range.stop - range.start) (dropBytes range.start cs)

theorem slice_append (before inside after : List Char) :
    ByteRange.slice ⟨byteLength before, byteLength before + byteLength inside⟩
      (before ++ (inside ++ after)) = inside := by
  simp [ByteRange.slice, dropBytes_append, takeBytes_append]

/-- The range lies in a text, and neither of its ends lies inside a character. -/
structure ByteRange.IsWithin (range : ByteRange) (s : String) : Prop where
  start_le_stop : range.start ≤ range.stop
  stop_le : range.stop ≤ s.utf8ByteSize
  start_isValid : String.Pos.Raw.IsValid s ⟨range.start⟩
  stop_isValid : String.Pos.Raw.IsValid s ⟨range.stop⟩

/-- Behind the bytes of some leading characters a text may be cut. -/
theorem isValid_byteLength {s : String} {before after : List Char}
    (h : s.toList = before ++ after) : String.Pos.Raw.IsValid s ⟨byteLength before⟩ := by
  rw [String.Pos.Raw.isValid_iff_exists_append]
  refine ⟨String.ofList before, String.ofList after, ?_, ?_⟩
  · rw [← String.ofList_append, ← h, String.ofList_toList]
  · exact congrArg String.Pos.Raw.mk (utf8ByteSize_ofList before).symm

theorem isWithin_of_append {s : String} {before inside after : List Char}
    (h : s.toList = before ++ (inside ++ after)) :
    ByteRange.IsWithin ⟨byteLength before, byteLength before + byteLength inside⟩ s := by
  have hStop : s.toList = (before ++ inside) ++ after := by rw [h, List.append_assoc]
  refine ⟨Nat.le_add_right _ _, ?_, isValid_byteLength h, ?_⟩
  · rw [utf8ByteSize_eq, h, byteLength_append, byteLength_append]
    show byteLength before + byteLength inside ≤ _
    omega
  · show String.Pos.Raw.IsValid s ⟨byteLength before + byteLength inside⟩
    rw [← byteLength_append]
    exact isValid_byteLength hStop

end LoxLexer.Text
