import LoxLexer.Source.File

/-!
# The line table

The line table of a text lists byte ranges. Here a line is characters: what stands between two line
feeds, or between one and the end of the text. Such a line has the number that its line feeds give
it, one more than there are in front of it, and what the table holds at that number is its range.

## Main results

* `Text.LineAt.getElem?_lineRanges`: the range of a line in the table.
* `Text.exists_lineAt_of_getElem?`: every range of the table is that of a line.
* `Text.map_slice_lineRanges`: the table lists the pieces between line feeds.
* `SourceFile.line?_of_lineAt`: the line that a file gives out.
* `SourceFile.line?_of_append`: the line in which a place of the text lies.
* `SourceFile.lines_partition`: the lines of a file and the line feeds between them are its text.
-/

namespace LoxLexer

open Text

namespace Text

/-- In the text `cs`, `inside` is a line: `front` ends with a line feed if anything stands in it,
`back` begins with one, and there is none between them. -/
structure LineAt (cs front inside back : List Char) : Prop where
  split : cs = front ++ (inside ++ back)
  front_ends : front = [] ∨ ∃ ds, front = ds ++ ['\n']
  noLineFeed : '\n' ∉ inside
  back_begins : back = [] ∨ ∃ ds, back = '\n' :: ds

/-- A text ends in a line, which is the whole text or stands behind a line feed. -/
theorem exists_lastLine (cs : List Char) :
    ∃ front last, cs = front ++ last ∧ (front = [] ∨ ∃ ds, front = ds ++ ['\n']) ∧ '\n' ∉ last := by
  induction cs with
  | nil => exact ⟨[], [], rfl, .inl rfl, by simp⟩
  | cons c cs ih =>
    obtain ⟨front, last, rfl, rfl | ⟨ds, rfl⟩, hLast⟩ := ih
    · by_cases hFeed : c = '\n'
      · subst hFeed
        exact ⟨['\n'], last, rfl, .inr ⟨[], rfl⟩, hLast⟩
      · exact ⟨[], c :: last, rfl, .inl rfl, by simp [hLast, Ne.symm hFeed]⟩
    · exact ⟨c :: (ds ++ ['\n']), last, rfl, .inr ⟨c :: ds, rfl⟩, hLast⟩

/-- The first range of a table ends at the first line feed. -/
theorem head?_lineRangesFrom {inside back : List Char} (hInside : '\n' ∉ inside)
    (hBack : back = [] ∨ ∃ ds, back = '\n' :: ds) (start position : Nat) :
    (lineRangesFrom start position (inside ++ back)).head? =
      some ⟨start, position + byteLength inside⟩ := by
  induction inside generalizing position with
  | nil => obtain rfl | ⟨ds, rfl⟩ := hBack <;> rfl
  | cons c inside ih =>
    have hFeed : c ≠ '\n' := fun hc => hInside (hc ▸ List.mem_cons_self)
    rw [List.cons_append, lineRangesFrom, if_neg hFeed,
      ih (fun hMem => hInside (List.mem_cons_of_mem c hMem)), byteLength_cons, Nat.add_assoc]

/-- Behind the ranges of the lines that a text closes come those of what follows it. -/
theorem drop_lineRangesFrom (start position : Nat) (cs ds : List Char) :
    (lineRangesFrom start position (cs ++ '\n' :: ds)).drop (lineFeeds cs + 1) =
      lineRangesFrom (position + byteLength cs + 1) (position + byteLength cs + 1) ds := by
  induction cs generalizing start position with
  | nil => simp [lineRangesFrom]
  | cons c cs ih =>
    rw [List.cons_append, lineRangesFrom, lineFeeds_cons, byteLength_cons, ← Nat.add_assoc]
    split
    · rename_i hFeed
      subst hFeed
      exact ih (position + 1) (position + 1)
    · exact ih start (position + c.utf8Size)

namespace LineAt

variable {cs front inside back : List Char}

/-- The line stands in the table at the number of line feeds in front of it. -/
theorem getElem?_lineRanges (h : LineAt cs front inside back) :
    (lineRanges cs)[lineFeeds front]? =
      some ⟨byteLength front, byteLength front + byteLength inside⟩ := by
  obtain ⟨rfl, hFront, hInside, hBack⟩ := h
  obtain rfl | ⟨ds, rfl⟩ := hFront
  · rw [lineFeeds_nil, ← List.head?_eq_getElem?]
    exact head?_lineRangesFrom hInside hBack 0 0
  · have hFeed : lineFeeds ['\n'] = 1 := rfl
    have hSize : byteLength ['\n'] = 1 := rfl
    rw [lineFeeds_append, hFeed, byteLength_append, hSize, ← List.head?_drop, List.append_assoc,
      List.singleton_append, lineRanges, drop_lineRangesFrom, head?_lineRangesFrom hInside hBack,
      Nat.zero_add]

/-- Every place of a text lies in a line. -/
theorem exists_of_append (before after : List Char) :
    ∃ front last, before = front ++ last ∧ '\n' ∉ last ∧
      LineAt (before ++ after) front (last ++ after.takeWhile (· != '\n'))
        (after.dropWhile (· != '\n')) := by
  have hAfter := List.takeWhile_append_dropWhile (p := (· != '\n')) (l := after)
  obtain ⟨front, last, rfl, hFront, hLast⟩ := exists_lastLine before
  refine ⟨front, last, rfl, hLast, ?_, hFront, ?_, dropWhile_bne '\n' after⟩
  · rw [List.append_assoc, List.append_assoc, hAfter]
  · rw [List.mem_append, not_or]
    exact ⟨hLast, not_mem_takeWhile_bne '\n' after⟩

/-- Behind a line feed the next line begins. -/
theorem next {ds : List Char} (h : LineAt cs front inside ('\n' :: ds)) :
    LineAt cs (front ++ inside ++ ['\n']) (ds.takeWhile (· != '\n'))
      (ds.dropWhile (· != '\n')) := by
  refine ⟨?_, .inr ⟨_, rfl⟩, not_mem_takeWhile_bne '\n' ds, dropWhile_bne '\n' ds⟩
  rw [List.takeWhile_append_dropWhile, h.split]
  simp

end LineAt

/-- In front of a line stand as many line feeds as one likes, up to those that the text has. -/
theorem exists_append_of_le_lineFeeds {cs : List Char} {n : Nat} (h : n ≤ lineFeeds cs) :
    ∃ before after, cs = before ++ after ∧ lineFeeds before = n := by
  induction cs generalizing n with
  | nil =>
    obtain rfl : n = 0 := Nat.le_zero.1 h
    exact ⟨[], [], rfl, rfl⟩
  | cons c cs ih =>
    cases n with
    | zero => exact ⟨[], c :: cs, rfl, rfl⟩
    | succ n =>
      rw [lineFeeds_cons] at h
      by_cases hFeed : c = '\n'
      · rw [if_pos hFeed] at h
        obtain ⟨before, after, hText, hFeeds⟩ := ih (Nat.le_of_succ_le_succ h)
        refine ⟨c :: before, after, by rw [hText, List.cons_append], ?_⟩
        rw [lineFeeds_cons, if_pos hFeed, hFeeds]
      · rw [if_neg hFeed, Nat.add_zero] at h
        obtain ⟨before, after, hText, hFeeds⟩ := ih h
        refine ⟨c :: before, after, by rw [hText, List.cons_append], ?_⟩
        rw [lineFeeds_cons, if_neg hFeed, hFeeds, Nat.add_zero]

/-- Every range of the table is that of the line with its number. -/
theorem exists_lineAt_of_getElem? {cs : List Char} {n : Nat} {range : ByteRange}
    (h : (lineRanges cs)[n]? = some range) :
    ∃ front inside back, LineAt cs front inside back ∧ lineFeeds front = n ∧
      range = ⟨byteLength front, byteLength front + byteLength inside⟩ := by
  obtain ⟨hLength, -⟩ := List.getElem?_eq_some_iff.1 h
  rw [length_lineRanges] at hLength
  obtain ⟨before, after, rfl, hFeeds⟩ := exists_append_of_le_lineFeeds (Nat.le_of_lt_succ hLength)
  obtain ⟨front, last, rfl, hLast, hLine⟩ := LineAt.exists_of_append before after
  rw [lineFeeds_append, lineFeeds_eq_zero hLast, Nat.add_zero] at hFeeds
  refine ⟨front, _, _, hLine, hFeeds, ?_⟩
  have hRange := hLine.getElem?_lineRanges
  rw [hFeeds, h] at hRange
  exact Option.some.inj hRange

/-- Between two ranges of the table lies one line feed. -/
theorem getElem?_succ_lineRanges {cs : List Char} {n : Nat} {range after : ByteRange}
    (h : (lineRanges cs)[n]? = some range) (hNext : (lineRanges cs)[n + 1]? = some after) :
    after.start = range.stop + 1 ∧ ByteRange.slice ⟨range.stop, after.start⟩ cs = ['\n'] := by
  obtain ⟨front, inside, back, hLine, hFeeds, rfl⟩ := exists_lineAt_of_getElem? h
  have hFeed : byteLength ['\n'] = 1 := rfl
  rcases hLine.back_begins with rfl | ⟨ds, rfl⟩
  · -- The last line has no other behind it.
    have hAll : lineFeeds cs = n := by
      rw [hLine.split, List.append_nil, lineFeeds_append, lineFeeds_eq_zero hLine.noLineFeed,
        hFeeds, Nat.add_zero]
    obtain ⟨hLength, -⟩ := List.getElem?_eq_some_iff.1 hNext
    rw [length_lineRanges, hAll] at hLength
    exact absurd hLength (Nat.lt_irrefl _)
  · have hBehind := hLine.next.getElem?_lineRanges
    have hCount : lineFeeds (front ++ inside ++ ['\n']) = n + 1 := by
      rw [lineFeeds_append, lineFeeds_append, lineFeeds_eq_zero hLine.noLineFeed, hFeeds]
      rfl
    rw [hCount, hNext] at hBehind
    obtain rfl := Option.some.inj hBehind
    have hStart : byteLength (front ++ inside ++ ['\n']) =
        byteLength (front ++ inside) + byteLength ['\n'] := byteLength_append _ _
    have hSplit : cs = (front ++ inside) ++ (['\n'] ++ ds) := by
      rw [hLine.split, List.append_assoc, List.singleton_append]
    constructor
    · show byteLength (front ++ inside ++ ['\n']) = byteLength front + byteLength inside + 1
      rw [hStart, byteLength_append, hFeed]
    · show ByteRange.slice ⟨byteLength front + byteLength inside,
        byteLength (front ++ inside ++ ['\n'])⟩ cs = ['\n']
      rw [hStart, ← byteLength_append, hSplit]
      exact slice_append (front ++ inside) ['\n'] ds

theorem start_le_of_mem_lineRangesFrom {start position : Nat} (h : start ≤ position)
    (cs : List Char) : ∀ range ∈ lineRangesFrom start position cs, start ≤ range.start := by
  induction cs generalizing start position with
  | nil =>
    intro range hMem
    obtain rfl := List.mem_singleton.1 hMem
    exact Nat.le_refl start
  | cons c cs ih =>
    intro range hMem
    rw [lineRangesFrom] at hMem
    by_cases hFeed : c = '\n'
    · rw [if_pos hFeed] at hMem
      rcases List.mem_cons.1 hMem with rfl | hRest
      · exact Nat.le_refl start
      · have hStart := ih (Nat.le_refl (position + 1)) range hRest
        omega
    · rw [if_neg hFeed] at hMem
      exact ih (Nat.le_trans h (Nat.le_add_right ..)) range hMem

/-- The ranges of the table are in the order of the text. -/
theorem pairwise_lineRangesFrom {start position : Nat} (h : start ≤ position) (cs : List Char) :
    (lineRangesFrom start position cs).Pairwise fun range other => range.stop < other.start := by
  induction cs generalizing start position with
  | nil => exact List.pairwise_singleton _ _
  | cons c cs ih =>
    rw [lineRangesFrom]
    by_cases hFeed : c = '\n'
    · rw [if_pos hFeed]
      refine List.pairwise_cons.2 ⟨?_, ih (Nat.le_refl (position + 1))⟩
      intro other hMem
      exact start_le_of_mem_lineRangesFrom (Nat.le_refl (position + 1)) cs other hMem
    · rw [if_neg hFeed]
      exact ih (Nat.le_trans h (Nat.le_add_right ..))

/-- In front of what a table lists stands `front`, and `inside` of the line that is being read. What
the table lists are the pieces between line feeds. -/
theorem map_slice_lineRangesFrom (front cs : List Char) {inside : List Char}
    (h : '\n' ∉ inside) :
    (lineRangesFrom (byteLength front) (byteLength front + byteLength inside) cs).map
        (fun range => range.slice (front ++ (inside ++ cs))) =
      (inside ++ cs).splitOn '\n' := by
  induction cs generalizing front inside with
  | nil =>
    rw [lineRangesFrom, List.map_singleton, slice_append, List.append_nil,
      List.splitOn_eq_singleton h]
  | cons c cs ih =>
    rw [lineRangesFrom]
    by_cases hFeed : c = '\n'
    · subst hFeed
      have hBehind := ih (front ++ (inside ++ ['\n'])) List.not_mem_nil
      have hSize : byteLength (front ++ (inside ++ ['\n'])) =
          byteLength front + byteLength inside + 1 := by
        rw [byteLength_append, byteLength_append, ← Nat.add_assoc]
        rfl
      rw [byteLength_nil, Nat.add_zero, hSize] at hBehind
      rw [if_pos rfl, List.map_cons, slice_append, List.splitOn_append_cons_self_of_not_mem h]
      simpa using hBehind
    · have hInside : '\n' ∉ inside ++ [c] := by
        simp [h, Ne.symm hFeed]
      have hBehind := ih front hInside
      rw [byteLength_append, byteLength_cons, byteLength_nil, Nat.add_zero, ← Nat.add_assoc]
        at hBehind
      rw [if_neg hFeed]
      simpa using hBehind

/-- The table lists the pieces between line feeds. -/
theorem map_slice_lineRanges (cs : List Char) :
    ((lineRanges cs).map fun range => range.slice cs) = cs.splitOn '\n' :=
  map_slice_lineRangesFrom [] cs List.not_mem_nil

/-! ## Carriage returns -/

theorem dropCarriageReturn_of_getLast? {cs : List Char} (h : cs.getLast? ≠ some '\r') :
    dropCarriageReturn cs = cs := by
  rw [dropCarriageReturn, if_neg h]

/-- What is dropped is one carriage return at the end, if there is one. -/
theorem dropCarriageReturn_cases (cs : List Char) :
    cs = dropCarriageReturn cs ++ ['\r'] ∨
      cs.getLast? ≠ some '\r' ∧ dropCarriageReturn cs = cs := by
  by_cases h : cs.getLast? = some '\r'
  · obtain ⟨ds, rfl⟩ := List.getLast?_eq_some_iff.1 h
    left
    rw [dropCarriageReturn, if_pos h, List.dropLast_concat]
  · exact .inr ⟨h, dropCarriageReturn_of_getLast? h⟩

theorem not_mem_dropCarriageReturn {c : Char} {cs : List Char} (h : c ∉ cs) :
    c ∉ dropCarriageReturn cs := by
  unfold dropCarriageReturn
  split
  · exact fun hMem => h (List.dropLast_subset cs hMem)
  · exact h

/-- Only the end of a line can be dropped. -/
theorem dropCarriageReturn_append {ys : List Char} (h : ys ≠ []) (xs : List Char) :
    dropCarriageReturn (xs ++ ys) = xs ++ dropCarriageReturn ys := by
  unfold dropCarriageReturn
  rw [List.getLast?_append, List.getLast?_eq_some_getLast h, Option.some_or]
  split
  · exact List.dropLast_append_of_ne_nil h
  · rfl

end Text

namespace SourceFile

variable {file : SourceFile}

/-- The lines of a file are the pieces between line feeds, without the carriage return that may end
them. -/
theorem line?_succ (file : SourceFile) (n : Nat) :
    file.line? (n + 1) =
      ((file.content.toList.splitOn '\n').map dropCarriageReturn)[n]?.map String.ofList := by
  rw [← map_slice_lineRanges, List.map_map, List.getElem?_map, Option.map_map]
  rfl

/-- A file gives out its lines without the carriage return that may end them. -/
theorem line?_of_lineAt {front inside back : List Char}
    (h : LineAt file.content.toList front inside back) :
    file.line? (1 + lineFeeds front) = some (String.ofList (dropCarriageReturn inside)) := by
  rw [Nat.add_comm, line?, lineTable, h.getElem?_lineRanges, Option.map_some, h.split, slice_append]

/-- The line in which a place of the text lies: what is left of it in front of the place, and what
follows up to the next line feed. -/
theorem line?_of_append {before after : List Char} (h : file.content.toList = before ++ after) :
    ∃ last, file.line? (1 + lineFeeds before) =
      some (String.ofList (dropCarriageReturn (last ++ after.takeWhile (· != '\n')))) := by
  obtain ⟨front, last, rfl, hLast, hLine⟩ := LineAt.exists_of_append before after
  have hFeeds : lineFeeds (front ++ last) = lineFeeds front := by
    rw [lineFeeds_append, lineFeeds_eq_zero hLast, Nat.add_zero]
  rw [← h] at hLine
  exact ⟨last, by rw [hFeeds, line?_of_lineAt hLine]⟩

theorem isSome_line? {n : Nat} (hPos : 0 < n) (hLe : n ≤ file.lineCount) :
    ∃ line, file.line? n = some line := by
  rw [← Option.isSome_iff_exists, Option.isSome_iff_ne_none, Ne, line?_eq_none_iff]
  omega

theorem isWithin_of_mem_lineTable {range : ByteRange} (h : range ∈ file.lineTable) :
    range.IsWithin file.content ∧ '\n' ∉ range.slice file.content.toList := by
  obtain ⟨n, hGet⟩ := List.mem_iff_getElem?.1 h
  obtain ⟨front, inside, back, hLine, -, rfl⟩ := exists_lineAt_of_getElem? hGet
  refine ⟨isWithin_of_append hLine.split, ?_⟩
  rw [hLine.split, slice_append]
  exact hLine.noLineFeed

theorem not_mem_of_line? {n : Nat} {line : String} (h : file.line? n = some line) :
    '\n' ∉ line.toList := by
  cases n with
  | zero => cases h
  | succ n =>
    obtain ⟨range, hRange, rfl⟩ := Option.map_eq_some_iff.1 h
    rw [String.toList_ofList]
    exact not_mem_dropCarriageReturn
      (isWithin_of_mem_lineTable (List.mem_of_getElem? hRange)).2

/-- The lines of a file and the line feeds between them make up its text. There is one line more
than there are line feeds. The ranges of the line table lie in the text, one behind the other; none
cuts a character or holds a line feed, and from the end of one to the start of the next there is one
line feed and nothing else. The numbers of the lines are those from 1 to the line count, and a line
is given out as its range has it, but for one carriage return at the end, the last line included. -/
theorem lines_partition (file : SourceFile) :
    file.lineCount = 1 + lineFeeds file.content.toList ∧
      file.lineTable.length = file.lineCount ∧
      (∀ range ∈ file.lineTable,
        range.IsWithin file.content ∧ '\n' ∉ range.slice file.content.toList) ∧
      (file.lineTable.Pairwise fun range other => range.stop < other.start) ∧
      (∀ n range after, file.lineTable[n]? = some range → file.lineTable[n + 1]? = some after →
        after.start = range.stop + 1 ∧
          ByteRange.slice ⟨range.stop, after.start⟩ file.content.toList = ['\n']) ∧
      ['\n'].intercalate (file.lineTable.map fun range => range.slice file.content.toList) =
        file.content.toList ∧
      (∀ n, (∃ line, file.line? n = some line) ↔ 1 ≤ n ∧ n ≤ file.lineCount) ∧
      ∀ n range, file.lineTable[n]? = some range → ∃ line, file.line? (n + 1) = some line ∧
        (range.slice file.content.toList = line.toList ++ ['\r'] ∨
          range.slice file.content.toList = line.toList ∧ line.toList.getLast? ≠ some '\r') := by
  refine ⟨by rw [lineCount_eq, Nat.add_comm], rfl, fun range => isWithin_of_mem_lineTable,
    pairwise_lineRangesFrom (Nat.le_refl 0) _, fun n range after => getElem?_succ_lineRanges,
    ?_, ?_, ?_⟩
  · rw [lineTable, map_slice_lineRanges]
    exact List.intercalate_splitOn '\n'
  · intro n
    constructor
    · rintro ⟨line, hLine⟩
      have hSome : file.line? n ≠ none := by simp [hLine]
      rw [Ne, line?_eq_none_iff] at hSome
      omega
    · rintro ⟨hPos, hLe⟩
      exact isSome_line? hPos hLe
  · intro n range hRange
    have hLine : file.line? (n + 1) =
        some (String.ofList (dropCarriageReturn (range.slice file.content.toList))) := by
      rw [line?, hRange, Option.map_some]
    refine ⟨_, hLine, ?_⟩
    rw [String.toList_ofList]
    rcases dropCarriageReturn_cases (range.slice file.content.toList) with hReturn | ⟨hNone, hSame⟩
    · exact .inl hReturn
    · rw [hSame]
      exact .inr ⟨rfl, hNone⟩

end SourceFile

end LoxLexer
