/-
# StorageFlow.Proofs.Text.Offsets — offsets and positions correspond one to one.

A text has the positions that lie on one of its lines, or just behind the end of one.  Each of them has an offset: the
lengths of the earlier lines, one more for the line feed behind each of them, and what stands before the column.  A
later position has a greater offset (`HasPosition.offsetOf_lt_offsetOf`), so no two have the same.  The position of an
offset is read off the part of the text before it, and this part has the same lines as the text, except that its last
one may be cut short (`split_append`).  So the position of an offset is one that the text has, and leads back to the
offset.
-/
import Mathlib.Algebra.GroupWithZero.Nat
import Mathlib.Data.List.Basic
import StorageFlow.Proofs.Diagnostic.Rendering

namespace StorageFlow

theorem Number.truncate_ofInt (i : Int) : (ofInt i).truncate = i := Int.mul_tdiv_cancel i unit_ne_zero

namespace Text

/-! ## Pieces -/

section Split

universe u

variable {α : Type u} [DecidableEq α] {sep : α} {xs ys last first : List α} {pieces rest : List (List α)}

/-- The pieces are those of the library's `List.splitOn`. -/
theorem split_eq_splitOn (sep : α) (xs : List α) : split sep xs = xs.splitOn sep := by
  rw [List.splitOn_eq_splitOnP]
  induction xs with
  | nil => rfl
  | cons x xs ih =>
      obtain ⟨first, rest, hsplit⟩ := List.exists_cons_of_ne_nil (split_ne_nil sep xs)
      rw [split, List.splitOnP_cons_eq_if_modifyHead, ← ih, hsplit]
      simp only [beq_iff_eq]
      rfl

theorem exists_split_eq_snoc (sep : α) (xs : List α) : ∃ pieces last, split sep xs = pieces ++ [last] :=
  ⟨_, _, (List.dropLast_concat_getLast (split_ne_nil sep xs)).symm⟩

/-- Two sequences in a row have the pieces of both, where the last one of the first sequence and the first one of the
second sequence become one. -/
theorem split_append (hxs : split sep xs = pieces ++ [last]) (hys : split sep ys = first :: rest) :
    split sep (xs ++ ys) = pieces ++ (last ++ first) :: rest := by
  have snoc_inj (before : List (List α)) {after : List (List α)} {p q : List α} (h : before ++ [p] = after ++ [q]) :
      before = after ∧ p = q := by simpa using h
  induction xs generalizing pieces last with
  | nil =>
      obtain ⟨rfl, rfl⟩ := snoc_inj [] hxs
      exact hys
  | cons x xs ih =>
      obtain ⟨others, end_, hsplit⟩ := exists_split_eq_snoc sep xs
      rw [split, hsplit] at hxs
      rw [List.cons_append, split, ih hsplit]
      by_cases hx : x = sep
      · rw [if_pos hx] at hxs ⊢
        obtain ⟨rfl, rfl⟩ := snoc_inj ([] :: others) hxs
        rfl
      · rw [if_neg hx] at hxs ⊢
        cases others with
        | nil =>
            obtain ⟨rfl, rfl⟩ := snoc_inj [] hxs
            rfl
        | cons p others =>
            obtain ⟨rfl, rfl⟩ := snoc_inj ((x :: p) :: others) hxs
            rfl

/-- Every piece counts with one element more, because a separator follows all but the last. -/
theorem sum_length_split (sep : α) (xs : List α) :
    ((split sep xs).map fun piece => piece.length + 1).sum = xs.length + 1 := by
  induction xs with
  | nil => rfl
  | cons x xs ih =>
      rw [split]
      split
      · rw [List.map_cons, List.sum_cons, ih, List.length_nil, List.length_cons]
        omega
      · obtain ⟨first, rest, hsplit⟩ := List.exists_cons_of_ne_nil (split_ne_nil sep xs)
        rw [hsplit, List.map_cons, List.sum_cons] at ih
        rw [hsplit, extendFirst, List.map_cons, List.sum_cons, List.length_cons, List.length_cons]
        omega

end Split

/-! ## Positions of a text -/

variable {content : Text} {p q : Position}

/-- The lines of a text are what stands between its line feeds. -/
theorem map_units_lines (content : Text) : content.lines.map units = content.units.splitOn lineFeed := by
  rw [← split_eq_splitOn, lines, splitAt, List.map_map]
  exact List.map_id _

/-- The units in front of a line: the earlier lines, each with the line feed behind it. -/
def lineStart (content : Text) (k : Nat) : Nat := ((content.lines.take k).map fun line => line.length + 1).sum

theorem lineStart_succ {k : Nat} {line : Text} (h : content.lines[k]? = some line) :
    content.lineStart (k + 1) = content.lineStart k + (line.length + 1) := by
  rw [lineStart, List.take_add_one, h, List.map_append, List.sum_append]
  rfl

theorem lineStart_mono {j k : Nat} (h : j ≤ k) : content.lineStart j ≤ content.lineStart k := by
  obtain ⟨d, rfl⟩ := Nat.exists_eq_add_of_le h
  rw [lineStart, lineStart, List.take_add, List.map_append, List.sum_append]
  exact Nat.le_add_right _ _

theorem lineStart_eq (content : Text) (k : Nat) :
    content.lineStart k = (((split lineFeed content.units).take k).map fun piece => piece.length + 1).sum := by
  rw [lineStart, lines, splitAt, List.map_take, List.map_map, ← List.map_take]
  rfl

/-- All lines together are the text, with a line feed behind the last one. -/
theorem lineStart_le (content : Text) (k : Nat) : content.lineStart k ≤ content.length + 1 := by
  calc content.lineStart k ≤ content.lineStart (max k (split lineFeed content.units).length) :=
        lineStart_mono (Nat.le_max_left _ _)
    _ = content.length + 1 := by
        rw [lineStart_eq, List.take_of_length_le (Nat.le_max_right _ _), sum_length_split]
        rfl

/-- A text has a position on each of its lines for each unit, and one behind the last unit. -/
structure HasPosition (content : Text) (p : Position) : Prop where
  line_pos : 1 ≤ p.line
  column_pos : 1 ≤ p.column
  exists_line : ∃ line, content.lines[p.line - 1]? = some line ∧ p.column ≤ line.length + 1

/-- The number of units before a position. -/
def offsetOf (content : Text) (p : Position) : Nat := content.lineStart (p.line - 1) + (p.column - 1)

/-- One position is before another if it is on an earlier line, or in an earlier column of the same line. -/
def Position.Before (p q : Position) : Prop := p.line < q.line ∨ p.line = q.line ∧ p.column < q.column

theorem Position.before_trichotomy (p q : Position) : p.Before q ∨ p = q ∨ q.Before p := by
  obtain ⟨line, column⟩ := p
  obtain ⟨line', column'⟩ := q
  simp only [Before, Position.mk.injEq]
  omega

/-- A position is before the next line. -/
theorem HasPosition.offsetOf_lt_lineStart (h : content.HasPosition p) :
    content.offsetOf p < content.lineStart p.line := by
  obtain ⟨line, hline, hcolumn⟩ := h.exists_line
  have hnext := lineStart_succ hline
  rw [Nat.sub_add_cancel h.line_pos] at hnext
  have hpos := h.column_pos
  rw [offsetOf, hnext]
  omega

theorem HasPosition.offsetOf_le (h : content.HasPosition p) : content.offsetOf p ≤ content.length := by
  have hlt := h.offsetOf_lt_lineStart
  have hle := content.lineStart_le p.line
  omega

/-- **A later position has a greater offset.** -/
theorem HasPosition.offsetOf_lt_offsetOf (hp : content.HasPosition p) (h : p.Before q) :
    content.offsetOf p < content.offsetOf q := by
  rcases h with hline | ⟨hline, hcolumn⟩
  · calc content.offsetOf p < content.lineStart p.line := hp.offsetOf_lt_lineStart
      _ ≤ content.lineStart (q.line - 1) := lineStart_mono (Nat.le_sub_one_of_lt hline)
      _ ≤ content.offsetOf q := Nat.le_add_right _ _
  · have hpos := hp.column_pos
    rw [offsetOf, offsetOf, hline]
    omega

theorem HasPosition.offsetOf_inj (hp : content.HasPosition p) (hq : content.HasPosition q)
    (h : content.offsetOf p = content.offsetOf q) : p = q := by
  rcases p.before_trichotomy q with hbefore | heq | hafter
  · exact absurd h (Nat.ne_of_lt (hp.offsetOf_lt_offsetOf hbefore))
  · exact heq
  · exact absurd h (Nat.ne_of_gt (hq.offsetOf_lt_offsetOf hafter))

/-! ## Positions of offsets -/

theorem positionOf_ofNat (content : Text) (offset : Nat) :
    content.positionOf (Number.ofNat offset) = endPosition (content.units.take offset) := by
  rw [positionOf, Number.ofNat, Number.truncate_ofInt, position, before, if_pos (Int.natCast_nonneg offset),
    Int.toNat_natCast]

theorem endPosition_eq {read last : List UInt16} {pieces : List (List UInt16)}
    (h : split lineFeed read = pieces ++ [last]) : endPosition read = ⟨pieces.length + 1, last.length + 1⟩ := by
  simp only [endPosition, h, List.length_append, List.length_singleton, List.getLast_concat]

/-- **An offset is the offset of its position**, which the text has. -/
theorem hasPosition_positionOf {offset : Nat} (h : offset ≤ content.length) :
    content.HasPosition (content.positionOf (Number.ofNat offset)) ∧
      content.offsetOf (content.positionOf (Number.ofNat offset)) = offset := by
  obtain ⟨pieces, last, hread⟩ := exists_split_eq_snoc lineFeed (content.units.take offset)
  obtain ⟨first, rest, hunread⟩ := List.exists_cons_of_ne_nil (split_ne_nil lineFeed (content.units.drop offset))
  have hsplit := split_append hread hunread
  rw [List.take_append_drop] at hsplit
  rw [positionOf_ofNat, endPosition_eq hread]
  refine ⟨⟨by simp, by simp, ⟨⟨last ++ first⟩, ?_, ?_⟩⟩, ?_⟩
  · rw [lines, splitAt, hsplit]
    simp
  · show last.length + 1 ≤ (last ++ first).length + 1
    rw [List.length_append]
    omega
  · have hsum := sum_length_split lineFeed (content.units.take offset)
    rw [hread, List.map_append, List.sum_append, List.map_singleton, List.sum_singleton,
      List.length_take_of_le h] at hsum
    rw [offsetOf, lineStart_eq, hsplit]
    simp only [Nat.add_sub_cancel, List.take_left]
    omega

theorem positionOf_of_length_le {offset : Nat} (h : content.length ≤ offset) :
    content.positionOf (Number.ofNat offset) = content.positionOf (Number.ofNat content.length) := by
  rw [positionOf_ofNat, positionOf_ofNat, List.take_of_length_le h, length, List.take_length]

theorem before_positionOf {offset other : Nat} (h : offset < other) (hother : other ≤ content.length) :
    (content.positionOf (Number.ofNat offset)).Before (content.positionOf (Number.ofNat other)) := by
  obtain ⟨hp, hoffset⟩ := hasPosition_positionOf (Nat.le_trans (Nat.le_of_lt h) hother)
  obtain ⟨hq, hoffset'⟩ := hasPosition_positionOf hother
  rcases Position.before_trichotomy (content.positionOf (Number.ofNat offset))
    (content.positionOf (Number.ofNat other)) with hbefore | heq | hafter
  · exact hbefore
  · rw [heq] at hoffset
    omega
  · have hlt := hq.offsetOf_lt_offsetOf hafter
    omega

/-- A diagnostic quotes a line of the text that it points into. -/
theorem exists_excerpt_eq (content : Text) (offset : Number) :
    ∃ line, content.lines[(content.positionOf offset).line - 1]? = some line ∧
      ∀ (d : Diagnostic) (contents : Contents), d.location.content? contents = some content →
        d.location.start = offset → d.excerpt contents = ["    " ++ line.trimEnd] := by
  obtain ⟨line, -, hline⟩ := content.exists_lineAt? offset
  refine ⟨line, hline, fun d contents hcontent hstart => ?_⟩
  rw [Diagnostic.excerpt, hcontent]
  show ["    " ++ Text.trimEnd ((content.lineAt? d.location.start).getD "")] = _
  rw [hstart, hline]
  rfl

/-- **Offsets and positions correspond one to one.**  The lines of a text are what stands between its line feeds.  For
an offset of a text, its end included, the position is one that the text has, and the offset is the sum of what is
before the line and of what is before the column.  Later offsets have later positions, every position of the text is
that of exactly one offset, and what is beyond the end is at the end.  Whatever the offset of a diagnostic is, negative
or not, the line it quotes is one of the text. -/
theorem positionOf_bijective (content : Text) :
    content.lines.map units = content.units.splitOn lineFeed ∧
    (∀ offset ≤ content.length,
      content.HasPosition (content.positionOf (Number.ofNat offset)) ∧
      content.offsetOf (content.positionOf (Number.ofNat offset)) = offset) ∧
    (∀ offset other, offset < other → other ≤ content.length →
      (content.positionOf (Number.ofNat offset)).Before (content.positionOf (Number.ofNat other))) ∧
    (∀ p, content.HasPosition p →
      ∃! offset, offset ≤ content.length ∧ content.positionOf (Number.ofNat offset) = p) ∧
    (∀ offset, content.length < offset →
      content.positionOf (Number.ofNat offset) = content.positionOf (Number.ofNat content.length)) ∧
    ∀ offset : Int, ∃ line, content.lines[(content.positionOf (Number.ofInt offset)).line - 1]? = some line ∧
      ∀ (d : Diagnostic) (contents : Contents), d.location.content? contents = some content →
        d.location.start = Number.ofInt offset → d.excerpt contents = ["    " ++ line.trimEnd] := by
  refine ⟨content.map_units_lines, fun offset h => hasPosition_positionOf h,
    fun offset other h hother => before_positionOf h hother, fun p hp => ?_,
    fun offset h => positionOf_of_length_le (Nat.le_of_lt h), fun offset => content.exists_excerpt_eq _⟩
  obtain ⟨hposition, hoffset⟩ := hasPosition_positionOf hp.offsetOf_le
  refine ⟨content.offsetOf p, ⟨hp.offsetOf_le, hposition.offsetOf_inj hp hoffset⟩, ?_⟩
  rintro other ⟨hother, rfl⟩
  exact (hasPosition_positionOf hother).2.symm

/-- A line feed is at the end of its line, and what follows is at the beginning of the next one. -/
example : (Text.ofString "ab\ncd").positionOf (Number.ofNat 2) = ⟨1, 3⟩ ∧
    (Text.ofString "ab\ncd").positionOf (Number.ofNat 3) = ⟨2, 1⟩ := by
  simp only [positionOf_ofNat]
  decide

end Text

end StorageFlow
