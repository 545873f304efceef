import Mathlib.Data.List.Basic

/-!
# The lines before the first blank line

A message is read up to its first blank line, where a line ends with two
symbols in a row.  `cutHead` gives the lines before the blank one and whatever
follows it, and `linesOf` the lines that a piece of the message consists of if
none of them is blank.  A message is put together of pieces, and the lemmas say
where its first blank line is: after the last piece, unless one of the pieces
has a blank line of its own.
-/

namespace BlankLine

variable {α : Type*} [DecidableEq α]

/-- The lines before the first blank one, and what follows it. -/
def cutHead (cr lf : α) (line : List α) :
    List α → Option (List (List α) × List α)
  | [] => none
  | symbol :: rest =>
      if symbol = lf ∧ line.getLast? = some cr then
        if line.dropLast = [] then
          some ([], rest)
        else
          (cutHead cr lf [] rest).map fun cut =>
            (line.dropLast :: cut.1, cut.2)
      else
        cutHead cr lf (line ++ [symbol]) rest

/-- The lines of a piece, unless one of them is blank. -/
def linesOf (cr lf : α) (line : List α) : List α → Option (List (List α))
  | [] => if line = [] then none else some [line]
  | symbol :: rest =>
      if symbol = lf ∧ line.getLast? = some cr then
        if line.dropLast = [] then
          none
        else
          (linesOf cr lf [] rest).map (line.dropLast :: ·)
      else
        linesOf cr lf (line ++ [symbol]) rest

variable {cr lf : α}

/-- Reading the end of a line. -/
theorem cutHead_lineEnd (different : cr ≠ lf) (line rest : List α) :
    cutHead cr lf line (cr :: lf :: rest) =
      if line = [] then
        some ([], rest)
      else
        (cutHead cr lf [] rest).map fun cut => (line :: cut.1, cut.2) := by
  rw [cutHead, if_neg fun both => different both.1, cutHead,
    if_pos ⟨rfl, List.getLast?_concat⟩, List.dropLast_concat]

/-- A piece without a blank line adds its lines. -/
theorem cutHead_append_of_lines (different : cr ≠ lf) {piece : List α}
    {lines : List (List α)} {line : List α}
    (split : linesOf cr lf line piece = some lines) (rest : List α) :
    cutHead cr lf line (piece ++ cr :: lf :: rest) =
      (cutHead cr lf [] rest).map fun cut => (lines ++ cut.1, cut.2) := by
  induction piece generalizing line lines with
  | nil =>
      rw [linesOf] at split
      split_ifs at split with empty
      cases split
      rw [List.nil_append, cutHead_lineEnd different, if_neg empty]
      rfl
  | cons symbol piece ih =>
      rw [linesOf] at split
      rw [List.cons_append, cutHead]
      split_ifs at split ⊢ with ends blank
      · rcases Option.map_eq_some_iff.1 split with ⟨others, later, rfl⟩
        rw [ih later, Option.map_map]
        rfl
      · exact ih split

/-- A piece with a blank line ends the head. -/
theorem cutHead_append_of_blank (different : cr ≠ lf) {piece line : List α}
    (blank : linesOf cr lf line piece = none) (rest : List α) :
    ∃ lines tail, cutHead cr lf line (piece ++ cr :: lf :: rest) =
      some (lines, tail ++ rest) := by
  induction piece generalizing line with
  | nil =>
      rw [linesOf] at blank
      split_ifs at blank with empty
      refine ⟨[], [], ?_⟩
      rw [List.nil_append, cutHead_lineEnd different, if_pos empty,
        List.nil_append]
  | cons symbol piece ih =>
      rw [linesOf] at blank
      rw [List.cons_append, cutHead]
      split_ifs at blank ⊢ with ends empty
      · exact ⟨[], piece ++ [cr, lf], by simp⟩
      · rw [Option.map_eq_none_iff] at blank
        rcases ih blank with ⟨lines, tail, cut⟩
        exact ⟨line.dropLast :: lines, tail, by rw [cut]; rfl⟩
      · exact ih blank

/-- A piece without an end of line is one line. -/
theorem linesOf_of_not_mem {piece line : List α} (free : cr ∉ piece)
    (freeLine : cr ∉ line) (nonempty : line ++ piece ≠ []) :
    linesOf cr lf line piece = some [line ++ piece] := by
  induction piece generalizing line with
  | nil =>
      rw [List.append_nil] at nonempty ⊢
      rw [linesOf, if_neg nonempty]
  | cons symbol piece ih =>
      rw [List.mem_cons, not_or] at free
      have goesOn : ¬ (symbol = lf ∧ line.getLast? = some cr) := fun ends =>
        freeLine (List.mem_of_getLast? ends.2)
      have freeNext : cr ∉ line ++ [symbol] := by
        simp [freeLine, free.1]
      rw [linesOf, if_neg goesOn, ih free.2 freeNext (by simp)]
      simp

/-- The first blank line is after the last of some pieces. -/
theorem cutHead_pieces (different : cr ≠ lf) {pieces : List (List α)}
    (whole : ∀ piece ∈ pieces, (linesOf cr lf [] piece).isSome)
    (rest : List α) :
    cutHead cr lf []
        ((pieces.flatMap fun piece => piece ++ [cr, lf]) ++ cr :: lf :: rest) =
      some (pieces.flatMap fun piece => (linesOf cr lf [] piece).getD [],
        rest) := by
  induction pieces with
  | nil => exact cutHead_lineEnd different [] rest
  | cons piece pieces ih =>
      rcases Option.isSome_iff_exists.1 (whole piece List.mem_cons_self) with
        ⟨lines, split⟩
      have later := ih fun other member =>
        whole other (List.mem_cons_of_mem _ member)
      simp only [List.flatMap_cons, List.append_assoc, List.cons_append,
        List.nil_append] at later ⊢
      rw [cutHead_append_of_lines different split, later, split]
      rfl

/-- It is earlier if one of the pieces has a blank line. -/
theorem cutHead_pieces_of_blank (different : cr ≠ lf)
    {pieces : List (List α)}
    (blank : ∃ piece ∈ pieces, linesOf cr lf [] piece = none)
    (rest : List α) :
    ∃ lines tail,
      cutHead cr lf []
          ((pieces.flatMap fun piece => piece ++ [cr, lf]) ++
            cr :: lf :: rest) = some (lines, tail ++ cr :: lf :: rest) := by
  induction pieces with
  | nil => simp at blank
  | cons piece pieces ih =>
      simp only [List.flatMap_cons, List.append_assoc, List.cons_append,
        List.nil_append] at ih ⊢
      cases split : linesOf cr lf [] piece with
      | none =>
          rcases cutHead_append_of_blank different split
            ((pieces.flatMap fun piece => piece ++ [cr, lf]) ++
              cr :: lf :: rest) with ⟨lines, tail, cut⟩
          exact ⟨lines, tail ++ pieces.flatMap fun piece => piece ++ [cr, lf],
            by rw [cut, List.append_assoc]⟩
      | some lines =>
          have later : ∃ other ∈ pieces, linesOf cr lf [] other = none := by
            rcases blank with ⟨other, member, none⟩
            rcases List.mem_cons.1 member with rfl | member
            · rw [split] at none
              cases none
            · exact ⟨other, member, none⟩
          rcases ih later with ⟨others, tail, cut⟩
          refine ⟨lines ++ others, tail, ?_⟩
          rw [cutHead_append_of_lines different split, cut]
          rfl

/-- Nothing follows the first blank line exactly if it is the one after whole
pieces, and nothing comes after that. -/
theorem cutHead_pieces_nil_iff (different : cr ≠ lf)
    {pieces lines : List (List α)} {rest : List α} :
    cutHead cr lf []
        ((pieces.flatMap fun piece => piece ++ [cr, lf]) ++ cr :: lf :: rest) =
        some (lines, []) ↔
      (∀ piece ∈ pieces, (linesOf cr lf [] piece).isSome) ∧ rest = [] ∧
        lines = pieces.flatMap fun piece =>
          (linesOf cr lf [] piece).getD [] := by
  constructor
  · intro cut
    have whole : ∀ piece ∈ pieces, (linesOf cr lf [] piece).isSome := by
      by_contra notWhole
      rcases not_forall₂.1 notWhole with ⟨piece, member, blank⟩
      rw [Option.not_isSome_iff_eq_none] at blank
      rcases cutHead_pieces_of_blank different ⟨piece, member, blank⟩ rest
        with ⟨others, tail, earlier⟩
      rw [earlier] at cut
      simp at cut
    rw [cutHead_pieces different whole, Option.some.injEq, Prod.mk.injEq]
      at cut
    exact ⟨whole, cut.2, cut.1.symm⟩
  · rintro ⟨whole, rfl, rfl⟩
    exact cutHead_pieces different whole []

end BlankLine
