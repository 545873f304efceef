import Mathlib.Data.List.Basic

/-!
# Cutting at a delimiter

`dropInfix?` cuts a list at the first occurrence of a delimiter, and `split` at
all of them.  The first symbol of a delimiter does not occur in it again.
Pieces without this symbol are found again when what they were joined to is cut:
one of them in front of whatever follows it, all of them if nothing follows,
and, if none is empty, all of them together in front of the delimiter written
twice.
-/

namespace Delimiter

variable {α : Type*} [DecidableEq α]

/-! ## The first occurrence -/

theorem dropInfix?_eq_some_iff {data delimiter before after : List α} :
    data.dropInfix? delimiter = some (before, after) ↔
      data = before ++ delimiter ++ after ∧
        ∀ other rest, data = other ++ delimiter ++ rest →
          before.length ≤ other.length := by
  rw [List.dropInfix?_eq_some_iff]
  constructor
  · rintro ⟨⟨found, equal, same⟩, least⟩
    rw [beq_iff_eq] at same
    subst same
    exact ⟨equal, fun other rest equal' =>
      least other found rest equal' (beq_self_eq_true found)⟩
  · rintro ⟨equal, least⟩
    refine ⟨⟨delimiter, equal, beq_self_eq_true delimiter⟩, ?_⟩
    intro other found rest equal' same
    rw [beq_iff_eq] at same
    subst same
    exact least other rest equal'

theorem dropInfix?_append_self (delimiter after : List α) :
    (delimiter ++ after).dropInfix? delimiter = some ([], after) :=
  dropInfix?_eq_some_iff.2 ⟨rfl, fun _ _ _ => Nat.zero_le _⟩

/-- What follows the first occurrence does not matter. -/
theorem dropInfix?_extend {data delimiter before after : List α}
    (cut : data.dropInfix? delimiter = some (before, after))
    (more : List α) :
    (data ++ more).dropInfix? delimiter = some (before, after ++ more) := by
  rw [dropInfix?_eq_some_iff] at cut ⊢
  rcases cut with ⟨whole, least⟩
  refine ⟨by rw [whole, List.append_assoc], ?_⟩
  intro other rest equal
  by_contra longer
  have begins : other ++ delimiter <+: data := by
    have first : other ++ delimiter <+: data ++ more := ⟨rest, equal.symm⟩
    apply List.prefix_of_prefix_length_le first (List.prefix_append data more)
    rw [whole]
    simp only [List.length_append]
    omega
  rcases begins with ⟨tail, equal⟩
  exact longer (least other tail equal.symm)

/-- The delimiter occurs later in a list that does not begin with it. -/
theorem dropInfix?_cons {symbol : α} {rest delimiter before after : List α}
    (begins : ¬ delimiter <+: symbol :: rest)
    (cut : rest.dropInfix? delimiter = some (before, after)) :
    (symbol :: rest).dropInfix? delimiter = some (symbol :: before, after) := by
  rw [dropInfix?_eq_some_iff] at cut ⊢
  rcases cut with ⟨rfl, least⟩
  refine ⟨rfl, ?_⟩
  intro other later equal
  cases other with
  | nil => exact absurd ⟨later, equal.symm⟩ begins
  | cons head other =>
      rw [List.cons_append, List.cons_append, List.cons.injEq] at equal
      exact Nat.succ_le_succ (least other later equal.2)

variable {head : α} {tail : List α}

/-- What has no symbol with which the delimiter begins stands before it. -/
theorem dropInfix?_append {piece rest before after : List α}
    (free : head ∉ piece)
    (cut : rest.dropInfix? (head :: tail) = some (before, after)) :
    (piece ++ rest).dropInfix? (head :: tail) =
      some (piece ++ before, after) := by
  induction piece with
  | nil => exact cut
  | cons symbol piece ih =>
      rw [List.mem_cons, not_or] at free
      apply dropInfix?_cons
      · intro begins
        exact free.1 (List.cons_prefix_cons.1 begins).1
      · exact ih free.2

theorem dropInfix?_eq_none {piece : List α} (free : head ∉ piece) :
    piece.dropInfix? (head :: tail) = none := by
  cases cut : piece.dropInfix? (head :: tail) with
  | none => rfl
  | some parts =>
      rcases dropInfix?_eq_some_iff.1 cut with ⟨equal, -⟩
      rw [equal] at free
      simp at free

/-- A piece is cut off in front of the first delimiter. -/
theorem dropInfix?_piece {piece : List α} (free : head ∉ piece)
    (after : List α) :
    (piece ++ (head :: tail ++ after)).dropInfix? (head :: tail) =
      some (piece, after) := by
  have cut := dropInfix?_append free
    (dropInfix?_append_self (head :: tail) after)
  rw [List.append_nil] at cut
  exact cut

/-! ## All occurrences -/

/-- The pieces between the first occurrences of a delimiter. -/
def split (delimiter : List α) : Nat → List α → List (List α)
  | 0, data => [data]
  | count + 1, data =>
      (data.dropInfix? delimiter).elim [data] fun cut =>
        cut.1 :: split delimiter count cut.2

/-- The pieces between all occurrences of a delimiter that is not empty. -/
def pieces (delimiter data : List α) : List (List α) :=
  split delimiter data.length data

theorem split_intercalate {lines : List (List α)} {count : Nat}
    (nonempty : lines ≠ []) (enough : lines.length ≤ count + 1)
    (free : ∀ line ∈ lines, head ∉ line) :
    split (head :: tail) count ((head :: tail).intercalate lines) = lines := by
  induction lines generalizing count with
  | nil => exact absurd rfl nonempty
  | cons line rest ih =>
      have lineFree := free line List.mem_cons_self
      cases rest with
      | nil =>
          rw [List.intercalate_singleton]
          cases count with
          | zero => rfl
          | succ count =>
              rw [split, dropInfix?_eq_none lineFree]
              rfl
      | cons next others =>
          cases count with
          | zero => simp at enough
          | succ count =>
              have later := ih (List.cons_ne_nil next others)
                (Nat.le_of_succ_le_succ enough)
                fun other member => free other (List.mem_cons_of_mem _ member)
              rw [List.intercalate_cons_cons, List.append_assoc, split,
                dropInfix?_piece lineFree, Option.elim_some, later]

omit [DecidableEq α] in
/-- Lines with a delimiter behind each of them. -/
theorem flatMap_append_delimiter (delimiter : List α) {lines : List (List α)}
    (nonempty : lines ≠ []) :
    (lines.flatMap fun line => line ++ delimiter) =
      delimiter.intercalate lines ++ delimiter := by
  induction lines with
  | nil => exact absurd rfl nonempty
  | cons line rest ih =>
      cases rest with
      | nil => simp
      | cons next others =>
          rw [List.flatMap_cons, ih (List.cons_ne_nil next others),
            List.intercalate_cons_cons, List.append_assoc, List.append_assoc,
            List.append_assoc]

omit [DecidableEq α] in
/-- The last line has no delimiter behind it. -/
theorem intercalate_concat (delimiter : List α) (lines : List (List α))
    (last : List α) :
    delimiter.intercalate (lines ++ [last]) =
      (lines.flatMap fun line => line ++ delimiter) ++ last := by
  induction lines with
  | nil => simp
  | cons line rest ih =>
      cases rest with
      | nil => simp
      | cons next others =>
          rw [List.flatMap_cons, List.append_assoc, ← ih]
          exact List.intercalate_cons_cons

omit [DecidableEq α] in
theorem length_le_length_intercalate (lines : List (List α)) :
    lines.length ≤ ((head :: tail).intercalate lines).length + 1 := by
  induction lines with
  | nil => exact Nat.zero_le _
  | cons line rest ih =>
      cases rest with
      | nil => exact Nat.succ_le_succ (Nat.zero_le _)
      | cons next others =>
          rw [List.intercalate_cons_cons, List.length_append,
            List.length_append, List.length_cons (a := head)]
          rw [List.length_cons]
          omega

/-- Lines are found again behind the delimiter that joins them. -/
theorem pieces_intercalate {lines : List (List α)} (nonempty : lines ≠ [])
    (free : ∀ line ∈ lines, head ∉ line) :
    pieces (head :: tail) ((head :: tail).intercalate lines) = lines :=
  split_intercalate nonempty (length_le_length_intercalate lines) free

/-! ## The delimiter written twice -/

omit [DecidableEq α] in
theorem prefix_intercalate (delimiter line : List α) (rest : List (List α)) :
    line <+: delimiter.intercalate (line :: rest) := by
  cases rest with
  | nil => exact ⟨[], by simp⟩
  | cons next others =>
      rw [List.intercalate_cons_cons, List.append_assoc]
      exact List.prefix_append _ _

omit [DecidableEq α] in
/-- What begins with a line does not begin with a delimiter. -/
theorem not_prefix_of_line {line rest : List α} (nonempty : line ≠ [])
    (free : head ∉ line) (begins : line <+: rest) :
    ¬ head :: tail <+: rest := by
  cases line with
  | nil => exact absurd rfl nonempty
  | cons symbol line =>
      rcases begins with ⟨more, rfl⟩
      intro delimited
      have same := (List.cons_prefix_cons.1 delimited).1
      exact free (same ▸ List.mem_cons_self)

variable (once : head ∉ tail)
include once

/-- A delimiter in front of what does not begin with one is not the second. -/
theorem dropInfix?_twice_append {rest before after : List α}
    (begins : ¬ head :: tail <+: rest)
    (cut : rest.dropInfix? (head :: tail ++ head :: tail) =
      some (before, after)) :
    (head :: tail ++ rest).dropInfix? (head :: tail ++ head :: tail) =
      some (head :: tail ++ before, after) := by
  apply dropInfix?_cons
  · show ¬ head :: tail ++ head :: tail <+: head :: tail ++ rest
    rw [List.prefix_append_right_inj]
    exact begins
  · exact dropInfix?_append once cut

/-- Lines that are not empty stand before the delimiter written twice. -/
theorem dropInfix?_twice {lines : List (List α)} (nonempty : lines ≠ [])
    (whole : ∀ line ∈ lines, line ≠ [] ∧ head ∉ line)
    (after : List α) :
    ((head :: tail).intercalate lines ++
        (head :: tail ++ head :: tail ++ after)).dropInfix?
        (head :: tail ++ head :: tail) =
      some ((head :: tail).intercalate lines, after) := by
  induction lines with
  | nil => exact absurd rfl nonempty
  | cons line rest ih =>
      have lineFree := (whole line List.mem_cons_self).2
      cases rest with
      | nil =>
          rw [List.intercalate_singleton]
          exact dropInfix?_piece lineFree after
      | cons next others =>
          have later := ih (List.cons_ne_nil next others)
            fun other member => whole other (List.mem_cons_of_mem _ member)
          have nextWhole := whole next
            (List.mem_cons_of_mem _ List.mem_cons_self)
          have begins := (prefix_intercalate (head :: tail) next others).trans
            (List.prefix_append _ (head :: tail ++ head :: tail ++ after))
          have cut := dropInfix?_append lineFree
            (dropInfix?_twice_append once
              (not_prefix_of_line nextWhole.1 nextWhole.2 begins) later)
          simp only [List.intercalate_cons_cons, List.append_assoc] at cut ⊢
          exact cut

end Delimiter
