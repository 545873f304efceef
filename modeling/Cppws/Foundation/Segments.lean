import Mathlib.Data.List.Basic
import Mathlib.Data.List.TakeWhile

/-!
# Cutting a list after each separator

`segments sep xs` cuts a list after every occurrence of `sep`.  All segments
but possibly the last end with the separator, and none has it earlier.  The
lemmas here are the ones a consumer of a line-oriented stream needs: the
segments give the list back, a list that ends at a separator can be cut
independently of what follows it, and the first segment is the one that a
search for the separator finds.
-/

namespace Segments

variable {α : Type*}

/-- A list that is empty or ends with the separator. -/
def Terminated (sep : α) (xs : List α) : Prop :=
  xs = [] ∨ ∃ body, xs = body ++ [sep]

@[simp]
theorem terminated_nil (sep : α) : Terminated sep ([] : List α) :=
  Or.inl rfl

@[simp]
theorem terminated_concat (sep : α) (body : List α) :
    Terminated sep (body ++ [sep]) :=
  Or.inr ⟨body, rfl⟩

theorem Terminated.of_cons {sep x : α} {xs : List α}
    (terminated : Terminated sep (x :: xs)) :
    Terminated sep xs := by
  rcases terminated with empty | ⟨body, equal⟩
  · cases empty
  · cases body with
    | nil =>
        have : xs = [] := by simpa using (List.cons.inj equal).2
        exact Or.inl this
    | cons head tail =>
        exact Or.inr ⟨tail, (List.cons.inj equal).2⟩

variable [DecidableEq α]

/-- Cut a list after each occurrence of the separator. -/
def segments (sep : α) : List α → List (List α)
  | [] => []
  | x :: xs =>
      if x = sep then
        [x] :: segments sep xs
      else
        match segments sep xs with
        | [] => [[x]]
        | first :: others => (x :: first) :: others

@[simp]
theorem segments_nil (sep : α) : segments sep [] = [] :=
  rfl

theorem segments_eq_nil_iff (sep : α) (xs : List α) :
    segments sep xs = [] ↔ xs = [] := by
  cases xs with
  | nil => simp
  | cons x xs =>
      simp only [segments, reduceCtorEq, iff_false]
      split
      · simp
      · split <;> simp

@[simp]
theorem flatten_segments (sep : α) (xs : List α) :
    (segments sep xs).flatten = xs := by
  induction xs with
  | nil => rfl
  | cons x xs ih =>
      simp only [segments]
      split
      · simp [ih]
      · split
        case h_1 noSegments =>
          have : xs = [] := (segments_eq_nil_iff sep xs).1 noSegments
          simp [this]
        case h_2 first others cut =>
          rw [cut] at ih
          simpa using ih

/-- A separator-free list is one segment. -/
theorem segments_of_not_mem {sep : α} {xs : List α}
    (free : sep ∉ xs) (nonempty : xs ≠ []) :
    segments sep xs = [xs] := by
  induction xs with
  | nil => exact absurd rfl nonempty
  | cons x xs ih =>
      rw [List.mem_cons, not_or] at free
      simp only [segments, if_neg (Ne.symm free.1)]
      by_cases empty : xs = []
      · simp [empty]
      · rw [ih free.2 empty]

/-- The first terminated segment splits off. -/
theorem segments_terminated_append {sep : α} {body : List α}
    (free : sep ∉ body) (rest : List α) :
    segments sep (body ++ sep :: rest) =
      (body ++ [sep]) :: segments sep rest := by
  induction body with
  | nil => simp [segments]
  | cons x body ih =>
      rw [List.mem_cons, not_or] at free
      simp only [List.cons_append, segments, if_neg (Ne.symm free.1)]
      rw [ih free.2]

/-- A terminated list is cut independently of what follows it. -/
theorem segments_append {sep : α} {first : List α}
    (terminated : Terminated sep first) (second : List α) :
    segments sep (first ++ second) =
      segments sep first ++ segments sep second := by
  induction first with
  | nil => rfl
  | cons x first ih =>
      have inner := ih terminated.of_cons
      by_cases isSep : x = sep
      · simp [segments, isSep, inner]
      · have nonempty : first ≠ [] := by
          rintro rfl
          rcases terminated with empty | ⟨body, equal⟩
          · cases empty
          · cases body <;> simp_all
        obtain ⟨segment, others, cut⟩ :=
          List.exists_cons_of_ne_nil
            (mt (segments_eq_nil_iff sep first).1 nonempty)
        simp [segments, isSep, inner, cut]

/-- What a search for the separator finds is the first segment. -/
theorem segments_of_findIdx?_some {sep : α} {xs : List α} {pos : Nat}
    (found : xs.findIdx? (· = sep) = some pos) :
    xs.take (pos + 1) = xs.take pos ++ [sep] ∧ sep ∉ xs.take pos ∧
      segments sep xs =
        xs.take (pos + 1) :: segments sep (xs.drop (pos + 1)) := by
  rw [List.findIdx?_eq_some_iff_getElem] at found
  obtain ⟨bound, isSep, earlier⟩ := found
  have here : xs[pos] = sep := by simpa using isSep
  have free : sep ∉ xs.take pos := by
    intro member
    obtain ⟨index, lt, equal⟩ := List.mem_take_iff_getElem.1 member
    exact absurd equal (by simpa using earlier index (by omega))
  have cut : xs.take (pos + 1) = xs.take pos ++ [sep] := by
    rw [List.take_succ_eq_append_getElem bound, here]
  refine ⟨cut, free, ?_⟩
  have whole : xs = xs.take pos ++ sep :: xs.drop (pos + 1) := by
    conv_lhs => rw [← List.take_append_drop (pos + 1) xs, cut]
    simp
  conv_lhs => rw [whole]
  rw [segments_terminated_append free, cut]

theorem segments_of_findIdx?_none {sep : α} {xs : List α}
    (notFound : xs.findIdx? (· = sep) = none) (nonempty : xs ≠ []) :
    segments sep xs = [xs] := by
  apply segments_of_not_mem _ nonempty
  intro member
  have := List.findIdx?_eq_none_iff.1 notFound sep member
  simp at this

/-- The segments after the first are the segments of what follows it. -/
theorem segments_tail {sep : α} {xs first : List α} {rest : List (List α)}
    (cut : segments sep xs = first :: rest) :
    segments sep rest.flatten = rest := by
  cases found : xs.findIdx? (· = sep) with
  | none =>
      have nonempty : xs ≠ [] := by
        rintro rfl
        simp at cut
      rw [segments_of_findIdx?_none found nonempty, List.cons.injEq] at cut
      simp [← cut.2]
  | some pos =>
      rw [(segments_of_findIdx?_some found).2.2, List.cons.injEq] at cut
      simp [← cut.2]

theorem first_ne_nil {sep : α} {xs first : List α} {rest : List (List α)}
    (cut : segments sep xs = first :: rest) : first ≠ [] := by
  cases found : xs.findIdx? (· = sep) with
  | none =>
      have nonempty : xs ≠ [] := by
        rintro rfl
        simp at cut
      rw [segments_of_findIdx?_none found nonempty, List.cons.injEq] at cut
      exact cut.1 ▸ nonempty
  | some pos =>
      rcases segments_of_findIdx?_some found with ⟨chunk, -, split⟩
      rw [split, List.cons.injEq, chunk] at cut
      rw [← cut.1]
      simp

/-- The first segment is terminated, unless it is all there is. -/
theorem first_terminated_or_last {sep : α} {xs first : List α}
    {rest : List (List α)} (cut : segments sep xs = first :: rest) :
    (∃ body, sep ∉ body ∧ first = body ++ [sep]) ∨
      sep ∉ first ∧ rest = [] := by
  cases found : xs.findIdx? (· = sep) with
  | none =>
      have free : sep ∉ xs := by
        intro member
        have := List.findIdx?_eq_none_iff.1 found sep member
        simp at this
      have nonempty : xs ≠ [] := by
        rintro rfl
        simp at cut
      rw [segments_of_not_mem free nonempty, List.cons.injEq] at cut
      exact Or.inr ⟨cut.1 ▸ free, cut.2.symm⟩
  | some pos =>
      rcases segments_of_findIdx?_some found with ⟨chunk, free, split⟩
      rw [split, List.cons.injEq, chunk] at cut
      exact Or.inl ⟨xs.take pos, free, cut.1.symm⟩

/-- Appending to a nonempty list only extends its first segment. -/
theorem segments_append_of_not_mem {sep : α} {tail : List α}
    (free : sep ∉ tail) (nonempty : tail ≠ []) (more : List α) :
    ∃ first rest, segments sep (tail ++ more) = first :: rest ∧
      tail <+: first := by
  cases found : more.findIdx? (· = sep) with
  | none =>
      have moreFree : sep ∉ more := by
        intro member
        have := List.findIdx?_eq_none_iff.1 found sep member
        simp at this
      refine ⟨tail ++ more, [], ?_, List.prefix_append tail more⟩
      exact segments_of_not_mem (by simp [free, moreFree]) (by simp [nonempty])
  | some pos =>
      rcases segments_of_findIdx?_some found with ⟨chunk, moreFree, -⟩
      refine ⟨tail ++ more.take pos ++ [sep],
        segments sep (more.drop (pos + 1)), ?_, ?_⟩
      · have whole : tail ++ more =
            (tail ++ more.take pos) ++ sep :: more.drop (pos + 1) := by
          conv_lhs => rw [← List.take_append_drop (pos + 1) more, chunk]
          simp
        rw [whole]
        exact segments_terminated_append (by simp [free, moreFree]) _
      · rw [List.append_assoc]
        exact List.prefix_append tail _

/-- The first segment of a list begins the first segment of a longer one. -/
theorem segments_append_first {sep : α} {xs first : List α}
    {rest : List (List α)} (cut : segments sep xs = first :: rest)
    (more : List α) :
    ∃ longer others, segments sep (xs ++ more) = longer :: others ∧
      first <+: longer := by
  cases found : xs.findIdx? (· = sep) with
  | none =>
      have nonempty : xs ≠ [] := by
        rintro rfl
        simp at cut
      have free : sep ∉ xs := by
        intro member
        have := List.findIdx?_eq_none_iff.1 found sep member
        simp at this
      rw [segments_of_not_mem free nonempty, List.cons.injEq] at cut
      rw [← cut.1]
      exact segments_append_of_not_mem free nonempty more
  | some pos =>
      rcases segments_of_findIdx?_some found with ⟨chunk, free, split⟩
      rw [split, List.cons.injEq] at cut
      have whole : xs ++ more =
          xs.take pos ++ sep :: (xs.drop (pos + 1) ++ more) := by
        conv_lhs => rw [← List.take_append_drop (pos + 1) xs, chunk]
        simp
      rw [whole, segments_terminated_append free, ← chunk, cut.1]
      exact ⟨_, _, rfl, List.prefix_refl first⟩

end Segments
