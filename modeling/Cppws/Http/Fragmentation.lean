import Mathlib.Data.List.DropRight
import Cppws.Http.Progress

/-!
# Feeding a request in pieces

`feed` parses whatever follows the last `'\n'` of a chunk as a line of its own,
so a request that is cut inside a line is not parsed as the request it is.
This module says exactly which cuts are harmless.  A cut is `OutsideLine` when
it falls right after a `'\n'`, in the body, after the end of the parse, or
behind a line that is already too long; the cuts of a chunk list are harmless
whatever follows them exactly when all of them are of that kind, and a byte
string is parsed alike under every cutting exactly when its first line is
refused for lack of spaces.
-/

namespace Cppws.Http.HttpParser

open Segments

/-! ## Two results a caller cannot tell apart -/

/-- Equal results, with what the caller may look at after each. -/
def SameOutcome (first second : HttpParser × Result) : Prop :=
  first.2 = second.2 ∧
    (first.2 = .complete → first.1.request = second.1.request) ∧
    (first.2 = .error → first.1.error = second.1.error)

theorem SameOutcome.refl (run : HttpParser × Result) : SameOutcome run run :=
  ⟨rfl, fun _ => rfl, fun _ => rfl⟩

/-- The chunks and their concatenation have the same outcome. -/
def FragmentationIndependent
    (maxBodySize : Nat) (chunks : List Bytes) : Prop :=
  SameOutcome ((fresh maxBodySize).feedChunks chunks)
    ((fresh maxBodySize).feed chunks.flatten)

/-- One more chunk after a run that may already have ended. -/
def andThen (run : HttpParser × Result) (chunk : Bytes) :
    HttpParser × Result :=
  if run.2 = .incomplete then run.1.feed chunk else run

theorem feedChunks_concat (parser : HttpParser)
    (chunks : List Bytes) (last : Bytes) :
    parser.feedChunks (chunks ++ [last]) =
      andThen (parser.feedChunks chunks) last := by
  induction chunks generalizing parser with
  | nil =>
      simp only [List.nil_append, feedChunks, andThen, if_true]
      split_ifs with more
      · rw [← more]
      · rfl
  | cons chunk rest ih =>
      simp only [List.cons_append, feedChunks]
      split_ifs with more
      · exact ih _
      · rw [andThen, if_neg more]

/-! ## Cuts outside a line -/

/-- The bytes up to and including the last `'\n'`. -/
def wholeLines (before : Bytes) : Bytes :=
  before.rdropWhile (· ≠ lf)

/-- The bytes after the last `'\n'`. -/
def lastLine (before : Bytes) : Bytes :=
  before.rtakeWhile (· ≠ lf)

/--
Where a cut after `before` falls: the lines that are complete by then have
ended the head, or nothing of the next line has been sent yet, or what has
been sent of it is already longer than any line may be.
-/
def OutsideLine (maxBodySize : Nat) (before : Bytes) : Prop :=
  ∀ next,
    (fresh maxBodySize).scanHead (segments lf (wholeLines before)) =
        .unfinished next →
      lastLine before = [] ∨ (lastLine before).length > maxHeaderSize

theorem wholeLines_append_lastLine (before : Bytes) :
    wholeLines before ++ lastLine before = before :=
  List.rdropWhile_append_rtakeWhile

theorem wholeLines_terminated (before : Bytes) :
    Terminated lf (wholeLines before) := by
  by_cases empty : wholeLines before = []
  · exact Or.inl empty
  · have isLf : (wholeLines before).getLast empty = lf := by
      simpa [wholeLines] using
        List.rdropWhile_last_not (· ≠ lf) before empty
    refine Or.inr ⟨(wholeLines before).dropLast, ?_⟩
    conv_lhs =>
      rw [← List.dropLast_append_getLast empty, isLf]

theorem lf_not_mem_lastLine (before : Bytes) : lf ∉ lastLine before := by
  intro member
  have := List.mem_rtakeWhile_imp member
  simp at this

/-! ## A harmless cut -/

/-- Body bytes may be cut anywhere. -/
theorem feed_body_append {parser : HttpParser}
    (progress : parser.Progress) (phase : parser.state = .body)
    (first second : Bytes) :
    parser.feed (first ++ second) = andThen (parser.feed first) second := by
  have positive := (progress.inBody phase).1
  have waiting : parser.finish = (parser, .incomplete) := by
    simp [finish, phase]
  by_cases noFirst : first = []
  · simp [noFirst, waiting, andThen]
  · have nonempty : first ++ second ≠ [] := by simp [noFirst]
    rw [feed_body phase nonempty, feed_body phase noFirst]
    rcases parseBody_cases parser first with
      ⟨enough, equal⟩ | ⟨short, equal⟩
    · rw [equal]
      rcases parseBody_cases parser (first ++ second) with
        ⟨_, whole⟩ | ⟨less, _⟩
      · rw [whole, List.take_append_of_le_length enough]
        rfl
      · simp only [List.length_append] at less
        omega
    · rw [equal]
      simp only [andThen, if_true]
      by_cases noSecond : second = []
      · simp [noSecond, equal, finish, phase]
      · rw [feed_body (by exact phase) noSecond]
        rcases parseBody_cases parser (first ++ second) with
          ⟨enough, whole⟩ | ⟨less, whole⟩
        · rw [whole]
          rcases parseBody_cases
              { parser with
                request :=
                  { parser.request with
                    body := parser.request.body ++ first }
                bodyRemaining := parser.bodyRemaining - first.length }
              second with
            ⟨_, rest⟩ | ⟨less, _⟩
          · rw [rest, List.take_append, List.take_of_length_le short.le]
            simp
          · simp only [List.length_append] at enough
            simp only at less
            omega
        · rw [whole]
          rcases parseBody_cases
              { parser with
                request :=
                  { parser.request with
                    body := parser.request.body ++ first }
                bodyRemaining := parser.bodyRemaining - first.length }
              second with
            ⟨enough, _⟩ | ⟨_, rest⟩
          · simp only [List.length_append] at less
            simp only at enough
            omega
          · rw [rest]
            simp [Nat.sub_sub]

/-- Scanning up to a cut behind an over-long line. -/
theorem scanHead_overlong (parser : HttpParser) {tail : Bytes}
    (free : lf ∉ tail) (long : tail.length > maxHeaderSize) (more : Bytes) :
    parser.scanHead (segments lf (tail ++ more)) = .overlong parser := by
  have nonempty : tail ≠ [] := by
    rintro rfl
    simp at long
  rcases segments_append_of_not_mem free nonempty more with
    ⟨first, rest, cut, isPrefix⟩
  have := isPrefix.length_le
  rw [cut, scanHead, if_pos (by omega)]

/-- Whatever follows a cut outside a line, it is parsed as if not cut. -/
theorem feed_append_of_outsideLine {maxBodySize : Nat} {before : Bytes}
    (outside : OutsideLine maxBodySize before) (after : Bytes) :
    (fresh maxBodySize).feed (before ++ after) =
      andThen ((fresh maxBodySize).feed before) after := by
  have progress := progress_fresh maxBodySize
  have inHead : (fresh maxBodySize).InHead := Or.inl rfl
  have sound := progress.scanHead inHead (segments lf (wholeLines before))
  have terminated := wholeLines_terminated before
  have split : before = wholeLines before ++ lastLine before :=
    (wholeLines_append_lastLine before).symm
  have head : segments lf before =
      segments lf (wholeLines before) ++ segments lf (lastLine before) := by
    conv_lhs => rw [split]
    exact segments_append terminated _
  have both : segments lf (before ++ after) =
      segments lf (wholeLines before) ++
        segments lf (lastLine before ++ after) := by
    conv_lhs => rw [split, List.append_assoc]
    exact segments_append terminated _
  rw [feed_eq_resume inHead rfl, feed_eq_resume inHead rfl, head, both,
    scanHead_append, scanHead_append]
  cases scanned :
      (fresh maxBodySize).scanHead (segments lf (wholeLines before)) with
  | unfinished next =>
      rw [scanned] at sound
      rcases outside next scanned with empty | long
      · simp only [empty, List.nil_append, segments_nil]
        exact (feed_eq_resume sound.2 sound.1.noPartial after).symm
      · have free := lf_not_mem_lastLine before
        have alone := scanHead_overlong next free long []
        rw [List.append_nil] at alone
        simp only [scanHead_overlong next free long, alone]
        rfl
  | body next rest =>
      rw [scanned] at sound
      simp only [HeadScan.resume, flatten_segments, ← List.append_assoc]
      exact feed_body_append sound.1 sound.2 _ _
  | returned next result =>
      rw [scanned] at sound
      cases result
      case incomplete => exact sound.elim
      case complete => rfl
      case error => rfl
  | overlong next => rfl

/-! ## A harmful cut -/

/-- What `feed` makes of an unfinished line: it is parsed as a whole one. -/
theorem feed_partial {parser : HttpParser} {tail : Bytes}
    (progress : parser.Progress) (inHead : parser.InHead)
    (free : lf ∉ tail) (nonempty : tail ≠ [])
    (short : ¬ tail.length > maxHeaderSize) :
    ((parser.parseLine tail).2 = .incomplete ∧
        (parser.feed tail).2 = .incomplete ∧
        (parser.feed tail).1 = (parser.parseLine tail).1 ∧
        (parser.parseLine tail).1.state = .headers ∧
        (parser.parseLine tail).1.Progress) ∨
      (parser.feed tail).2 = .error := by
  rw [feed_eq_resume inHead progress.noPartial,
    segments_of_not_mem free nonempty, scanHead, if_neg short,
    lineOf_of_not_mem free]
  rcases parsed : parser.parseLine tail with ⟨next, result⟩
  cases result
  case incomplete =>
    have kept := progress.parseLine_incomplete inHead parsed
    rcases (parseLine_incomplete inHead parsed).2.2.2 with phase | phase
    · exfalso
      rcases inHead with first | headers
      · rw [parseLine_requestLine first] at parsed
        rcases parseRequestLine_cases parser tail with
          ⟨_, _, _, _, _, equal⟩ | ⟨_, _, _, equal⟩
        · rw [equal, Prod.mk.injEq] at parsed
          rw [← parsed.1] at phase
          cases phase
        · simp [equal] at parsed
      · rw [parseLine_headers headers] at parsed
        rcases parseHeaderLine_cases parser tail with
          ⟨blank, _⟩ | ⟨blank, _⟩ | ⟨_, _, _, _, equal⟩ |
          ⟨_, _, _, equal⟩
        · exact nonempty blank
        · exact nonempty blank
        · rw [equal, Prod.mk.injEq] at parsed
          rw [← parsed.1] at phase
          simp [headers] at phase
        · simp [equal] at parsed
    · have notBody : next.state ≠ .body := by simp [phase]
      simp only [if_neg notBody, scanHead]
      exact Or.inl ⟨trivial, rfl, rfl, phase, kept.1⟩
  case complete =>
    exfalso
    rcases inHead with first | headers
    · rw [parseLine_requestLine first] at parsed
      rcases parseRequestLine_cases parser tail with
        ⟨_, _, _, _, _, equal⟩ |
        ⟨_, _, _, equal⟩ <;> simp [equal] at parsed
    · rw [parseLine_headers headers] at parsed
      rcases parseHeaderLine_cases parser tail with
        ⟨blank, _⟩ | ⟨blank, _⟩ | ⟨_, _, _, _, equal⟩ |
        ⟨_, _, _, equal⟩
      · exact nonempty blank
      · exact nonempty blank
      · simp [equal] at parsed
      · simp [equal] at parsed
  case error => exact Or.inr rfl

/-- A line with no colon is refused where headers are expected. -/
theorem feed_x_refused {parser : HttpParser} (progress : parser.Progress)
    (phase : parser.state = .headers) :
    (parser.feed [120, lf]).2 = .error ∧
      (parser.feed [120, lf]).1.error ∈ headerErrors := by
  have small : ¬ ([120, lf] : Bytes).length > maxHeaderSize := by decide
  rw [feed_eq_resume (Or.inr phase) progress.noPartial]
  have cut : segments lf [120, lf] = [[120, lf]] := by decide
  have line : lineOf [120, lf] = [120] := by decide
  rw [cut, scanHead, if_neg small, line, parseLine_headers phase]
  rcases parseHeaderLine_cases parser [120] with
    ⟨blank, _⟩ | ⟨blank, _⟩ | ⟨_, _, colon, found, _⟩ |
      ⟨_, msg, listed, equal⟩
  · cases blank
  · cases blank
  · exact absurd found (by simp [find, colonByte])
  · rw [equal]
    exact ⟨rfl, listed⟩

/-- A header line stays acceptable when it goes on. -/
theorem parseHeaderLine_extend {parser : HttpParser} {line : Bytes}
    (nonempty : line ≠ [])
    (parsed : (parser.parseHeaderLine line).2 = .incomplete)
    (more : Bytes) :
    ∃ next, parser.parseHeaderLine (line ++ more) = (next, .incomplete) ∧
      next.state = parser.state := by
  rcases parseHeaderLine_cases parser line with
    ⟨blank, _⟩ | ⟨blank, _⟩ | ⟨_, few, colon, found, _⟩ |
    ⟨_, _, _, equal⟩
  · exact absurd blank nonempty
  · exact absurd blank nonempty
  · have blank : line ++ more ≠ [] := by simp [nonempty]
    have many : ¬ parser.request.headers.keys.card ≥
        maxHeaderCount := by omega
    have found' : find (line ++ more) colonByte 0 = some colon := by
      simp only [find, List.drop_zero, Option.map_eq_some_iff] at found ⊢
      rcases found with ⟨index, found, equal⟩
      exact ⟨index, by simp [List.findIdx?_append, found], equal⟩
    simp only [parseHeaderLine, if_neg blank, if_neg many, found']
    exact ⟨_, rfl, rfl⟩
  · simp [equal] at parsed

/-- Where a line was cut and `"x\n"` follows, a caller sees the difference. -/
theorem feed_append_x {parser : HttpParser} {tail : Bytes}
    (progress : parser.Progress) (inHead : parser.InHead)
    (free : lf ∉ tail) (nonempty : tail ≠ [])
    (accepted : (parser.parseLine tail).2 = .incomplete) :
    (parser.feed (tail ++ [120, lf])).2 = .error →
      (parser.feed (tail ++ [120, lf])).1.error ∉ headerErrors := by
  have cut : segments lf (tail ++ [120, lf]) = [tail ++ [120] ++ [lf]] := by
    have free' : lf ∉ tail ++ [120] := by simp [free, lf]
    simpa using segments_terminated_append free' []
  have line : lineOf (tail ++ [120] ++ [lf]) = tail ++ [120] := by
    rw [lineOf_terminated]
    simp [popBackIf, cr]
  rw [feed_eq_resume inHead progress.noPartial, cut, scanHead, line]
  split_ifs with long
  · intro equal
    cases equal
  · rcases inHead with first | headers
    · rw [parseLine_requestLine first]
      rcases parseRequestLine_cases parser (tail ++ [120]) with
        ⟨_, _, _, _, _, equal⟩ | ⟨_, msg, ⟨_, unlisted⟩, equal⟩
      · rw [equal]
        intro equal
        cases equal
      · rw [equal]
        exact fun _ => unlisted
    · rw [parseLine_headers headers] at accepted ⊢
      rcases parseHeaderLine_extend nonempty accepted [120] with
        ⟨next, equal, phase⟩
      have notBody : next.state ≠ .body := by simp [phase, headers]
      simp only [equal, if_neg notBody, scanHead]
      intro equal
      cases equal

/-- Every cut inside a line changes the outcome for some continuation. -/
theorem exists_divergence {maxBodySize : Nat} {before : Bytes}
    (inside : ¬ OutsideLine maxBodySize before) :
    ∃ after, ¬ SameOutcome
      (andThen ((fresh maxBodySize).feed before) after)
      ((fresh maxBodySize).feed (before ++ after)) := by
  simp only [OutsideLine, not_forall, not_or] at inside
  rcases inside with ⟨next, scanned, nonempty, short⟩
  have free := lf_not_mem_lastLine before
  have sound := (progress_fresh maxBodySize).scanHead (Or.inl rfl)
    (segments lf (wholeLines before))
  rw [scanned] at sound
  rcases sound with ⟨progress, inHead⟩
  have resumed (after : Bytes) :
      (fresh maxBodySize).feed (before ++ after) =
        next.feed (lastLine before ++ after) := by
    have cut : segments lf (before ++ after) =
        segments lf (wholeLines before) ++
          segments lf (lastLine before ++ after) := by
      rw [← segments_append (wholeLines_terminated before),
        ← List.append_assoc, wholeLines_append_lastLine]
    rw [feed_eq_resume (Or.inl rfl) rfl, cut, scanHead_append, scanned,
      feed_eq_resume inHead progress.noPartial]
  have resumed_before : (fresh maxBodySize).feed before =
      next.feed (lastLine before) := by
    simpa using resumed []
  rcases feed_partial progress inHead free nonempty short with
    ⟨accepted, more, equal, phase, kept⟩ | refused
  · refine ⟨[120, lf], fun same => ?_⟩
    rw [resumed, resumed_before, andThen, if_pos more, equal] at same
    rcases feed_x_refused kept phase with ⟨error, listed⟩
    have error' : (next.feed (lastLine before ++ [120, lf])).2 = .error :=
      same.1.symm.trans error
    rw [same.2.2 error] at listed
    exact feed_append_x progress inHead free nonempty accepted error' listed
  · refine ⟨List.replicate (maxHeaderSize + 1) sp, fun same => ?_⟩
    have notMore : (next.feed (lastLine before)).2 ≠ .incomplete := by
      simp [refused]
    have free' : lf ∉
        lastLine before ++ List.replicate (maxHeaderSize + 1) sp := by
      simp [free, lf, sp]
    have overlong := scanHead_overlong next free' (by simp; omega) []
    rw [List.append_nil] at overlong
    rw [resumed, resumed_before, andThen, if_neg notMore,
      feed_eq_resume inHead progress.noPartial (_ ++ _), overlong] at same
    have results := same.1
    rw [refused] at results
    cases results

/-! ## Which cuttings are harmless -/

/-- Chunks cut outside lines leave the parser as one chunk would. -/
theorem feedChunks_take {maxBodySize : Nat} {chunks : List Bytes} (count : Nat)
    (outside : ∀ index < count,
      OutsideLine maxBodySize (chunks.take index).flatten) :
    (fresh maxBodySize).feedChunks (chunks.take count) =
      (fresh maxBodySize).feed (chunks.take count).flatten := by
  induction count with
  | zero => rfl
  | succ count ih =>
      have earlier := ih fun index less => outside index (by omega)
      by_cases inRange : count < chunks.length
      · rw [List.take_succ_eq_append_getElem inRange, feedChunks_concat,
          earlier, List.flatten_append, List.flatten_singleton,
          feed_append_of_outsideLine (outside count (by omega))]
      · rw [List.take_of_length_le (by omega)] at earlier ⊢
        exact earlier

/-- Too few spaces to name a method, whatever follows. -/
def Unsplit (line : Bytes) : Prop :=
  sp ∉ line ∨ ∃ others, line = sp :: others ∧ sp ∉ others

/-- The error for a line that is `Unsplit`. -/
def unsplitError (line : Bytes) : Bytes :=
  if sp ∈ line then
    text "malformed request line: missing second SP"
  else
    text "malformed request line: missing first SP"

/-- The first line is within the limit and has too few spaces. -/
def RefusedAtOnce (data : Bytes) : Prop :=
  ((segments lf data).headD []).length ≤ maxHeaderSize ∧
    Unsplit ((segments lf data).headD [])

theorem Unsplit.of_begins {first line : Bytes} (unsplit : Unsplit line)
    (isPrefix : first <+: line) (nonempty : first ≠ []) :
    Unsplit first ∧ unsplitError first = unsplitError line := by
  rcases unsplit with free | ⟨others, rfl, free⟩
  · have freeFirst : sp ∉ first := fun member =>
      free (isPrefix.subset member)
    exact ⟨Or.inl freeFirst, by simp [unsplitError, free, freeFirst]⟩
  · rcases List.exists_cons_of_ne_nil nonempty with ⟨byte, rest, rfl⟩
    rcases List.cons_prefix_cons.1 isPrefix with ⟨rfl, tailPrefix⟩
    have freeRest : sp ∉ rest := fun member => free (tailPrefix.subset member)
    exact ⟨Or.inr ⟨rest, rfl, freeRest⟩, by simp [unsplitError]⟩

theorem lineOf_begins (segment : Bytes) : lineOf segment <+: segment := by
  have pop (ch : UInt8) (str : Bytes) : popBackIf ch str <+: str := by
    unfold popBackIf
    split_ifs
    · exact List.dropLast_prefix str
    · exact List.prefix_refl str
  unfold lineOf
  split_ifs
  · exact (pop cr _).trans (pop lf segment)
  · exact List.prefix_refl segment

/-- Only a line ending is stripped. -/
theorem lineOf_cons {byte : UInt8} (notLf : byte ≠ lf) (notCr : byte ≠ cr)
    (others : Bytes) :
    lineOf (byte :: others) = byte :: lineOf others := by
  rcases List.eq_nil_or_concat' others with rfl | ⟨body, last, rfl⟩
  · simp [lineOf, notLf]
  · by_cases isLf : last = lf
    · subst isLf
      rw [← List.cons_append, lineOf_terminated, lineOf_terminated]
      rcases List.eq_nil_or_concat' body with rfl | ⟨text, final, rfl⟩
      · simp [popBackIf, notCr]
      · rw [← List.cons_append]
        simp only [popBackIf, List.getLast?_append, List.getLast?_singleton,
          Option.some_or, List.dropLast_concat]
        split_ifs <;> simp
    · have short : (body ++ [last]).getLast? ≠ some lf := by simp [isLf]
      have long : (byte :: body ++ [last]).getLast? ≠ some lf := by
        rw [List.getLast?_concat]
        simp [isLf]
      rw [lineOf, ← List.cons_append, if_neg long, lineOf, if_neg short]
      rfl

theorem sp_mem_lineOf {segment : Bytes} :
    sp ∈ lineOf segment ↔ sp ∈ segment := by
  refine ⟨fun member => (lineOf_begins segment).subset member, ?_⟩
  rcases List.eq_nil_or_concat' segment with rfl | ⟨body, last, rfl⟩
  · simp
  · intro member
    by_cases isLf : last = lf
    · subst isLf
      have inBody : sp ∈ body := by simpa [sp, lf] using member
      rw [lineOf_terminated]
      unfold popBackIf
      split_ifs with isCr
      · rcases List.eq_nil_or_concat' body with rfl | ⟨text, final, rfl⟩
        · simp at inBody
        · have : final = cr := by simpa using isCr
          simpa [this, sp, cr] using inBody
      · exact inBody
    · rwa [lineOf, if_neg (by simp [isLf])]

/-! ## Lines refused for lack of spaces -/

theorem parseRequestLine_unsplit {line : Bytes} (unsplit : Unsplit line)
    (short : ¬ line.length > maxRequestLine) (parser : HttpParser) :
    parser.parseRequestLine line =
      (parser.setError (unsplitError line), .error) := by
  rcases unsplit with free | ⟨others, rfl, free⟩
  · have noFirst : find line sp 0 = none := by
      simp only [find, List.drop_zero, Option.map_eq_none_iff,
        List.findIdx?_eq_none_iff, decide_eq_false_iff_not]
      rintro _ member rfl
      exact free member
    simp only [parseRequestLine, if_neg short, noFirst, unsplitError,
      if_neg free]
  · have first : find (sp :: others) sp 0 = some 0 := by
      simp [find, List.findIdx?_cons]
    have noSecond : find (sp :: others) sp (0 + 1) = none := by
      simp only [find, Nat.zero_add, List.drop_succ_cons, List.drop_zero,
        Option.map_eq_none_iff, List.findIdx?_eq_none_iff,
        decide_eq_false_iff_not]
      rintro _ member rfl
      exact free member
    simp only [parseRequestLine, if_neg short, first, noSecond, unsplitError,
      List.mem_cons, true_or, if_true]

theorem unsplitError_cases (line : Bytes) :
    unsplitError line = text "malformed request line: missing first SP" ∨
      unsplitError line =
        text "malformed request line: missing second SP" := by
  unfold unsplitError
  split_ifs
  · exact Or.inr rfl
  · exact Or.inl rfl

theorem unsplitError_not_headerError (line : Bytes) :
    unsplitError line ∉ headerErrors := by
  rcases unsplitError_cases line with equal | equal <;> rw [equal] <;> decide

theorem unsplitError_ne_unsupported (line version : Bytes) :
    text "unsupported HTTP version: " ++ version ≠ unsplitError line := by
  intro equal
  have starts : (text "unsupported HTTP version: " ++ version).head? =
      some 117 := rfl
  rw [equal] at starts
  rcases unsplitError_cases line with same | same <;>
    exact absurd starts (by rw [same]; decide)

/-- Only an `Unsplit` line is refused with its first byte's `unsplitError`. -/
theorem unsplit_of_error {parser : HttpParser} {byte : UInt8} {others : Bytes}
    (refused : (parser.parseRequestLine (byte :: others)).1.error =
      unsplitError [byte])
    (result : (parser.parseRequestLine (byte :: others)).2 = .error) :
    Unsplit (byte :: others) := by
  have listed := unsplitError_cases [byte]
  simp only [parseRequestLine] at refused result
  split_ifs at refused with long
  · exfalso
    simp only [setError] at refused
    rw [← refused] at listed
    exact absurd listed (by decide)
  · rw [if_neg long] at result
    cases first : find (byte :: others) sp 0 with
    | none =>
        refine Or.inl fun member => ?_
        simp only [find, List.drop_zero, Option.map_eq_none_iff,
          List.findIdx?_eq_none_iff, decide_eq_false_iff_not] at first
        exact first sp member rfl
    | some sp1 =>
        simp only [first] at refused result
        cases second : find (byte :: others) sp (sp1 + 1) with
        | none =>
            simp only [second, setError] at refused
            by_cases isSp : byte = sp
            · subst isSp
              have zero : sp1 = 0 := by
                simpa [find, List.findIdx?_cons] using first.symm
              refine Or.inr ⟨others, rfl, fun member => ?_⟩
              simp only [zero, find, Nat.zero_add, List.drop_succ_cons,
                List.drop_zero, Option.map_eq_none_iff,
                List.findIdx?_eq_none_iff, decide_eq_false_iff_not] at second
              exact second sp member rfl
            · exfalso
              have other : sp ∉ [byte] := by
                simpa using Ne.symm isSp
              rw [unsplitError, if_neg other] at refused
              exact absurd refused (by decide)
        | some sp2 =>
            exfalso
            simp only [second] at refused result
            split_ifs at refused result
            · simp only [setError] at refused
              rw [← refused] at listed
              exact absurd listed (by decide)
            · exact unsplitError_ne_unsupported _ _ refused

theorem Unsplit.lineOf {segment : Bytes} (unsplit : Unsplit segment) :
    Unsplit (lineOf segment) ∧
      unsplitError (HttpParser.lineOf segment) = unsplitError segment := by
  constructor
  · rcases unsplit with free | ⟨others, rfl, free⟩
    · exact Or.inl (mt sp_mem_lineOf.1 free)
    · refine Or.inr ⟨_, lineOf_cons (by decide) (by decide) others, ?_⟩
      exact mt sp_mem_lineOf.1 free
  · simp only [unsplitError, sp_mem_lineOf]

/-- A chunk that begins inside a line that is `Unsplit` is refused. -/
theorem feed_unsplit {maxBodySize : Nat} {chunk first : Bytes}
    {rest : List Bytes} (cut : segments lf chunk = first :: rest)
    (short : first.length ≤ maxHeaderSize) (unsplit : Unsplit first) :
    (fresh maxBodySize).feed chunk =
      ((fresh maxBodySize).setError (unsplitError first), .error) := by
  have fits : ¬ first.length > maxHeaderSize := by omega
  have shorter := (lineOf_begins first).length_le
  have fitsLine : ¬ (lineOf first).length > maxRequestLine := by
    unfold maxRequestLine
    unfold maxHeaderSize at short
    omega
  rw [feed_eq_resume (Or.inl rfl) rfl, cut, scanHead, if_neg fits,
    parseLine_requestLine rfl,
    parseRequestLine_unsplit unsplit.lineOf.1 fitsLine, unsplit.lineOf.2]
  rfl

/-- Chunks of an `Unsplit` first line are refused by the first nonempty one. -/
theorem feedChunks_unsplit {maxBodySize : Nat} {chunks : List Bytes}
    {first : Bytes} {rest : List Bytes}
    (cut : segments lf chunks.flatten = first :: rest)
    (short : first.length ≤ maxHeaderSize) (unsplit : Unsplit first) :
    (fresh maxBodySize).feedChunks chunks =
      ((fresh maxBodySize).setError (unsplitError first), .error) := by
  induction chunks with
  | nil => simp at cut
  | cons chunk others ih =>
      by_cases empty : chunk = []
      · subst empty
        exact ih (by simpa using cut)
      · rcases List.exists_cons_of_ne_nil
            (mt (segments_eq_nil_iff lf chunk).1 empty) with
          ⟨piece, pieces, chunkCut⟩
        rcases segments_append_first chunkCut others.flatten with
          ⟨longer, more, whole, isPrefix⟩
        rw [List.flatten_cons, whole, List.cons.injEq] at cut
        rw [cut.1] at isPrefix
        rcases unsplit.of_begins isPrefix (first_ne_nil chunkCut) with
          ⟨here, same⟩
        have shorter := isPrefix.length_le
        rw [feedChunks, feed_unsplit chunkCut (by omega) here, same]
        simp

/-- Past the request line only the header-line errors are reported. -/
theorem resume_headers_error {parser : HttpParser} {pieces : List Bytes}
    (progress : parser.Progress) (phase : parser.state = .headers)
    (refused : (parser.scanHead pieces).resume.2 = .error) :
    (parser.scanHead pieces).resume.1.error ∈ headerErrors := by
  have sound := progress.scanHead (Or.inr phase) pieces
  cases scanned : parser.scanHead pieces with
  | unfinished next =>
      rw [scanned] at refused
      cases refused
  | body next rest =>
      rw [scanned] at refused sound
      rcases sound.1.feed_body sound.2 rest with ⟨more, _⟩ | ⟨done, _⟩
      · rw [HeadScan.resume, more] at refused
        cases refused
      · rw [HeadScan.resume, done] at refused
        cases refused
  | returned next result =>
      rw [scanned] at refused
      have error : result = .error := refused
      subst error
      exact scanHead_headers_error phase scanned
  | overlong next =>
      rw [scanned] at refused
      cases refused

/-- The bytes of a line are `Unsplit` when what is parsed of them is. -/
theorem Unsplit.of_lineOf {byte : UInt8} {tail line : Bytes}
    (equal : HttpParser.lineOf (byte :: tail) = byte :: line)
    (unsplit : Unsplit (byte :: line)) :
    Unsplit (byte :: tail) := by
  rcases unsplit with free | ⟨others, same, free⟩
  · rw [← equal, sp_mem_lineOf] at free
    exact Or.inl free
  · rw [List.cons.injEq] at same
    rcases same with ⟨rfl, rfl⟩
    rw [lineOf_cons (by decide) (by decide), List.cons.injEq] at equal
    rw [← equal.2, sp_mem_lineOf] at free
    exact Or.inr ⟨tail, rfl, free⟩

/-- A first byte that is refused alone is refused alike only on such a line. -/
theorem refusedAtOnce_of_sameOutcome {maxBodySize : Nat} {byte : UInt8}
    {others : Bytes}
    (same : SameOutcome ((fresh maxBodySize).feedChunks [[byte], others])
      ((fresh maxBodySize).feed (byte :: others))) :
    RefusedAtOnce (byte :: others) := by
  have alone : segments lf [byte] = [[byte]] := by
    by_cases isLf : byte = lf <;> simp [segments, isLf]
  have unsplit : Unsplit [byte] := by
    by_cases isSp : byte = sp
    · exact Or.inr ⟨[], by rw [isSp], by simp⟩
    · exact Or.inl (by simpa using Ne.symm isSp)
  rw [feedChunks, feed_unsplit alone (by simp [maxHeaderSize]) unsplit] at same
  simp only [reduceCtorEq, if_false] at same
  rcases same with ⟨result, -, reason⟩
  have refused := reason rfl
  rcases segments_append_first alone others with
    ⟨first, rest, cut, isPrefix⟩
  rcases isPrefix with ⟨tail, rfl⟩
  simp only [List.singleton_append] at cut
  have head : ((segments lf (byte :: others)).headD []) = byte :: tail := by
    rw [cut]
    rfl
  rw [feed_eq_resume (Or.inl rfl) rfl, cut, scanHead] at result refused
  split_ifs at result refused with long
  · cases result
  · refine ⟨by rw [head]; omega, ?_⟩
    rw [head]
    by_cases free : sp ∉ byte :: tail
    · exact Or.inl free
    · have member : sp ∈ lineOf (byte :: tail) :=
        sp_mem_lineOf.2 (not_not.1 free)
      rcases List.exists_cons_of_ne_nil (List.ne_nil_of_mem member) with
        ⟨start, line, equal⟩
      have starts := lineOf_begins (byte :: tail)
      rw [equal, List.cons_prefix_cons] at starts
      rcases starts with ⟨rfl, -⟩
      refine Unsplit.of_lineOf equal ?_
      rw [equal, parseLine_requestLine rfl] at result refused
      rcases parseRequestLine_cases (fresh maxBodySize) (start :: line) with
        ⟨method, path, version, known, supported, parsed⟩ |
          ⟨request, msg, _, parsed⟩
      · exfalso
        have progress :=
          ((progress_fresh maxBodySize).parseLine_incomplete (Or.inl rfl)
            ((parseLine_requestLine rfl _).trans parsed)).1
        simp only [parsed, reduceCtorEq, if_false] at result refused
        have listed := resume_headers_error progress rfl result.symm
        rw [← refused] at listed
        exact unsplitError_not_headerError _ listed
      · apply unsplit_of_error
        · rw [parsed] at refused ⊢
          exact refused.symm
        · rw [parsed]

/--
Which inputs are parsed alike however they are cut: those whose first line is
refused for lack of spaces.  And which cuts change nothing whatever follows
them: those outside a line.
-/
theorem fragmentationIndependent_iff (maxBodySize : Nat) :
    (∀ data : Bytes,
      (∀ chunks : List Bytes, chunks.flatten = data →
          FragmentationIndependent maxBodySize chunks) ↔
        RefusedAtOnce data) ∧
      ∀ chunks : List Bytes,
        (∀ count last,
            FragmentationIndependent maxBodySize
              (chunks.take count ++ [last])) ↔
          ∀ count, OutsideLine maxBodySize (chunks.take count).flatten := by
  constructor
  · intro data
    constructor
    · intro independent
      cases data with
      | nil => exact ⟨by simp, Or.inl (by simp)⟩
      | cons byte others =>
          apply refusedAtOnce_of_sameOutcome
          simpa [FragmentationIndependent] using
            independent [[byte], others] (by simp)
    · rintro ⟨short, unsplit⟩ chunks rfl
      cases cut : segments lf chunks.flatten with
      | nil =>
          have empty := (segments_eq_nil_iff lf chunks.flatten).1 cut
          have noBytes : ∀ chunk ∈ chunks, chunk = [] := by
            simpa using empty
          have idle : (fresh maxBodySize).feedChunks chunks =
              (fresh maxBodySize, .incomplete) := by
            clear cut empty short unsplit
            induction chunks with
            | nil => rfl
            | cons chunk rest ih =>
                have := noBytes chunk (by simp)
                subst this
                exact ih fun chunk member => noBytes chunk (by simp [member])
          rw [FragmentationIndependent, idle, empty]
          exact SameOutcome.refl _
      | cons first rest =>
          rw [cut] at short unsplit
          rw [FragmentationIndependent,
            feedChunks_unsplit cut short unsplit,
            feed_unsplit cut short unsplit]
          exact SameOutcome.refl _
  · intro chunks
    constructor
    · intro independent
      by_contra harmful
      rw [not_forall] at harmful
      classical
      let count := Nat.find harmful
      have inside := Nat.find_spec harmful
      have earlier : ∀ index < count,
          OutsideLine maxBodySize (chunks.take index).flatten :=
        fun index less => not_not.1 (Nat.find_min harmful less)
      rcases exists_divergence inside with ⟨last, differs⟩
      apply differs
      have same := independent count last
      rwa [FragmentationIndependent, feedChunks_concat,
        feedChunks_take count earlier, List.flatten_append,
        List.flatten_singleton] at same
    · intro outside count last
      rw [FragmentationIndependent, feedChunks_concat,
        feedChunks_take count fun index _ => outside index,
        List.flatten_append, List.flatten_singleton,
        feed_append_of_outsideLine (outside count)]
      exact SameOutcome.refl _

/-- The chunks of the test `HandlesPartialRequestLine`. -/
theorem fragmentationIndependent_partialRequestLine :
    ¬ FragmentationIndependent defaultMaxBodySize
      [text "GET /index", text ".html HTTP/1.1\r\n",
        text "Host: localhost\r\n\r\n"] := by
  intro independent
  exact absurd independent.1 (by decide)

end Cppws.Http.HttpParser
