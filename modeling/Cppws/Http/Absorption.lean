import Cppws.Http.Progress

/-!
# After a final result

`set_error` and the completion of a request both leave the parser in the state
`Complete`, in which `feed` discards its input and returns `Complete`.  A
completed parser therefore stays completed and keeps its request; a refused one
is reported as completed by every later call.
-/

namespace Cppws.Http.HttpParser

/-- A call that changes the parser. -/
inductive Call where
  | feed (data : Bytes)
  | reset
  | takeResult

/-- The parser after a call. -/
def call (parser : HttpParser) : Call → HttpParser
  | .feed data => (parser.feed data).1
  | .reset => parser.reset
  | .takeResult => parser.takeResult.2

/-- The parser after a history of calls. -/
def history (parser : HttpParser) (calls : List Call) : HttpParser :=
  calls.foldl call parser

/-- The results of feeding again and again, each with the parser after it. -/
def laterFeeds (parser : HttpParser) :
    List Bytes → List (HttpParser × Result)
  | [] => []
  | data :: rest =>
      let fed := parser.feed data
      fed :: fed.1.laterFeeds rest

theorem parseLine_final {parser : HttpParser} {line : Bytes}
    (final : (parser.parseLine line).2 ≠ .incomplete) :
    (parser.parseLine line).1.state = .complete := by
  cases phase : parser.state with
  | requestLine =>
      rw [parseLine_requestLine phase] at final ⊢
      rcases parseRequestLine_cases parser line with
        ⟨_, _, _, _, _, equal⟩ | ⟨_, _, _, equal⟩
      · simp [equal] at final
      · rw [equal]
        rfl
  | headers =>
      rw [parseLine_headers phase] at final ⊢
      rcases parseHeaderLine_cases parser line with
        ⟨_, _, equal⟩ | ⟨_, _, _, equal⟩ | ⟨_, _, _, _, equal⟩ |
          ⟨_, _, _, equal⟩
      · rw [equal]
      · simp [equal] at final
      · simp [equal] at final
      · rw [equal]
        rfl
  | body => simp [parseLine, phase] at final
  | complete => simp [parseLine, phase] at final

/-- Every final result leaves the parser in the state `Complete`. -/
theorem feed_final {parser : HttpParser} {data : Bytes}
    (final : (parser.feed data).2 ≠ .incomplete) :
    (parser.feed data).1.state = .complete := by
  unfold feed at *
  generalize data.length = fuel at *
  induction fuel generalizing parser data with
  | zero => simpa [feedLoop, finish] using final
  | succ fuel ih =>
      simp only [feedLoop] at final ⊢
      split_ifs at final ⊢ with _ _ more _ done
      · simpa [finish] using final
      · rcases parseBody_cases parser data with ⟨_, equal⟩ | ⟨_, equal⟩
        · rw [equal]
        · simp [equal] at more
      · simpa [finish] using final
      · simpa [finish] using final
      · refine parseLine_final ?_
        rcases done with result | result <;> simp [result]
      · exact ih final

/-- In the state `Complete` every call returns `Complete`. -/
theorem feed_complete {parser : HttpParser} (halted : parser.state = .complete)
    (data : Bytes) :
    (parser.feed data).2 = .complete ∧
      (parser.feed data).1.state = .complete ∧
      (parser.feed data).1.request = parser.request := by
  unfold feed
  generalize data.length = fuel
  induction fuel generalizing parser data with
  | zero => simp [feedLoop, finish, halted]
  | succ fuel ih =>
      have cut : (parser.consumeLine data).1.state = .complete ∧
          (parser.consumeLine data).1.request = parser.request := by
        rcases consumeLine_cases parser data with equal | ⟨_, _, _, equal⟩
        · rw [equal]
          exact ⟨rfl, rfl⟩
        · rw [equal]
          exact ⟨halted, rfl⟩
      have idle (line : Bytes) :
          (parser.consumeLine data).1.parseLine line =
            ((parser.consumeLine data).1, .incomplete) := by
        simp only [parseLine, cut.1]
      simp only [feedLoop, halted, idle]
      split_ifs
      · simp [finish, halted]
      · simp_all
      · simp_all
      · simp [finish, cut]
      · simp_all
      · rw [← cut.2]
        exact ih (by exact cut.1) _

/--
After `Complete` every later call returns `Complete` with the same request;
after `Error` a later call never returns `Error`, so the error stays reported
only while there is no later call.
-/
theorem laterFeeds_absorbing_iff (maxBodySize : Nat) (calls : List Call)
    (data : Bytes) (later : List Bytes) :
    let first := ((fresh maxBodySize).history calls).feed data
    (first.2 = .complete →
        ∀ fed ∈ first.1.laterFeeds later,
          fed.2 = .complete ∧ fed.1.request = first.1.request) ∧
      (first.2 = .error →
        ((∀ fed ∈ first.1.laterFeeds later,
            fed.2 = .error ∧ fed.1.error = first.1.error) ↔
          later = [])) := by
  intro first
  constructor
  · intro complete
    have halted : first.1.state = .complete :=
      feed_final (by rw [complete]; decide)
    generalize first.1 = parser at halted
    induction later generalizing parser with
    | nil => simp [laterFeeds]
    | cons data later ih =>
        rcases feed_complete halted data with ⟨result, still, same⟩
        intro fed member
        rcases List.mem_cons.1 member with rfl | member
        · exact ⟨result, same⟩
        · rw [← same]
          exact ih _ still fed member
  · intro error
    have halted : first.1.state = .complete :=
      feed_final (by rw [error]; decide)
    constructor
    · intro absorbed
      cases later with
      | nil => rfl
      | cons data later =>
          have again := (absorbed _ (List.mem_cons_self ..)).1
          rw [(feed_complete halted data).1] at again
          cases again
    · rintro rfl
      simp [laterFeeds]

/-- The request of `RejectsMalformedRequestLine`, then one more byte. -/
theorem laterFeeds_after_malformed :
    let first := (fresh defaultMaxBodySize).feed (text "BADREQUEST\r\n\r\n")
    first.2 = .error ∧
      ¬ ∀ fed ∈ first.1.laterFeeds [text "x"],
        fed.2 = .error ∧ fed.1.error = first.1.error := by
  decide

end Cppws.Http.HttpParser
