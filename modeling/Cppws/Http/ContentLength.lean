import Mathlib.Data.Nat.Digits.Defs
import Cppws.Http.Grammar

/-!
# Framing by Content-Length

What `feed` makes of a request by the value of its only Content-Length line.
`content_length` reads the digits at the beginning of the value and takes a
value without any, or with too large a number, for an absent one.
-/

namespace Cppws.Http

open Segments HttpParser

/-! ## Numerals -/

def IsDigit (ch : UInt8) : Prop :=
  48 ≤ ch ∧ ch ≤ 57

instance (ch : UInt8) : Decidable (IsDigit ch) :=
  inferInstanceAs (Decidable (_ ∧ _))

def IsDecimal (value : Bytes) : Prop :=
  value ≠ [] ∧ ∀ ch ∈ value, IsDigit ch

instance (value : Bytes) : Decidable (IsDecimal value) :=
  -- Over the elements of the list, not over all bytes.
  have : Decidable (∀ ch ∈ value, IsDigit ch) :=
    List.decidableBAll IsDigit value
  inferInstanceAs (Decidable (_ ∧ _))

/-- The number that a string of digits denotes. -/
def numeral (digits : Bytes) : Nat :=
  Nat.ofDigits 10 (digits.reverse.map fun ch => ch.toNat - 48)

def leadingDigits (value : Bytes) : Bytes :=
  value.takeWhile fun ch => IsDigit ch

theorem numeral_concat (digits : Bytes) (ch : UInt8) :
    numeral (digits ++ [ch]) = numeral digits * 10 + (ch.toNat - 48) := by
  rw [numeral, List.reverse_concat, List.map_cons, Nat.ofDigits_cons]
  exact (Nat.add_comm _ _).trans (congrArg (· + _) (Nat.mul_comm _ _))

theorem foldl_eq_numeral (digits : Bytes) :
    digits.foldl (fun acc ch => acc * 10 + (ch.toNat - 48)) 0 =
      numeral digits := by
  induction digits using List.reverseRecOn with
  | nil => rfl
  | append_singleton digits ch ih =>
      rw [List.foldl_concat, ih, numeral_concat]

theorem leadingDigits_of_isDecimal {value : Bytes} (decimal : IsDecimal value) :
    leadingDigits value = value :=
  List.takeWhile_eq_self_iff.2 fun ch member =>
    decide_eq_true (decimal.2 ch member)

/-- What is read is the number of the leading digits, if there is one. -/
theorem fromChars_getD (value : Bytes) :
    (fromChars value).getD 0 =
      if numeral (leadingDigits value) < 2 ^ 64 then
        numeral (leadingDigits value)
      else
        0 := by
  have read : fromChars value =
      if leadingDigits value = [] then none
      else if numeral (leadingDigits value) < 2 ^ 64 then
        some (numeral (leadingDigits value))
      else none := by
    rw [← foldl_eq_numeral]
    rfl
  rw [read]
  split_ifs with empty small small
  · rw [empty]
    rfl
  · rfl
  · rfl
  · rfl

/-! ## The body after the head -/

theorem parseBody_ne_error (parser : HttpParser) (data : Bytes) :
    (parser.parseBody data).2 ≠ .error := by
  unfold HttpParser.parseBody
  dsimp only
  split_ifs <;>
    intro error <;>
    cases error

/-- Inside the body nothing is refused. -/
theorem feed_body_ne_error {parser : HttpParser} (phase : parser.state = .body)
    {data : Bytes} : (parser.feed data).2 ≠ .error := by
  by_cases empty : data = []
  · rw [empty]
    show (if parser.state = .complete then _ else _) ≠ _
    rw [phase]
    intro error
    cases error
  · rw [feed_body phase empty]
    exact parseBody_ne_error parser data

namespace RequestHead

variable (head : RequestHead) (maxBodySize : Nat)

/-- The one Content-Length line of the head has this value. -/
def Announces (value : Bytes) : Prop :=
  (head.fields.filter fun field => field.key = text "content-length").map
    (fun field => trim field.value) = [value]

instance (value : Bytes) : Decidable (head.Announces value) :=
  inferInstanceAs (Decidable (_ = _))

theorem contentLength_eq {value : Bytes} (announced : head.Announces value) :
    (head.parser maxBodySize).request.contentLength =
      (fromChars value).getD 0 := by
  have found : Field.last head.fields (text "content-length") = some value := by
    rw [Field.last, ← List.head?_filter, List.filter_reverse,
      ← List.head?_map, List.map_reverse,
      show List.map _ (List.filter _ head.fields) = [value] from announced]
    rfl
  have entered : (enterFields ∅ head.fields).lookup
      (toLower (text "content-length")) = some value := by
    rw [show toLower (text "content-length") = text "content-length" by decide,
      lookup_enterFields, found]
  have headers : (head.parser maxBodySize).request.headers =
      enterFields ∅ head.fields := rfl
  rw [HttpRequest.contentLength, HttpRequest.header, headers, entered]

/-- The whole request, as far as its length goes. -/
theorem feed_complete_or_not (rest : Bytes) :
    if (head.parser maxBodySize).request.contentLength ≤ rest.length ∧
        (head.parser maxBodySize).request.contentLength ≤ maxBodySize then
      ((fresh maxBodySize).feed (head.bytes ++ rest)).2 = .complete ∧
        ((fresh maxBodySize).feed (head.bytes ++ rest)).1.request.body =
          rest.take (head.parser maxBodySize).request.contentLength
    else
      ((fresh maxBodySize).feed (head.bytes ++ rest)).2 ≠ .complete := by
  have ends := resume_blank (head.parser maxBodySize) rfl rfl head.blankLine
    (segments lf rest)
  rw [feed_eq_resume (Or.inl rfl) rfl, head.scanHead_eq]
  rw [flatten_segments] at ends
  rw [show (head.parser maxBodySize).maxBodySize = maxBodySize from rfl] at ends
  split_ifs at ends ⊢ with framed
  · rw [ends]
    exact ⟨rfl, rfl⟩
  · exact ends

/-- A request is refused exactly if its length is above the limit. -/
theorem feed_error_iff (rest : Bytes) :
    ((fresh maxBodySize).feed (head.bytes ++ rest)).2 = .error ↔
      maxBodySize < (head.parser maxBodySize).request.contentLength := by
  rw [feed_eq_resume (Or.inl rfl) rfl, head.scanHead_eq, HttpParser.scanHead,
    if_neg (Nat.not_lt.2 head.blankLine.blank_fits), head.blankLine.lineOf,
    parseLine_headers rfl]
  simp only [HttpParser.parseHeaderLine, if_true]
  have limit : (head.parser maxBodySize).maxBodySize = maxBodySize := rfl
  by_cases positive : (head.parser maxBodySize).request.contentLength > 0
  · by_cases large :
        (head.parser maxBodySize).request.contentLength > maxBodySize
    · simp only [if_pos positive, limit, if_pos large]
      exact iff_of_true rfl large
    · simp only [if_pos positive, limit, if_neg large, if_true,
        HeadScan.resume]
      exact iff_of_false (feed_body_ne_error rfl) large
  · simp only [if_neg positive]
    refine iff_of_false (fun error => by cases error) fun large => ?_
    exact positive (Nat.zero_lt_of_lt large)

end RequestHead

/-! ## Which values frame the body -/

/-- What the value of a Content-Length line asks for. -/
structure Framed (maxBodySize : Nat) (value rest : Bytes)
    (outcome : HttpParser × Result) : Prop where
  exact_ : IsDecimal value → numeral value ≤ maxBodySize →
    outcome.2 = .complete ∧
      outcome.1.request.body = rest.take (numeral value)
  refused : IsDecimal value → maxBodySize < numeral value →
    outcome.2 = .error
  malformed : ¬ IsDecimal value → outcome.2 = .error

/--
The value denotes a number of 64 bits, or begins with digits for a number of 64
bits above the limit.
-/
def Framable (maxBodySize : Nat) (value : Bytes) : Prop :=
  IsDecimal value ∧ numeral value < 2 ^ 64 ∨
    maxBodySize < numeral (leadingDigits value) ∧
      numeral (leadingDigits value) < 2 ^ 64

instance (maxBodySize : Nat) (value : Bytes) :
    Decidable (Framable maxBodySize value) :=
  inferInstanceAs (Decidable (_ ∨ _))

section

variable {head : RequestHead} {maxBodySize : Nat} {value rest : Bytes}

/-- A value whose leading digits are a number of 64 bits. -/
theorem feed_of_numeral (announced : head.Announces value)
    (small : numeral (leadingDigits value) < 2 ^ 64)
    (enough : numeral (leadingDigits value) ≤ maxBodySize →
      numeral (leadingDigits value) ≤ rest.length) :
    if numeral (leadingDigits value) ≤ maxBodySize then
      ((fresh maxBodySize).feed (head.bytes ++ rest)).2 = .complete ∧
        ((fresh maxBodySize).feed (head.bytes ++ rest)).1.request.body =
          rest.take (numeral (leadingDigits value))
    else
      ((fresh maxBodySize).feed (head.bytes ++ rest)).2 = .error := by
  have length := head.contentLength_eq maxBodySize announced
  rw [fromChars_getD, if_pos small] at length
  have complete := head.feed_complete_or_not maxBodySize rest
  have error := head.feed_error_iff maxBodySize rest
  rw [length] at complete error
  split_ifs with fits
  · rw [if_pos ⟨enough fits, fits⟩] at complete
    exact complete
  · exact error.2 (Nat.not_le.1 fits)

/-- A number that 64 bits do not hold is taken for no number. -/
theorem feed_of_overflow (announced : head.Announces value)
    (large : ¬ numeral (leadingDigits value) < 2 ^ 64)
    (maxBodySize : Nat) (rest : Bytes) :
    ((fresh maxBodySize).feed (head.bytes ++ rest)).2 = .complete ∧
      ((fresh maxBodySize).feed (head.bytes ++ rest)).1.request.body = [] := by
  have length := head.contentLength_eq maxBodySize announced
  rw [fromChars_getD, if_neg large] at length
  have complete := head.feed_complete_or_not maxBodySize rest
  rw [length, if_pos ⟨Nat.zero_le _, Nat.zero_le _⟩] at complete
  exact complete

theorem framed_of_isDecimal (announced : head.Announces value)
    (decimal : IsDecimal value) (small : numeral value < 2 ^ 64)
    (enough : numeral value ≤ maxBodySize → numeral value ≤ rest.length) :
    Framed maxBodySize value rest
      ((fresh maxBodySize).feed (head.bytes ++ rest)) := by
  have same := leadingDigits_of_isDecimal decimal
  have outcome := feed_of_numeral announced (same.symm ▸ small)
    (same.symm ▸ enough)
  rw [same] at outcome
  constructor
  · intro _ fits
    rw [if_pos fits] at outcome
    exact outcome
  · intro _ above
    rw [if_neg (Nat.not_le.2 above)] at outcome
    exact outcome
  · exact fun malformed => absurd decimal malformed

/-- With too large a number the body is empty and nothing is refused. -/
theorem not_framed_of_overflow (announced : head.Announces value)
    (decimal : IsDecimal value) (large : ¬ numeral value < 2 ^ 64)
    (enough : numeral value ≤ maxBodySize → numeral value ≤ rest.length) :
    ¬ Framed maxBodySize value rest
      ((fresh maxBodySize).feed (head.bytes ++ rest)) := by
  intro framed
  have same := leadingDigits_of_isDecimal decimal
  rcases feed_of_overflow announced (same.symm ▸ large) maxBodySize rest with
    ⟨complete, empty⟩
  rcases Nat.lt_or_ge maxBodySize (numeral value) with above | fits
  · rw [framed.refused decimal above] at complete
    cases complete
  · have body := (framed.exact_ decimal fits).2
    rw [empty] at body
    have length := congrArg List.length body
    rw [List.length_take, Nat.min_eq_left (enough fits),
      List.length_nil] at length
    rw [← length] at large
    exact large (by decide)

/-- A value that is no numeral is refused exactly for its leading digits. -/
theorem framed_iff_of_malformed (announced : head.Announces value)
    (malformed : ¬ IsDecimal value) :
    Framed maxBodySize value rest
        ((fresh maxBodySize).feed (head.bytes ++ rest)) ↔
      maxBodySize < numeral (leadingDigits value) ∧
        numeral (leadingDigits value) < 2 ^ 64 := by
  have refused : Framed maxBodySize value rest
      ((fresh maxBodySize).feed (head.bytes ++ rest)) ↔
        ((fresh maxBodySize).feed (head.bytes ++ rest)).2 = .error := by
    constructor
    · exact fun framed => framed.malformed malformed
    · exact fun error =>
        ⟨fun decimal => absurd decimal malformed,
          fun decimal => absurd decimal malformed, fun _ => error⟩
  rw [refused, head.feed_error_iff, head.contentLength_eq _ announced,
    fromChars_getD]
  split_ifs with small
  · exact (and_iff_left small).symm
  · exact iff_of_false (Nat.not_lt_zero _) fun held => small held.2

/--
With one Content-Length line and enough bytes after the head, the body is
framed by the value, or the request refused, exactly if the value is a number
of 64 bits or begins with the digits of such a number above the limit.
-/
theorem content_length_framed_iff (announced : head.Announces value)
    (enough : IsDecimal value → numeral value ≤ maxBodySize →
      numeral value ≤ rest.length) :
    Framed maxBodySize value rest
        ((fresh maxBodySize).feed (head.bytes ++ rest)) ↔
      Framable maxBodySize value := by
  by_cases decimal : IsDecimal value
  · have same := leadingDigits_of_isDecimal decimal
    by_cases small : numeral value < 2 ^ 64
    · exact iff_of_true
        (framed_of_isDecimal announced decimal small (enough decimal))
        (Or.inl ⟨decimal, small⟩)
    · refine iff_of_false
        (not_framed_of_overflow announced decimal small (enough decimal)) ?_
      rintro (⟨_, fits⟩ | ⟨_, fits⟩)
      · exact small fits
      · exact small (same ▸ fits)
  · rw [framed_iff_of_malformed announced decimal]
    constructor
    · exact Or.inr
    · rintro (⟨numeric, _⟩ | above)
      · exact absurd numeric decimal
      · exact above

end

theorem supported_one : text "HTTP/1.1" = text "HTTP/1.1" ∨
    text "HTTP/1.1" = text "HTTP/1.0" :=
  Or.inl rfl

/-- `PUT / HTTP/1.1` with this line as its only header line. -/
def putHead (value : Bytes) (noLf : lf ∉ value)
    (noCr : popBackIf cr (text "content-length:" ++ value) =
      text "content-length:" ++ value)
    (fits : value.length ≤ 64) : RequestHead where
  first := text "PUT / HTTP/1.1\n"
  lines := [text "content-length:" ++ value ++ [lf]]
  blank := [lf]
  method := .PUT
  path := text "/"
  version := text "HTTP/1.1"
  fields := [⟨text "content-length", value, by decide⟩]
  firstLine := ⟨text "PUT / HTTP/1.1", by decide, by decide, by decide⟩
  headerLines := by
    refine .cons ⟨text "content-length:" ++ value, ?_, rfl, noCr.symm⟩ .nil
    rw [List.mem_append, not_or]
    exact ⟨by decide, noLf⟩
  blankLine := ⟨[], List.not_mem_nil, rfl, rfl⟩
  known := by decide
  pathFree := by decide
  supported := supported_one
  few := by
    intro count before
    cases Nat.lt_one_iff.1 before
    show 0 < maxHeaderCount
    decide
  fits := by
    intro line member
    rcases List.mem_cons.1 member with rfl | member
    · decide
    · rw [List.mem_singleton.1 member, List.length_append, List.length_append]
      exact Nat.le_trans (Nat.add_le_add_right (Nat.add_le_add_left fits _) _)
        (by decide)

/-- Five bytes are announced and two more follow. -/
theorem content_length_framed_iff_five :
    Framed 5 (text "5") (text "helloGE")
      ((fresh 5).feed
        ((putHead (text "5") (by decide) (by decide) (by decide)).bytes ++
          text "helloGE")) :=
  (content_length_framed_iff (by decide) (by decide)).2 (by decide)

/-- A body of 2 ^ 64 bytes is announced, and a request without body is read. -/
theorem content_length_overflow :
    ∃ (head : RequestHead) (value rest : Bytes),
      head.Announces value ∧ IsDecimal value ∧ 2 < numeral value ∧
        ((fresh 2).feed (head.bytes ++ rest)).2 = .complete ∧
        ¬ Framed 2 value rest ((fresh 2).feed (head.bytes ++ rest)) := by
  let value := text "18446744073709551616"
  let head := putHead value (by decide) (by decide) (by decide)
  have announced : head.Announces value := by decide
  have decimal : IsDecimal value := by decide
  have above : 2 < numeral value := by decide
  have complete : ((fresh 2).feed (head.bytes ++ text "ok")).2 = .complete := by
    decide
  refine ⟨head, value, text "ok", announced, decimal, above, complete, ?_⟩
  intro framed
  rw [framed.refused decimal above] at complete
  cases complete

end Cppws.Http
