import Cppws.Http.ContentLength

/-!
# The limit on header lines

`parse_header_line` compares the number of headers it has stored with
`MAX_HEADER_COUNT`, before it stores one more.  A header that has the name of an
earlier one replaces it, so that what is limited is the number of names before
the last line and not the number of lines.
-/

namespace Cppws.Http

open Segments
open HttpParser

/-- The result that a limit on the number of lines asks for. -/
structure CountsLines (lines : Nat) (result : Result) : Prop where
  accepted : lines ≤ maxHeaderCount → result = .complete
  refused : maxHeaderCount < lines → result = .error

/-! ## Names -/

theorem Field.names_mono {fields more : List Field}
    (sublist : fields.Sublist more) :
    Field.names fields ≤ Field.names more := by
  apply Finset.card_le_card
  intro key member
  rw [List.mem_toFinset] at member ⊢
  exact (sublist.map Field.key).subset member

theorem Field.names_le_length (fields : List Field) :
    Field.names fields ≤ fields.length :=
  (List.toFinset_card_le _).trans_eq (List.length_map _)

/-- The last line that is refused comes after all others. -/
theorem few_iff (fields : List Field) :
    (∀ count < fields.length,
        Field.names (fields.take count) < maxHeaderCount) ↔
      Field.names fields.dropLast < maxHeaderCount := by
  constructor
  · intro few
    cases fields with
    | nil => decide
    | cons field fields =>
        rw [List.dropLast_eq_take]
        exact few _ (Nat.lt_succ_self _)
  · intro few count before
    refine Nat.lt_of_le_of_lt (Field.names_mono ?_) few
    rw [List.dropLast_eq_take]
    exact List.take_sublist_take_left (Nat.le_sub_one_of_lt before)

/-! ## The line that is one too many -/

/-- A header line is refused when there is no room for another name. -/
theorem scanHead_tooMany {lines : List Bytes} {fields : List Field}
    (entered : List.Forall₂
      (fun line (field : Field) => IsLine line field.line)
      lines fields) (fits : ∀ line ∈ lines, line.length ≤ maxHeaderSize)
    {parser : HttpParser} (phase : parser.state = .headers)
    (full : ∃ count < fields.length, maxHeaderCount ≤
      (enterFields parser.request.headers (fields.take count)).keys.card)
    (more : List Bytes) :
    ∃ last, parser.scanHead (lines ++ more) = .returned last .error := by
  induction entered generalizing parser with
  | nil =>
      rcases full with ⟨count, before, -⟩
      cases before
  | @cons line field lines fields isLine _ ih =>
      have short := fits line List.mem_cons_self
      rw [List.cons_append, HttpParser.scanHead, if_neg (Nat.not_lt.2 short),
        isLine.lineOf, parseLine_headers phase]
      by_cases room : parser.request.headers.keys.card < maxHeaderCount
      · rw [Field.line, parseHeaderLine_colon field.noColon field.value room]
        have goesOn : (parser.entering [field]).state ≠ .body := by
          rw [show (parser.entering [field]).state = .headers from phase]
          decide
        have later := fun other member =>
          fits other (List.mem_cons_of_mem line member)
        rcases full with ⟨count, before, full⟩
        cases count with
        | zero => exact absurd room (Nat.not_lt.2 full)
        | succ count =>
            rcases ih later
              (show (parser.entering [field]).state = .headers from phase)
              ⟨count, Nat.lt_of_succ_lt_succ before, full⟩ with
              ⟨last, scanned⟩
            exact ⟨last, (if_neg goesOn).trans scanned⟩
      · rw [parseHeaderLine, if_neg field.line_ne_nil,
          if_pos (Nat.not_lt.1 room)]
        exact ⟨_, rfl⟩

namespace LongHead

/-- The body that is announced if all header lines are stored. -/
def contentLength (head : LongHead) : Nat :=
  ({ headers := enterFields ∅ head.fields } : HttpRequest).contentLength

/-- Every line is stored. -/
def toRequestHead (head : LongHead)
    (few : Field.names head.fields.dropLast < maxHeaderCount) : RequestHead :=
  { head with few := (few_iff head.fields).2 few }

/-- A line is refused. -/
theorem feed_tooMany (head : LongHead)
    (many : maxHeaderCount ≤ Field.names head.fields.dropLast)
    (maxBodySize : Nat) (rest : Bytes) :
    ((fresh maxBodySize).feed (head.bytes ++ rest)).2 = .error := by
  have full : ∃ count < head.fields.length,
      maxHeaderCount ≤
        (enterFields ∅ (head.fields.take count)).keys.card := by
    simpa only [keys_enterFields, Field.names, not_forall, Nat.not_lt,
      exists_prop] using mt (few_iff head.fields).1 (Nat.not_lt.2 many)
  rw [feed_eq_resume (Or.inl rfl) rfl, head.segments_append,
    List.cons_append, scanHead_requestLine head.firstLine head.known
      head.pathFree head.supported (head.fits head.first List.mem_cons_self)]
  have phase : ((fresh maxBodySize).starting head.method head.path
      head.version).state = .headers := rfl
  rcases scanHead_tooMany head.headerLines
    (fun line member => head.fits line (List.mem_cons_of_mem _ member)) phase
    full (head.blank :: segments lf rest) with ⟨last, scanned⟩
  rw [scanned]
  rfl

/-- The request is complete if the body is. -/
theorem feed_few (head : LongHead)
    (few : Field.names head.fields.dropLast < maxHeaderCount)
    {maxBodySize : Nat} {rest : Bytes}
    (within : head.contentLength ≤ maxBodySize)
    (supplied : head.contentLength ≤ rest.length) :
    ((fresh maxBodySize).feed (head.bytes ++ rest)).2 = .complete := by
  have ends := (head.toRequestHead few).feed_complete_or_not maxBodySize rest
  have announced : ((head.toRequestHead few).parser
      maxBodySize).request.contentLength = head.contentLength := rfl
  rw [announced, if_pos ⟨supplied, within⟩] at ends
  exact ends.1

end LongHead

/--
The number of header lines decides exactly if there are few of them, or if
those before the last one already have as many names as may be stored.
-/
theorem header_limit_iff (head : LongHead) {maxBodySize : Nat} {rest : Bytes}
    (within : head.contentLength ≤ maxBodySize)
    (supplied : head.contentLength ≤ rest.length) :
    CountsLines head.fields.length
        ((fresh maxBodySize).feed (head.bytes ++ rest)).2 ↔
      head.fields.length ≤ maxHeaderCount ∨
        maxHeaderCount ≤ Field.names head.fields.dropLast := by
  by_cases many : maxHeaderCount ≤ Field.names head.fields.dropLast
  · have fewer := Field.names_le_length head.fields.dropLast
    rw [List.length_dropLast] at fewer
    have above : maxHeaderCount < head.fields.length := by
      have limit : maxHeaderCount = 100 := rfl
      omega
    refine iff_of_true ⟨fun atMost => ?_, fun _ => ?_⟩ (Or.inr many)
    · exact absurd above (Nat.not_lt.2 atMost)
    · exact head.feed_tooMany many maxBodySize rest
  · have complete := head.feed_few (Nat.not_le.1 many) within supplied
    rw [complete, or_iff_left many]
    constructor
    · intro counts
      by_contra above
      cases counts.refused (Nat.not_le.1 above)
    · intro atMost
      exact ⟨fun _ => rfl, fun above => absurd above (Nat.not_lt.2 atMost)⟩

theorem get_known : Method.GET ≠ .UNKNOWN := by decide

theorem root_free : sp ∉ text "/" := by decide

theorem bareLf_isLine : IsLine [lf] [] :=
  ⟨[], List.not_mem_nil, rfl, rfl⟩

/-- `GET / HTTP/1.1` with so many equal header lines. -/
def repeatedHead (count : Nat) : LongHead where
  first := text "GET / HTTP/1.1\n"
  lines := List.replicate count (text "a:\n")
  blank := [lf]
  method := .GET
  path := text "/"
  version := text "HTTP/1.1"
  fields := List.replicate count ⟨text "a", [], by decide⟩
  firstLine := ⟨text "GET / HTTP/1.1", by decide, by decide, by decide⟩
  headerLines := by
    have line : IsLine (text "a:\n") (text "a:") :=
      ⟨text "a:", by decide, by decide, by decide⟩
    induction count with
    | zero => exact .nil
    | succ count ih => exact .cons line ih
  blankLine := bareLf_isLine
  known := get_known
  pathFree := root_free
  supported := supported_one
  fits := by
    intro line member
    rcases List.mem_cons.1 member with rfl | member
    · decide
    · rw [(List.mem_replicate.1 member).2]
      decide

theorem repeatedHead_contentLength (count : Nat) :
    (repeatedHead count).contentLength = 0 := by
  have unnamed : Field.last (repeatedHead count).fields
      (toLower (text "content-length")) = none := by
    have other : (⟨text "a", [], by decide⟩ : Field).key ≠
        toLower (text "content-length") := by decide
    simp [repeatedHead, Field.last, other]
  rw [LongHead.contentLength, HttpRequest.contentLength, HttpRequest.header,
    lookup_enterFields, unnamed]

theorem repeatedHead_names (count : Nat) :
    Field.names (repeatedHead count).fields.dropLast ≤ 1 := by
  refine (Finset.card_le_card ?_).trans (Finset.card_singleton (text "a")).le
  intro key member
  rw [repeatedHead, List.dropLast_replicate, List.map_replicate,
    List.mem_toFinset, List.mem_replicate] at member
  rw [Finset.mem_singleton, member.2]
  decide

theorem header_limit_iff_hundred :
    CountsLines 100 ((fresh 0).feed ((repeatedHead 100).bytes ++ [])).2 :=
  have none := repeatedHead_contentLength 100
  have supplied := none.trans_le (Nat.zero_le _)
  (header_limit_iff (repeatedHead 100) none.le supplied).2
    (Or.inl (Nat.le_refl 100))

/-- A request with 101 equal header lines is complete. -/
theorem header_limit_repeated :
    ((fresh 0).feed ((repeatedHead 101).bytes ++ [])).2 = .complete ∧
      ¬ CountsLines 101 ((fresh 0).feed
        ((repeatedHead 101).bytes ++ [])).2 := by
  have none := repeatedHead_contentLength 101
  have few : Field.names (repeatedHead 101).fields.dropLast < maxHeaderCount :=
    (repeatedHead_names 101).trans_lt (by decide)
  have complete :
      ((fresh 0).feed ((repeatedHead 101).bytes ++ [])).2 = .complete :=
    (repeatedHead 101).feed_few few none.le (none.trans_le (Nat.zero_le _))
  refine ⟨complete, fun counts => ?_⟩
  cases complete.symm.trans (counts.refused (by decide))

end Cppws.Http
