import Cppws.Foundation.BlankLine
import Cppws.App.WorkerTask
import Cppws.Http.Grammar

/-!
# Where a response ends

What a client that keeps its connection makes of a posted response: the lines
up to the first blank one, the length they announce, and what follows.  A
response with a string body announces its length unless the body is empty.  A
response with a file is followed by its string body, since the descriptor has
been taken out of it before it is serialized.
-/

namespace Cppws.App

open Cppws.Http
open BlankLine

/-! ## Reading a response -/

/-- The value of a line, if it is a `content-length` line. -/
def announcement (line : Bytes) : Option Bytes :=
  (find line colonByte 0).bind fun colon =>
    if toLower (line.take colon) = text "content-length" then
      some (trim (line.drop (colon + 1)))
    else
      none

/-- The values of the `content-length` lines. -/
def announcements (lines : List Bytes) : List Bytes :=
  lines.filterMap announcement

/--
There is one `content-length` line, and it announces the bytes after the first
blank line.
-/
def SelfDelimiting (data : Bytes) : Prop :=
  ∃ lines rest, cutHead cr lf [] data = some (lines, rest) ∧
    announcements lines = [decimal rest.length]

/--
Nothing follows the first blank line, there is one `content-length` line, it
announces the size of the file, and the file is the given one.
-/
def FileOnly (posting : Posting) (fileFd : Nat) : Prop :=
  (∃ lines, cutHead cr lf [] posting.data = some (lines, []) ∧
    ∃ size : Nat, posting.fileSize = size ∧
      announcements lines = [decimal size]) ∧
    posting.fileFd = some fileFd

/-! ## Building a response -/

/-- The response a handler begins with. -/
inductive Start where
  | default
  | makeError (code : Status) (detail : Bytes)
  | makeRedirect (location : Bytes)

def Start.response : Start → HttpResponse
  | .default => {}
  | .makeError code detail => .makeError code detail
  | .makeRedirect location => .makeRedirect location

/-- A call that changes a response. -/
inductive Build where
  | setStatus (code : Status)
  | setBody (body contentType : Bytes)
  | setHeader (name value : Bytes)
  | setSendfile (fileFd : Int) (fileSize : UInt64) (contentType : Bytes)

namespace Build

def apply (response : HttpResponse) : Build → HttpResponse
  | .setStatus code => response.setStatus code
  | .setBody body contentType => response.setBody body contentType
  | .setHeader name value => response.setHeader name value
  | .setSendfile fileFd fileSize contentType =>
      response.setSendfile fileFd fileSize contentType

/-- What is set by `set_sendfile`. -/
def sendfile : Build → Option (Int × UInt64)
  | .setSendfile fileFd fileSize _ => some (fileFd, fileSize)
  | _ => none

/-- `set_header` is not called for `content-length`. -/
def LeavesLength : Build → Prop
  | .setHeader name _ => toLower name ≠ text "content-length"
  | _ => True

end Build

/-- A response that a handler has built. -/
def built (start : Start) (builds : List Build) : HttpResponse :=
  builds.foldl Build.apply start.response

/-- No CR or LF. -/
def Clean (str : Bytes) : Prop :=
  cr ∉ str ∧ lf ∉ str

instance (str : Bytes) : Decidable (Clean str) :=
  inferInstanceAs (Decidable (_ ∧ _))

/-- The location of a redirect is clean. -/
def Start.Plain : Start → Prop
  | .makeRedirect location => Clean location
  | _ => True

/-- A call for a response with a string body. -/
def Build.Plain : Build → Prop
  | .setStatus code => code ≠ .NoContent ∧ code ≠ .NotModified
  | .setBody _ contentType => Clean contentType
  | .setHeader name value =>
      Clean name ∧ Clean value ∧ toLower name ≠ text "content-length"
  | .setSendfile _ _ _ => False

/-! ## The pieces of a serialized response -/

namespace Serialized

/-- The line of a header, without its end. -/
def piece (header : Sigma fun _ : Bytes => Bytes) : Bytes :=
  header.1 ++ text ": " ++ header.2

def statusLine (response : HttpResponse) : Bytes :=
  text "HTTP/1.1 " ++ decimal response.status.code ++ text " " ++
    statusToReason response.status

/-- The length that `serialize` announces by itself. -/
def automatic (response : HttpResponse) : List Bytes :=
  if response.body ≠ [] ∧
      response.headers.lookup (text "content-length") = none ∧
      response.hasSendfile = false then
    [piece ⟨text "content-length", decimal response.body.length⟩]
  else
    []

def pieces (response : HttpResponse) : List Bytes :=
  statusLine response :: response.headers.entries.map piece ++
    automatic response

theorem serialize_eq (response : HttpResponse) :
    response.serialize =
      ((pieces response).flatMap fun piece => piece ++ [cr, lf]) ++
        cr :: lf :: if response.hasSendfile then [] else response.body := by
  have headers : ∀ entries : List (Sigma fun _ : Bytes => Bytes),
      (entries.flatMap fun header =>
        HttpResponse.headerLine header.1 header.2) =
        (entries.map piece).flatMap fun piece => piece ++ [cr, lf] := by
    intro entries
    induction entries with
    | nil => rfl
    | cons header entries ih =>
        rw [List.flatMap_cons, ih]
        rfl
  have length :
      (if response.body ≠ [] ∧
          response.headers.lookup (text "content-length") = none ∧
          response.hasSendfile = false then
        HttpResponse.headerLine (text "content-length")
          (decimal response.body.length)
      else
        []) =
        (automatic response).flatMap fun piece => piece ++ [cr, lf] := by
    rw [automatic]
    split_ifs
    · simp [HttpResponse.headerLine, piece, crlf]
    · rfl
  rw [HttpResponse.serialize, headers, length, pieces, statusLine]
  simp [crlf]

/-! ## What the pieces announce -/

theorem digit_of_mem_decimal {n : Nat} {ch : UInt8}
    (member : ch ∈ decimal n) :
    48 ≤ ch ∧ ch ≤ 57 := by
  rcases List.mem_map.1 member with ⟨digit, among, rfl⟩
  have isDigit := Nat.isDigit_of_mem_toDigits (by decide) (by decide) among
  rw [Char.isDigit, Bool.and_eq_true, decide_eq_true_eq, decide_eq_true_eq]
    at isDigit
  have atLeast : 48 ≤ digit.toNat := isDigit.1
  have atMost : digit.toNat ≤ 57 := isDigit.2
  rw [UInt8.le_iff_toNat_le, UInt8.le_iff_toNat_le, UInt8.toNat_ofNat']
  show 48 ≤ digit.toNat % 256 ∧ digit.toNat % 256 ≤ 57
  rw [Nat.mod_eq_of_lt (Nat.lt_of_le_of_lt atMost (by decide))]
  exact ⟨atLeast, atMost⟩

theorem not_mem_decimal {n : Nat} {ch : UInt8}
    (other : ch < 48 ∨ 57 < ch) : ch ∉ decimal n := by
  intro member
  rcases digit_of_mem_decimal member with ⟨atLeast, atMost⟩
  rcases other with less | more
  · exact absurd atLeast (UInt8.not_le.2 less)
  · exact absurd atMost (UInt8.not_le.2 more)

/-- A value without SP and HT, after the SP that separates it. -/
theorem trim_separated {value : Bytes} (spFree : sp ∉ value)
    (htFree : ht ∉ value) : trim (sp :: value) = value := by
  have kept : ∀ str : Bytes, sp ∉ str → ht ∉ str →
      str.dropWhile (fun ch => ch = sp ∨ ch = ht) = str := by
    intro str noSp noHt
    cases str with
    | nil => rfl
    | cons ch str =>
        rw [List.mem_cons, not_or] at noSp noHt
        rw [List.dropWhile_cons_of_neg]
        simp [Ne.symm noSp.1, Ne.symm noHt.1]
  have dropped : (sp :: value).dropWhile (fun ch => ch = sp ∨ ch = ht) =
      value := by
    rw [List.dropWhile_cons_of_pos (by decide)]
    exact kept value spFree htFree
  rw [trim, dropped, kept, List.reverse_reverse]
  · rwa [List.mem_reverse]
  · rwa [List.mem_reverse]

/-- Trimming removes nothing else. -/
theorem mem_trim {ch : UInt8} (notSp : ch ≠ sp) (notHt : ch ≠ ht)
    {str : Bytes} (member : ch ∈ str) : ch ∈ trim str := by
  have kept : ∀ str : Bytes, ch ∈ str →
      ch ∈ str.dropWhile (fun ch => ch = sp ∨ ch = ht) := by
    intro str member
    induction str with
    | nil => exact member
    | cons first str ih =>
        rw [List.dropWhile_cons]
        split_ifs with space
        · rcases List.mem_cons.1 member with rfl | later
          · simp [notSp, notHt] at space
          · exact ih later
        · exact member
  rw [trim, List.mem_reverse]
  apply kept
  rw [List.mem_reverse]
  exact kept str member

/-- A line is read up to its first colon. -/
theorem announcement_cut {before : Bytes} (free : colonByte ∉ before)
    (after : Bytes) :
    announcement (before ++ colonByte :: after) =
      if toLower before = text "content-length" then some (trim after)
      else none := by
  have rest : (before ++ colonByte :: after).drop (before.length + 1) =
      after := by
    rw [List.drop_append]
    simp
  rw [announcement, find_append free, Option.bind_some, List.take_left, rest]

theorem announcement_of_not_mem {line : Bytes} (free : colonByte ∉ line) :
    announcement line = none := by
  have notFound : find line colonByte 0 = none := by
    rw [find, Option.map_eq_none_iff, List.drop_zero,
      List.findIdx?_eq_none_iff]
    intro ch member
    simpa using ne_of_mem_of_not_mem member free
  rw [announcement, notFound, Option.bind_none]

theorem piece_eq (name value : Bytes) :
    piece ⟨name, value⟩ = name ++ colonByte :: (sp :: value) := by
  simp only [piece, List.append_assoc]
  rfl

/-- The line that `serialize` or `set_sendfile` adds. -/
theorem announcement_length (n : Nat) :
    announcement (piece ⟨text "content-length", decimal n⟩) =
      some (decimal n) := by
  have spFree : sp ∉ decimal n := not_mem_decimal (Or.inl (by decide))
  have htFree : ht ∉ decimal n := not_mem_decimal (Or.inl (by decide))
  rw [piece_eq, announcement_cut (by decide), if_pos (by decide),
    trim_separated spFree htFree]

/-- The line of another header announces nothing that is a number. -/
theorem announcement_header {name : Bytes} (lower : toLower name = name)
    (other : name ≠ text "content-length") (value : Bytes) :
    if text "content-length:" <+: name then
      ∃ announced, announcement (piece ⟨name, value⟩) = some announced ∧
        colonByte ∈ announced
    else
      announcement (piece ⟨name, value⟩) = none := by
  rw [piece_eq]
  by_cases inName : colonByte ∈ name
  · rcases List.eq_append_cons_of_mem inName with
      ⟨before, after, rfl, free⟩
    have lowerBefore : toLower before = before := by
      rw [toLower, List.map_append] at lower
      exact (List.append_inj lower (by simp)).1
    rw [List.append_assoc, List.cons_append, announcement_cut free,
      lowerBefore]
    have prefix_iff : text "content-length:" <+:
        before ++ colonByte :: after ↔ before = text "content-length" := by
      have named : text "content-length:" =
          text "content-length" ++ [colonByte] := by decide
      rw [named]
      constructor
      · rintro ⟨rest, equal⟩
        rw [List.append_assoc, List.singleton_append] at equal
        have found := find_append free after
        rw [← equal, find_append (by decide)] at found
        exact (List.append_inj equal (Option.some.inj found)).1.symm
      · rintro rfl
        exact ⟨after, by rw [List.append_assoc, List.singleton_append]⟩
    by_cases same : before = text "content-length"
    · rw [if_pos same, if_pos (prefix_iff.2 same)]
      exact ⟨_, rfl, mem_trim (by decide) (by decide) (by simp)⟩
    · rw [if_neg same, if_neg (mt prefix_iff.1 same)]
  · have noPrefix : ¬ text "content-length:" <+: name := fun begins =>
      inName (begins.subset (by decide))
    rw [if_neg noPrefix, announcement_cut inName, lower, if_neg other]

/-- The status line announces nothing and has no line ending. -/
theorem statusLine_free (response : HttpResponse) :
    colonByte ∉ statusLine response ∧ cr ∉ statusLine response := by
  have number : ∀ ch : UInt8, 57 < ch ∨ ch < 48 →
      ch ∉ decimal response.status.code := by
    intro ch other
    exact not_mem_decimal other.symm
  have reason : colonByte ∉ statusToReason response.status ∧
      cr ∉ statusToReason response.status := by
    cases response.status <;> decide
  constructor
  · simp only [statusLine, List.mem_append, not_or]
    exact ⟨⟨⟨by decide, number _ (Or.inl (by decide))⟩, by decide⟩,
      reason.1⟩
  · simp only [statusLine, List.mem_append, not_or]
    exact ⟨⟨⟨by decide, number _ (Or.inr (by decide))⟩, by decide⟩,
      reason.2⟩

/-- A line of a piece without a line ending. -/
theorem linesOf_clean {line : Bytes} (free : cr ∉ line)
    (nonempty : line ≠ []) : linesOf cr lf [] line = some [line] :=
  linesOf_of_not_mem free List.not_mem_nil nonempty

theorem linesOf_statusLine (response : HttpResponse) :
    linesOf cr lf [] (statusLine response) = some [statusLine response] :=
  linesOf_clean (statusLine_free response).2 (by simp [statusLine, text])

theorem piece_ne_nil (header : Sigma fun _ : Bytes => Bytes) :
    piece header ≠ [] := by
  simp [piece, text]

/-- A header line that is one line. -/
theorem linesOf_piece {name value : Bytes} (nameFree : cr ∉ name)
    (valueFree : cr ∉ value) :
    linesOf cr lf [] (piece ⟨name, value⟩) =
      some [piece ⟨name, value⟩] := by
  apply linesOf_clean _ (piece_ne_nil _)
  rw [piece_eq]
  simp [nameFree, valueFree, cr, colonByte, sp]

end Serialized

/-! ## Responses with a string body -/

/-- A name under which a header can be stored. -/
def Fixed (name : Bytes) : Prop :=
  toLower name = name ∧ name ≠ text "content-length" ∧ cr ∉ name

instance (name : Bytes) : Decidable (Fixed name) :=
  inferInstanceAs (Decidable (_ ∧ _))

/-- What holds of a response built without a file. -/
structure StringResponse (response : HttpResponse) : Prop where
  noFile : response.sendfileFd = none
  named : ∀ header ∈ response.headers.entries,
    Fixed header.1 ∧ cr ∉ header.2

/-- What holds of all headers holds when one is set that it holds of. -/
theorem forall_insert {property : (Sigma fun _ : Bytes => Bytes) → Prop}
    {headers : AList fun _ : Bytes => Bytes} {name value : Bytes}
    (all : ∀ header ∈ headers.entries, property header)
    (new : property ⟨name, value⟩) :
    ∀ header ∈ (headers.insert name value).entries, property header := by
  intro header member
  have member : header ∈
      ⟨name, value⟩ :: headers.entries.kerase name := member
  rcases List.mem_cons.1 member with rfl | old
  · exact new
  · exact all header ((List.kerase_sublist _ _).subset old)

theorem toLower_toLower (str : Bytes) :
    toLower (toLower str) = toLower str := by
  have once : ∀ ch, toLowerByte (toLowerByte ch) = toLowerByte ch := by
    intro ch
    by_cases upper : 65 ≤ ch ∧ ch ≤ 90
    · rw [toLowerByte, toLowerByte, if_pos upper, if_neg]
      grind
    · rw [toLowerByte, toLowerByte, if_neg upper, if_neg upper]
  rw [toLower, toLower, List.map_map]
  exact List.map_congr_left fun ch _ => once ch

/-- Lower-casing adds letters only. -/
theorem not_mem_toLower {ch : UInt8} (other : ch < 97) {str : Bytes}
    (free : ch ∉ str) : ch ∉ toLower str := by
  rw [toLower, List.mem_map]
  rintro ⟨source, member, same⟩
  have untouched : source = ch := by
    unfold toLowerByte at same
    split_ifs at same with upper
    · grind
    · exact same
  exact free (untouched ▸ member)

theorem contentType_fixed : Fixed (text "content-type") := by
  decide

namespace StringResponse

theorem start {start : Start} (plain : start.Plain) :
    StringResponse start.response := by
  cases start with
  | default => exact ⟨rfl, nofun⟩
  | makeError code detail =>
      exact ⟨rfl, forall_insert nofun ⟨contentType_fixed, by decide⟩⟩
  | makeRedirect location =>
      have fixed : Fixed (text "location") := by decide
      exact ⟨rfl, forall_insert nofun ⟨fixed, plain.1⟩⟩

theorem setHeader {response : HttpResponse} (string : StringResponse response)
    {name value : Bytes} (other : toLower name ≠ text "content-length")
    (nameFree : cr ∉ name) (valueFree : cr ∉ value) :
    StringResponse (response.setHeader name value) :=
  ⟨string.noFile, forall_insert string.named
    ⟨⟨toLower_toLower name, other, not_mem_toLower (by decide) nameFree⟩,
      valueFree⟩⟩

theorem apply {response : HttpResponse} (string : StringResponse response)
    {build : Build} (plain : build.Plain) :
    StringResponse (build.apply response) := by
  cases build with
  | setStatus code => exact ⟨string.noFile, string.named⟩
  | setBody body contentType =>
      exact ⟨string.noFile,
        forall_insert string.named ⟨contentType_fixed, plain.1⟩⟩
  | setHeader name value =>
      exact string.setHeader plain.2.2 plain.1.1 plain.2.1.1
  | setSendfile => exact plain.elim

theorem built {start : Start} {builds : List Build}
    (plainStart : start.Plain) (plain : ∀ build ∈ builds, build.Plain) :
    StringResponse (App.built start builds) := by
  apply List.foldlRecOn builds
  · exact StringResponse.start plainStart
  · intro response string build member
    exact string.apply (plain build member)

/-- The response that is posted. -/
theorem posted {response serialized : HttpResponse}
    (string : StringResponse response) (keepAlive : Bool)
    (reorders : Reorders (completed response keepAlive).takeSendfileFd.2
      serialized) : StringResponse serialized := by
  have named : ∀ header ∈ (completed response keepAlive).headers.entries,
      Fixed header.1 ∧ cr ∉ header.2 := by
    apply forall_insert string.named
    cases keepAlive <;> decide
  exact ⟨reorders.sendfileFd, fun header member =>
    named header (reorders.headers.mem_iff.1 member)⟩

end StringResponse

/-- No header name passes for a `content-length` line. -/
def HonestNames (response : HttpResponse) : Prop :=
  ∀ name ∈ response.headers.keys, ¬ text "content-length:" <+: name

instance (response : HttpResponse) : Decidable (HonestNames response) :=
  inferInstanceAs (Decidable (∀ name ∈ _, _))

/-- The headers announce nothing exactly if their names are honest. -/
theorem announcements_headers
    {headers : List (Sigma fun _ : Bytes => Bytes)}
    (fixed : ∀ header ∈ headers, Fixed header.1) :
    (announcements (headers.map Serialized.piece) = [] ↔
        ∀ header ∈ headers, ¬ text "content-length:" <+: header.1) ∧
      ∀ announced ∈ announcements (headers.map Serialized.piece),
        colonByte ∈ announced := by
  have one : ∀ header ∈ headers,
      if text "content-length:" <+: header.1 then
        ∃ announced,
          announcement (Serialized.piece header) = some announced ∧
            colonByte ∈ announced
      else
        announcement (Serialized.piece header) = none :=
    fun header member => Serialized.announcement_header
      (fixed header member).1 (fixed header member).2.1 header.2
  constructor
  · rw [announcements, List.filterMap_eq_nil_iff, List.forall_mem_map]
    refine forall₂_congr fun header member => ?_
    have here := one header member
    split_ifs at here with dishonest
    · rcases here with ⟨announced, equal, _⟩
      simp [equal, dishonest]
    · simp [here, dishonest]
  · intro announced member
    rcases List.mem_filterMap.1 member with ⟨line, among, equal⟩
    rcases List.mem_map.1 among with ⟨header, inHeaders, rfl⟩
    have here := one header inHeaders
    split_ifs at here
    · rcases here with ⟨other, equal', colon⟩
      rw [equal', Option.some.injEq] at equal
      exact equal ▸ colon
    · rw [here] at equal
      cases equal

/-- Every piece of a string response is one line. -/
theorem StringResponse.linesOf_pieces {response : HttpResponse}
    (string : StringResponse response) :
    ∀ piece ∈ Serialized.pieces response,
      linesOf cr lf [] piece = some [piece] := by
  intro piece member
  rw [Serialized.pieces, List.cons_append, List.mem_cons, List.mem_append]
    at member
  rcases member with rfl | header | automatic
  · exact Serialized.linesOf_statusLine response
  · rcases List.mem_map.1 header with ⟨entry, among, rfl⟩
    rcases string.named entry among with ⟨⟨_, _, nameFree⟩, valueFree⟩
    exact Serialized.linesOf_piece nameFree valueFree
  · unfold Serialized.automatic at automatic
    split_ifs at automatic
    · rw [List.mem_singleton] at automatic
      rw [automatic]
      exact Serialized.linesOf_piece (by decide)
        (Serialized.not_mem_decimal (Or.inl (by decide)))
    · cases automatic

/-- What a client reads of a string response. -/
theorem StringResponse.cutHead_serialize {response : HttpResponse}
    (string : StringResponse response) :
    cutHead cr lf [] response.serialize =
      some (Serialized.pieces response, response.body) := by
  have lines := string.linesOf_pieces
  have noFile : response.hasSendfile = false := by
    rw [HttpResponse.hasSendfile, string.noFile]
    rfl
  rw [Serialized.serialize_eq, noFile, cutHead_pieces (by decide)]
  · have whole : ((Serialized.pieces response).flatMap fun piece =>
        (linesOf cr lf [] piece).getD []) =
          (Serialized.pieces response).flatMap fun piece => [piece] :=
      List.flatMap_congr fun piece member => by rw [lines piece member]; rfl
    rw [whole, List.flatMap_singleton']
    rfl
  · exact fun piece member => by rw [lines piece member]; rfl

/-- What the headers announce, and the length that is added to them. -/
theorem StringResponse.announcements_pieces {response : HttpResponse}
    (string : StringResponse response) :
    announcements (Serialized.pieces response) =
      announcements (response.headers.entries.map Serialized.piece) ++
        if response.body = [] then []
        else [decimal response.body.length] := by
  have status := Serialized.announcement_of_not_mem
    (Serialized.statusLine_free response).1
  have unannounced : response.headers.lookup (text "content-length") =
      none := by
    rw [AList.lookup_eq_none]
    intro member
    rcases List.exists_of_mem_keys member with ⟨value, among⟩
    exact (string.named _ among).1.2.1 rfl
  have noFile : response.hasSendfile = false := by
    rw [HttpResponse.hasSendfile, string.noFile]
    rfl
  rw [Serialized.pieces, List.cons_append, announcements,
    List.filterMap_cons_none status, List.filterMap_append,
    Serialized.automatic]
  by_cases empty : response.body = []
  · rw [if_pos empty, if_neg fun held => held.1 empty]
    rfl
  · rw [if_neg empty, if_pos ⟨empty, unannounced, noFile⟩,
      List.filterMap_cons_some (Serialized.announcement_length _)]
    rfl

/--
A response with a string body announces where it ends exactly if the body is
not empty and no header name passes for a `content-length` line.
-/
theorem string_selfDelimiting_iff (start : Start) (builds : List Build)
    (plainStart : start.Plain) (plain : ∀ build ∈ builds, build.Plain)
    (keepAlive : Bool) (posting : Posting)
    (posts : Posts (built start builds) keepAlive posting) :
    SelfDelimiting posting.data ↔
      (built start builds).body ≠ [] ∧
        HonestNames (built start builds) := by
  rcases posts with ⟨serialized, reorders⟩
  have string := (StringResponse.built plainStart plain).posted keepAlive
    reorders
  have body : serialized.body = (built start builds).body := reorders.body
  have headers := announcements_headers fun header member =>
    (string.named header member).1
  have honest : (∀ header ∈ serialized.headers.entries,
      ¬ text "content-length:" <+: header.1) ↔
        HonestNames (built start builds) := by
    constructor
    · intro all name member
      have posted : name ∈ serialized.headers :=
        (AList.mem_of_perm reorders.headers).2
          ((AList.mem_insert _).2 (Or.inr member))
      rcases List.exists_of_mem_keys posted with ⟨value, among⟩
      exact all _ among
    · intro all header among
      have posted : header.1 ∈ serialized.headers :=
        List.mem_keys_of_mem among
      rcases (AList.mem_insert _).1
        ((AList.mem_of_perm reorders.headers).1 posted) with same | member
      · rw [same]
        decide
      · exact all header.1 member
  rw [← honest, ← headers.1, ← body]
  unfold SelfDelimiting
  rw [string.cutHead_serialize]
  constructor
  · rintro ⟨lines, rest, cut, announced⟩
    cases cut
    rw [string.announcements_pieces] at announced
    split_ifs at announced with empty
    · rw [List.append_nil] at announced
      have colon := headers.2 (decimal serialized.body.length)
        (announced ▸ List.mem_singleton_self _)
      exact absurd colon (Serialized.not_mem_decimal (Or.inr (by decide)))
    · exact ⟨empty, List.append_left_eq_self.1 announced⟩
  · rintro ⟨nonempty, none⟩
    refine ⟨_, _, rfl, ?_⟩
    rw [string.announcements_pieces, none, if_neg nonempty, List.nil_append]

theorem string_selfDelimiting_notFound :
    SelfDelimiting
      (posting (built (.makeError .NotFound []) [.setStatus .Ok]) true).data :=
  (string_selfDelimiting_iff (.makeError .NotFound []) [.setStatus .Ok] trivial
    (by
      intro build member
      rw [List.mem_singleton.1 member]
      exact ⟨nofun, nofun⟩)
    true _ (posts_posting _ true)).2 ⟨by decide, by decide⟩

/-- A redirect on a connection that is kept announces no length. -/
theorem string_selfDelimiting_redirect :
    ¬ ∀ (start : Start) (builds : List Build), start.Plain →
        (∀ build ∈ builds, build.Plain) →
          ∀ keepAlive posting,
            Posts (built start builds) keepAlive posting →
            SelfDelimiting posting.data := by
  intro always
  have posts := posts_posting (built (.makeRedirect (text "/")) []) true
  have plain : Clean (text "/") := by decide
  rcases always (.makeRedirect (text "/")) [] plain nofun true _ posts
    with ⟨lines, rest, cut, announced⟩
  have nothing : (cutHead cr lf []
      (posting (built (.makeRedirect (text "/")) []) true).data).map
        (fun cut => announcements cut.1) = some [] := by
    decide
  rw [cut, Option.map_some, announced] at nothing
  cases nothing

/-! ## Responses with a file -/

/-- What holds of a response after `set_sendfile`. -/
structure FileResponse (response : HttpResponse) (fileFd : Int)
    (fileSize : UInt64) : Prop where
  file : response.sendfileFd = if 0 ≤ fileFd then some fileFd.toNat else none
  size : response.sendfileSize = fileSize
  announced : response.headers.lookup (text "content-length") =
    some (decimal fileSize.toNat)

theorem FileResponse.apply {response : HttpResponse} {fileFd : Int}
    {fileSize : UInt64} (file : FileResponse response fileFd fileSize)
    {build : Build} (leaves : build.LeavesLength)
    (other : build.sendfile = none) :
    FileResponse (build.apply response) fileFd fileSize := by
  cases build with
  | setStatus code => exact ⟨file.file, file.size, file.announced⟩
  | setBody body contentType =>
      refine ⟨file.file, file.size, ?_⟩
      exact (AList.lookup_insert_ne (by decide)).trans file.announced
  | setHeader name value =>
      refine ⟨file.file, file.size, ?_⟩
      exact (AList.lookup_insert_ne (Ne.symm leaves)).trans file.announced
  | setSendfile => cases other

theorem FileResponse.setSendfile (response : HttpResponse) (fileFd : Int)
    (fileSize : UInt64) (contentType : Bytes) :
    FileResponse (response.setSendfile fileFd fileSize contentType) fileFd
      fileSize :=
  ⟨rfl, rfl, AList.lookup_insert _⟩

/-- The last `set_sendfile` is the one that counts. -/
theorem FileResponse.foldl {builds : List Build} {response : HttpResponse}
    {last : Option (Int × UInt64)}
    (before : ∀ fileFd fileSize, last = some (fileFd, fileSize) →
      FileResponse response fileFd fileSize)
    (leaves : ∀ build ∈ builds, build.LeavesLength) {fileFd : Int}
    {fileSize : UInt64}
    (set : (builds.filterMap Build.sendfile).getLast?.or last =
      some (fileFd, fileSize)) :
    FileResponse (builds.foldl Build.apply response) fileFd fileSize := by
  induction builds generalizing response last with
  | nil => exact before fileFd fileSize set
  | cons build builds ih =>
      have leavesHere := leaves build List.mem_cons_self
      have leavesLater := fun other member =>
        leaves other (List.mem_cons_of_mem build member)
      cases sets : build.sendfile with
      | none =>
          rw [List.filterMap_cons_none sets] at set
          refine ih (fun fd size same => ?_) leavesLater set
          exact (before fd size same).apply leavesHere sets
      | some pair =>
          rw [List.filterMap_cons_some sets, List.getLast?_cons] at set
          have here : ∀ fd size, some pair = some (fd, size) →
              FileResponse (build.apply response) fd size := by
            intro fd size same
            cases build with
            | setStatus | setBody | setHeader => cases sets
            | setSendfile newFd newSize contentType =>
                cases sets
                cases same
                exact .setSendfile response _ _ contentType
          have later : (builds.filterMap Build.sendfile).getLast?.or
              (some pair) = some (fileFd, fileSize) := by
            rw [← set]
            cases (builds.filterMap Build.sendfile).getLast? <;> rfl
          exact ih here leavesLater later

/-- But for `connection` and `content-length`, no header has a line that is
blank or that announces a length. -/
def WholeHeaders (response : HttpResponse) : Prop :=
  ∀ header ∈ response.headers.entries, header.1 ≠ text "connection" →
    header.1 ≠ text "content-length" →
      (linesOf cr lf [] (Serialized.piece header)).map announcements = some []

instance (response : HttpResponse) : Decidable (WholeHeaders response) :=
  inferInstanceAs (Decidable (∀ header ∈ _, _))

/-- Of two values for a header that is stored once, one is the other. -/
theorem eq_of_header {headers : AList fun _ : Bytes => Bytes}
    {header : Sigma fun _ : Bytes => Bytes} {name value : Bytes}
    (stored : ⟨name, value⟩ ∈ headers.entries)
    (member : header ∈ headers.entries) (same : header.1 = name) :
    header = ⟨name, value⟩ :=
  headers.nodupKeys.eq_of_fst_eq member stored same

/-- One item accounts for all that a list yields if the others yield nothing. -/
theorem flatMap_eq_singleton_iff {α β : Type} {items : List α}
    {yield : α → List β} {item : α} {result : β} (once : items.Nodup)
    (member : item ∈ items) (alone : yield item = [result]) :
    items.flatMap yield = [result] ↔
      ∀ other ∈ items, other ≠ item → yield other = [] := by
  rcases List.append_of_mem member with ⟨before, after, rfl⟩
  rw [List.flatMap_append, List.flatMap_cons, alone]
  have apart := List.nodup_middle.1 once
  rw [List.nodup_cons, List.mem_append, not_or] at apart
  constructor
  · intro whole
    have size := congrArg List.length whole
    simp only [List.length_append, List.length_singleton] at size
    have first := List.eq_nil_of_length_eq_zero
      (show (before.flatMap yield).length = 0 by omega)
    have second := List.eq_nil_of_length_eq_zero
      (show (after.flatMap yield).length = 0 by omega)
    intro other among different
    rcases List.mem_append.1 among with early | late
    · exact List.flatMap_eq_nil_iff.1 first other early
    · exact List.flatMap_eq_nil_iff.1 second other
        (List.mem_of_ne_of_mem different late)
  · intro nothing
    have first : before.flatMap yield = [] :=
      List.flatMap_eq_nil_iff.2 fun other among =>
        nothing other (List.mem_append_left _ among)
          (ne_of_mem_of_not_mem among apart.1.1)
    have second : after.flatMap yield = [] :=
      List.flatMap_eq_nil_iff.2 fun other among =>
        nothing other (List.mem_append_right _ (List.mem_cons_of_mem _ among))
          (ne_of_mem_of_not_mem among apart.1.2)
    rw [first, second]
    rfl

/-- `static_cast<off_t>` of a size. -/
theorem toInt_toInt64 (size : UInt64) :
    size.toInt64.toInt =
      if size.toNat < 2 ^ 63 then (size.toNat : Int)
      else size.toNat - 2 ^ 64 := by
  show size.toBitVec.toInt = _
  rw [BitVec.toInt_eq_toNat_cond]
  show (if 2 * size.toNat < 2 ^ 64 then (size.toNat : Int)
    else size.toNat - (2 ^ 64 : Nat)) = _
  split_ifs <;> omega

/-- What a piece announces on the lines that it has. -/
def said (piece : Bytes) : List Bytes :=
  announcements ((linesOf cr lf [] piece).getD [])

/-- Every piece has whole lines. -/
def WholePieces (response : HttpResponse) : Prop :=
  ∀ piece ∈ Serialized.pieces response, (linesOf cr lf [] piece).isSome

theorem linesOf_connection (keepAlive : Bool) :
    (linesOf cr lf [] (Serialized.piece ⟨text "connection",
      if keepAlive then text "keep-alive" else text "close"⟩)).map
        announcements = some [] := by
  cases keepAlive <;> decide

theorem linesOf_length (size : Nat) :
    (linesOf cr lf [] (Serialized.piece ⟨text "content-length",
      decimal size⟩)).map announcements = some [decimal size] := by
  have valueFree : cr ∉ decimal size :=
    Serialized.not_mem_decimal (Or.inl (by decide))
  rw [Serialized.linesOf_piece (by decide) valueFree, Option.map_some,
    announcements, List.filterMap_cons_some
      (Serialized.announcement_length size)]
  rfl

theorem said_of_map {piece : Bytes} {values : List Bytes}
    (announce : (linesOf cr lf [] piece).map announcements = some values) :
    (linesOf cr lf [] piece).isSome ∧ said piece = values := by
  rcases Option.map_eq_some_iff.1 announce with ⟨lines, split, rfl⟩
  rw [said, split]
  exact ⟨rfl, rfl⟩

theorem map_of_said {piece : Bytes}
    (whole : (linesOf cr lf [] piece).isSome) :
    (linesOf cr lf [] piece).map announcements = some (said piece) := by
  rcases Option.isSome_iff_exists.1 whole with ⟨lines, split⟩
  rw [said, split]
  rfl

namespace FileResponse

variable {response serialized : HttpResponse} {fileFd : Int}
  {fileSize : UInt64} {keepAlive : Bool}

/-- The headers of the response that is serialized. -/
theorem mem_headers
    (reorders : Reorders (completed response keepAlive).takeSendfileFd.2
      serialized) (header : Sigma fun _ : Bytes => Bytes) :
    header ∈ serialized.headers.entries ↔
      header = ⟨text "connection",
          if keepAlive then text "keep-alive" else text "close"⟩ ∨
        header ∈ response.headers.entries ∧
          header.1 ≠ text "connection" := by
  rcases header with ⟨name, value⟩
  have inserted : Sigma.mk name value ∈ serialized.headers.entries ↔
      (response.headers.insert (text "connection")
        (if keepAlive then text "keep-alive" else text "close")).lookup name =
          some value :=
    reorders.headers.mem_iff.trans AList.mem_lookup_iff.symm
  rw [inserted]
  by_cases same : name = text "connection"
  · subst same
    rw [AList.lookup_insert, Option.some.injEq]
    constructor
    · rintro rfl
      exact Or.inl rfl
    · rintro (equal | ⟨_, other⟩)
      · cases equal
        rfl
      · exact absurd rfl other
  · rw [AList.lookup_insert_ne same]
    constructor
    · intro found
      exact Or.inr ⟨AList.mem_lookup_iff.1 found, same⟩
    · rintro (equal | ⟨member, _⟩)
      · cases equal
        exact absurd rfl same
      · exact AList.mem_lookup_iff.2 member

/-- The length that `set_sendfile` has announced. -/
theorem announced_mem (file : FileResponse response fileFd fileSize)
    (reorders : Reorders (completed response keepAlive).takeSendfileFd.2
      serialized) :
    Sigma.mk (text "content-length") (decimal fileSize.toNat) ∈
      serialized.headers.entries := by
  have other : text "content-length" ≠ text "connection" := by decide
  exact (mem_headers reorders _).2
    (Or.inr ⟨AList.mem_lookup_iff.1 file.announced, other⟩)

/-- The pieces of the response that is serialized. -/
theorem pieces_eq (file : FileResponse response fileFd fileSize)
    (reorders : Reorders (completed response keepAlive).takeSendfileFd.2
      serialized) :
    Serialized.pieces serialized =
      Serialized.statusLine serialized ::
        serialized.headers.entries.map Serialized.piece := by
  have announced : serialized.headers.lookup (text "content-length") =
      some (decimal fileSize.toNat) :=
    AList.mem_lookup_iff.2 (file.announced_mem reorders)
  have notAutomatic : ¬ (serialized.body ≠ [] ∧
      serialized.headers.lookup (text "content-length") = none ∧
      serialized.hasSendfile = false) := by
    rintro ⟨_, unannounced, _⟩
    rw [announced] at unannounced
    cases unannounced
  rw [Serialized.pieces, Serialized.automatic, if_neg notAutomatic,
    List.append_nil]

/-- The descriptor has been taken out, so the body follows the headers. -/
theorem serialize_eq
    (reorders : Reorders (completed response keepAlive).takeSendfileFd.2
      serialized) :
    serialized.serialize =
      ((Serialized.pieces serialized).flatMap fun piece => piece ++ [cr, lf]) ++
        cr :: lf :: response.body := by
  have taken : serialized.hasSendfile = false := by
    rw [HttpResponse.hasSendfile, reorders.sendfileFd]
    rfl
  have body : serialized.body = response.body := reorders.body
  rw [Serialized.serialize_eq, taken, body]
  rfl

/-- What all headers together announce. -/
theorem announcements_pieces (file : FileResponse response fileFd fileSize)
    (reorders : Reorders (completed response keepAlive).takeSendfileFd.2
      serialized) :
    announcements ((Serialized.pieces serialized).flatMap fun piece =>
        (linesOf cr lf [] piece).getD []) =
      serialized.headers.entries.flatMap fun header =>
        said (Serialized.piece header) := by
  have status : said (Serialized.statusLine serialized) = [] := by
    rw [said, Serialized.linesOf_statusLine]
    exact List.filterMap_cons_none
      (Serialized.announcement_of_not_mem
        (Serialized.statusLine_free serialized).1)
  rw [announcements, List.filterMap_flatMap, file.pieces_eq reorders,
    List.flatMap_cons, List.flatMap_map]
  exact congrArg (· ++ _) status

/-- The headers are whole, and announce the size of the file and nothing else,
exactly if all the others are whole and silent. -/
theorem whole_iff (file : FileResponse response fileFd fileSize)
    (reorders : Reorders (completed response keepAlive).takeSendfileFd.2
      serialized) :
    WholePieces serialized ∧
        announcements ((Serialized.pieces serialized).flatMap fun piece =>
          (linesOf cr lf [] piece).getD []) = [decimal fileSize.toNat] ↔
      WholeHeaders response := by
  have stored := file.announced_mem reorders
  have length := said_of_map (linesOf_length fileSize.toNat)
  rw [file.announcements_pieces reorders, flatMap_eq_singleton_iff
    serialized.headers.nodupKeys.nodup stored length.2]
  constructor
  · rintro ⟨whole, silent⟩ header member notConnection notLength
    have among := (mem_headers reorders header).2
      (Or.inr ⟨member, notConnection⟩)
    have here : (linesOf cr lf [] (Serialized.piece header)).isSome := by
      apply whole
      rw [file.pieces_eq reorders]
      exact List.mem_cons_of_mem _ (List.mem_map_of_mem among)
    rw [map_of_said here, silent header among]
    rintro rfl
    exact notLength rfl
  · intro others
    have each : ∀ header ∈ serialized.headers.entries,
        header ≠ ⟨text "content-length", decimal fileSize.toNat⟩ →
          (linesOf cr lf [] (Serialized.piece header)).map announcements =
            some [] := by
      intro header among different
      rcases (mem_headers reorders header).1 among with
        rfl | ⟨member, notConnection⟩
      · exact linesOf_connection keepAlive
      · exact others header member notConnection fun same =>
          different (eq_of_header stored among same)
    refine ⟨?_, fun header among different =>
      (said_of_map (each header among different)).2⟩
    rw [WholePieces, file.pieces_eq reorders, List.forall_mem_cons,
      List.forall_mem_map, Serialized.linesOf_statusLine]
    refine ⟨rfl, fun header among => ?_⟩
    by_cases same :
        header = ⟨text "content-length", decimal fileSize.toNat⟩
    · exact same ▸ length.1
    · exact (said_of_map (each header among same)).1

/-- The descriptor that was set last is posted. -/
theorem posting_fileFd {fileFd : Nat}
    (file : FileResponse response fileFd fileSize) :
    (posting response keepAlive).fileFd = some fileFd :=
  file.file

theorem posting_fileSize (file : FileResponse response fileFd fileSize) :
    (posting response keepAlive).fileSize = fileSize.toInt64.toInt := by
  rw [← file.size]
  rfl

end FileResponse

/--
Only the file follows the headers, and only its length is announced, exactly if
the string body is empty, the size is an `off_t`, and no header but
`connection` and `content-length` has a line that is blank or that announces a
length.
-/
theorem sendfile_fileOnly_iff (start : Start) (builds : List Build)
    (leaves : ∀ build ∈ builds, build.LeavesLength) (fileFd : Nat)
    (fileSize : UInt64)
    (set : (builds.filterMap Build.sendfile).getLast? =
      some ((fileFd : Int), fileSize))
    (keepAlive : Bool) (posting : Posting)
    (posts : Posts (built start builds) keepAlive posting) :
    FileOnly posting fileFd ↔
      (built start builds).body = [] ∧ fileSize.toNat < 2 ^ 63 ∧
        WholeHeaders (built start builds) := by
  rcases posts with ⟨serialized, reorders⟩
  have file : FileResponse (built start builds) fileFd fileSize := by
    have unset : ∀ fd size,
        (none : Option (Int × UInt64)) = some (fd, size) →
          FileResponse start.response fd size := nofun
    apply FileResponse.foldl unset leaves
    rw [set]
    rfl
  have whole := file.whole_iff reorders
  unfold FileOnly
  rw [FileResponse.serialize_eq reorders, file.posting_fileSize,
    file.posting_fileFd, toInt_toInt64, ← whole]
  constructor
  · rintro ⟨⟨lines, cut, size, posted, announced⟩, _⟩
    rcases (cutHead_pieces_nil_iff (by decide)).1 cut with
      ⟨allWhole, body, rfl⟩
    split_ifs at posted with small
    · rw [← Int.natCast_inj.1 posted] at announced
      exact ⟨body, small, allWhole, announced⟩
    · have bound := fileSize.toNat_lt
      omega
  · rintro ⟨body, small, allWhole, announced⟩
    have cut := (cutHead_pieces_nil_iff (by decide)).2 ⟨allWhole, body, rfl⟩
    exact ⟨⟨_, cut, _, if_pos small, announced⟩, rfl⟩

theorem sendfile_fileOnly_twice :
    FileOnly
      (posting (built .default
        [.setSendfile 7 10 (text "text/css"),
          .setSendfile 8 0 (text "text/html")]) false) 8 :=
  (sendfile_fileOnly_iff .default
    [.setSendfile 7 10 (text "text/css"), .setSendfile 8 0 (text "text/html")]
    (by
      intro build member
      rcases List.mem_cons.1 member with rfl | member
      · trivial
      · rw [List.mem_singleton.1 member]
        trivial)
    8 0 rfl false _ (posts_posting _ false)).2
      ⟨by decide, by decide, by decide⟩

/-- The string body of a response that is turned into a file is sent too. -/
theorem sendfile_fileOnly_afterBody :
    ¬ ∀ (start : Start) (builds : List Build),
        (∀ build ∈ builds, build.LeavesLength) →
          ∀ (fileFd : Nat) (fileSize : UInt64),
            (builds.filterMap Build.sendfile).getLast? =
              some ((fileFd : Int), fileSize) →
            ∀ keepAlive posting,
              Posts (built start builds) keepAlive posting →
                FileOnly posting fileFd := by
  intro always
  have leaves : ∀ build ∈
      ([.setSendfile 7 10 (text "text/css")] : List Build),
      build.LeavesLength := by
    intro build member
    rw [List.mem_singleton.1 member]
    trivial
  have posts := posts_posting (built (.makeError .NotFound [])
    [.setSendfile 7 10 (text "text/css")]) true
  rcases always _ _ leaves 7 10 rfl true _ posts with
    ⟨⟨lines, cut, _⟩, _⟩
  have followed : (cutHead cr lf []
      (posting (built (.makeError .NotFound [])
        [.setSendfile 7 10 (text "text/css")]) true).data).map Prod.snd =
          some (text "404 Not Found") := by
    decide
  rw [cut] at followed
  cases followed

end Cppws.App
