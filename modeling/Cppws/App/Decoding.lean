import Cppws.App.Framing
import Cppws.Foundation.Delimiter

/-!
# Undoing `serialize`

A reader of a serialized response cuts it at the first CRLF CRLF, the head at
every CRLF and each line at the first colon and space.  What it finds are the
headers of the response, whatever order the `unordered_map` gives them, and the
body, whatever bytes that has.
-/

namespace Cppws.App

open Cppws.Http

/-! ## The reader -/

structure Decoded where
  statusLine : Bytes
  headers : List (Bytes × Bytes)
  body : Bytes
deriving DecidableEq

/-- The first CRLF CRLF, every CRLF before it, and the first `": "` in each
line but the first. -/
def decode (data : Bytes) : Option Decoded := do
  let cut ← data.dropInfix? (crlf ++ crlf)
  let lines := Delimiter.pieces crlf cut.1
  let headers ← lines.tail.mapM fun line => line.dropInfix? (text ": ")
  pure { statusLine := lines.headD [], headers, body := cut.2 }

/-- The number in the second word of the status line. -/
def Decoded.code (decoded : Decoded) : Option Nat := do
  let version ← decoded.statusLine.dropInfix? (text " ")
  let code ← version.2.dropInfix? (text " ")
  fromChars code.1

/-- The headers of a response, and the length of a body that has none. -/
def listed (response : HttpResponse) : List (Bytes × Bytes) :=
  (response.headers.entries.map fun header => (header.1, header.2)) ++
    if response.body ≠ [] ∧
        response.headers.lookup (text "content-length") = none ∧
        response.hasSendfile = false then
      [(text "content-length", decimal response.body.length)]
    else
      []

/-- The reader has found what the response is made of. -/
structure Recovers (response : HttpResponse) (decoded : Decoded) : Prop where
  code : decoded.code = some response.status.code
  headers : decoded.headers.Perm (listed response)
  distinct : (decoded.headers.map fun header => toLower header.1).Nodup
  body :
    decoded.body = if response.hasSendfile then [] else response.body

/-! ## Builders -/

/-- Names have no colon, and neither they nor values have CR or LF. -/
def Build.Legible : Build → Prop
  | .setStatus _ => True
  | .setBody _ contentType => Clean contentType
  | .setSendfile _ _ contentType => Clean contentType
  | .setHeader name value => colonByte ∉ name ∧ Clean name ∧ Clean value

/-! ## Names and values -/

/-- A name under which a header is stored, in lower case. -/
def LegibleName (name : Bytes) : Prop :=
  toLower name = name ∧ colonByte ∉ name ∧ Clean name

instance (name : Bytes) : Decidable (LegibleName name) :=
  inferInstanceAs (Decidable (_ ∧ _))

/-- All headers can be written on a line each. -/
def LegibleHeaders (response : HttpResponse) : Prop :=
  ∀ header ∈ response.headers.entries,
    LegibleName header.1 ∧ Clean header.2

theorem legibleName_toLower {name : Bytes} (colonFree : colonByte ∉ name)
    (clean : Clean name) : LegibleName (toLower name) := by
  refine ⟨toLower_toLower name, ?_, ?_, ?_⟩
  · exact not_mem_toLower (by decide) colonFree
  · exact not_mem_toLower (by decide) clean.1
  · exact not_mem_toLower (by decide) clean.2

theorem clean_decimal (n : Nat) : Clean (decimal n) :=
  ⟨Serialized.not_mem_decimal (Or.inl (by decide)),
    Serialized.not_mem_decimal (Or.inl (by decide))⟩

theorem legible_start {start : Start} (plain : start.Plain) :
    LegibleHeaders start.response := by
  cases start with
  | default => exact nofun
  | makeError code detail => exact forall_insert nofun (by decide)
  | makeRedirect location =>
      have name : LegibleName (text "location") := by decide
      exact forall_insert nofun ⟨name, plain⟩

theorem legible_apply {response : HttpResponse}
    (legible : LegibleHeaders response) {build : Build}
    (plain : build.Legible) : LegibleHeaders (build.apply response) := by
  have contentType : LegibleName (text "content-type") := by decide
  have contentLength : LegibleName (text "content-length") := by decide
  cases build with
  | setStatus code => exact legible
  | setBody body type => exact forall_insert legible ⟨contentType, plain⟩
  | setSendfile fileFd fileSize type =>
      apply forall_insert
      · exact forall_insert legible ⟨contentType, plain⟩
      · exact ⟨contentLength, clean_decimal _⟩
  | setHeader name value =>
      exact forall_insert legible
        ⟨legibleName_toLower plain.1 plain.2.1, plain.2.2⟩

/-- Every builder keeps the headers legible. -/
theorem legible_built {start : Start} {builds : List Build}
    (plainStart : start.Plain) (plain : ∀ build ∈ builds, build.Legible) :
    LegibleHeaders (built start builds) := by
  apply List.foldlRecOn builds
  · exact legible_start plainStart
  · intro response legible build member
    exact legible_apply legible (plain build member)

/-! ## Reading what has been written -/

/-- The line of a header. -/
def listedLine (header : Bytes × Bytes) : Bytes :=
  header.1 ++ text ": " ++ header.2

theorem pieces_eq_listed (response : HttpResponse) :
    Serialized.pieces response =
      Serialized.statusLine response :: (listed response).map listedLine := by
  rw [Serialized.pieces, Serialized.automatic, listed, List.map_append,
    List.map_map, List.cons_append]
  congr 2
  split_ifs
  · rfl
  · rfl

theorem listed_legible {response : HttpResponse}
    (legible : LegibleHeaders response) :
    ∀ header ∈ listed response, LegibleName header.1 ∧
      Clean header.2 := by
  intro header member
  rcases List.mem_append.1 member with stored | automatic
  · rcases List.mem_map.1 stored with ⟨entry, among, rfl⟩
    exact legible entry among
  · split_ifs at automatic
    · rw [List.mem_singleton] at automatic
      have name : LegibleName (text "content-length") := by decide
      rw [automatic]
      exact ⟨name, clean_decimal _⟩
    · cases automatic

/-- No name is listed twice. -/
theorem listed_nodup (response : HttpResponse) :
    ((listed response).map Prod.fst).Nodup := by
  have keys : (response.headers.entries.map fun header =>
      (header.1, header.2)).map Prod.fst = response.headers.keys := by
    rw [List.map_map]
    rfl
  rw [listed, List.map_append, keys]
  split_ifs with automatic
  · apply List.nodup_append.2
    refine ⟨response.headers.keys_nodup, List.nodup_singleton _, ?_⟩
    intro name among other added same
    rw [List.map_singleton, List.mem_singleton] at added
    rw [same, added] at among
    exact AList.lookup_eq_none.1 automatic.2.1 among
  · rw [List.map_nil, List.append_nil]
    exact response.headers.keys_nodup

theorem dropInfix?_listedLine {header : Bytes × Bytes}
    (free : colonByte ∉ header.1) :
    (listedLine header).dropInfix? (text ": ") = some header := by
  have separator : text ": " = [colonByte, sp] := by decide
  rw [listedLine, List.append_assoc, separator]
  exact Delimiter.dropInfix?_piece free header.2

theorem mapM_dropInfix? {headers : List (Bytes × Bytes)}
    (free : ∀ header ∈ headers, colonByte ∉ header.1) :
    ((headers.map listedLine).mapM fun line => line.dropInfix? (text ": ")) =
      some headers := by
  induction headers with
  | nil => rfl
  | cons header headers ih =>
      have first := dropInfix?_listedLine (free header List.mem_cons_self)
      have later := ih fun other member =>
        free other (List.mem_cons_of_mem _ member)
      rw [List.map_cons, List.mapM_cons, first, later]
      rfl

theorem listedLine_whole {header : Bytes × Bytes}
    (legible : LegibleName header.1 ∧ Clean header.2) :
    listedLine header ≠ [] ∧ cr ∉ listedLine header := by
  constructor
  · simp [listedLine, text]
  · have separator : cr ∉ text ": " := by decide
    simp [listedLine, legible.1.2.2.1, separator, legible.2.1]

/-- Decoding gives back what has been listed. -/
theorem decode_serialize {response : HttpResponse}
    (legible : LegibleHeaders response) :
    decode response.serialize =
      some
        { statusLine := Serialized.statusLine response
          headers := listed response
          body := if response.hasSendfile then [] else response.body } := by
  have listedLegible := listed_legible legible
  have whole : ∀ line ∈ Serialized.pieces response, line ≠ [] ∧
      cr ∉ line := by
    rw [pieces_eq_listed]
    intro line member
    rcases List.mem_cons.1 member with rfl | written
    · refine ⟨?_, (Serialized.statusLine_free response).2⟩
      simp [Serialized.statusLine, text]
    · rcases List.mem_map.1 written with ⟨header, among, rfl⟩
      exact listedLine_whole (listedLegible header among)
  have nonempty : Serialized.pieces response ≠ [] := by
    rw [pieces_eq_listed]
    exact List.cons_ne_nil _ _
  have serialized : response.serialize =
      crlf.intercalate (Serialized.pieces response) ++
        (crlf ++ crlf ++
          if response.hasSendfile then [] else response.body) := by
    have joined := Delimiter.flatMap_append_delimiter crlf nonempty
    rw [Serialized.serialize_eq, ← List.append_assoc, ← List.append_assoc,
      ← joined, List.append_assoc]
    rfl
  have cut : response.serialize.dropInfix? (crlf ++ crlf) =
      some (crlf.intercalate (Serialized.pieces response),
        if response.hasSendfile then [] else response.body) := by
    rw [serialized]
    exact Delimiter.dropInfix?_twice (show cr ∉ [lf] by decide) nonempty
      whole _
  have lines : Delimiter.pieces crlf
      (crlf.intercalate (Serialized.pieces response)) =
        Serialized.pieces response :=
    Delimiter.pieces_intercalate nonempty
      fun line member => (whole line member).2
  have headers := mapM_dropInfix? fun header among =>
    (listedLegible header among).1.2.1
  simp only [decode, cut, lines, Option.bind_eq_bind, Option.bind_some]
  rw [pieces_eq_listed, List.tail_cons, headers]
  rfl

theorem dropInfix?_word {word : Bytes} (free : sp ∉ word) (rest : Bytes) :
    (word ++ (text " " ++ rest)).dropInfix? (text " ") = some (word, rest) := by
  have separator : text " " = [sp] := by decide
  rw [separator]
  exact Delimiter.dropInfix?_piece free rest

/-- The status line carries the status code. -/
theorem code_statusLine (response : HttpResponse)
    (headers : List (Bytes × Bytes)) (body : Bytes) :
    Decoded.code ⟨Serialized.statusLine response, headers, body⟩ =
      some response.status.code := by
  have number : fromChars (decimal response.status.code) =
      some response.status.code := by
    cases response.status <;> decide
  have words : Serialized.statusLine response =
      text "HTTP/1.1" ++ (text " " ++ (decimal response.status.code ++
        (text " " ++ statusToReason response.status))) := by
    have version : text "HTTP/1.1 " = text "HTTP/1.1" ++ text " " := by decide
    simp only [Serialized.statusLine, version, List.append_assoc]
  have numberFree : sp ∉ decimal response.status.code :=
    Serialized.not_mem_decimal (Or.inl (by decide))
  rw [Decoded.code, words, dropInfix?_word (by decide)]
  simp only [Option.bind_eq_bind, Option.bind_some,
    dropInfix?_word numberFree, number]

/-! ## Any order of the headers -/

theorem listed_perm {response serialized : HttpResponse}
    (reorders : Reorders response serialized) :
    (listed serialized).Perm (listed response) := by
  have file : serialized.hasSendfile = response.hasSendfile := by
    rw [HttpResponse.hasSendfile, reorders.sendfileFd]
    rfl
  have length : serialized.headers.lookup (text "content-length") =
      response.headers.lookup (text "content-length") :=
    AList.perm_lookup reorders.headers
  rw [listed, listed, reorders.body, file, length]
  exact (reorders.headers.map _).append_right _

/--
`serialize` can be undone: whatever the order in which it writes the headers,
the reader finds the status code, every header and the body, and no header
name twice.
-/
theorem serialize_undone {start : Start} {builds : List Build}
    {serialized : HttpResponse} (plainStart : start.Plain)
    (legible : ∀ build ∈ builds, build.Legible)
    (reorders : Reorders (built start builds) serialized) :
    ∃ decoded, decode serialized.serialize = some decoded ∧
      Recovers (built start builds) decoded := by
  have headers : LegibleHeaders serialized := fun header member =>
    legible_built plainStart legible header
      (reorders.headers.mem_iff.1 member)
  refine ⟨_, decode_serialize headers, ?_⟩
  constructor
  · rw [code_statusLine, reorders.status]
  · exact listed_perm reorders
  · have lower : ((listed serialized).map fun header => toLower header.1) =
        (listed serialized).map Prod.fst :=
      List.map_congr_left fun header among =>
        (listed_legible headers header among).1.1
    rw [lower]
    exact listed_nodup serialized
  · rw [HttpResponse.hasSendfile, reorders.sendfileFd, reorders.body]
    rfl

/-- A body that looks like a head, and a header in two spellings. -/
theorem serialize_undone_twice :
    ∃ decoded,
      decode (built (.makeRedirect (text "/a"))
          [.setHeader (text "X-A") (text "b: c"),
            .setHeader (text "x-a") (text "d"),
            .setBody (text "x\r\n\r\ny: z") (text "text/plain")]).serialize =
          some decoded ∧
        Recovers (built (.makeRedirect (text "/a"))
          [.setHeader (text "X-A") (text "b: c"),
            .setHeader (text "x-a") (text "d"),
            .setBody (text "x\r\n\r\ny: z") (text "text/plain")]) decoded := by
  apply serialize_undone
  · exact ⟨by decide, by decide⟩
  · intro build member
    simp only [List.mem_cons, List.not_mem_nil, or_false] at member
    rcases member with rfl | rfl | rfl
    · exact ⟨by decide, by decide, by decide⟩
    · exact ⟨by decide, by decide, by decide⟩
    · exact ⟨by decide, by decide⟩
  · exact ⟨rfl, .refl _, rfl, rfl⟩

end Cppws.App
