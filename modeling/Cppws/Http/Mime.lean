import Cppws.Http.Request

/-!
# Content types of files

`mime_type` of `http/mime.cpp`, a binary search in a table of extensions.
-/

namespace Cppws.Http

/-- `MIME_TABLE`. -/
def mimeTable : List (Bytes × Bytes) :=
  [ (text ".aac", text "audio/aac"),
    (text ".avif", text "image/avif"),
    (text ".bmp", text "image/bmp"),
    (text ".css", text "text/css; charset=utf-8"),
    (text ".csv", text "text/csv"),
    (text ".eot", text "application/vnd.ms-fontobject"),
    (text ".flac", text "audio/flac"),
    (text ".gif", text "image/gif"),
    (text ".gz", text "application/gzip"),
    (text ".htm", text "text/html; charset=utf-8"),
    (text ".html", text "text/html; charset=utf-8"),
    (text ".ico", text "image/x-icon"),
    (text ".ics", text "text/calendar"),
    (text ".jpg", text "image/jpeg"),
    (text ".jpeg", text "image/jpeg"),
    (text ".js", text "text/javascript; charset=utf-8"),
    (text ".json", text "application/json"),
    (text ".m3u8", text "application/x-mpegURL"),
    (text ".map", text "application/json"),
    (text ".mp3", text "audio/mpeg"),
    (text ".mp4", text "video/mp4"),
    (text ".ogg", text "audio/ogg"),
    (text ".ogv", text "video/ogg"),
    (text ".otf", text "font/otf"),
    (text ".pdf", text "application/pdf"),
    (text ".png", text "image/png"),
    (text ".rss", text "application/rss+xml"),
    (text ".svg", text "image/svg+xml"),
    (text ".tar", text "application/x-tar"),
    (text ".tiff", text "image/tiff"),
    (text ".ts", text "video/mp2t"),
    (text ".ttf", text "font/ttf"),
    (text ".txt", text "text/plain; charset=utf-8"),
    (text ".wasm", text "application/wasm"),
    (text ".webm", text "video/webm"),
    (text ".webp", text "image/webp"),
    (text ".woff", text "font/woff"),
    (text ".woff2", text "font/woff2"),
    (text ".xhtml", text "application/xhtml+xml"),
    (text ".xml", text "text/xml"),
    (text ".zip", text "application/zip"),
    (text ".zst", text "application/zstd") ]

/-- `std::lower_bound` on the `count` indices from `first` on.  A half is left
of them in every round, so that `count` rounds are enough. -/
def lowerBound (less : Nat → Bool) : Nat → Nat → Nat → Nat
  | 0, first, _ => first
  | rounds + 1, first, count =>
      if count = 0 then
        first
      else if less (first + count / 2) then
        lowerBound less rounds (first + count / 2 + 1)
          (count - count / 2 - 1)
      else
        lowerBound less rounds first (count / 2)

def mimeType (extension : Bytes) : Bytes :=
  let found := lowerBound (fun index =>
      match mimeTable[index]? with
      | some entry => entry.1 < extension
      | none => false) mimeTable.length 0 mimeTable.length
  match mimeTable[found]? with
  | some entry =>
      if entry.1 = extension then
        entry.2
      else
        text "application/octet-stream"
  | none => text "application/octet-stream"

/-! ## The search and the table -/

/--
The type of an extension is the one that a linear search of the table finds,
and `application/octet-stream` exactly if it finds none.
-/
def FindsEntry (extension : Bytes) : Prop :=
  (∀ type ∈ mimeTable.lookup extension, mimeType extension = type) ∧
    (mimeType extension = text "application/octet-stream" ↔
      mimeTable.lookup extension = none)

/-- The order of the table is of no importance if there is no entry. -/
theorem mimeType_of_lookup_eq_none {extension : Bytes}
    (unlisted : mimeTable.lookup extension = none) :
    mimeType extension = text "application/octet-stream" := by
  unfold mimeType
  dsimp only
  generalize lowerBound _ _ _ _ = found
  split
  · rename_i entry listed
    have different := List.lookup_eq_none_iff.1 unlisted entry
      (List.mem_of_getElem? listed)
    rw [if_neg (bne_iff_ne.1 different).symm]
  · rfl

/-- On the way to `.jpeg` the search meets `.jpg` and turns off. -/
theorem mimeType_of_mem : ∀ entry ∈ mimeTable,
    mimeType entry.1 =
      if entry.1 = text ".jpeg" then text "application/octet-stream"
      else entry.2 := by
  decide +kernel

theorem type_ne_octetStream : ∀ entry ∈ mimeTable,
    entry.2 ≠ text "application/octet-stream" := by
  decide

theorem mem_of_lookup_eq_some {extension type : Bytes}
    (listed : mimeTable.lookup extension = some type) :
    (extension, type) ∈ mimeTable := by
  rcases List.lookup_eq_some_iff.1 listed with ⟨before, after, split, -⟩
  rw [split]
  exact List.mem_append_right _ List.mem_cons_self

/-- The binary search misses one entry, which the table has after `.jpg`. -/
theorem findsEntry_iff (extension : Bytes) :
    FindsEntry extension ↔ extension ≠ text ".jpeg" := by
  unfold FindsEntry
  cases listed : mimeTable.lookup extension with
  | none =>
      have different : extension ≠ text ".jpeg" := by
        rintro rfl
        exact absurd listed (by decide)
      simp [mimeType_of_lookup_eq_none listed, different]
  | some type =>
      have member := mem_of_lookup_eq_some listed
      have found := mimeType_of_mem _ member
      have known := type_ne_octetStream _ member
      by_cases jpeg : extension = text ".jpeg"
      · rw [if_pos jpeg] at found
        simp only [found]
        simp [jpeg]
      · rw [if_neg jpeg] at found
        simp [found, jpeg, known]

theorem jpeg_missed :
    mimeType (text ".jpeg") = text "application/octet-stream" ∧
      mimeTable.lookup (text ".jpeg") = some (text "image/jpeg") ∧
      ¬ FindsEntry (text ".jpeg") := by
  have missed : mimeType (text ".jpeg") = text "application/octet-stream" := by
    decide
  have listed : mimeTable.lookup (text ".jpeg") = some (text "image/jpeg") := by
    decide
  refine ⟨missed, listed, ?_⟩
  rintro ⟨-, onlyUnlisted⟩
  rw [listed] at onlyUnlisted
  cases onlyUnlisted.1 missed

end Cppws.Http
