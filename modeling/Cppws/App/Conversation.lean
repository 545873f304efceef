import Cppws.App.Decoding
import Cppws.App.Site
import Cppws.Foundation.StreamReader
import Cppws.Http.ContentLength

/-!
# What a client reads

A client that keeps its connection cuts what it receives into responses: a head
up to the first CRLF CRLF, and as many bytes as its `content-length` says.  The
responses of this server follow each other on a connection, texts and files
mixed, and the client reads each of them as it was meant, at any time those
that have arrived.
-/

namespace Cppws.App

open Cppws.Http
open Cppws.Net

/-! ## The client -/

/-- The length that the headers announce. -/
def bodyLength (headers : List (Bytes × Bytes)) : Option Nat := do
  let header ← headers.find? fun header =>
    toLower header.1 = text "content-length"
  fromChars header.2

/-- One response, if all of it has been received. -/
def readResponse : StreamReader UInt8 Decoded := fun received => do
  let decoded ← decode received
  let length ← bodyLength decoded.headers
  if length ≤ decoded.body.length then
    some
      ({ decoded with body := decoded.body.take length },
        decoded.body.drop length)
  else
    none

/-- The head ends at the same place when more is received. -/
theorem decode_append {received : Bytes} {decoded : Decoded}
    (head : decode received = some decoded) (more : Bytes) :
    decode (received ++ more) =
      some { decoded with body := decoded.body ++ more } := by
  simp only [decode, Option.bind_eq_bind, Option.bind_eq_some_iff,
    Option.pure_def] at head
  rcases head with ⟨cut, found, headers, read, same⟩
  cases same
  simp only [decode, Delimiter.dropInfix?_extend found more,
    Option.bind_eq_bind, Option.bind_some, read, Option.pure_def]

/-- The end of a head is not part of the body. -/
theorem decode_shortens {received : Bytes} {decoded : Decoded}
    (head : decode received = some decoded) :
    decoded.body.length < received.length := by
  simp only [decode, Option.bind_eq_bind, Option.bind_eq_some_iff,
    Option.pure_def] at head
  rcases head with ⟨cut, found, headers, read, same⟩
  cases same
  have whole := (Delimiter.dropInfix?_eq_some_iff.1 found).1
  have size := congrArg List.length whole
  simp only [List.length_append] at size
  have delimiter : 0 < crlf.length := by decide
  show cut.2.length < received.length
  omega

theorem readResponse_eq_some {received rest : Bytes} {response : Decoded} :
    readResponse received = some (response, rest) ↔
      ∃ decoded length, decode received = some decoded ∧
        bodyLength decoded.headers = some length ∧
        length ≤ decoded.body.length ∧
        response = { decoded with body := decoded.body.take length } ∧
        rest = decoded.body.drop length := by
  simp only [readResponse, Option.bind_eq_bind, Option.bind_eq_some_iff]
  constructor
  · rintro ⟨decoded, head, length, announced, read⟩
    split_ifs at read with enough
    cases read
    exact ⟨decoded, length, head, announced, enough, rfl, rfl⟩
  · rintro ⟨decoded, length, head, announced, enough, rfl, rfl⟩
    exact ⟨decoded, head, length, announced, if_pos enough⟩

/-- The client never reads past a response. -/
theorem readResponse_steady : StreamReader.Steady readResponse where
  extends_ := by
    intro received response rest read more
    rw [readResponse_eq_some] at read ⊢
    rcases read with ⟨decoded, length, head, announced, enough, rfl, rfl⟩
    refine ⟨_, length, decode_append head more, announced, ?_, ?_, ?_⟩
    · rw [List.length_append]
      exact Nat.le_trans enough (Nat.le_add_right _ _)
    · rw [List.take_append_of_le_length enough]
    · rw [List.drop_append_of_le_length enough]
  shortens := by
    intro received response rest read
    rcases readResponse_eq_some.1 read with
      ⟨decoded, length, head, _, _, _, rfl⟩
    rw [List.length_drop]
    exact Nat.lt_of_le_of_lt (Nat.sub_le _ _) (decode_shortens head)

/-! ## The length of a response -/

/-- A number that was written is read back. -/
theorem fromChars_decimal {n : Nat} (small : n < 2 ^ 64) :
    fromChars (decimal n) = some n := by
  have digits : (decimal n).takeWhile (fun ch => 48 ≤ ch ∧ ch ≤ 57) =
      decimal n :=
    List.takeWhile_eq_self_iff.2 fun ch member =>
      decide_eq_true (Serialized.digit_of_mem_decimal member)
  have nonempty : decimal n ≠ [] := by
    simp [decimal, Nat.toDigits_ne_nil]
  have value : (decimal n).foldl
      (fun acc ch => acc * 10 + (ch.toNat - 48)) 0 = n := by
    have read := Nat.ofDigitChars_toDigits (b := 10) (n := n) (by decide)
      (by decide)
    rw [Nat.ofDigitChars_eq_foldl] at read
    rw [decimal, List.foldl_map]
    refine (List.foldl_ext _ _ 0 fun acc digit member => ?_).trans read
    have isDigit := Nat.isDigit_of_mem_toDigits (by decide) (by decide) member
    rw [Char.isDigit, Bool.and_eq_true, decide_eq_true_eq, decide_eq_true_eq]
      at isDigit
    have atMost : digit.toNat ≤ 57 := isDigit.2
    rw [UInt8.toNat_ofNat', Nat.mod_eq_of_lt (by omega), Nat.mul_comm]
    rfl
  simp only [fromChars, digits, value, if_neg nonempty, if_pos small]

/-- The one header with this name gives the length. -/
theorem bodyLength_of_mem {headers : List (Bytes × Bytes)} {n : Nat}
    (lower : ∀ header ∈ headers, toLower header.1 = header.1)
    (distinct : (headers.map Prod.fst).Nodup)
    (listed : (text "content-length", decimal n) ∈ headers)
    (small : n < 2 ^ 64) : bodyLength headers = some n := by
  cases first : headers.find? fun header =>
      toLower header.1 = text "content-length" with
  | none =>
      have missed := List.find?_eq_none.1 first _ listed
      have named : toLower (text "content-length") =
        text "content-length" := by decide
      exact absurd (decide_eq_true named) missed
  | some header =>
      have member := List.mem_of_find?_eq_some first
      have named : toLower header.1 = text "content-length" := by
        simpa using List.find?_some first
      rw [lower header member] at named
      have same : header = (text "content-length", decimal n) :=
        List.inj_on_of_nodup_map distinct member listed named
      simp only [bodyLength, first, Option.bind_eq_bind, Option.bind_some, same,
        fromChars_decimal small]

/-- A response that announces its body is read as a whole. -/
theorem readResponse_serialize {response : HttpResponse}
    (legible : LegibleHeaders response) (noFile : response.hasSendfile = false)
    (announced : (text "content-length", decimal response.body.length) ∈
      listed response)
    (small : response.body.length < 2 ^ 64) :
    StreamReader.Reads readResponse
      { statusLine := Serialized.statusLine response
        headers := listed response
        body := response.body } response.serialize := by
  apply readResponse_steady.reads_of_whole
  have head := decode_serialize legible
  rw [noFile] at head
  have lower : ∀ header ∈ listed response, toLower header.1 = header.1 :=
    fun header member => (listed_legible legible header member).1.1
  have length := bodyLength_of_mem lower (listed_nodup response) announced small
  refine readResponse_eq_some.2
    ⟨_, _, head, length, Nat.le_refl _, ?_, ?_⟩
  · simp
  · simp

/-- What follows a head that announces its length can be taken for the body. -/
theorem serialize_append {response : HttpResponse}
    (announced : response.headers.lookup (text "content-length") ≠ none)
    (noFile : response.hasSendfile = false) (contents : Bytes) :
    ({ response with body := response.body ++ contents } :
      HttpResponse).serialize = response.serialize ++ contents := by
  have file : ({ response with body := response.body ++ contents } :
      HttpResponse).hasSendfile = false := noFile
  simp only [HttpResponse.serialize, file, noFile, announced, false_and,
    and_false, if_false, Bool.false_eq_true, List.append_assoc]

/-! ## The pages -/

/-- What one message of a client is answered with. -/
structure Reply where
  status : Status
  contentType : Bytes
  connection : Option Bytes
  body : Bytes

/-- The headers of a reply. -/
def Reply.headers (reply : Reply) : List (Bytes × Bytes) :=
  (reply.connection.toList.map fun value => (text "connection", value)) ++
    [(text "content-type", reply.contentType),
      (text "content-length", decimal reply.body.length)]

/-- The client has read the reply, with these headers and no others. -/
structure Understands (reply : Reply) (decoded : Decoded) : Prop where
  code : decoded.code = some reply.status.code
  headers : decoded.headers.Perm reply.headers
  body : decoded.body = reply.body

theorem knownType_clean {type : Bytes} (known : KnownType type) :
    Clean type := by
  have table : ∀ type ∈ mimeTable.map Prod.snd, Clean type := by decide
  rcases known with listed | rfl
  · exact table type listed
  · decide

/-- A response whose headers are those of the reply is read as the reply. -/
theorem reads_reply {reply : Reply} {response serialized : HttpResponse}
    (reorders : Reorders response serialized)
    (status : response.status = reply.status)
    (body : response.body = reply.body) (noFile : response.sendfileFd = none)
    (headers : (listed response).Perm reply.headers)
    (legible : LegibleHeaders response)
    (small : reply.body.length < 2 ^ 64) :
    ∃ decoded,
      StreamReader.Reads readResponse decoded serialized.serialize ∧
        Understands reply decoded := by
  have file : serialized.hasSendfile = false := by
    rw [HttpResponse.hasSendfile, reorders.sendfileFd, noFile]
    rfl
  have text_ : serialized.body = reply.body := reorders.body.trans body
  have whole := (listed_perm reorders).trans headers
  have announced : (text "content-length", decimal serialized.body.length) ∈
      listed serialized := by
    rw [whole.mem_iff, text_, Reply.headers]
    simp
  have lines : LegibleHeaders serialized := fun header member =>
    legible header (reorders.headers.mem_iff.1 member)
  refine ⟨_, readResponse_serialize lines file announced (text_ ▸ small),
    ?_⟩
  exact
    { code := by rw [code_statusLine, reorders.status, status]
      headers := whole
      body := text_ }

/-! ## What is sent for a message -/

/-- The reply that a response is, with the bytes of its file. -/
def replyOf (response : HttpResponse) (connection : Option Bytes)
    (contents : Bytes) : Reply where
  status := response.status
  contentType := (response.headers.lookup (text "content-type")).getD []
  connection := connection
  body := response.body ++ contents

/-- The file of a posting is sent as a whole, and nothing without a file. -/
def Posting.Carries (posted : Posting) (contents : Bytes) : Prop :=
  match posted.fileFd with
  | some _ => (contents.length : Int) = posted.fileSize
  | none => contents = []

/-- The bytes that `sendfile` sends for a posting. -/
def Posting.contents (posted : Posting) (files : Nat → OpenFile) : Bytes :=
  match posted.fileFd with
  | some fileFd => (files fileFd).contents.take posted.fileSize.toNat
  | none => []

/-- The value of the connection header. -/
def connectionValue (keepAlive : Bool) : Bytes :=
  if keepAlive then text "keep-alive" else text "close"

/-- What the read callback has made of some bytes of a client. -/
inductive Message where
  | request (request : HttpRequest)
  | malformed (error : Bytes)

/-- How a message has been answered. -/
inductive Handling where
  /-- A worker has run the task of the request, in a world with these files. -/
  | task (request : HttpRequest) (host : Host) (files : Nat → OpenFile)
  /-- The read callback has refused what it could not parse. -/
  | refusal (error : Bytes)

/-- The message that has been answered. -/
def Handling.message : Handling → Message
  | .task request _ _ => .request request
  | .refusal error => .malformed error

/-- The bytes that go out for a message, and the reply that they are. -/
inductive Exchange (router : Router Host) :
    Handling → Reply → Bytes → Prop where
  | task (request : HttpRequest) (host : Host) (files : Nat → OpenFile)
      (response : HttpResponse) (posted : Posting)
      (answered : handled router host request = some response)
      (posts : Posts response request.wantsKeepAlive posted)
      (carries : posted.Carries (posted.contents files)) :
      Exchange router (.task request host files)
        (replyOf response (some (connectionValue request.wantsKeepAlive))
          (posted.contents files))
        (posted.data ++ posted.contents files)
  | refusal (error : Bytes) :
      Exchange router (.refusal error)
        (replyOf (.makeError .BadRequest error) none [])
        (HttpResponse.makeError .BadRequest error).serialize

/-- What was read is the reply that was made. -/
def Answers (router : Router Host) (handling : Handling) (decoded : Decoded) :
    Prop :=
  ∃ reply wire, Exchange router handling reply wire ∧
    Understands reply decoded

theorem connectionValue_clean (keepAlive : Bool) :
    Clean (connectionValue keepAlive) := by
  cases keepAlive <;> decide

/-- The headers of a text, with the length that `serialize` adds. -/
theorem listed_text {response : HttpResponse} {type : Bytes}
    (connection : Option Bytes)
    (entries : response.headers.entries =
      (connection.toList.map fun value => ⟨text "connection", value⟩) ++
        [⟨text "content-type", type⟩])
    (nonempty : response.body ≠ []) (noFile : response.sendfileFd = none) :
    listed response =
      (connection.toList.map fun value => (text "connection", value)) ++
        [(text "content-type", type),
          (text "content-length", decimal response.body.length)] := by
  have unlisted : response.headers.lookup (text "content-length") = none := by
    rw [AList.lookup_eq_none, AList.mem_keys, AList.keys, entries]
    cases connection with
    | none =>
        show text "content-length" ∉ [text "content-type"]
        decide
    | some value =>
        show text "content-length" ∉ [text "connection", text "content-type"]
        decide
  have plain : response.hasSendfile = false := by
    rw [HttpResponse.hasSendfile, noFile]
    rfl
  rw [listed, entries, if_pos ⟨nonempty, unlisted, plain⟩]
  cases connection <;> rfl

/-- The names of the headers of a page. -/
theorem legible_names :
    LegibleName (text "connection") ∧ LegibleName (text "content-length") ∧
      LegibleName (text "content-type") := by
  decide

/-- The page that `set_body` makes, once it has its connection header. -/
theorem reads_text {status : Status} {body : Bytes} (nonempty : body ≠ [])
    (keepAlive : Bool) {serialized : HttpResponse}
    (reorders : Reorders
      (completed (({ status } : HttpResponse).setBody body (text "text/plain"))
        keepAlive).takeSendfileFd.2 serialized)
    (small : body.length < 2 ^ 64) :
    ∃ decoded,
      StreamReader.Reads readResponse decoded serialized.serialize ∧
        Understands
          (replyOf (({ status } : HttpResponse).setBody body
            (text "text/plain")) (some (connectionValue keepAlive)) [])
          decoded := by
  have entries : (completed
      (({ status } : HttpResponse).setBody body (text "text/plain"))
      keepAlive).takeSendfileFd.2.headers.entries =
        [⟨text "connection", connectionValue keepAlive⟩,
          ⟨text "content-type", text "text/plain"⟩] := rfl
  have headers := listed_text (some _) entries nonempty rfl
  refine reads_reply reorders rfl (List.append_nil body).symm rfl ?_ ?_ ?_
  · rw [headers, replyOf, List.append_nil]
    exact .refl _
  · intro header member
    rw [entries, List.mem_pair] at member
    rcases member with rfl | rfl
    · exact ⟨legible_names.1, connectionValue_clean keepAlive⟩
    · exact ⟨legible_names.2.2, by decide⟩
  · rw [replyOf, List.append_nil]
    exact small

/-- A file is as long as its response says if `off_t` can hold its size. -/
theorem length_of_announced {contents : Bytes} {fileSize : UInt64}
    (announced : (contents.length : Int) = fileSize.toInt64.toInt) :
    contents.length = fileSize.toNat := by
  have nonneg : (0 : Int) ≤ contents.length := Int.natCast_nonneg _
  rw [toInt_toInt64] at announced
  split_ifs at announced
  · exact Int.natCast_inj.1 announced
  · have bounded := fileSize.toNat_lt
    omega

/-- The sizes that `fstat` gives are those of an `off_t`. -/
def Measures (host : Host) : Prop :=
  ∀ place fileSize, host.fstat place = some fileSize →
    fileSize.toNat < 2 ^ 63

/-- The size that a task of the server posts is never negative. -/
theorem fileSize_response {system : Posix.FileSystem} {router : Router Host}
    (built : Answering.buildRouter system = some router) {host : Host}
    (measures : Measures host) {files : Nat → OpenFile} {job : Job}
    {pw : Core.PendingWrite}
    (posted : Answering.response router host files job = some pw) :
    ∃ response, handled router host job.request = some response ∧
      (posting response job.keepAlive).fileSize = pw.fileSize := by
  rcases Option.map_eq_some_iff.1 posted with ⟨response, answered, rfl⟩
  refine ⟨response, answered, (Int.toNat_of_nonneg ?_).symm⟩
  cases handled_page built answered with
  | text status body => exact Int.le_refl 0
  | file fileFd fileSize type known sized =>
      rcases sized with ⟨place, sized⟩
      show 0 ≤ fileSize.toInt64.toInt
      rw [toInt_toInt64, if_pos (measures place fileSize sized)]
      exact Int.natCast_nonneg _

/-- The page that `set_sendfile` makes, with the file behind its head. -/
theorem reads_file {fileFd : Nat} {fileSize : UInt64} {type : Bytes}
    (known : KnownType type) (keepAlive : Bool) {contents : Bytes}
    {serialized : HttpResponse}
    (reorders : Reorders
      (completed
        ((({} : HttpResponse).setStatus .Ok).setSendfile fileFd fileSize type)
        keepAlive).takeSendfileFd.2 serialized)
    (length : contents.length = fileSize.toNat)
    (small : contents.length < 2 ^ 64) :
    ∃ decoded,
      StreamReader.Reads readResponse decoded
          (serialized.serialize ++ contents) ∧
        Understands
          (replyOf
            ((({} : HttpResponse).setStatus .Ok).setSendfile fileFd fileSize
              type)
            (some (connectionValue keepAlive)) contents)
          decoded := by
  let sent := (completed
    ((({} : HttpResponse).setStatus .Ok).setSendfile fileFd fileSize type)
    keepAlive).takeSendfileFd.2
  have entries : sent.headers.entries =
      [⟨text "connection", connectionValue keepAlive⟩,
        ⟨text "content-length", decimal fileSize.toNat⟩,
        ⟨text "content-type", type⟩] := rfl
  have stored : sent.headers.lookup (text "content-length") ≠ none := by
    rw [Ne, AList.lookup_eq_none, not_not, AList.mem_keys, AList.keys,
      entries]
    exact List.mem_cons_of_mem _ List.mem_cons_self
  have again : serialized.headers.lookup (text "content-length") ≠ none :=
    (AList.perm_lookup reorders.headers).symm ▸ stored
  have plain : serialized.hasSendfile = false := by
    rw [HttpResponse.hasSendfile, reorders.sendfileFd]
    rfl
  -- The file is sent where the body would be.
  rw [← serialize_append again plain]
  have filled : Reorders { sent with body := sent.body ++ contents }
      { serialized with body := serialized.body ++ contents } :=
    { reorders with body := congrArg (· ++ contents) reorders.body }
  refine reads_reply filled rfl rfl rfl ?_ ?_ small
  · have headers : listed { sent with body := sent.body ++ contents } =
        [(text "connection", connectionValue keepAlive),
          (text "content-length", decimal fileSize.toNat),
          (text "content-type", type)] := by
      rw [listed, if_neg fun automatic => stored automatic.2.1]
      rfl
    rw [headers, ← length]
    exact .cons _ (.swap _ _ _)
  · intro header member
    have member : header ∈ sent.headers.entries := member
    rw [entries] at member
    simp only [List.mem_cons, List.not_mem_nil, or_false] at member
    rcases member with rfl | rfl | rfl
    · exact ⟨legible_names.1, connectionValue_clean keepAlive⟩
    · exact ⟨legible_names.2.1, clean_decimal _⟩
    · exact ⟨legible_names.2.2, knownType_clean known⟩

/-- A page with a connection header is read as the reply it is. -/
theorem reads_page {host : Host} {response serialized : HttpResponse}
    (page : Page host response) (keepAlive : Bool) {contents : Bytes}
    (reorders : Reorders (completed response keepAlive).takeSendfileFd.2
      serialized)
    (carries : (posting response keepAlive).Carries contents)
    (small : (response.body ++ contents).length < 2 ^ 64) :
    ∃ decoded,
      StreamReader.Reads readResponse decoded
          (serialized.serialize ++ contents) ∧
        Understands
          (replyOf response (some (connectionValue keepAlive)) contents)
          decoded := by
  cases page with
  | text status body nonempty =>
      have nothing : contents = [] := carries
      subst nothing
      rw [List.append_nil] at small ⊢
      exact reads_text nonempty keepAlive reorders small
  | file fileFd fileSize type known _ =>
      exact reads_file known keepAlive reorders (length_of_announced carries)
        small

/-- What a parse error is answered with is read as the refusal it is. -/
theorem reads_refusal {error : Bytes}
    (small : (replyOf (.makeError .BadRequest error) none []).body.length <
      2 ^ 64) :
    ∃ decoded,
      StreamReader.Reads readResponse decoded
          (HttpResponse.makeError .BadRequest error).serialize ∧
        Understands (replyOf (.makeError .BadRequest error) none [])
          decoded := by
  have nonempty := makeError_body_ne_nil .BadRequest error
  have headers := listed_text none rfl nonempty rfl
  refine reads_reply ⟨rfl, .refl _, rfl, rfl⟩ rfl
    (List.append_nil _).symm rfl ?_ ?_ small
  · rw [headers, replyOf, List.append_nil]
    exact .refl _
  · exact forall_insert nofun (by decide)

theorem body_le_serialize {response : HttpResponse}
    (noFile : response.sendfileFd = none) :
    response.body.length ≤ response.serialize.length := by
  have plain : response.hasSendfile = false := by
    rw [HttpResponse.hasSendfile, noFile]
    rfl
  rw [HttpResponse.serialize, plain, if_neg Bool.false_ne_true,
    List.length_append]
  exact Nat.le_add_left _ _

/-- The body of a reply goes out. -/
theorem Exchange.body_le {router : Router Host} {handling : Handling}
    {reply : Reply} {wire : Bytes}
    (exchanged : Exchange router handling reply wire) :
    reply.body.length ≤ wire.length := by
  cases exchanged with
  | task request host files response posted answered posts carries =>
      cases posts with
      | ordered serialized reorders =>
          have text_ := body_le_serialize reorders.sendfileFd
          have same : serialized.body = response.body := reorders.body
          rw [replyOf, List.length_append, List.length_append, ← same]
          exact Nat.add_le_add_right text_ _
  | refusal error =>
      rw [replyOf, List.append_nil]
      exact body_le_serialize rfl

/-- What goes out for a message is read as the reply to it. -/
theorem Exchange.reads {system : Posix.FileSystem} {router : Router Host}
    (built : Answering.buildRouter system = some router) {handling : Handling}
    {reply : Reply} {wire : Bytes}
    (exchanged : Exchange router handling reply wire)
    (small : wire.length < 2 ^ 64) :
    ∃ decoded, Answers router handling decoded ∧
      StreamReader.Reads readResponse decoded wire := by
  have fits : reply.body.length < 2 ^ 64 :=
    Nat.lt_of_le_of_lt exchanged.body_le small
  cases exchanged with
  | task request host files response posted answered posts carries =>
      have whole := Exchange.task request host files response posted answered
        posts carries
      cases posts with
      | ordered serialized reorders =>
          rcases reads_page (handled_page built answered)
            request.wantsKeepAlive reorders carries fits with
            ⟨decoded, reads, understands⟩
          exact ⟨decoded, ⟨_, _, whole, understands⟩, reads⟩
  | refusal error =>
      rcases reads_refusal fits with ⟨decoded, reads, understands⟩
      exact ⟨decoded, ⟨_, _, .refusal error, understands⟩, reads⟩

/-- What goes out for some messages is read as the replies to them. -/
theorem exchanges_read {system : Posix.FileSystem} {router : Router Host}
    (built : Answering.buildRouter system = some router)
    {handlings : List Handling} {wires : List Bytes}
    (exchanged : List.Forall₂
      (fun handling wire => ∃ reply, Exchange router handling reply wire)
      handlings wires)
    (small : ∀ wire ∈ wires, wire.length < 2 ^ 64) :
    ∃ responses, List.Forall₂ (Answers router) handlings responses ∧
      List.Forall₂ (StreamReader.Reads readResponse) responses wires := by
  induction exchanged with
  | nil => exact ⟨[], .nil, .nil⟩
  | cons first rest ih =>
      rcases ih fun wire member => small wire (List.mem_cons_of_mem _ member)
        with ⟨responses, answers, reads⟩
      rcases first with ⟨reply, exchanged⟩
      rcases exchanged.reads built (small _ List.mem_cons_self) with
        ⟨decoded, answered, read⟩
      exact ⟨decoded :: responses, .cons answered answers, .cons read reads⟩

end Cppws.App
