import Cppws.Net.Flush

/-!
# What on_readable reads

All calls of `recv` and of the read callback that `on_readable` makes.  The
callback may consume any part of the readable bytes, and change anything but
the read buffer.
-/

namespace Cppws.Net

open Cppws.Http (Bytes)

/-- A step of the loop in `on_readable`. -/
inductive ReadEvent where
  /-- There is no room for a `recv`, with what is unconsumed. -/
  | noRoom (unconsumed : Bytes)
  /-- `recv` with this length and what it returned. -/
  | recv (length : Nat) (returned : Received)
  /-- `on_read_` with the bytes that were readable before and after it. -/
  | callback (shown left : Bytes)

namespace ReadEvent

/-- The bytes that came in. -/
def received : ReadEvent → Bytes
  | .recv length (.data first rest) => (first :: rest).take length
  | _ => []

/-- The bytes that were consumed. -/
def consumed : ReadEvent → Bytes
  | .callback shown left => shown.take (shown.length - left.length)
  | _ => []

/-- After this step `on_closed()` is called. -/
def Closes : ReadEvent → Prop
  | .noRoom _ => True
  | .recv _ .eof => True
  | .recv _ (.failed errno) => errno ≠ .again ∧ errno ≠ .intr
  | _ => False

/-- `recv` has room, and a buffer without room is full of unconsumed bytes. -/
def Sane (capacity : Nat) : ReadEvent → Prop
  | .noRoom unconsumed => unconsumed.length = capacity
  | .recv length _ => 0 < length
  | .callback _ _ => True

end ReadEvent

/-- The bytes that came in with some steps. -/
def received (events : List ReadEvent) : Bytes :=
  events.flatMap ReadEvent.received

/-- The bytes that were consumed in some steps. -/
def consumed (events : List ReadEvent) : Bytes :=
  events.flatMap ReadEvent.consumed

/--
Every callback is shown what was readable at the beginning and what has come in
since, without what has been consumed.
-/
def Delivers (entry : Bytes) (events : List ReadEvent) : Prop :=
  ∀ earlier shown left, earlier ++ [.callback shown left] <+: events →
    consumed earlier ++ shown = entry ++ received earlier

theorem Delivers.nil (entry : Bytes) : Delivers entry [] := by
  intro earlier shown left before
  have nothing := List.append_eq_nil_iff.1 (List.prefix_nil.1 before)
  cases nothing.2

/-- A step without a callback. -/
theorem Delivers.cons {entry : Bytes} {event : ReadEvent}
    {events : List ReadEvent} (silent : event.consumed = [])
    (other : ∀ shown left, event ≠ .callback shown left)
    (later : Delivers (entry ++ event.received) events) :
    Delivers entry (event :: events) := by
  intro earlier shown left before
  cases earlier with
  | nil =>
      have same := (List.cons_prefix_cons.1 before).1
      exact absurd same.symm (other shown left)
  | cons first earlier =>
      rcases List.cons_prefix_cons.1 before with ⟨rfl, tail⟩
      have held := later earlier shown left tail
      rw [List.append_assoc] at held
      show first.consumed ++ consumed earlier ++ shown = _
      rw [silent]
      exact held

theorem Delivers.callback {shown left : Bytes} {events : List ReadEvent}
    (rest : ∃ count, left = shown.drop count)
    (later : Delivers left events) :
    Delivers shown (.callback shown left :: events) := by
  have split : shown.take (shown.length - left.length) ++ left = shown := by
    rcases rest with ⟨count, rfl⟩
    rw [List.length_drop]
    rcases Nat.le_total count shown.length with within | beyond
    · rw [Nat.sub_sub_self within, List.take_append_drop]
    · rw [List.drop_eq_nil_of_le beyond, List.append_nil,
        Nat.sub_eq_zero_of_le beyond, Nat.sub_zero, List.take_length]
  intro earlier again left' before
  cases earlier with
  | nil =>
      have same := (List.cons_prefix_cons.1 before).1
      cases same
      exact (List.append_nil _).symm
  | cons first earlier =>
      rcases List.cons_prefix_cons.1 before with ⟨rfl, tail⟩
      have held := later earlier again left' tail
      show shown.take (shown.length - left.length) ++ consumed earlier ++
        again = shown ++ ([] ++ received earlier)
      rw [List.append_assoc, held, ← List.append_assoc, split]
      rfl

namespace Connection

variable {σ : Type}

/-- A read callback that consumes some of the readable bytes, and may do
anything to the rest of the connection. -/
def Consuming (onRead : Connection → σ → Connection × σ) : Prop :=
  ∀ conn state,
    (onRead conn state).1.readBuf.capacity = conn.readBuf.capacity ∧
      ∃ count, (onRead conn state).1.readBuf.readable =
        conn.readBuf.readable.drop count

/-- The steps of `on_readable`. -/
def readEvents (onRead : Connection → σ → Connection × σ)
    (conn : Connection) (state : σ) : List Received → List ReadEvent
  | [] => []
  | received :: rest =>
      match conn.roomToRead with
      | none => [.noRoom conn.readBuf.readable]
      | some roomy =>
          let read := roomy.recv received
          .recv roomy.readBuf.writableBytes (roomy.receives received) ::
            match read.2.2 with
            | .callback =>
                let called := onRead read.1 state
                .callback read.1.readBuf.readable
                    called.1.readBuf.readable ::
                  readEvents onRead called.1 called.2 rest
            | .retry => readEvents onRead read.1 state rest
            | .blocked => []
            | .closed => []

/-- A buffer without room to compact is full. -/
theorem roomToRead_none {conn : Connection} (full : conn.roomToRead = none) :
    conn.readBuf.readable.length = conn.readBuf.capacity := by
  simp only [roomToRead] at full
  split_ifs at full with noRoom nothing
  have atStart : conn.readBuf.readPos = 0 := by
    by_contra moved
    rw [Buffer.compact, if_neg moved] at nothing
    exact moved nothing
  have within := conn.readBuf.within
  rw [Buffer.writableBytes] at noRoom
  rw [Buffer.readable_length, Buffer.readableBytes, atStart]
  omega

/-- Room is made without touching what is readable. -/
theorem roomToRead_some {conn roomy : Connection}
    (made : conn.roomToRead = some roomy) :
    0 < roomy.readBuf.writableBytes ∧
      roomy.readBuf.readable = conn.readBuf.readable ∧
      roomy.readBuf.capacity = conn.readBuf.capacity := by
  simp only [roomToRead] at made
  split_ifs at made with noRoom nothing
  · cases made
    refine ⟨?_, conn.readBuf.readable_compact,
      conn.readBuf.compact_capacity⟩
    have room := conn.readBuf.compact_writableBytes
    have moved : conn.readBuf.readPos ≠ 0 := by
      intro atStart
      rw [Buffer.compact, if_pos atStart] at nothing
      exact nothing rfl
    have ordered := conn.readBuf.ordered
    have within := conn.readBuf.within
    dsimp only
    rw [room, Buffer.readableBytes]
    omega
  · cases made
    exact ⟨Nat.pos_of_ne_zero noRoom, rfl, rfl⟩

/-- What one `recv` leaves in the buffer. -/
theorem recv_readable {conn : Connection} {answer : Received}
    (event : ReadEvent)
    (made : event = .recv conn.readBuf.writableBytes (conn.receives answer)) :
    (conn.recv answer).1.readBuf.capacity = conn.readBuf.capacity ∧
      (conn.recv answer).1.readBuf.readable =
        conn.readBuf.readable ++ event.received := by
  subst made
  have closing : conn.onClosed.1.readBuf = conn.readBuf := by
    unfold onClosed
    split <;> rfl
  unfold recv
  cases received : conn.receives answer with
  | data first rest => exact ⟨rfl, Buffer.readable_append _ _ _⟩
  | eof =>
      dsimp only
      rw [closing]
      exact ⟨rfl, (List.append_nil _).symm⟩
  | failed errno =>
      cases errno with
      | again | intr => exact ⟨rfl, (List.append_nil _).symm⟩
      | connreset | pipe | other =>
          dsimp only
          rw [closing]
          exact ⟨rfl, (List.append_nil _).symm⟩

variable {onRead : Connection → σ → Connection × σ}

theorem readEvents_delivers (consuming : Consuming onRead) (conn : Connection)
    (state : σ) (answers : List Received) :
    Delivers conn.readBuf.readable (readEvents onRead conn state answers) := by
  induction answers generalizing conn state with
  | nil => exact .nil _
  | cons answer rest ih =>
      rw [readEvents]
      cases made : conn.roomToRead with
      | none => exact .cons rfl nofun (.nil _)
      | some roomy =>
          rcases roomToRead_some made with ⟨_, same, _⟩
          have read := (recv_readable _ (rfl : ReadEvent.recv
            roomy.readBuf.writableBytes (roomy.receives answer) = _)).2
          dsimp only
          refine .cons rfl nofun ?_
          rw [← same, ← read]
          cases (roomy.recv answer).2.2 with
          | callback =>
              exact .callback (consuming (roomy.recv answer).1 state).2
                (ih _ _)
          | retry => exact ih _ _
          | blocked | closed => exact .nil _

theorem readEvents_sane (consuming : Consuming onRead) (conn : Connection)
    (state : σ) (answers : List Received) :
    ∀ event ∈ readEvents onRead conn state answers,
      event.Sane conn.readBuf.capacity := by
  induction answers generalizing conn state with
  | nil => exact fun event member => absurd member List.not_mem_nil
  | cons answer rest ih =>
      rw [readEvents]
      cases made : conn.roomToRead with
      | none => exact List.forall_mem_singleton.2 (roomToRead_none made)
      | some roomy =>
          rcases roomToRead_some made with ⟨room, _, same⟩
          have read := (recv_readable _ (rfl : ReadEvent.recv
            roomy.readBuf.writableBytes (roomy.receives answer) = _)).1
          rw [same] at read
          dsimp only
          refine List.forall_mem_cons.2 ⟨room, ?_⟩
          cases (roomy.recv answer).2.2 with
          | callback =>
              refine List.forall_mem_cons.2 ⟨trivial, ?_⟩
              have later := ih (onRead (roomy.recv answer).1 state).1
                (onRead (roomy.recv answer).1 state).2
              rw [(consuming (roomy.recv answer).1 state).1, read] at later
              exact later
          | retry => exact read ▸ ih _ _
          | blocked | closed =>
              exact fun event member => absurd member List.not_mem_nil

/-- How the loop goes on after a `recv`. -/
theorem recv_flow (conn : Connection) (answer : Received) :
    ((conn.recv answer).2.2 = .blocked →
        conn.receives answer = .failed .again) ∧
      ((conn.recv answer).2.2 = .closed →
        (conn.recv answer).1.state = .closed ∧
          ∀ length, (ReadEvent.recv length
            (conn.receives answer)).Closes) := by
  unfold recv
  cases conn.receives answer with
  | data first rest => exact ⟨nofun, nofun⟩
  | eof =>
      exact ⟨nofun, fun _ => ⟨onClosed_state conn, fun _ => trivial⟩⟩
  | failed errno =>
      cases errno with
      | again => exact ⟨fun _ => rfl, nofun⟩
      | intr => exact ⟨nofun, nofun⟩
      | connreset | pipe | other =>
          exact ⟨nofun, fun _ =>
            ⟨onClosed_state conn, fun _ => ⟨nofun, nofun⟩⟩⟩

/-- How `on_readable` ends. -/
structure Ends (events : List ReadEvent) (conn : Connection) (open_ : Bool) :
    Prop where
  blocked : open_ = true → ∃ earlier length,
    events = earlier ++ [.recv length (.failed .again)]
  closed : open_ = false → conn.state = .closed ∧
    ∃ earlier last, events = earlier ++ [last] ∧ last.Closes

theorem Ends.cons {events : List ReadEvent} {conn : Connection} {open_ : Bool}
    (ends : Ends events conn open_) (event : ReadEvent) :
    Ends (event :: events) conn open_ where
  blocked := by
    intro goesOn
    rcases ends.blocked goesOn with ⟨earlier, length, rfl⟩
    exact ⟨event :: earlier, length, rfl⟩
  closed := by
    intro stops
    rcases ends.closed stops with ⟨closed, earlier, last, rfl, closes⟩
    exact ⟨closed, event :: earlier, last, rfl, closes⟩

theorem onReadable_ends {conn : Connection} {state : σ}
    {answers : List Received} {result : Connection × σ × List Call × Bool}
    (ran : onReadable onRead conn state answers = some result) :
    Ends (readEvents onRead conn state answers) result.1 result.2.2.2 := by
  induction answers generalizing conn state result with
  | nil => cases ran
  | cons answer rest ih =>
      rw [readEvents]
      rw [onReadable, readOnce] at ran
      cases made : conn.roomToRead with
      | none =>
          simp only [made] at ran
          cases ran
          exact ⟨nofun, fun _ =>
            ⟨onClosed_state conn, [], _, rfl, trivial⟩⟩
      | some roomy =>
          simp only [made] at ran
          rcases recv_flow roomy answer with ⟨blocks, closes⟩
          dsimp only
          cases flow : (roomy.recv answer).2.2 with
          | callback =>
              simp only [flow] at ran
              rcases Option.map_eq_some_iff.1 ran with ⟨later, went, rfl⟩
              exact ((ih went).cons _).cons _
          | retry =>
              simp only [flow] at ran
              rcases Option.map_eq_some_iff.1 ran with ⟨later, went, rfl⟩
              exact (ih went).cons _
          | blocked =>
              simp only [flow] at ran
              cases ran
              rw [blocks flow]
              exact ⟨fun _ => ⟨[], _, rfl⟩, nofun⟩
          | closed =>
              simp only [flow] at ran
              cases ran
              rcases closes flow with ⟨closed, last⟩
              exact ⟨nofun, fun _ => ⟨closed, [], _, rfl, last _⟩⟩

/--
With a callback that consumes some of what is readable: every callback is shown
what was readable and what has come in since without what has been consumed;
`recv` is called with room; `on_readable` returns `true` right after a `recv`
that would have had to wait, and `false` with the connection closed by the last
step; and it runs out of room only when what is unconsumed fills the buffer.
-/
theorem on_readable_reads (consuming : Consuming onRead) (conn : Connection)
    (state : σ) (answers : List Received) :
    Delivers conn.readBuf.readable (readEvents onRead conn state answers) ∧
      (∀ length returned,
        .recv length returned ∈ readEvents onRead conn state answers →
          0 < length) ∧
      (∀ unconsumed,
        .noRoom unconsumed ∈ readEvents onRead conn state answers →
          unconsumed.length = conn.readBuf.capacity) ∧
      ∀ result, onReadable onRead conn state answers = some result →
        (result.2.2.2 = true →
            ∃ earlier length, readEvents onRead conn state answers =
              earlier ++ [.recv length (.failed .again)]) ∧
          (result.2.2.2 = false → result.1.state = .closed ∧
            ∃ earlier last, readEvents onRead conn state answers =
              earlier ++ [last] ∧ last.Closes) := by
  have sane := readEvents_sane consuming conn state answers
  refine ⟨readEvents_delivers consuming conn state answers, ?_, ?_, ?_⟩
  · exact fun length returned member => sane _ member
  · exact fun unconsumed member => sane _ member
  · intro result ran
    have ends := onReadable_ends ran
    exact ⟨ends.blocked, ends.closed⟩

/-- A callback that takes one byte of what it is shown. -/
def takeOne (conn : Connection) (_ : Unit) : Connection × Unit :=
  ({ conn with
      readBuf :=
        conn.readBuf.consume (min 1 conn.readBuf.readableBytes)
          (Nat.min_le_right _ _) }, ())

theorem takeOne_consuming : Consuming takeOne := by
  intro conn state
  have within : min 1 conn.readBuf.readableBytes ≤
      conn.readBuf.readableBytes := Nat.min_le_right _ _
  exact ⟨Buffer.consume_capacity _ _ within, _,
    Buffer.readable_consume _ _ within⟩

/-- Two bytes are there when one has been consumed of the first two. -/
theorem on_readable_reads_takeOne :
    Delivers []
      (readEvents takeOne (opened 3 0) ()
        [.data 1 [2], .failed .intr, .data 3 [], .failed .again]) :=
  (on_readable_reads takeOne_consuming (opened 3 0) ()
    [.data 1 [2], .failed .intr, .data 3 [], .failed .again]).1

end Connection

end Cppws.Net
