import Cppws.Foundation.HandleTable
import Cppws.Net.Attempts
import Cppws.Net.Lifetime

/-!
# What a connection does with the file it holds

The calls on the file of a response: `sendfile`, and the destructor of
`SendfileOp`.  Every function of a connection uses the file that it holds only,
and either keeps it or closes it.
-/

namespace Cppws.Net

open HandleUse (table)

/-- The file that a call of `flush_write` is given. -/
def Attempt.fileUse : Attempt → Option (HandleUse Nat)
  | .send _ _ => none
  | .sendfile op _ => some (.uses op.file.handle)

/-- The file that a call closes. -/
def Call.fileUse : Call → Option (HandleUse Nat)
  | .closeFile handle => some (.closes handle)
  | _ => none

/-- The files that some calls close. -/
def fileCloses (calls : List Call) : List (HandleUse Nat) :=
  calls.filterMap Call.fileUse

@[simp]
theorem fileCloses_append (first second : List Call) :
    fileCloses (first ++ second) = fileCloses first ++ fileCloses second :=
  List.filterMap_append

theorem opened_fileCloses (calls : List Call) :
    HandleUse.opened (fileCloses calls) = [] := by
  rw [HandleUse.opened, fileCloses, List.filterMap_filterMap,
    List.filterMap_eq_nil_iff]
  intro call _
  cases call <;> rfl

namespace Connection

/-- The file that the connection holds. -/
def handle (conn : Connection) : Option Nat :=
  conn.sendfileOp.map fun op => op.file.handle

/-- What `flush_write` does with files, in order. -/
def flushUses (conn : Connection) (answers : List Answer) :
    List (HandleUse Nat) :=
  (conn.flushAttempts answers).filterMap Attempt.fileUse ++
    fileCloses ((conn.flushWrite answers).elim [] Flushed.calls)

theorem opened_flushUses (conn : Connection) (answers : List Answer) :
    HandleUse.opened (conn.flushUses answers) = [] := by
  rw [flushUses, HandleUse.opened_append, opened_fileCloses, List.append_nil,
    HandleUse.opened, List.filterMap_filterMap, List.filterMap_eq_nil_iff]
  intro attempt _
  cases attempt <;> rfl

theorem fileCloses_releaseFile (op : Option SendfileOp) :
    fileCloses (releaseFile op) =
      (op.map fun op => op.file.handle).toList.map .closes := by
  cases op <;> rfl

/-- Some calls keep the file that the connection holds, or close it. -/
def Releases (before after : Connection) (calls : List Call) : Prop :=
  table.run (before.handle.toList : Multiset Nat) (fileCloses calls) =
    some ↑after.handle.toList

theorem Releases.keeps {before after : Connection} {calls : List Call}
    (same : after.handle = before.handle) (silent : fileCloses calls = []) :
    Releases before after calls := by
  rw [Releases, silent, same]
  rfl

theorem Releases.trans {before middle after : Connection}
    {first second : List Call} (one : Releases before middle first)
    (two : Releases middle after second) :
    Releases before after (first ++ second) := by
  rw [Releases, fileCloses_append]
  exact HandleUse.run_append one two

/-- The destructor of `SendfileOp` runs. -/
theorem Releases.destructs {before after : Connection}
    (gone : after.sendfileOp = none) :
    Releases before after (releaseFile before.sendfileOp) := by
  rw [Releases, fileCloses_releaseFile, handle, handle, gone]
  exact HandleUse.run_closes _

theorem onClosed_releases (conn : Connection) :
    Releases conn conn.onClosed.1 conn.onClosed.2 := by
  unfold onClosed
  split_ifs with closed
  · exact .keeps rfl rfl
  · have quiet : fileCloses (.closeCallback conn.socket ::
        conn.socket.toList.map .close) = [] := by
      cases conn.socket <;> rfl
    rw [Releases, fileCloses_append, quiet, List.append_nil]
    exact Releases.destructs rfl

theorem settle_releases (conn : Connection) :
    Releases conn conn.settle.1 conn.settle.2 := by
  unfold settle
  split
  case isTrue => exact .destructs rfl
  case isFalse => exact .keeps rfl rfl

theorem readOnce_releases (conn : Connection) (received : Received) :
    Releases conn (conn.readOnce received).1 (conn.readOnce received).2.1 := by
  rcases conn.readOnce_closes received with
    ⟨last, ⟨readBuf, rfl⟩, ⟨closed, calls⟩ | ⟨same, calls⟩⟩
  · rw [closed, calls]
    exact onClosed_releases { conn with readBuf := readBuf }
  · rw [same, calls]
    exact .keeps rfl rfl

/-! ## A flush -/

theorem sendLoop_releases {conn : Connection} {answers : List Answer}
    {ended : Flushing} (looped : conn.sendLoop answers = some ended) :
    Releases conn ended.conn ended.calls := by
  replace looped := sendLoop_rounds looped
  induction looped with
  | drained | again => exact .keeps rfl rfl
  | @took conn answer rest ended n full replied later ih =>
      have sent : Releases conn (conn.sent n)
          [.send (conn.writeBuf.readable.take n)] := .keeps rfl rfl
      exact sent.trans ih
  | retry full replied later ih => exact ih
  | fails => exact onClosed_releases _

theorem sendfileLoop_releases {conn : Connection} {answers : List Answer}
    {ended : Flushing} (looped : conn.sendfileLoop answers = some ended) :
    Releases conn ended.conn ended.calls := by
  replace looped := sendfileLoop_rounds looped
  induction looped with
  | drained | atEof | again => exact .keeps rfl rfl
  | @took conn answer rest ended op n found active replied more later ih =>
      have sent : Releases conn
          { conn with sendfileOp := some (op.advance (op.chunk n).length) }
          [.sendfile (op.chunk n)] := by
        refine .keeps ?_ rfl
        rw [handle, handle, found]
        rfl
      exact sent.trans ih
  | retry found active replied later ih => exact ih
  | fails => exact onClosed_releases _

theorem finish_releases {conn : Connection} {ended : Flushing}
    (releases : Releases conn ended.conn ended.calls) :
    Releases conn ended.finish.conn ended.finish.calls := by
  unfold Flushing.finish
  cases ended.flow with
  | closed => exact releases
  | drained | wouldBlock => exact releases.trans (settle_releases _)

theorem flushWrite_releases {conn : Connection} {answers : List Answer}
    {flushed : Flushed} (ran : conn.flushWrite answers = some flushed) :
    Releases conn flushed.conn flushed.calls := by
  cases flushWrite_phases ran with
  | first headers sent => exact finish_releases (sendLoop_releases sent)
  | both headers body sent flow filed =>
      exact finish_releases
        ((sendLoop_releases sent).trans (sendfileLoop_releases filed))

/-- The connection holds the same file, and nothing else has been used. -/
def Uses (handle : Option Nat) (conn : Connection) (done : List Attempt) :
    Prop :=
  conn.handle = handle ∧
    table.run (handle.toList : Multiset Nat) (done.filterMap Attempt.fileUse) =
      some ↑handle.toList

/-- A call on the file of the operation. -/
theorem Uses.sendfile {handle : Option Nat} {conn moved : Connection}
    {done : List Attempt} {op : SendfileOp} (uses : Uses handle conn done)
    (found : conn.sendfileOp = some op) (same : moved.handle = conn.handle)
    (returned : Answer) :
    Uses handle moved (done ++ [.sendfile op returned]) := by
  have held : handle = some op.file.handle := by
    rw [← uses.1, Connection.handle, found]
    rfl
  refine ⟨same.trans uses.1, ?_⟩
  rw [List.filterMap_append]
  refine HandleUse.run_append uses.2 ?_
  rw [held]
  simp [Attempt.fileUse, Machine.run, table]

theorem kept_uses (handle : Option Nat) : Kept (Uses handle) where
  sends := by
    intro conn done n uses _ _
    refine ⟨uses.1, ?_⟩
    rw [List.filterMap_append]
    exact HandleUse.run_append uses.2 rfl
  sendFails := by
    intro conn done errno uses _
    refine ⟨uses.1, ?_⟩
    rw [List.filterMap_append]
    exact HandleUse.run_append uses.2 rfl
  files := by
    intro conn done op n uses _ _ found _
    refine uses.sendfile found ?_ _
    rw [Connection.handle, Connection.handle, found]
    rfl
  fileFails := by
    intro conn done op errno uses _ found _
    exact uses.sendfile found rfl _

/-- A flush uses the file that the connection holds, and may then close it. -/
theorem flushUses_run {conn : Connection} {answers : List Answer}
    {flushed : Flushed} (ran : conn.flushWrite answers = some flushed) :
    table.run (conn.handle.toList : Multiset Nat) (conn.flushUses answers) =
      some ↑flushed.conn.handle.toList := by
  have initially : Uses conn.handle conn [] := ⟨rfl, rfl⟩
  rcases flushWrite_kept (kept_uses conn.handle) ran initially with
    ⟨last, uses, _⟩
  rw [flushUses, ran]
  exact HandleUse.run_append uses.2 (flushWrite_releases ran)

/-- The file that a connection holds after some calls is the one before. -/
theorem Releases.handle_eq {before after : Connection} {calls : List Call}
    (releases : Releases before after calls) {handle : Nat}
    (held : after.handle = some handle) : before.handle = some handle := by
  have balanced := HandleUse.count_run releases handle
  rw [opened_fileCloses, held] at balanced
  have member : handle ∈ before.handle.toList := by
    rw [← List.count_pos_iff]
    simp at balanced
    omega
  exact Option.mem_toList.1 member

/-! ## Closed connections -/

/-- A connection that still holds a file is in the state it was in. -/
def Stays (before after : Connection) : Prop :=
  after.handle ≠ none → after.state = before.state

theorem onClosed_stays (conn : Connection) : Stays conn conn.onClosed.1 := by
  unfold onClosed
  split_ifs with closed
  · exact fun _ => rfl
  · exact fun held => absurd rfl held

theorem readOnce_stays (conn : Connection) (received : Received) :
    Stays conn (conn.readOnce received).1 := by
  rcases conn.readOnce_closes received with
    ⟨last, ⟨readBuf, rfl⟩, ⟨closed, _⟩ | ⟨same, _⟩⟩
  · rw [closed]
    exact onClosed_stays { conn with readBuf := readBuf }
  · rw [same]
    exact fun _ => rfl

theorem flushWrite_stays {conn : Connection} {answers : List Answer}
    {flushed : Flushed} (ran : conn.flushWrite answers = some flushed) :
    Stays conn flushed.conn := by
  intro held
  cases flushWrite_flushes ran with
  | opened _ _ _ _ _ _ _ _ _ _ settled =>
      rcases settled with ⟨_, gone, _⟩ | ⟨_, state⟩
      · rw [handle, gone] at held
        exact absurd rfl held
      · exact state
  | shut _ _ _ last owner closed =>
      rw [closed] at held ⊢
      exact (onClosed_stays last held).trans owner.state

end Connection

end Cppws.Net
