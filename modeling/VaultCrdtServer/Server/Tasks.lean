import VaultCrdtServer.Server.Interference

/-!
# The tasks keep their contracts

Each handler, run among the other connections, makes its calls where the
contract allows them and ends with an answer that settles its frame.
-/

namespace VaultCrdtServer

open Interleaving

variable {Blob : Type}

/-! ## A frame in progress -/

/-- A connection works on a frame, holds at most the given lock, and has
neither replied nor broadcast. -/
structure Working
    (id : FrameId)
    (vaultId : String)
    (held : Option String)
    (server : Server Blob) : Prop where
  connection : (server.connections id.connId).map
    (fun connection => (connection.vaultId, connection.received)) =
      some (vaultId, id.number)
  locks : ∀ key, server.docLocks key = some id.connId ↔ held = some key
  answers : server.answersTo id = []
  sent : server.sentFor id = []

/-- Every database call made for the frame so far was a query. -/
def OnlyRead (id : FrameId) (server : Server Blob) : Prop :=
  ∀ entry ∈ server.entriesOf id, entry.call.isRead = true

namespace Working

variable {id : FrameId} {vaultId : String} {held : Option String}
variable {server server' : Server Blob}

theorem stable
    (working : Working id vaultId held server)
    (tolerated : Rely id.connId server server') :
    Working id vaultId held server' where
  connection := tolerated.connection.trans working.connection
  locks := fun key => (tolerated.locks key).trans (working.locks key)
  answers := (tolerated.answers id.number).trans working.answers
  sent := (tolerated.sent id.number).trans working.sent

theorem current (working : Working id vaultId held server) :
    server.current id.connId = id := by
  have received := congrArg (Option.map Prod.snd) working.connection
  simp only [Option.map_map, Function.comp_def, Option.map_some] at received
  simp only [Server.current, received, Option.getD_some]

theorem commit
    (working : Working id vaultId held server)
    {origin : Option FrameId}
    {call : DbCall Blob}
    {reply : call.Reply}
    {db : Db Blob} :
    Working id vaultId held (server.commit origin call reply db) where
  connection := working.connection
  locks := working.locks
  answers := working.answers
  sent := working.sent

theorem setLock
    (working : Working id vaultId none server)
    {key : String} :
    Working id vaultId (some key) (server.setLock key (some id.connId)) where
  connection := working.connection
  locks := by
    intro other
    by_cases same : other = key
    · subst same
      simp [Server.setLock]
    · have free := working.locks other
      simp only [reduceCtorEq, iff_false] at free
      simp [Server.setLock, Function.update_of_ne same, free, Ne.symm same]
  answers := working.answers
  sent := working.sent

theorem unlock
    {key : String}
    (working : Working id vaultId (some key) server) :
    Working id vaultId none (server.setLock key none) where
  connection := working.connection
  locks := by
    intro other
    by_cases same : other = key
    · subst same
      simp [Server.setLock]
    · have free := working.locks other
      simp only [Option.some.injEq, Ne.symm same, iff_false] at free
      simp [Server.setLock, Function.update_of_ne same, free]
  answers := working.answers
  sent := working.sent

theorem setConnection
    {connection connection' : Connection Blob}
    (working : Working id vaultId held server)
    (registered : server.connections id.connId = some connection)
    (sameVault : connection'.vaultId = connection.vaultId)
    (received : connection'.received = connection.received) :
    Working id vaultId held (server.setConnection id.connId connection') where
  connection := by
    have identity := working.connection
    rw [registered, Option.map_some] at identity
    simpa [Server.setConnection, sameVault, received] using identity
  locks := working.locks
  answers := working.answers
  sent := working.sent

/-- The lock of a path is held. -/
theorem holds
    {path : DocPath}
    (working : Working id vaultId (some (lockKey path)) server) :
    server.docLocks (lockKey path) = some id.connId :=
  (working.locks _).mpr rfl

end Working

namespace Server

@[simp] theorem entriesOf_commit
    (id : FrameId)
    (call : DbCall Blob)
    (reply : call.Reply)
    (db : Db Blob)
    (server : Server Blob) :
    (server.commit (some id) call reply db).entriesOf id =
      server.entriesOf id ++ [⟨some id, call, reply, server.db, db⟩] := by
  simp [entriesOf, commit]

@[simp] theorem commit_db
    (origin : Option FrameId)
    (call : DbCall Blob)
    (reply : call.Reply)
    (db : Db Blob)
    (server : Server Blob) :
    (server.commit origin call reply db).db = db := rfl

end Server

theorem OnlyRead.stable
    {id : FrameId}
    {server server' : Server Blob}
    (reads : OnlyRead id server)
    (tolerated : Rely id.connId server server') :
    OnlyRead id server' := by
  unfold OnlyRead
  rw [show server'.entriesOf id = server.entriesOf id from
    tolerated.entries id.number]
  exact reads

theorem OnlyRead.commit
    {id : FrameId}
    {server : Server Blob}
    (reads : OnlyRead id server)
    {call : DbCall Blob}
    (isRead : call.isRead = true)
    (reply : call.Reply)
    (db : Db Blob) :
    OnlyRead id (server.commit (some id) call reply db) := by
  intro entry member
  rw [Server.entriesOf_commit, List.mem_append, List.mem_singleton] at member
  rcases member with member | rfl
  · exact reads entry member
  · exact isRead

section Tasks

variable (settings : Settings Blob) (reliable : Prop)

/-- The handler's result settles the frame, under the lock it was given. -/
def Finishes
    (id : FrameId)
    (vaultId : String)
    (held : Option String)
    (decoded : Except String (ClientMsg Blob))
    (result : Except ServerError (Answer Blob))
    (server : Server Blob) : Prop :=
  Working id vaultId held server ∧
    Settled settings.toLibraries id vaultId decoded
      (finishAnswer (requestIdOf decoded) result) (server.entriesOf id)

variable {settings reliable}
variable {id : FrameId} {vaultId : String} {held : Option String}
variable {decoded : Except String (ClientMsg Blob)}
variable {server : Server Blob}

/-- An error settles a frame that has written nothing. -/
theorem Finishes.error
    (working : Working id vaultId held server)
    (reads : OnlyRead id server)
    (error : ServerError) :
    Finishes settings id vaultId held decoded (.error error) server :=
  ⟨working, .plain trivial reads⟩

/-- So does an answer that does not report on the database. -/
theorem Finishes.plain
    (working : Working id vaultId held server)
    (reads : OnlyRead id server)
    {response : ServerMsg Blob}
    (isPlain : response.IsPlain) :
    Finishes settings id vaultId held decoded (.ok (response, none)) server := by
  refine ⟨working, ?_⟩
  cases response with
  | ack => exact isPlain.elim
  | _ => exact .plain isPlain reads

/-- The last call made for the frame, after nothing but queries, has stored a
blob under a path with the given version vector, and allocated the given token,
if any. -/
def HasStored
    (libraries : Libraries Blob)
    (id : FrameId)
    (path : DocPath)
    (incoming : Blob)
    (serverVv : Bytes)
    (granted : Option Int)
    (server : Server Blob) : Prop :=
  ∃ reads entry, server.entriesOf id = reads ++ [entry] ∧
    (∀ entry ∈ reads, entry.call.isRead = true) ∧
    entry.origin = some id ∧
    entry.Stores libraries.loro path incoming ∧
    entry.Reports libraries serverVv ∧
    entry.granted = granted

theorem HasStored.stable
    {libraries : Libraries Blob}
    {path : DocPath}
    {incoming : Blob}
    {serverVv : Bytes}
    {granted : Option Int}
    {server server' : Server Blob}
    (hasStored : HasStored libraries id path incoming serverVv granted server)
    (tolerated : Rely id.connId server server') :
    HasStored libraries id path incoming serverVv granted server' := by
  unfold HasStored
  rw [show server'.entriesOf id = server.entriesOf id from
    tolerated.entries id.number]
  exact hasStored

/-- A blob that was stored settles the frame that submitted it. -/
theorem Finishes.stored
    {msg : ClientMsg Blob}
    {docUuid peerId : String}
    {blob : Blob}
    {requestId : Option String}
    {serverVv : Bytes}
    {granted : Option Int}
    (working : Working id vaultId held server)
    (submits : Submits docUuid blob peerId requestId msg)
    (hasStored : HasStored settings.toLibraries id ⟨vaultId, docUuid⟩ blob serverVv
      granted server) :
    Finishes settings id vaultId held (.ok msg)
      (.ok (.ack granted none,
        some (.delta vaultId docUuid blob peerId id.connId serverVv granted)))
      server := by
  refine ⟨working, ?_⟩
  obtain ⟨reads, entry, entries, readsFirst, made, stores, reports, rfl⟩ := hasStored
  have echoed : requestIdOf (.ok msg) = requestId := by
    cases submits <;> rfl
  rw [entries, echoed]
  exact .stored rfl submits readsFirst made stores reports

/-! ## Calls of a handler -/

section Calls

variable {α : Type} {outcome : Except ServerError α → Server Blob → Prop}

/-- A database call: it fails and changes nothing, or it takes effect. -/
theorem meets_dbCall
    {call : DbCall Blob}
    {outcome : Except ServerError call.Reply → Server Blob → Prop}
    (working : Working id vaultId held server)
    (pre : ∀ server', Rely id.connId server server' →
      ∀ path, call.target = some path →
        server'.docLocks (lockKey path) = some id.connId ∧
          DbCall.Justified settings.loro server'.db call ∧
          OnlyRead id server')
    (failed : ∀ server' error, Rely id.connId server server' →
      outcome (.error error) server')
    (succeeded : ∀ server' now reply db later, Rely id.connId server server' →
      call.exec settings.toLibraries now server'.db = .ok (reply, db) →
      Rely id.connId (server'.commit (some id) call reply db) later →
        outcome (.ok reply) later) :
    (dbCall call).run.Meets (serverContract settings reliable id.connId)
      outcome server := by
  apply Program.Meets.perform
  · intro server' tolerated
    have working' := working.stable tolerated
    refine ⟨?_, ?_, ?_⟩
    · rw [working'.current]
      exact working'.answers
    · rw [working'.current]
      exact working'.sent
    · rw [working'.current]
      exact pre server' tolerated
  · intro server' reply server'' later tolerated executed interference
    have working' := working.stable tolerated
    obtain ⟨circumstance, executed⟩ := executed
    simp only [Server.exec, Server.query, working'.current, Option.some.injEq] at executed
    cases fault : circumstance.fault with
    | some error =>
        simp only [fault, Prod.mk.injEq] at executed
        obtain ⟨rfl, rfl⟩ := executed
        exact failed later error (tolerated.trans interference)
    | none =>
        cases effect : call.exec settings.toLibraries circumstance.now server'.db with
        | error error =>
            simp only [fault, effect, Prod.mk.injEq] at executed
            obtain ⟨rfl, rfl⟩ := executed
            exact failed later error (tolerated.trans interference)
        | ok result =>
            obtain ⟨reply, db⟩ := result
            simp only [fault, effect, Prod.mk.injEq] at executed
            obtain ⟨rfl, rfl⟩ := executed
            exact succeeded server' circumstance.now reply db later tolerated effect
              interference

/-- A computation between two calls. -/
theorem meets_ofExcept
    {result : Except ServerError α}
    (holds : ∀ server', Rely id.connId server server' → outcome result server') :
    (ofExcept result : Handler Blob α).run.Meets
      (serverContract settings reliable id.connId) outcome server :=
  holds

/-- A value. -/
theorem meets_pure
    {value : α}
    (holds : ∀ server', Rely id.connId server server' → outcome (.ok value) server') :
    (pure value : Handler Blob α).run.Meets
      (serverContract settings reliable id.connId) outcome server :=
  holds

/-- A block runs under a lock nobody else holds, and gives it back. -/
theorem meets_withLock
    {path : DocPath}
    {block : Handler Blob (Answer Blob)}
    (working : Working id vaultId none server)
    (reads : OnlyRead id server)
    (inside : ∀ server', Working id vaultId (some (lockKey path)) server' →
      OnlyRead id server' →
      block.run.Meets (serverContract settings reliable id.connId)
        (Finishes settings id vaultId (some (lockKey path)) decoded) server') :
    (withLock path block).run.Meets (serverContract settings reliable id.connId)
      (Finishes settings id vaultId none decoded) server := by
  apply Program.Meets.bind
    (fun _ server' =>
      Working id vaultId (some (lockKey path)) server' ∧ OnlyRead id server')
  · apply Program.Meets.perform
    · exact fun _ _ => trivial
    · intro server' reply server'' later tolerated executed interference
      obtain ⟨circumstance, executed⟩ := executed
      cases free : server'.docLocks (lockKey path) with
      | some holder => simp [Server.exec, free] at executed
      | none =>
          simp only [Server.exec, free, Option.some.injEq, Prod.mk.injEq] at executed
          obtain ⟨_, rfl⟩ := executed
          have reads' : OnlyRead id server' := reads.stable tolerated
          have locked : OnlyRead id
              (server'.setLock (lockKey path) (some id.connId)) := reads'
          exact ⟨((working.stable tolerated).setLock).stable interference,
            locked.stable interference⟩
  · intro _ server' entered
    obtain ⟨working', reads'⟩ := entered.post_of_done
    apply Program.Meets.bind _ (inside server' working' reads')
    intro result server'' finished
    apply Program.Meets.bind
      (fun _ later => Finishes settings id vaultId none decoded result later)
    · apply Program.Meets.perform
      · intro later tolerated
        exact (finished later tolerated).1.holds
      · intro later reply server''' last tolerated executed interference
        obtain ⟨working'', settled⟩ := finished later tolerated
        obtain ⟨circumstance, executed⟩ := executed
        simp only [Server.exec, Option.some.injEq, Prod.mk.injEq] at executed
        obtain ⟨_, rfl⟩ := executed
        refine ⟨working''.unlock.stable interference, ?_⟩
        rw [show last.entriesOf id = later.entriesOf id from
          interference.entries id.number]
        exact settled
    · intro _ last ended
      exact ended
/-- A computation between two calls, and what follows it. -/
theorem meets_ofExcept_bind
    {β : Type}
    {result : Except ServerError β}
    {rest : β → Handler Blob α}
    (failed : ∀ server' error, Rely id.connId server server' →
      outcome (.error error) server')
    (succeeded : ∀ value, result = .ok value →
      (rest value).run.Meets (serverContract settings reliable id.connId)
        outcome server) :
    (ofExcept result >>= rest).run.Meets
      (serverContract settings reliable id.connId) outcome server := by
  cases result with
  | error error =>
      intro server' tolerated
      exact failed server' error tolerated
  | ok value => exact succeeded value rfl

end Calls

/-! ## Queries -/

/-- A query leaves the frame as it was and answers from the database it
found. -/
theorem meets_query
    {call : DbCall Blob}
    {outcome : Except ServerError call.Reply → Server Blob → Prop}
    (isRead : call.isRead = true)
    (working : Working id vaultId held server)
    (reads : OnlyRead id server)
    (failed : ∀ later error, Working id vaultId held later → OnlyRead id later →
      outcome (.error error) later)
    (succeeded : ∀ server' now reply later, Rely id.connId server server' →
      call.exec settings.toLibraries now server'.db = .ok (reply, server'.db) →
      Rely id.connId (server'.commit (some id) call reply server'.db) later →
      Working id vaultId held later → OnlyRead id later →
        outcome (.ok reply) later) :
    (dbCall call).run.Meets (serverContract settings reliable id.connId)
      outcome server := by
  apply meets_dbCall working
  · intro server' _ path target
    rw [DbCall.target_of_isRead isRead] at target
    cases target
  · intro server' error tolerated
    exact failed server' error (working.stable tolerated) (reads.stable tolerated)
  · intro server' now reply db later tolerated executed interference
    have same := (DbCall.effect_of_exec executed).eq_of_isRead isRead
    subst same
    exact succeeded server' now reply later tolerated executed interference
      ((working.stable tolerated).commit.stable interference)
      (((reads.stable tolerated).commit isRead _ _).stable interference)

/-! ## The handlers -/

theorem handleSyncStart_meets
    {libraries : Libraries Blob}
    {path : DocPath}
    {clientVv : Option Bytes}
    (working : Working id vaultId held server)
    (reads : OnlyRead id server) :
    (handleSyncStart libraries path clientVv).run.Meets
      (serverContract settings reliable id.connId)
      (Finishes settings id vaultId held decoded) server := by
  unfold handleSyncStart
  apply Program.Meets.bind_fallible
    (fun _ later => Working id vaultId held later ∧ OnlyRead id later)
  · apply meets_query rfl working reads
    · exact fun later error working reads => .error working reads error
    · exact fun _ _ _ later _ _ _ working reads => ⟨working, reads⟩
  · rintro existing later ⟨working, reads⟩
    have failed : ∀ server' error, Rely id.connId later server' →
        Finishes settings id vaultId held decoded (.error error) server' :=
      fun server' error tolerated =>
        .error (working.stable tolerated) (reads.stable tolerated) error
    have answered : ∀ {response : ServerMsg Blob}, response.IsPlain →
        (pure (response, none) : Handler Blob (Answer Blob)).run.Meets
          (serverContract settings reliable id.connId)
          (Finishes settings id vaultId held decoded) later :=
      fun isPlain => meets_pure fun server' tolerated =>
        .plain (working.stable tolerated) (reads.stable tolerated) isPlain
    cases existing with
    | none => exact answered trivial
    | some row =>
        apply meets_ofExcept_bind failed
        intro doc _
        cases clientVv with
        | none => exact answered trivial
        | some vvBytes =>
            apply meets_ofExcept_bind failed
            intro clientVv _
            apply meets_ofExcept_bind failed
            intro delta _
            exact answered trivial

/-! ## Under the lock of a path -/

/-- Under the lock of a path, a frame that has only queried so far knows the
path's live row. -/
structure Reading
    (id : FrameId)
    (vaultId : String)
    (path : DocPath)
    (live : Option (DocumentRow Blob))
    (server : Server Blob) : Prop where
  working : Working id vaultId (some (lockKey path)) server
  reads : OnlyRead id server
  row : server.db.documents.lookup path = live

namespace Reading

variable {path : DocPath} {live : Option (DocumentRow Blob)}
variable {server' : Server Blob}

theorem stable
    (reading : Reading id vaultId path live server)
    (tolerated : Rely id.connId server server') :
    Reading id vaultId path live server' where
  working := reading.working.stable tolerated
  reads := reading.reads.stable tolerated
  row := (tolerated.documents path reading.working.holds).trans reading.row

/-- A path without a tombstone does not get one. -/
theorem untombstoned
    (reading : Reading id vaultId path live server)
    (tolerated : Rely id.connId server server')
    (clear : server.db.tombstones.lookup path = none) :
    server'.db.tombstones.lookup path = none := by
  rcases tolerated.tombstones path reading.working.holds with same | expired
  · rw [same, clear]
  · exact expired

theorem commit
    (reading : Reading id vaultId path live server)
    {call : DbCall Blob}
    (isRead : call.isRead = true)
    (reply : call.Reply) :
    Reading id vaultId path live
      (server.commit (some id) call reply server.db) where
  working := reading.working.commit
  reads := reading.reads.commit isRead reply server.db
  row := reading.row

end Reading

section Locked

variable {docUuid : String} {live : Option (DocumentRow Blob)}

/-- A write finds the row the frame has read, and is the frame's only one. -/
theorem meets_write
    {path : DocPath}
    {call : DbCall Blob}
    {outcome : Except ServerError call.Reply → Server Blob → Prop}
    (reading : Reading id vaultId path live server)
    (target : call.target = some path)
    (justified : ∀ server', Rely id.connId server server' →
      Reading id vaultId path live server' →
        DbCall.Justified settings.loro server'.db call)
    (failed : ∀ later error, Reading id vaultId path live later →
      outcome (.error error) later)
    (succeeded : ∀ reads before now reply after later,
      (∀ entry ∈ reads, entry.call.isRead = true) →
      before.documents.lookup path = live →
      call.exec settings.toLibraries now before = .ok (reply, after) →
      later.entriesOf id = reads ++ [⟨some id, call, reply, before, after⟩] →
      Working id vaultId (some (lockKey path)) later →
        outcome (.ok reply) later) :
    (dbCall call).run.Meets (serverContract settings reliable id.connId)
      outcome server := by
  apply meets_dbCall reading.working
  · intro server' tolerated other otherTarget
    have reading' := reading.stable tolerated
    rw [target, Option.some.injEq] at otherTarget
    subst otherTarget
    exact ⟨reading'.working.holds, justified server' tolerated reading',
      reading'.reads⟩
  · intro server' error tolerated
    exact failed server' error (reading.stable tolerated)
  · intro server' now reply db later tolerated executed interference
    have reading' := reading.stable tolerated
    refine succeeded (server'.entriesOf id) server'.db now reply db later
      reading'.reads reading'.row executed ?_
      (reading'.working.commit.stable interference)
    rw [show later.entriesOf id = _ from interference.entries id.number]
    exact Server.entriesOf_commit ..

/-- Reading the stored snapshot under the lock. -/
theorem getSnapshotWithVv_meets
    {path : DocPath}
    (working : Working id vaultId (some (lockKey path)) server)
    (reads : OnlyRead id server) :
    (dbCall (.getSnapshotWithVv path)).run.Meets
      (serverContract settings reliable id.connId)
      (Program.Reaches
        (fun existing later => ∃ live : Option (DocumentRow Blob),
          existing = live.map (fun row => (row.snapshotBlob, row.vvBlob)) ∧
            Reading id vaultId path live later)
        (Finishes settings id vaultId (some (lockKey path)) decoded)) server := by
  apply meets_query rfl working reads
    fun later error working reads => .error working reads error
  intro server' now reply later tolerated executed interference working' reads'
  simp only [DbCall.exec, Except.ok.injEq, Prod.mk.injEq, and_true] at executed
  subst executed
  refine ⟨server'.db.documents.lookup path, rfl, working', reads', ?_⟩
  exact interference.documents path (working.stable tolerated).holds

/-- Asking for a tombstone under the lock. -/
theorem isTombstoned_meets
    {path : DocPath}
    (reading : Reading id vaultId path live server) :
    (dbCall (.isTombstoned path)).run.Meets
      (serverContract settings reliable id.connId)
      (Program.Reaches
        (fun tombstoned later => Reading id vaultId path live later ∧
          (tombstoned = false → later.db.tombstones.lookup path = none))
        (Finishes settings id vaultId (some (lockKey path)) decoded)) server := by
  apply meets_query rfl reading.working reading.reads
    fun later error working reads => .error working reads error
  intro server' now reply later tolerated executed interference _ _
  simp only [DbCall.exec, Except.ok.injEq, Prod.mk.injEq, and_true] at executed
  subst executed
  have reading' : Reading id vaultId path live (server'.commit (some id)
      (.isTombstoned path) (server'.db.isTombstoned path) server'.db) :=
    (reading.stable tolerated).commit rfl _
  refine ⟨reading'.stable interference, ?_⟩
  intro clear
  refine reading'.untombstoned interference ?_
  simpa [Db.isTombstoned] using clear

/-- The live snapshot is the one the frame has read. -/
theorem Reading.merges
    {path : DocPath}
    {label : String}
    {incoming : Blob}
    {merged : Merged Blob}
    (reading : Reading id vaultId path live server)
    (mergedFrom : mergeSnapshot settings.loro label
      (live.map DocumentRow.snapshotBlob) incoming = .ok merged) :
    Merges settings.loro (server.db.liveSnapshot path) incoming merged.snapshot
      (settings.loro.encodeVv merged.vv) := by
  refine ⟨label, merged, ?_, rfl, rfl⟩
  rw [Db.liveSnapshot, reading.row]
  exact mergedFrom

/-- Storing what was merged with the live row. -/
theorem storeSnapshotWithVv_meets
    {path : DocPath}
    {label : String}
    {incoming : Blob}
    {merged : Merged Blob}
    (reading : Reading id vaultId path live server)
    (mergedFrom : mergeSnapshot settings.loro label
      (live.map DocumentRow.snapshotBlob) incoming = .ok merged)
    (clear : live = none → server.db.tombstones.lookup path = none) :
    (dbCall (.storeSnapshotWithVv path merged.snapshot
        (settings.loro.encodeVv merged.vv))).run.Meets
      (serverContract settings reliable id.connId)
      (Program.Reaches
        (fun token later => Working id vaultId (some (lockKey path)) later ∧
          HasStored settings.toLibraries id path incoming
            (vvToJsonBytes settings.json merged.vv)
            (if live.isNone then some token else none) later)
        (Finishes settings id vaultId (some (lockKey path)) decoded)) server := by
  apply meets_write reading rfl
  · intro server' tolerated reading'
    refine ⟨⟨incoming, reading'.merges mergedFrom⟩, ?_⟩
    intro absent
    exact reading.untombstoned tolerated (clear (reading'.row.symm.trans absent))
  · exact fun later error reading => .error reading.working reading.reads error
  · intro reads before now token after later readsFirst row _ entries working
    refine ⟨working, reads, _, entries, readsFirst, rfl, ?_,
      ⟨_, _, _, rfl, Or.inl rfl⟩, ?_⟩
    · refine ⟨_, _, ⟨label, merged, ?_, rfl, rfl⟩, Or.inl rfl⟩
      rw [Db.liveSnapshot, row]
      exact mergedFrom
    · simp only [JournalEntry.granted, DbCall.granted, row]

/-- Storing it in place of a tombstone. -/
theorem storeSnapshotReplacingTombstone_meets
    {path : DocPath}
    {label : String}
    {incoming : Blob}
    {merged : Merged Blob}
    (reading : Reading id vaultId path live server)
    (mergedFrom : mergeSnapshot settings.loro label
      (live.map DocumentRow.snapshotBlob) incoming = .ok merged) :
    (dbCall (.storeSnapshotReplacingTombstone path merged.snapshot
        (settings.loro.encodeVv merged.vv))).run.Meets
      (serverContract settings reliable id.connId)
      (Program.Reaches
        (fun token later => Working id vaultId (some (lockKey path)) later ∧
          HasStored settings.toLibraries id path incoming
            (vvToJsonBytes settings.json merged.vv) (some token) later)
        (Finishes settings id vaultId (some (lockKey path)) decoded)) server := by
  apply meets_write reading rfl
  · intro server' tolerated reading'
    exact ⟨incoming, reading'.merges mergedFrom⟩
  · exact fun later error reading => .error reading.working reading.reads error
  · intro reads before now token after later readsFirst row _ entries working
    refine ⟨working, reads, _, entries, readsFirst, rfl, ?_,
      ⟨_, _, _, rfl, Or.inr rfl⟩, rfl⟩
    refine ⟨_, _, ⟨label, merged, ?_, rfl, rfl⟩, Or.inr rfl⟩
    rw [Db.liveSnapshot, row]
    exact mergedFrom

/-- An error ends the frame. -/
theorem Reading.fails
    {path : DocPath}
    (reading : Reading id vaultId path live server) :
    ∀ server' error, Rely id.connId server server' →
      Finishes settings id vaultId (some (lockKey path)) decoded (.error error)
        server' :=
  fun _ error tolerated =>
    .error (reading.working.stable tolerated) (reading.reads.stable tolerated) error

/-- So does a refusal. -/
theorem Reading.refuses
    {path : DocPath}
    (reading : Reading id vaultId path live server)
    {response : ServerMsg Blob}
    (isPlain : response.IsPlain) :
    (pure (response, none) : Handler Blob (Answer Blob)).run.Meets
      (serverContract settings reliable id.connId)
      (Finishes settings id vaultId (some (lockKey path)) decoded) server :=
  meets_pure fun _ tolerated =>
    .plain (reading.working.stable tolerated) (reading.reads.stable tolerated) isPlain

/-- Without a live row the handlers look for a tombstone. -/
theorem tombstoneCheck_meets
    {path : DocPath}
    (reading : Reading id vaultId path live server) :
    (if (live.map fun row => (row.snapshotBlob, row.vvBlob)).isNone then
        dbCall (.isTombstoned path)
      else
        pure false : Handler Blob Bool).run.Meets
      (serverContract settings reliable id.connId)
      (Program.Reaches
        (fun tombstoned later => Reading id vaultId path live later ∧
          (tombstoned = true → live = none) ∧
          (tombstoned = false → live = none →
            later.db.tombstones.lookup path = none))
        (Finishes settings id vaultId (some (lockKey path)) decoded)) server := by
  cases live with
  | none =>
      apply (isTombstoned_meets reading).weaken
      intro result later asked
      cases result with
      | error error => exact asked
      | ok tombstoned =>
          exact ⟨asked.1, fun _ => rfl, fun clear _ => asked.2 clear⟩
  | some row =>
      apply meets_pure
      intro server' tolerated
      exact ⟨reading.stable tolerated, by simp, by simp⟩

theorem handleSyncPush_meets
    {delta : Blob}
    {peerId : String}
    {requestId : Option String}
    (working : Working id vaultId (some (lockKey ⟨vaultId, docUuid⟩)) server)
    (reads : OnlyRead id server) :
    (handleSyncPush settings.toLibraries ⟨vaultId, docUuid⟩ delta peerId
        id.connId).run.Meets
      (serverContract settings reliable id.connId)
      (Finishes settings id vaultId (some (lockKey ⟨vaultId, docUuid⟩))
        (.ok (.syncPush docUuid delta peerId requestId))) server := by
  unfold handleSyncPush
  apply Program.Meets.bind_fallible _ (getSnapshotWithVv_meets working reads)
  rintro existing later ⟨live, rfl, reading⟩
  apply Program.Meets.bind_fallible _ (tombstoneCheck_meets reading)
  rintro tombstoned later ⟨reading, _, clear⟩
  cases tombstoned with
  | true => exact reading.refuses trivial
  | false =>
      apply meets_ofExcept_bind reading.fails
      intro disjoint _
      cases disjoint with
      | true => exact reading.refuses trivial
      | false =>
          apply meets_ofExcept_bind reading.fails
          intro merged mergedFrom
          rw [Option.map_map] at mergedFrom
          apply Program.Meets.bind_fallible _
            (storeSnapshotWithVv_meets reading mergedFrom (clear rfl))
          rintro token later ⟨working, hasStored⟩
          apply meets_pure
          intro server' tolerated
          rw [Option.isNone_map]
          exact .stored (working.stable tolerated) .syncPush
            (hasStored.stable tolerated)

theorem handleDocCreate_meets
    {snapshot : Blob}
    {peerId : String}
    {replaceTombstone : Bool}
    {requestId : Option String}
    (working : Working id vaultId (some (lockKey ⟨vaultId, docUuid⟩)) server)
    (reads : OnlyRead id server) :
    (handleDocCreate settings.toLibraries ⟨vaultId, docUuid⟩ snapshot peerId
        id.connId replaceTombstone).run.Meets
      (serverContract settings reliable id.connId)
      (Finishes settings id vaultId (some (lockKey ⟨vaultId, docUuid⟩))
        (.ok (.docCreate docUuid snapshot peerId replaceTombstone requestId)))
      server := by
  unfold handleDocCreate
  apply Program.Meets.bind_fallible _ (getSnapshotWithVv_meets working reads)
  rintro existing later ⟨live, rfl, reading⟩
  apply Program.Meets.bind_fallible _ (tombstoneCheck_meets reading)
  rintro wasTombstoned later ⟨reading, absent, clear⟩
  by_cases refuse : (wasTombstoned && !replaceTombstone) = true
  · rw [if_pos refuse]
    exact reading.refuses trivial
  rw [if_neg refuse]
  -- the tombstone is replaced only where there is no live row
  have replacesAbsent :
      (wasTombstoned && replaceTombstone) = true → live = none := by
    intro replaces
    exact absent (Bool.and_eq_true_iff.mp replaces).1
  have checked : (wasTombstoned && replaceTombstone) = false →
      wasTombstoned = false := by
    cases wasTombstoned <;> simp_all
  generalize (wasTombstoned && replaceTombstone) = effectiveReplace at *
  have kept : ∀ {server server' : Server Blob},
      Reading id vaultId ⟨vaultId, docUuid⟩ live server ∧
        (wasTombstoned = false → live = none →
          server.db.tombstones.lookup ⟨vaultId, docUuid⟩ = none) →
      Rely id.connId server server' →
      Reading id vaultId ⟨vaultId, docUuid⟩ live server' ∧
        (wasTombstoned = false → live = none →
          server'.db.tombstones.lookup ⟨vaultId, docUuid⟩ = none) :=
    fun known tolerated => ⟨known.1.stable tolerated, fun unburied absent =>
      known.1.untombstoned tolerated (known.2 unburied absent)⟩
  apply Program.Meets.bind_fallible
    (fun _ later => Reading id vaultId ⟨vaultId, docUuid⟩ live later ∧
      (wasTombstoned = false → live = none →
        later.db.tombstones.lookup ⟨vaultId, docUuid⟩ = none))
  · split_ifs with asks
    · have present : live ≠ none := by
        rintro rfl
        simp at asks
      apply (isTombstoned_meets reading).weaken
      intro result later asked
      cases result with
      | error error => exact asked
      | ok tombstoned => exact ⟨asked.1, fun _ absent => absurd absent present⟩
    · exact meets_pure fun server' tolerated => kept ⟨reading, clear⟩ tolerated
  rintro clearStaleTombstone later ⟨reading, clear⟩
  apply Program.Meets.bind_fallible
    (fun _ later => Reading id vaultId ⟨vaultId, docUuid⟩ live later ∧
      (wasTombstoned = false → live = none →
        later.db.tombstones.lookup ⟨vaultId, docUuid⟩ = none))
  · split_ifs
    · exact meets_pure fun server' tolerated => kept ⟨reading, clear⟩ tolerated
    · apply meets_ofExcept
      intro server' tolerated
      cases disjointSnapshot settings.loro _ snapshot with
      | error error => exact reading.fails server' error tolerated
      | ok disjoint => exact kept ⟨reading, clear⟩ tolerated
  rintro disjoint later ⟨reading, clear⟩
  cases disjoint with
  | true => exact reading.refuses trivial
  | false =>
      apply meets_ofExcept_bind reading.fails
      intro merged mergedFrom
      have mergedLive : mergeSnapshot settings.loro "import client snapshot"
          (live.map DocumentRow.snapshotBlob) snapshot = .ok merged := by
        cases effectiveReplace with
        | true =>
            rw [replacesAbsent rfl]
            exact mergedFrom
        | false =>
            rw [Option.map_map] at mergedFrom
            exact mergedFrom
      apply Program.Meets.bind_fallible
        (fun token later =>
          Working id vaultId (some (lockKey ⟨vaultId, docUuid⟩)) later ∧
            HasStored settings.toLibraries id ⟨vaultId, docUuid⟩ snapshot
              (vvToJsonBytes settings.json merged.vv)
              (if live.isNone || effectiveReplace || clearStaleTombstone then
                some token
              else
                none) later)
      · simp only [Bool.or_assoc]
        by_cases replaces : (effectiveReplace || clearStaleTombstone) = true
        · simp only [replaces, Bool.or_true, ↓reduceIte]
          exact storeSnapshotReplacingTombstone_meets reading mergedLive
        · rw [if_neg replaces]
          rw [Bool.not_eq_true] at replaces
          simp only [replaces, Bool.or_false]
          rw [Bool.or_eq_false_iff] at replaces
          exact storeSnapshotWithVv_meets reading mergedLive
            (clear (checked replaces.1))
      rintro token later ⟨working, hasStored⟩
      apply meets_pure
      intro server' tolerated
      rw [Option.isNone_map]
      exact .stored (working.stable tolerated) .docCreate
        (hasStored.stable tolerated)

theorem handleDocDelete_meets
    {peerId : String}
    {expectedIncarnation : Option Int}
    {intentId requestId : Option String}
    (working : Working id vaultId (some (lockKey ⟨vaultId, docUuid⟩)) server)
    (reads : OnlyRead id server) :
    (handleDocDelete ⟨vaultId, docUuid⟩ peerId id.connId expectedIncarnation
        intentId requestId).run.Meets
      (serverContract settings reliable id.connId)
      (Finishes settings id vaultId (some (lockKey ⟨vaultId, docUuid⟩))
        (.ok (.docDelete docUuid peerId expectedIncarnation intentId requestId)))
      server := by
  unfold handleDocDelete
  apply Program.Meets.bind_fallible
    (fun outcome later => ∃ reads before after,
      (∀ entry ∈ reads, entry.call.isRead = true) ∧
        later.entriesOf id = reads ++ [⟨some id,
          .deleteDocGuarded ⟨vaultId, docUuid⟩ peerId expectedIncarnation,
          outcome, before, after⟩] ∧
        Working id vaultId (some (lockKey ⟨vaultId, docUuid⟩)) later)
  · have reading : Reading id vaultId ⟨vaultId, docUuid⟩
        (server.db.documents.lookup ⟨vaultId, docUuid⟩) server :=
      ⟨working, reads, rfl⟩
    apply meets_write reading rfl
    · exact fun _ _ _ => trivial
    · exact fun later error reading => .error reading.working reading.reads error
    · intro reads before now outcome after later readsFirst _ _ entries working
      exact ⟨reads, before, after, readsFirst, entries, working⟩
  · rintro outcome later ⟨reads, before, after, readsFirst, entries, working⟩
    cases outcome with
    | deleted | idempotentNoLive =>
        apply meets_pure
        intro server' tolerated
        refine ⟨working.stable tolerated, ?_⟩
        rw [show server'.entriesOf id = later.entriesOf id from
          tolerated.entries id.number, entries]
        exact .deleted rfl readsFirst rfl
    | rejected live =>
        apply meets_pure
        intro server' tolerated
        refine ⟨working.stable tolerated, ?_⟩
        rw [show server'.entriesOf id = later.entriesOf id from
          tolerated.entries id.number, entries]
        exact .rejected rfl readsFirst

end Locked

/-! ## Dispatch -/

/-- A query whose entry is the next of the frame. -/
theorem meets_nextQuery
    {call : DbCall Blob}
    {entries : List (JournalEntry Blob)}
    (isRead : call.isRead = true)
    (working : Working id vaultId held server)
    (made : server.entriesOf id = entries)
    (reads : ∀ entry ∈ entries, entry.call.isRead = true) :
    (dbCall call).run.Meets (serverContract settings reliable id.connId)
      (Program.Reaches
        (fun reply later => Working id vaultId held later ∧ ∃ db now,
          call.exec settings.toLibraries now db = .ok (reply, db) ∧
            later.entriesOf id = entries ++ [⟨some id, call, reply, db, db⟩])
        (Finishes settings id vaultId held decoded)) server := by
  subst made
  apply meets_query isRead working reads
  · exact fun later error working reads => .error working reads error
  · intro server' now reply later tolerated executed interference working' _
    refine ⟨working', server'.db, now, executed, ?_⟩
    rw [show later.entriesOf id = _ from interference.entries id.number,
      Server.entriesOf_commit,
      show server'.entriesOf id = _ from tolerated.entries id.number]

/-- The three queries of `RequestDocList`. -/
theorem requestDocList_meets
    (working : Working id vaultId none server)
    (fresh : server.entriesOf id = []) :
    (processInner settings.toLibraries .requestDocList vaultId id.connId).run.Meets
      (serverContract settings reliable id.connId)
      (Finishes settings id vaultId none (.ok .requestDocList)) server := by
  apply Program.Meets.bind_fallible
    (fun _ later => Working id vaultId none later ∧ later.entriesOf id = [])
  · apply meets_ofExcept
    intro server' tolerated
    exact ⟨working.stable tolerated, (tolerated.entries id.number).trans fresh⟩
  rintro _ later ⟨working, fresh⟩
  apply Program.Meets.bind_fallible _ (meets_nextQuery rfl working fresh (by simp))
  rintro docs later ⟨working, docsDb, now, docsExec, entries⟩
  cases docsExec
  apply Program.Meets.bind_fallible _
    (meets_nextQuery rfl working entries (by simp [DbCall.isRead]))
  rintro tombstones later ⟨working, tombstonesDb, now, tombstonesExec, entries⟩
  cases tombstonesExec
  apply Program.Meets.bind_fallible _
    (meets_nextQuery rfl working entries (by simp [DbCall.isRead]))
  rintro hashes later ⟨working, hashesDb, now, hashesExec, entries⟩
  cases hashesExec
  apply meets_pure
  intro server' tolerated
  refine ⟨working.stable tolerated, ?_⟩
  rw [show server'.entriesOf id = _ from tolerated.entries id.number, entries]
  exact .listed rfl

theorem processInner_meets
    {msg : ClientMsg Blob}
    (working : Working id vaultId none server)
    (fresh : server.entriesOf id = []) :
    (processInner settings.toLibraries msg vaultId id.connId).run.Meets
      (serverContract settings reliable id.connId)
      (Finishes settings id vaultId none (.ok msg)) server := by
  have reads : OnlyRead id server := by simp [OnlyRead, fresh]
  have failed : ∀ server' error, Rely id.connId server server' →
      Finishes settings id vaultId none (.ok msg) (.error error) server' :=
    fun _ error tolerated =>
      .error (working.stable tolerated) (reads.stable tolerated) error
  by_cases listing : msg = .requestDocList
  · subst listing
    exact requestDocList_meets working fresh
  apply meets_ofExcept_bind failed
  intro _ _
  cases msg with
  | auth => exact meets_ofExcept fun server' => failed server' _
  | ping =>
      exact meets_pure fun server' tolerated =>
        .plain (working.stable tolerated) (reads.stable tolerated) trivial
  | requestDocList => exact absurd rfl listing
  | syncStart => exact handleSyncStart_meets working reads
  | syncPush =>
      exact meets_withLock working reads fun _ => handleSyncPush_meets
  | docCreate =>
      exact meets_withLock working reads fun _ => handleDocCreate_meets
  | docDelete =>
      exact meets_withLock working reads fun _ => handleDocDelete_meets

/-- The answer settles the frame. -/
def Settles
    (settings : Settings Blob)
    (id : FrameId)
    (vaultId : String)
    (decoded : Except String (ClientMsg Blob))
    (answer : Answer Blob)
    (server : Server Blob) : Prop :=
  Working id vaultId none server ∧
    Settled settings.toLibraries id vaultId decoded answer (server.entriesOf id)

/-- Whatever the frame, its answer reports what was done for it. -/
theorem processMessage_meets
    {frame : Frame Blob}
    (working : Working id vaultId none server)
    (fresh : server.entriesOf id = []) :
    (processMessage settings.toLibraries frame vaultId id.connId).Meets
      (serverContract settings reliable id.connId)
      (Settles settings id vaultId frame.decoded) server := by
  unfold processMessage
  apply Program.Meets.bind
    (Finishes settings id vaultId none frame.decoded)
  · cases frame.decoded with
    | ok msg => exact processInner_meets working fresh
    | error reason =>
        intro server' tolerated
        refine .error (working.stable tolerated) ?_ _
        simp [OnlyRead, show server'.entriesOf id = _ from tolerated.entries id.number,
          fresh]
  · exact fun _ _ finished => finished

/-! ## Reply and broadcast -/

theorem Settles.stable
    {answer : Answer Blob}
    {server' : Server Blob}
    (settles : Settles settings id vaultId decoded answer server)
    (tolerated : Rely id.connId server server') :
    Settles settings id vaultId decoded answer server' := by
  refine ⟨settles.1.stable tolerated, ?_⟩
  rw [show server'.entriesOf id = _ from tolerated.entries id.number]
  exact settles.2

/-- An announcement is owed while the answer has one to make. -/
theorem Settles.owes_iff
    {answer : Answer Blob}
    (settles : Settles settings id vaultId decoded answer server) :
    server.Owes id.connId ↔ answer.2.isSome = true := by
  rw [Server.Owes, settles.1.current, settles.2.commits_iff]
  have registered : (server.connections id.connId).isSome = true := by
    have registered := congrArg Option.isSome settles.1.connection
    simpa using registered
  simp [registered, settles.1.sent]

/-- A connection that holds no lock rests once nothing is owed. -/
theorem Working.rests
    (working : Working id vaultId none server)
    (announced : reliable → ¬ server.Owes id.connId) :
    Rests reliable id.connId server :=
  ⟨fun key held => absurd ((working.locks key).mp held) (by simp), announced⟩

/-- The connection after its reply was queued. -/
structure Replied
    (settings : Settings Blob)
    (id : FrameId)
    (vaultId : String)
    (frame : Frame Blob)
    (answer : Answer Blob)
    (server : Server Blob) : Prop where
  locks : ∀ key, server.docLocks key ≠ some id.connId
  current : server.current id.connId = id
  answers : server.answersTo id = [⟨id, vaultId, frame, answer.1⟩]
  sent : server.sentFor id = []
  settled : Settled settings.toLibraries id vaultId frame.decoded answer
    (server.entriesOf id)

theorem Replied.stable
    {frame : Frame Blob}
    {answer : Answer Blob}
    {server' : Server Blob}
    (replied : Replied settings id vaultId frame answer server)
    (tolerated : Rely id.connId server server') :
    Replied settings id vaultId frame answer server' where
  locks := fun key held => replied.locks key ((tolerated.locks key).mp held)
  current := tolerated.current.trans replied.current
  answers := (tolerated.answers id.number).trans replied.answers
  sent := (tolerated.sent id.number).trans replied.sent
  settled := by
    rw [show server'.entriesOf id = _ from tolerated.entries id.number]
    exact replied.settled

/-- A reply that was queued. -/
theorem Settles.replied
    {frame : Frame Blob}
    {answer : Answer Blob}
    {connection connection' : Connection Blob}
    (settles : Settles settings id vaultId frame.decoded answer server)
    (registered : server.connections id.connId = some connection)
    (received : connection'.received = connection.received) :
    Replied settings id vaultId frame answer
      { server.setConnection id.connId connection' with
        answers := server.answers ++
          [⟨server.current id.connId, connection.vaultId, frame, answer.1⟩] } := by
  have identity := settles.1.connection
  rw [registered, Option.map_some, Option.some.injEq, Prod.mk.injEq] at identity
  refine ⟨?_, ?_, ?_, settles.1.sent, settles.2⟩
  · intro key held
    cases (settles.1.locks key).mp held
  · simp [Server.current, Server.setConnection, received, identity.2]
  · have unanswered := settles.1.answers
    rw [Server.answersTo] at unanswered
    simp [Server.answersTo, List.filter_append, unanswered, settles.1.current,
      identity.1]

/-- The announcement follows the reply. -/
theorem publish_meets
    {frame : Frame Blob}
    {answer : Answer Blob}
    {event : BroadcastEvent Blob}
    (replied : Replied settings id vaultId frame answer server)
    (due : answer.2 = some event) :
    ((Program.perform (S := serverSignature Blob) (.publish event)).bind
        fun _ => .done Flow.again).Meets
      (serverContract settings reliable id.connId)
      (fun _ later => Rests reliable id.connId later) server := by
  apply Program.Meets.bind (fun _ later => Rests reliable id.connId later)
  · apply Program.Meets.perform
    · intro server' tolerated
      have replied' := replied.stable tolerated
      refine ⟨?_, ⟨id, vaultId, frame, answer.1⟩, ?_, ?_⟩
      · rw [replied'.current]
        exact replied'.sent
      · rw [replied'.current]
        exact replied'.answers
      · rw [replied'.current, ← due]
        exact replied'.settled
    · intro server' reply server'' later tolerated executed interference
      have replied' := replied.stable tolerated
      obtain ⟨circumstance, executed⟩ := executed
      simp only [Server.exec, Option.some.injEq, Prod.mk.injEq] at executed
      obtain ⟨_, rfl⟩ := executed
      apply Rests.stable _ interference
      refine ⟨replied'.locks, ?_⟩
      rintro _ ⟨_, _, unsent⟩
      have current : (server'.publish id.connId event).current id.connId = id :=
        replied'.current
      rw [current] at unsent
      simp [Server.sentFor, Server.publish, replied'.current] at unsent
  · exact fun _ _ rests => rests

/-- Without an announcement to make, a connection rests after its reply. -/
theorem Replied.rests
    {frame : Frame Blob}
    {answer : Answer Blob}
    (replied : Replied settings id vaultId frame answer server)
    (silent : answer.2 = none) :
    Rests reliable id.connId server := by
  refine ⟨replied.locks, ?_⟩
  rintro _ ⟨_, committed, _⟩
  rw [replied.current, replied.settled.commits_iff, silent] at committed
  cases committed

/-- A reply is queued, or the writer has ended. -/
theorem respond_meets
    {frame : Frame Blob}
    {answer : Answer Blob}
    (settles : Settles settings id vaultId frame.decoded answer server) :
    (Program.perform (S := serverSignature Blob) (.respond frame answer.1)).Meets
      (serverContract settings reliable id.connId)
      (fun sent later => if sent then
          Replied settings id vaultId frame answer later
        else
          Rests reliable id.connId later) server := by
  apply Program.Meets.perform
  · intro server' tolerated
    have settles' := settles.stable tolerated
    refine ⟨?_, ?_, ?_⟩
    · rw [settles'.1.current]
      exact settles'.1.answers
    · rw [settles'.1.current]
      exact settles'.1.sent
    · intro connection registered
      have identity := settles'.1.connection
      rw [registered, Option.map_some, Option.some.injEq, Prod.mk.injEq] at identity
      rw [settles'.1.current, identity.1]
      exact ⟨answer.2, settles'.2⟩
  · intro server' sent server'' later tolerated executed interference
    have settles' := settles.stable tolerated
    obtain ⟨⟨circumstance, responded⟩, arrives⟩ := executed
    obtain ⟨connection, registered,
      ⟨rfl, connection', _, received, _, _, rfl⟩ | ⟨rfl, _, rfl⟩⟩ :=
      respond_cases responded
    · exact (settles'.replied registered received).stable interference
    · apply Rests.stable _ interference
      exact settles'.1.rests fun reliably owes =>
        absurd (arrives reliably owes) (by simp)

/-- A frame's answer is sent to its client and then announced. -/
theorem deliver_meets
    {frame : Frame Blob}
    {answer : Answer Blob}
    (encodes : reliable → ∀ response : ServerMsg Blob, response.IsAck →
      settings.encodes response = true)
    (settles : Settles settings id vaultId frame.decoded answer server) :
    (deliver settings frame answer).Meets
      (serverContract settings reliable id.connId)
      (fun _ later => Rests reliable id.connId later) server := by
  unfold deliver
  by_cases serialized : settings.encodes answer.1 = true
  · rw [if_pos serialized]
    apply Program.Meets.bind _ (respond_meets settles)
    intro sent later ended
    have reached := ended.post_of_done
    cases sent with
    | false =>
        intro server' tolerated
        exact Rests.stable reached tolerated
    | true =>
        cases due : answer.2 with
        | some event => exact publish_meets reached due
        | none =>
            intro server' tolerated
            exact (Replied.stable reached tolerated).rests due
  · rw [if_neg serialized]
    intro server' tolerated
    have settles' := settles.stable tolerated
    apply settles'.1.rests
    intro reliably owes
    exact serialized (encodes reliably answer.1
      (settles.2.isAck (settles'.owes_iff.mp owes)))

/-- One frame, from its arrival on. -/
theorem serveFrame_meets
    {frame : Frame Blob}
    (encodes : reliable → ∀ response : ServerMsg Blob, response.IsAck →
      settings.encodes response = true)
    (working : Working id vaultId none server)
    (fresh : server.entriesOf id = []) :
    (serveFrame settings vaultId id.connId frame).Meets
      (serverContract settings reliable id.connId)
      (fun _ later => Rests reliable id.connId later) server := by
  unfold serveFrame
  by_cases oversized : maxWsMsgBytes < frame.length
  · have settles : Settles settings id vaultId frame.decoded
        (frameTooLarge frame, none) server :=
      ⟨working, by rw [fresh]; exact .plain trivial (by simp)⟩
    rw [if_pos oversized]
    by_cases serialized : settings.encodes (frameTooLarge frame) = true
    · rw [if_pos serialized]
      apply Program.Meets.bind _ (respond_meets settles)
      intro sent later ended server' tolerated
      have reached := ended.post_of_done
      cases sent with
      | false => exact Rests.stable reached tolerated
      | true => exact (Replied.stable reached tolerated).rests rfl
    · rw [if_neg serialized]
      intro server' tolerated
      have settles' := settles.stable tolerated
      apply settles'.1.rests
      intro _ owes
      cases settles'.owes_iff.mp owes
  · rw [if_neg oversized]
    apply Program.Meets.bind _ (processMessage_meets working fresh)
    exact fun answer later ended => deliver_meets encodes ended.post_of_done

/-- Nothing was committed for the frame. -/
def Uncommitted (id : FrameId) (server : Server Blob) : Prop :=
  ∀ entry ∈ server.entriesOf id, entry.committed = none

theorem Uncommitted.stable
    {server' : Server Blob}
    (uncommitted : Uncommitted id server)
    (tolerated : Rely id.connId server server') :
    Uncommitted id server' := by
  unfold Uncommitted
  rw [show server'.entriesOf id = _ from tolerated.entries id.number]
  exact uncommitted

/-- Subscribing ends the handshake. -/
theorem subscribe_meets
    (working : Working id vaultId none server)
    (uncommitted : Uncommitted id server)
    (unsubscribed : server.Unsubscribed id.connId) :
    ((Program.perform (S := serverSignature Blob) .subscribe).bind
        fun _ => .done Flow.again).Meets
      (serverContract settings reliable id.connId)
      (fun _ later => Rests reliable id.connId later) server := by
  apply Program.Meets.bind (fun _ later => Rests reliable id.connId later)
  · apply Program.Meets.perform
    · exact fun _ tolerated => tolerated.subscribed.trans unsubscribed
    · intro server' reply server'' later tolerated executed interference
      have working' := working.stable tolerated
      have uncommitted' := uncommitted.stable tolerated
      obtain ⟨circumstance, executed⟩ := executed
      simp only [Server.exec, Server.subscribe, Option.bind_eq_bind,
        Option.map_eq_some_iff, Option.bind_eq_some_iff, Option.some.injEq,
        Prod.mk.injEq] at executed
      obtain ⟨_, ⟨connection, registered, rfl⟩, _, rfl⟩ := executed
      apply Rests.stable _ interference
      have subscribed : Working id vaultId none
          (server'.setConnection id.connId { connection with
            broadcastRx := some (server'.channel.length, server'.channel.length) }) :=
        working'.setConnection registered rfl rfl
      apply subscribed.rests
      rintro _ ⟨_, ⟨entry, member, committed⟩, _⟩
      rw [subscribed.current] at member
      rw [uncommitted' entry member] at committed
      cases committed
  · exact fun _ _ rests => rests

/-- The handshake writes to no document. -/
theorem handshake_meets
    {peerId deviceName : String}
    (working : Working id vaultId none server)
    (fresh : server.entriesOf id = [])
    (unsubscribed : server.Unsubscribed id.connId) :
    (handshake vaultId peerId deviceName).Meets
      (serverContract settings reliable id.connId)
      (fun _ later => Rests reliable id.connId later) server := by
  unfold handshake
  by_cases anonymous : peerId ≠ ""
  · rw [if_pos anonymous]
    apply Program.Meets.bind
      (fun _ later => Working id vaultId none later ∧ Uncommitted id later ∧
        later.Unsubscribed id.connId)
    · apply meets_dbCall working
      · intro _ _ path target
        cases target
      · intro server' error tolerated
        refine ⟨working.stable tolerated, ?_, tolerated.subscribed.trans unsubscribed⟩
        apply Uncommitted.stable _ tolerated
        simp [Uncommitted, fresh]
      · intro server' now reply db later tolerated _ interference
        refine ⟨(working.stable tolerated).commit.stable interference, ?_,
          interference.subscribed.trans (tolerated.subscribed.trans unsubscribed)⟩
        refine Uncommitted.stable ?_ interference
        simp [Uncommitted, show server'.entriesOf id = _ from
          tolerated.entries id.number, fresh, JournalEntry.committed, DbCall.committed]
    · intro _ later ended
      obtain ⟨working, uncommitted, unsubscribed⟩ := ended.post_of_done
      exact subscribe_meets working uncommitted unsubscribed
  · rw [if_neg anonymous]
    exact subscribe_meets working (by simp [Uncommitted, fresh]) unsubscribed

end Tasks

end VaultCrdtServer
