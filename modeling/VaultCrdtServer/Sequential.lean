import VaultCrdtServer.Merge

/-!
# Frames processed alone

What the handlers of `SyncPush` and `DocCreate` do when no other connection is
between their calls and the database does not fail.  One lemma says when such a
write is acknowledged and what it leaves behind.
-/

namespace VaultCrdtServer

open Interleaving

variable {Blob : Type}

/-- The reply to a call while nobody else is running: locks are free, the
database does not fail by itself and messages can be queued. -/
def serveAlone
    (libraries : Libraries Blob)
    (now : Time) :
    (call : ServerCall Blob) → Db Blob → call.Reply × Db Blob
  | .db call, db =>
      match call.exec libraries now db with
      | .ok (reply, db') => (.ok reply, db')
      | .error error => (.error error, db)
  | .respond .., db => (true, db)
  | .lock _, db | .unlock _, db | .publish _, db | .subscribe, db => ((), db)

/-- `process_message` alone. -/
def processAlone
    (libraries : Libraries Blob)
    (now : Time)
    (frame : Frame Blob)
    (vaultId : String)
    (connId : Nat)
    (db : Db Blob) : Answer Blob × Db Blob :=
  (processMessage libraries frame vaultId connId).run (serveAlone libraries now) db

section Handlers

variable (libraries : Libraries Blob) (now : Time)

/-- A handler alone. -/
def Handler.alone
    {α : Type}
    (handler : Handler Blob α)
    (db : Db Blob) : Except ServerError α × Db Blob :=
  (ExceptT.run handler).run (serveAlone libraries now) db

variable {α β : Type} {db : Db Blob}

@[simp] theorem alone_bind
    (handler : Handler Blob α)
    (continuation : α → Handler Blob β) :
    (handler >>= continuation).alone libraries now db =
      match handler.alone libraries now db with
      | (.ok value, db') => (continuation value).alone libraries now db'
      | (.error error, db') => (.error error, db') := by
  unfold Handler.alone
  rw [Program.run_bind_fallible, Program.run_bind]
  generalize (ExceptT.run handler).run (serveAlone libraries now) db = outcome
  obtain ⟨result, db'⟩ := outcome
  cases result <;> rfl

@[simp] theorem alone_pure (value : α) :
    Handler.alone libraries now (pure value) db = (.ok value, db) := rfl

@[simp] theorem alone_ofExcept (result : Except ServerError α) :
    (ofExcept result).alone libraries now db = (result, db) := rfl

@[simp] theorem alone_getSnapshotWithVv (path : DocPath) :
    Handler.alone (α := Option (Blob × Blob)) libraries now
      (dbCall (.getSnapshotWithVv path)) db = (.ok (db.getSnapshotWithVv path), db) := rfl

@[simp] theorem alone_isTombstoned (path : DocPath) :
    Handler.alone (α := Bool) libraries now (dbCall (.isTombstoned path)) db =
      (.ok (db.isTombstoned path), db) := rfl

theorem alone_dbCall_of_ok
    {call : DbCall Blob}
    {reply : call.Reply}
    {db' : Db Blob}
    (executed : call.exec libraries now db = .ok (reply, db')) :
    (dbCall call).alone libraries now db = (.ok reply, db') := by
  change serveAlone libraries now (.db call) db = _
  simp only [serveAlone, executed]

theorem alone_dbCall_of_error
    {call : DbCall Blob}
    {error : ServerError}
    (executed : call.exec libraries now db = .error error) :
    (dbCall call).alone libraries now db = (.error error, db) := by
  change serveAlone libraries now (.db call) db = _
  simp only [serveAlone, executed]

@[simp] theorem alone_withLock (path : DocPath) (block : Handler Blob α) :
    (withLock path block).alone libraries now db = block.alone libraries now db := by
  simp only [Handler.alone, withLock, ExceptT.run_mk, Program.bind_eq_bind,
    Program.run_bind]
  rfl

end Handlers

/-! ## What a write needs -/

theorem Db.getSnapshotWithVv_isNone (path : DocPath) (db : Db Blob) :
    (db.getSnapshotWithVv path).isNone = (db.documents.lookup path).isNone := by
  simp [Db.getSnapshotWithVv]

theorem Db.getSnapshotWithVv_map_fst (path : DocPath) (db : Db Blob) :
    (db.getSnapshotWithVv path).map Prod.fst = db.liveSnapshot path := by
  simp [Db.getSnapshotWithVv, Db.liveSnapshot, Function.comp_def]

/-- The checks of the two writes that depend on the database. -/
def Admits (loro : Loro Blob) (db : Db Blob) (path : DocPath) : ClientMsg Blob → Prop
  | .syncPush _ delta _ _ =>
      (db.documents.lookup path = none → db.tombstones.lookup path = none) ∧
        disjointDelta loro (db.getSnapshotWithVv path) delta = .ok false
  | .docCreate _ snapshot _ replaceTombstone _ =>
      (replaceTombstone = false → db.documents.lookup path = none →
        db.tombstones.lookup path = none) ∧
        disjointSnapshot loro (db.getSnapshotWithVv path) snapshot = .ok false
  | _ => False

/-- The message is a `SyncPush`. -/
def ClientMsg.IsSyncPush : ClientMsg Blob → Prop
  | .syncPush .. => True
  | _ => False

/-- The message is a `DocCreate` that may replace a tombstone. -/
def ClientMsg.ReplacesTombstone : ClientMsg Blob → Prop
  | .docCreate _ _ _ true _ => True
  | _ => False

/-- The label of the import's error. -/
def importLabel : ClientMsg Blob → String
  | .syncPush .. => "import client delta"
  | _ => "import client snapshot"

/-- The store a write makes. -/
def storeMerged
    (libraries : Libraries Blob)
    (now : Time)
    (path : DocPath)
    (merged : Merged Blob)
    (db : Db Blob) : ClientMsg Blob → Except ServerError (Int × Db Blob)
  | .docCreate _ _ _ true _ =>
      if db.isTombstoned path then
        db.storeSnapshotReplacingTombstone now path merged.snapshot
          (libraries.loro.encodeVv merged.vv)
      else
        db.storeSnapshotWithVv now path merged.snapshot
          (libraries.loro.encodeVv merged.vv)
  | _ =>
      db.storeSnapshotWithVv now path merged.snapshot
        (libraries.loro.encodeVv merged.vv)

/-- Everything a write needs to be acknowledged, and the database after it. -/
def WritesAlone
    (libraries : Libraries Blob)
    (now : Time)
    (path : DocPath)
    (blob : Blob)
    (msg : ClientMsg Blob)
    (db db' : Db Blob) : Prop :=
  Admits libraries.loro db path msg ∧
    ∃ merged token,
      mergeSnapshot libraries.loro (importLabel msg) (db.liveSnapshot path) blob =
        .ok merged ∧
      storeMerged libraries now path merged db msg = .ok (token, db')

/-- The handler has acknowledged. -/
def Acknowledges (outcome : Except ServerError (Answer Blob)) : Prop :=
  ∃ granted echoed announced, outcome = .ok (.ack granted echoed, announced)

/-- A handler acknowledges exactly what it writes, and otherwise leaves the
database as it was. -/
structure Answers
    (writes : Db Blob → Prop)
    (db : Db Blob)
    (outcome : Except ServerError (Answer Blob) × Db Blob) : Prop where
  writes_iff : ∀ db', writes db' ↔ Acknowledges outcome.1 ∧ outcome.2 = db'
  unchanged : ¬ Acknowledges outcome.1 → outcome.2 = db

section Spec

variable {libraries : Libraries Blob} {now : Time} {db : Db Blob}

theorem Answers.of_refused
    {writes : Db Blob → Prop}
    {outcome : Except ServerError (Answer Blob)}
    (refused : ¬ Acknowledges outcome)
    (none : ∀ db', ¬ writes db') :
    Answers writes db (outcome, db) where
  writes_iff := fun db' =>
    iff_of_false (none db') fun acknowledged => refused acknowledged.1
  unchanged := fun _ => rfl

theorem Answers.of_stored
    {writes : Db Blob → Prop}
    {outcome : Except ServerError (Answer Blob)}
    {db' : Db Blob}
    (acknowledged : Acknowledges outcome)
    (written : ∀ other, writes other ↔ other = db') :
    Answers writes db (outcome, db') where
  writes_iff := fun other => by simp [written, acknowledged, eq_comm]
  unchanged := fun refused => absurd acknowledged refused

theorem storeSnapshotWithVv_alone (path : DocPath) (snapshot vvBlob : Blob) :
    (∃ token db', db.storeSnapshotWithVv now path snapshot vvBlob = .ok (token, db') ∧
      Handler.alone (α := Int) libraries now
        (dbCall (.storeSnapshotWithVv path snapshot vvBlob)) db = (.ok token, db')) ∨
    ∃ error, db.storeSnapshotWithVv now path snapshot vvBlob = .error error ∧
      Handler.alone (α := Int) libraries now
        (dbCall (.storeSnapshotWithVv path snapshot vvBlob)) db = (.error error, db) := by
  cases stored : db.storeSnapshotWithVv now path snapshot vvBlob with
  | ok result => exact Or.inl ⟨_, _, rfl, alone_dbCall_of_ok libraries now stored⟩
  | error error => exact Or.inr ⟨error, rfl, alone_dbCall_of_error libraries now stored⟩

theorem storeSnapshotReplacingTombstone_alone
    (path : DocPath)
    (snapshot vvBlob : Blob) :
    (∃ token db',
      db.storeSnapshotReplacingTombstone now path snapshot vvBlob = .ok (token, db') ∧
      Handler.alone (α := Int) libraries now
        (dbCall (.storeSnapshotReplacingTombstone path snapshot vvBlob)) db =
          (.ok token, db')) ∨
    ∃ error,
      db.storeSnapshotReplacingTombstone now path snapshot vvBlob = .error error ∧
      Handler.alone (α := Int) libraries now
        (dbCall (.storeSnapshotReplacingTombstone path snapshot vvBlob)) db =
          (.error error, db) := by
  cases stored : db.storeSnapshotReplacingTombstone now path snapshot vvBlob with
  | ok result => exact Or.inl ⟨_, _, rfl, alone_dbCall_of_ok libraries now stored⟩
  | error error => exact Or.inr ⟨error, rfl, alone_dbCall_of_error libraries now stored⟩

theorem Answers.of_iff
    {writes writes' : Db Blob → Prop}
    {outcome : Except ServerError (Answer Blob) × Db Blob}
    (answers : Answers writes db outcome)
    (same : ∀ db', writes' db' ↔ writes db') :
    Answers writes' db outcome where
  writes_iff := fun db' => (same db').trans (answers.writes_iff db')
  unchanged := answers.unchanged

/-- A query whose result is used only under a condition. -/
theorem alone_isTombstoned_if (condition : Bool) (path : DocPath) :
    Handler.alone (α := Bool) libraries now
        (if condition = true then dbCall (.isTombstoned path) else pure false) db =
      (.ok (condition && db.isTombstoned path), db) := by
  cases condition <;> rfl

variable (libraries now db) in
/-- The course of a write once the tombstone is out of the way: unless the
histories are disjoint the blob is merged and stored. -/
theorem mergeAndStore_alone
    (related : Except ServerError Bool)
    (merge : Except ServerError (Merged Blob))
    (stores : Merged Blob → Except ServerError (Int × Db Blob))
    (conflict : Answer Blob)
    (answer : Merged Blob → Int → Answer Blob)
    (conflicts : ¬ conflict.1.IsAck)
    (acks : ∀ merged token, ∃ granted announced,
      answer merged token = (.ack granted none, announced))
    (store : Merged Blob → Handler Blob Int)
    (storeAlone : ∀ merged,
      (∃ token db', stores merged = .ok (token, db') ∧
        (store merged).alone libraries now db = (.ok token, db')) ∨
      ∃ error, stores merged = .error error ∧
        (store merged).alone libraries now db = (.error error, db)) :
    Answers
      (fun db' => related = .ok false ∧
        ∃ merged token, merge = .ok merged ∧ stores merged = .ok (token, db'))
      db
      (Handler.alone libraries now
        (do
          let disjoint ← ofExcept related
          if disjoint then
            return conflict
          else
            let merged ← ofExcept merge
            let token ← store merged
            return answer merged token) db) := by
  rcases related with error | disjoint
  · simp only [alone_bind, alone_ofExcept]
    exact .of_refused (by simp [Acknowledges]) (by simp)
  cases disjoint with
  | true =>
      simp only [alone_bind, alone_ofExcept, ↓reduceIte, alone_pure]
      refine .of_refused ?_ (by simp)
      rintro ⟨granted, echoed, announced, same⟩
      rw [Except.ok.injEq] at same
      exact conflicts (same ▸ trivial)
  | false =>
      rcases merge with error | merged
      · simp only [alone_bind, alone_ofExcept, Bool.false_eq_true, ↓reduceIte]
        exact .of_refused (by simp [Acknowledges]) (by simp)
      rcases storeAlone merged with ⟨token, db', stored, alone⟩ | ⟨error, stored, alone⟩
      · simp only [alone_bind, alone_ofExcept, Bool.false_eq_true, ↓reduceIte, alone,
          alone_pure]
        refine .of_stored ?_ ?_
        · obtain ⟨granted, announced, acked⟩ := acks merged token
          exact ⟨granted, none, announced, congrArg Except.ok acked⟩
        · intro other
          constructor
          · rintro ⟨_, merged', token', same, stored'⟩
            obtain rfl := Except.ok.inj same
            cases stored.symm.trans stored'
            rfl
          · rintro rfl
            exact ⟨trivial, merged, token, rfl, stored⟩
      · simp only [alone_bind, alone_ofExcept, Bool.false_eq_true, ↓reduceIte, alone]
        refine .of_refused (by simp [Acknowledges]) ?_
        rintro db' ⟨_, other, token, same, stored'⟩
        obtain rfl := Except.ok.inj same
        cases stored.symm.trans stored'

/-- `handle_sync_push` alone. -/
theorem handleSyncPush_alone
    (path : DocPath)
    (docUuid : String)
    (delta : Blob)
    (peerId : String)
    (requestId : Option String)
    (connId : Nat) :
    Answers
      (WritesAlone libraries now path delta (.syncPush docUuid delta peerId requestId) db)
      db ((handleSyncPush libraries path delta peerId connId).alone libraries now db) := by
  have tail := fun existing : Option (Blob × Blob) =>
    mergeAndStore_alone libraries now db
      (disjointDelta libraries.loro existing delta)
      (mergeSnapshot libraries.loro "import client delta"
        (existing.map Prod.fst) delta)
      (fun merged => db.storeSnapshotWithVv now path merged.snapshot
        (libraries.loro.encodeVv merged.vv))
      ((.createConflict path.doc, none))
      (fun merged token =>
        let incarnation := if existing.isNone then some token else none
        (.ack incarnation none, some (.delta path.vault path.doc delta peerId connId
          (vvToJsonBytes libraries.json merged.vv) incarnation)))
      id (fun _ _ => ⟨_, _, rfl⟩)
      (fun merged => dbCall (.storeSnapshotWithVv path merged.snapshot
        (libraries.loro.encodeVv merged.vv)))
      (fun merged => storeSnapshotWithVv_alone path merged.snapshot _)
  unfold handleSyncPush
  rw [alone_bind, alone_getSnapshotWithVv]
  dsimp only
  rw [alone_bind, alone_isTombstoned_if]
  dsimp only
  have absent := db.getSnapshotWithVv_isNone path
  cases tombstoned :
      (db.getSnapshotWithVv path).isNone && db.isTombstoned path with
  | true =>
      rw [absent, Bool.and_eq_true, Option.isNone_iff_eq_none,
        Db.isTombstoned, Option.isSome_iff_ne_none] at tombstoned
      refine .of_refused (by simp [Acknowledges]) ?_
      rintro db' ⟨⟨free, _⟩, _⟩
      exact tombstoned.2 (free tombstoned.1)
  | false =>
      rw [absent, Bool.and_eq_false_imp, Option.isNone_iff_eq_none,
        Db.isTombstoned, Option.isSome_eq_false_iff, Option.isNone_iff_eq_none]
        at tombstoned
      refine (tail (db.getSnapshotWithVv path)).of_iff ?_
      intro db'
      simp only [WritesAlone, Admits, importLabel, storeMerged,
        db.getSnapshotWithVv_map_fst]
      tauto

/-- The token and announcement of an acknowledged `DocCreate`. -/
def createAnswer
    (libraries : Libraries Blob)
    (path : DocPath)
    (snapshot : Blob)
    (peerId : String)
    (connId : Nat)
    (fresh : Bool)
    (merged : Merged Blob)
    (token : Int) : Answer Blob :=
  let incarnation := if fresh then some token else none
  (.ack incarnation none,
    some (.delta path.vault path.doc snapshot peerId connId
      (vvToJsonBytes libraries.json merged.vv) incarnation))

/-- `handle_doc_create` alone. -/
theorem handleDocCreate_alone
    (path : DocPath)
    (docUuid : String)
    (snapshot : Blob)
    (peerId : String)
    (replaceTombstone : Bool)
    (requestId : Option String)
    (connId : Nat) :
    Answers
      (WritesAlone libraries now path snapshot
        (.docCreate docUuid snapshot peerId replaceTombstone requestId) db)
      db
      ((handleDocCreate libraries path snapshot peerId connId replaceTombstone).alone
        libraries now db) := by
  have tail := fun (existing : Option (Blob × Blob)) (replacing fresh : Bool)
      (related : Except ServerError Bool) =>
    mergeAndStore_alone libraries now db
      (related)
      (mergeSnapshot libraries.loro "import client snapshot"
        (existing.map Prod.fst) snapshot)
      (fun merged =>
        if replacing then
          db.storeSnapshotReplacingTombstone now path merged.snapshot
            (libraries.loro.encodeVv merged.vv)
        else
          db.storeSnapshotWithVv now path merged.snapshot
            (libraries.loro.encodeVv merged.vv))
      ((.createConflict path.doc, none))
      (createAnswer libraries path snapshot peerId connId fresh)
      id (fun _ _ => ⟨_, _, rfl⟩)
      (fun merged =>
        if replacing then
          dbCall (.storeSnapshotReplacingTombstone path merged.snapshot
            (libraries.loro.encodeVv merged.vv))
        else
          dbCall (.storeSnapshotWithVv path merged.snapshot
            (libraries.loro.encodeVv merged.vv)))
      (fun merged => by
        cases replacing with
        | true => exact storeSnapshotReplacingTombstone_alone path merged.snapshot _
        | false => exact storeSnapshotWithVv_alone path merged.snapshot _)
  unfold handleDocCreate
  rw [alone_bind, alone_getSnapshotWithVv]
  dsimp only
  rw [alone_bind, alone_isTombstoned_if]
  dsimp only
  have absent := db.getSnapshotWithVv_isNone path
  cases tombstoned :
      (db.getSnapshotWithVv path).isNone && db.isTombstoned path with
  | true =>
      obtain ⟨none, buried⟩ := Bool.and_eq_true_iff.mp tombstoned
      rw [Option.isNone_iff_eq_none] at none
      have dead : db.documents.lookup path = .none := by
        rwa [none, Option.isNone_none, eq_comm, Option.isNone_iff_eq_none] at absent
      cases replaceTombstone with
      | false =>
          refine .of_refused (by simp [Acknowledges]) ?_
          rintro db' ⟨⟨free, _⟩, _⟩
          simp [Db.isTombstoned, free rfl dead] at buried
      | true =>
          simp only [none, Bool.and_self, Bool.not_true, Bool.and_false,
            Bool.false_eq_true, ↓reduceIte, Option.isSome_none, Bool.true_or,
            Option.isNone_none]
          rw [alone_bind, alone_pure]
          dsimp only
          refine (tail .none true true (.ok false)).of_iff ?_
          intro db'
          simp [WritesAlone, Admits, importLabel, storeMerged, buried, none,
            disjointSnapshot, Db.liveSnapshot, dead]
  | false =>
      simp only [Bool.false_and, Bool.false_eq_true, ↓reduceIte, Bool.not_false,
        Bool.and_true, Bool.false_or, Bool.or_false]
      rw [alone_bind, alone_isTombstoned_if]
      dsimp only
      generalize stale : (replaceTombstone && (db.getSnapshotWithVv path).isSome &&
        db.isTombstoned path) = clearStaleTombstone
      refine (tail (db.getSnapshotWithVv path) clearStaleTombstone
        ((db.getSnapshotWithVv path).isNone || clearStaleTombstone)
        (disjointSnapshot libraries.loro (db.getSnapshotWithVv path) snapshot)).of_iff ?_
      intro db'
      simp only [WritesAlone, Admits, importLabel, db.getSnapshotWithVv_map_fst]
      cases replaceTombstone with
      | false =>
          rw [absent, Bool.and_eq_false_imp, Option.isNone_iff_eq_none,
            Db.isTombstoned, Option.isSome_eq_false_iff, Option.isNone_iff_eq_none]
            at tombstoned
          simp only [Bool.false_and] at stale
          subst stale
          simp only [storeMerged, Bool.false_eq_true, ↓reduceIte]
          tauto
      | true =>
          -- where no row is live the path is not tombstoned either
          have stale : db.isTombstoned path = clearStaleTombstone := by
            rw [← stale, Bool.true_and]
            cases existing : db.getSnapshotWithVv path with
            | none => simpa [existing] using tombstoned
            | some pair => simp
          simp [storeMerged, stale]

/-- A write stores the blob, merged into the live snapshot. -/
theorem WritesAlone.stores
    {path : DocPath}
    {blob : Blob}
    {msg : ClientMsg Blob}
    {db' : Db Blob}
    (writes : WritesAlone libraries now path blob msg db db') :
    ∃ entry : JournalEntry Blob, entry.before = db ∧ entry.after = db' ∧
      entry.Stores libraries.loro path blob ∧
      DbCall.Effect libraries now entry.before entry.call entry.reply entry.after := by
  obtain ⟨_, merged, token, imported, stored⟩ := writes
  have merges : Merges libraries.loro (db.liveSnapshot path) blob merged.snapshot
      (libraries.loro.encodeVv merged.vv) := ⟨_, merged, imported, rfl, rfl⟩
  unfold storeMerged at stored
  split at stored
  · split_ifs at stored with buried
    · exact ⟨⟨none, .storeSnapshotReplacingTombstone path _ _, token, db, db'⟩, rfl, rfl,
        ⟨_, _, merges, Or.inr rfl⟩,
        DbCall.effect_of_storeSnapshotReplacingTombstone stored⟩
    · exact ⟨⟨none, .storeSnapshotWithVv path _ _, token, db, db'⟩, rfl, rfl,
        ⟨_, _, merges, Or.inl rfl⟩, DbCall.effect_of_storeSnapshotWithVv stored⟩
  · exact ⟨⟨none, .storeSnapshotWithVv path _ _, token, db, db'⟩, rfl, rfl,
      ⟨_, _, merges, Or.inl rfl⟩, DbCall.effect_of_storeSnapshotWithVv stored⟩

/-- A write that may replace a tombstone leaves none. -/
theorem WritesAlone.unburied
    {path : DocPath}
    {blob : Blob}
    {msg : ClientMsg Blob}
    {db' : Db Blob}
    (writes : WritesAlone libraries now path blob msg db db')
    (replaces : msg.ReplacesTombstone) :
    db'.isTombstoned path = false := by
  obtain ⟨_, merged, token, _, stored⟩ := writes
  rcases msg with _ | _ | _ | _ | _ | ⟨_, _, _, _ | _, _⟩ | _
  case docCreate.true =>
    simp only [storeMerged] at stored
    split_ifs at stored with buried
    · have effect : DbCall.Effect libraries now db
          (.storeSnapshotReplacingTombstone path _ _) token db' :=
        DbCall.effect_of_storeSnapshotReplacingTombstone stored
      cases effect with
      | read isRead => cases isRead
      | replaced room => simp [Db.isTombstoned]
    · have effect : DbCall.Effect libraries now db (.storeSnapshotWithVv path _ _) token
          db' :=
        DbCall.effect_of_storeSnapshotWithVv stored
      cases effect with
      | read isRead => cases isRead
      | kept live => exact Bool.eq_false_iff.mpr buried
      | established absent room => exact Bool.eq_false_iff.mpr buried
  all_goals exact replaces.elim

variable (now) in
/-- A write onto a live row that has nothing to replace keeps the row's token. -/
theorem WritesAlone.of_live
    {log : OpLog libraries.loro}
    {path : DocPath}
    {blob : Blob}
    {ops : Set OpId}
    {msg : ClientMsg Blob}
    {row : DocumentRow Blob}
    (lawful : log.Lawful)
    (coherent : CoherentAt log db path)
    (live : db.documents.lookup path = some row)
    (carried : log.changes blob = some ops)
    (admits : Admits libraries.loro db path msg)
    (unburied : msg.ReplacesTombstone → db.isTombstoned path = false) :
    ∃ row', row'.incarnation = row.incarnation ∧
      WritesAlone libraries now path blob msg db (db.putDocument path row') := by
  obtain ⟨merged, merges⟩ := lawful.merge_succeeds (importLabel msg)
    coherent.liveSnapshot carried
  let row' : DocumentRow Blob :=
    { row with
      snapshotBlob := merged.snapshot
      vvBlob := libraries.loro.encodeVv merged.vv
      updatedAt := now }
  have stored : db.storeSnapshotWithVv now path merged.snapshot
      (libraries.loro.encodeVv merged.vv) =
      .ok (row.incarnation, db.putDocument path row') := by
    simp [Db.storeSnapshotWithVv, Db.putDocument, live, row']
  refine ⟨row', rfl, admits, merged, row.incarnation, merges, ?_⟩
  unfold storeMerged
  split
  · rw [unburied trivial]
    exact stored
  · exact stored

/-- The client is sent an `Ack` when the handler acknowledges. -/
theorem finishAnswer_isAck_iff
    (requestId : Option String)
    (outcome : Except ServerError (Answer Blob)) :
    (finishAnswer requestId outcome).1.IsAck ↔ Acknowledges outcome := by
  rcases outcome with error | ⟨response, announced⟩
  · simp [finishAnswer, ServerMsg.IsAck, Acknowledges]
  · cases response <;> simp [finishAnswer, ServerMsg.IsAck, Acknowledges]

/-- What is needed for a frame with a blob to be acknowledged, and what the
database is then. -/
structure FrameWrites
    (libraries : Libraries Blob)
    (now : Time)
    (path : DocPath)
    (blob : Blob)
    (msg : ClientMsg Blob)
    (db db' : Db Blob) : Prop where
  identifiers : checkIdentifiers msg = .ok ()
  writes : WritesAlone libraries now path blob msg db db'

variable (libraries now db) in
/-- A frame with a blob alone: it is acknowledged exactly when it is written,
and the database is left as it was otherwise. -/
theorem processAlone_spec
    {frame : Frame Blob}
    {docUuid peerId : String}
    {blob : Blob}
    {requestId : Option String}
    {msg : ClientMsg Blob}
    (vaultId : String)
    (connId : Nat)
    (asked : frame.decoded = .ok msg)
    (submits : Submits docUuid blob peerId requestId msg) :
    (∀ db', FrameWrites libraries now ⟨vaultId, docUuid⟩ blob msg db db' ↔
      (processAlone libraries now frame vaultId connId db).1.1.IsAck ∧
        (processAlone libraries now frame vaultId connId db).2 = db') ∧
    (¬ (processAlone libraries now frame vaultId connId db).1.1.IsAck →
      (processAlone libraries now frame vaultId connId db).2 = db) := by
  have inner : processAlone libraries now frame vaultId connId db =
      (finishAnswer (requestIdOf frame.decoded)
          ((processInner libraries msg vaultId connId).alone libraries now db).1,
        ((processInner libraries msg vaultId connId).alone libraries now db).2) := by
    unfold processAlone processMessage
    rw [asked, Program.bind_eq_bind, Program.run_bind]
    rfl
  rw [inner]
  simp only [finishAnswer_isAck_iff]
  cases identifiers : checkIdentifiers msg with
  | error error =>
      have fails : (processInner libraries msg vaultId connId).alone libraries now db =
          (.error error, db) := by
        unfold processInner
        rw [alone_bind, alone_ofExcept, identifiers]
      rw [fails]
      refine ⟨fun db' => iff_of_false ?_ (by simp [Acknowledges]), fun _ => rfl⟩
      intro writes
      cases identifiers.symm.trans writes.identifiers
  | ok checked =>
      have answers : Answers (WritesAlone libraries now ⟨vaultId, docUuid⟩ blob msg db) db
          ((processInner libraries msg vaultId connId).alone libraries now db) := by
        unfold processInner
        rw [alone_bind, alone_ofExcept, identifiers]
        cases submits with
        | syncPush =>
            simp only [alone_withLock]
            exact handleSyncPush_alone ..
        | docCreate =>
            simp only [alone_withLock]
            exact handleDocCreate_alone ..
      refine ⟨fun db' => Iff.trans ?_ (answers.writes_iff db'), answers.unchanged⟩
      exact ⟨FrameWrites.writes, fun writes => ⟨identifiers, writes⟩⟩

end Spec

end VaultCrdtServer
