import VaultCrdtServer.Incarnation

/-!
# Merges

What a write does to the stored operations.  Stored rows are coherent: the
snapshot carries a set of operations closed under dependencies, and the version
vector is that set's.  A write integrates the incoming operations, so while a
path stays live its operations only grow.
-/

namespace VaultCrdtServer

open CausalHistory

variable {Blob : Type} {loro : Loro Blob}

/-! ## One merge -/

/-- The document a write starts from. -/
def Loro.Opens (loro : Loro Blob) : Option Blob → loro.Doc → Prop
  | none, doc => doc = loro.new
  | some snapshot, doc => loro.importBlob loro.new snapshot = .ok doc

/-- A merge imports the incoming blob into the opened base and exports. -/
theorem mergeSnapshot_eq_ok_iff
    {label : String}
    {base : Option Blob}
    {incoming : Blob}
    {merged : Merged Blob} :
    mergeSnapshot loro label base incoming = .ok merged ↔
      ∃ opened doc, loro.Opens base opened ∧
        loro.importBlob opened incoming = .ok doc ∧
        loro.exportSnapshot doc = .ok merged.snapshot ∧
        merged.vv = loro.oplogVv doc := by
  obtain ⟨snapshot, vv⟩ := merged
  unfold mergeSnapshot
  cases base with
  | none =>
      cases imported : loro.importBlob loro.new incoming with
      | error reason => simp [labelled, imported, Loro.Opens, bind, Except.bind]
      | ok doc =>
          cases exported : loro.exportSnapshot doc <;>
            simp [labelled, imported, exported, Loro.Opens, bind, Except.bind, eq_comm]
  | some stored =>
      cases opened : loro.importBlob loro.new stored with
      | error reason => simp [labelled, opened, Loro.Opens, bind, Except.bind]
      | ok base =>
          cases imported : loro.importBlob base incoming with
          | error reason =>
              simp [labelled, opened, imported, Loro.Opens, bind, Except.bind]
          | ok doc =>
              cases exported : loro.exportSnapshot doc <;>
                simp [labelled, opened, imported, exported, Loro.Opens, bind,
                  Except.bind, eq_comm]

namespace OpLog

variable (log : OpLog loro)

/-- The operations of a snapshot, if there is one. -/
def opsOf (snapshot : Option Blob) : Set OpId :=
  (snapshot.bind log.changes).getD ∅

@[simp] theorem opsOf_none : log.opsOf none = ∅ := rfl

variable {log} in
theorem opsOf_some
    {snapshot : Blob}
    {ops : Set OpId}
    (carried : log.changes snapshot = some ops) :
    log.opsOf (some snapshot) = ops := by
  simp [opsOf, carried]

/-- The snapshot carries operations closed under dependencies. -/
def IsSnapshot (snapshot : Blob) : Prop :=
  ∃ ops, log.changes snapshot = some ops ∧ Closed log.deps ops

variable {log}

/-- A document opened from a snapshot has applied all of it and waits for
nothing. -/
theorem Lawful.opened
    (lawful : log.Lawful)
    {base : Option Blob}
    {doc : loro.Doc}
    (snapshots : ∀ snapshot ∈ base, log.IsSnapshot snapshot)
    (opens : loro.Opens base doc) :
    log.applied doc = log.opsOf base ∧ log.pending doc = ∅ := by
  cases base with
  | none =>
      obtain rfl := opens
      exact ⟨lawful.applied_new, lawful.pending_new⟩
  | some snapshot =>
      obtain ⟨ops, carried, closed⟩ := snapshots snapshot rfl
      obtain ⟨ops', carried', applied, pending⟩ := lawful.applied_import_new opens
      obtain rfl := Option.some.inj (carried.symm.trans carried')
      rw [integrate_empty_of_closed lawful.acyclic closed] at applied
      rw [opsOf_some carried]
      rw [applied, Set.sdiff_self] at pending
      exact ⟨applied, pending⟩

/-- The snapshot and version vector are those of a document that has applied
the operations. -/
structure Holds (log : OpLog loro) (ops : Set OpId) (merged : Merged Blob) : Prop where
  snapshot : log.changes merged.snapshot = some ops
  vv : ∃ doc, log.applied doc = ops ∧ merged.vv = loro.oplogVv doc

/-- A merge integrates the incoming operations into those of the base. -/
theorem Lawful.merged
    (lawful : log.Lawful)
    {label : String}
    {base : Option Blob}
    {incoming : Blob}
    {merged : Merged Blob}
    (snapshots : ∀ snapshot ∈ base, log.IsSnapshot snapshot)
    (merges : mergeSnapshot loro label base incoming = .ok merged) :
    ∃ ops, log.changes incoming = some ops ∧
      log.Holds (integrate log.deps (log.opsOf base) ops) merged := by
  obtain ⟨opened, doc, opens, imported, exported, vv⟩ :=
    mergeSnapshot_eq_ok_iff.mp merges
  obtain ⟨applied, pending⟩ := lawful.opened snapshots opens
  obtain ⟨ops, carried, integrated, _⟩ := lawful.import_applies _ _ _ imported
  rw [applied, pending, Set.empty_union] at integrated
  refine ⟨ops, carried, ?_, doc, integrated, vv⟩
  obtain ⟨blob, exported', carries⟩ := lawful.export_snapshot doc
  obtain rfl := Except.ok.inj (exported.symm.trans exported')
  rw [carries, integrated]

/-- A well-formed blob can be merged into any snapshot. -/
theorem Lawful.merge_succeeds
    (lawful : log.Lawful)
    (label : String)
    {base : Option Blob}
    {incoming : Blob}
    {ops : Set OpId}
    (snapshots : ∀ snapshot ∈ base, log.IsSnapshot snapshot)
    (carried : log.changes incoming = some ops) :
    ∃ merged, mergeSnapshot loro label base incoming = .ok merged := by
  have opens : ∃ opened, loro.Opens base opened := by
    cases base with
    | none => exact ⟨loro.new, rfl⟩
    | some snapshot =>
        obtain ⟨stored, carried, _⟩ := snapshots snapshot rfl
        exact lawful.import_succeeds loro.new snapshot stored carried
  obtain ⟨opened, opens⟩ := opens
  obtain ⟨doc, imported⟩ := lawful.import_succeeds opened incoming ops carried
  obtain ⟨blob, exported, _⟩ := lawful.export_snapshot doc
  exact ⟨⟨blob, loro.oplogVv doc⟩,
    mergeSnapshot_eq_ok_iff.mpr ⟨opened, doc, opens, imported, exported, rfl⟩⟩

end OpLog

/-! ## Coherent databases -/

/-- The row's snapshot carries a closed set of operations, and its version
vector is that set's. -/
structure CoherentRow (log : OpLog loro) (row : DocumentRow Blob) : Prop where
  snapshot : log.IsSnapshot row.snapshotBlob
  vv : ∃ doc, log.applied doc = log.opsOf (some row.snapshotBlob) ∧
    loro.decodeVv row.vvBlob = .ok (loro.oplogVv doc)

/-- The row of a path is coherent, if there is one. -/
def CoherentAt (log : OpLog loro) (db : Db Blob) (path : DocPath) : Prop :=
  ∀ row, db.documents.lookup path = some row → CoherentRow log row

/-- Every row is coherent. -/
def Coherent (log : OpLog loro) (db : Db Blob) : Prop :=
  ∀ path, CoherentAt log db path

/-- The operations stored for a path. -/
def storedOps (log : OpLog loro) (db : Db Blob) (path : DocPath) : Set OpId :=
  log.opsOf (db.liveSnapshot path)

section Coherent

variable {log : OpLog loro} {db : Db Blob} {path : DocPath}

theorem coherent_empty : Coherent log Db.empty :=
  fun _ _ found => nomatch found

theorem storedOps_of_live
    {row : DocumentRow Blob}
    (live : db.documents.lookup path = some row) :
    storedOps log db path = log.opsOf (some row.snapshotBlob) := by
  simp [storedOps, Db.liveSnapshot, live]

/-- The operations stored for a path depend on its row only. -/
theorem storedOps_congr
    {db' : Db Blob}
    (same : db'.documents.lookup path = db.documents.lookup path) :
    storedOps log db' path = storedOps log db path := by
  simp [storedOps, Db.liveSnapshot, same]

/-- The base of a merge onto a coherent row. -/
theorem CoherentAt.liveSnapshot (coherent : CoherentAt log db path) :
    ∀ snapshot ∈ db.liveSnapshot path, log.IsSnapshot snapshot := by
  intro snapshot live
  simp only [Db.liveSnapshot, Option.mem_def, Option.map_eq_some_iff] at live
  obtain ⟨row, live, rfl⟩ := live
  exact (coherent row live).snapshot

/-- What a coherent row stores is closed under dependencies. -/
theorem CoherentAt.closed (coherent : CoherentAt log db path) :
    Closed log.deps (storedOps log db path) := by
  cases live : db.documents.lookup path with
  | none =>
      simp only [storedOps, Db.liveSnapshot, live, Option.map_none, OpLog.opsOf_none]
      exact closed_empty
  | some row =>
      obtain ⟨ops, carried, closed⟩ := (coherent row live).snapshot
      rw [storedOps_of_live live, OpLog.opsOf_some carried]
      exact closed

/-- The peers of the stored version vector are those of the stored operations. -/
theorem CoherentAt.decodeVv
    (lawful : log.Lawful)
    (coherent : CoherentAt log db path)
    {row : DocumentRow Blob}
    (live : db.documents.lookup path = some row) :
    ∃ vv, loro.decodeVv row.vvBlob = .ok vv ∧
      ∀ peer, peer ∈ vv ↔ ∃ counter, (⟨peer, counter⟩ : OpId) ∈ storedOps log db path := by
  obtain ⟨doc, applied, decoded⟩ := (coherent row live).vv
  refine ⟨_, decoded, ?_⟩
  intro peer
  rw [lawful.mem_oplogVv_iff, applied, storedOps_of_live live]

/-- A merged row is coherent and has integrated the incoming operations. -/
theorem coherentRow_of_merges
    (lawful : log.Lawful)
    (coherent : CoherentAt log db path)
    {incoming : Blob}
    {row : DocumentRow Blob}
    (merges : Merges loro (db.liveSnapshot path) incoming row.snapshotBlob row.vvBlob) :
    CoherentRow log row ∧
      ∃ ops, log.changes incoming = some ops ∧
        log.opsOf (some row.snapshotBlob) =
          integrate log.deps (storedOps log db path) ops := by
  obtain ⟨label, merged, merges, snapshot, vvBlob⟩ := merges
  obtain ⟨ops, carried, holds⟩ := lawful.merged coherent.liveSnapshot merges
  have stored := OpLog.opsOf_some holds.snapshot
  rw [← snapshot] at stored
  refine ⟨⟨⟨_, snapshot ▸ holds.snapshot, integrate_closed coherent.closed⟩, ?_⟩,
    ops, carried, stored⟩
  obtain ⟨doc, applied, vv⟩ := holds.vv
  exact ⟨doc, applied.trans stored.symm, by rw [vvBlob, lawful.decodeVv_encodeVv, vv]⟩

/-- What a store writes. -/
theorem row_of_stores
    {libraries : Libraries Blob}
    {now : Time}
    {entry : JournalEntry Blob}
    {incoming : Blob}
    (effect : DbCall.Effect libraries now entry.before entry.call entry.reply entry.after)
    (stores : entry.Stores loro path incoming) :
    ∃ row, entry.after.documents.lookup path = some row ∧
      Merges loro (entry.before.liveSnapshot path) incoming row.snapshotBlob
        row.vvBlob := by
  obtain ⟨origin, call, reply, before, after⟩ := entry
  obtain ⟨snapshot, vvBlob, merges, rfl | rfl⟩ := stores
  · change DbCall.Effect libraries now before (.storeSnapshotWithVv path snapshot vvBlob)
      reply after at effect
    cases effect with
    | read isRead => cases isRead
    | kept live => exact ⟨_, AList.lookup_insert _, merges⟩
    | established absent room => exact ⟨_, AList.lookup_insert _, merges⟩
  · change DbCall.Effect libraries now before
      (.storeSnapshotReplacingTombstone path snapshot vvBlob) reply after at effect
    cases effect with
    | read isRead => cases isRead
    | replaced room => exact ⟨_, AList.lookup_insert _, merges⟩

/-- A call that has written to a path has stored a merge or removed the row. -/
theorem stores_or_removes
    {libraries : Libraries Blob}
    {now : Time}
    {entry : JournalEntry Blob}
    (justified : DbCall.Justified loro entry.before entry.call)
    (effect : DbCall.Effect libraries now entry.before entry.call entry.reply entry.after)
    (committed : entry.committed = some path) :
    (∃ incoming, entry.Stores loro path incoming) ∨
      entry.after.documents.lookup path = none := by
  obtain ⟨origin, call, reply, before, after⟩ := entry
  change DbCall.Effect libraries now before call reply after at effect
  cases effect with
  | read isRead =>
      rw [JournalEntry.committed_of_isRead isRead] at committed
      cases committed
  | kept | established =>
      obtain ⟨⟨incoming, merges⟩, _⟩ := justified
      cases committed
      exact Or.inl ⟨incoming, _, _, merges, Or.inl rfl⟩
  | replaced =>
      obtain ⟨incoming, merges⟩ := justified
      cases committed
      exact Or.inl ⟨incoming, _, _, merges, Or.inr rfl⟩
  | removed | absent =>
      cases committed
      exact Or.inr (AList.lookup_erase path _)
  | rejected | peerUpserted | tombstonesExpired | peersExpired => cases committed

/-- What a store has integrated. -/
theorem storedOps_of_stores
    {libraries : Libraries Blob}
    {now : Time}
    {entry : JournalEntry Blob}
    {incoming : Blob}
    (lawful : log.Lawful)
    (coherent : CoherentAt log entry.before path)
    (effect : DbCall.Effect libraries now entry.before entry.call entry.reply entry.after)
    (stores : entry.Stores loro path incoming) :
    ∃ ops, log.changes incoming = some ops ∧
      storedOps log entry.after path =
        integrate log.deps (storedOps log entry.before path) ops := by
  obtain ⟨row, live, merges⟩ := row_of_stores effect stores
  obtain ⟨_, ops, carried, integrated⟩ := coherentRow_of_merges lawful coherent merges
  exact ⟨ops, carried, (storedOps_of_live live).trans integrated⟩

/-- Justified calls keep a database coherent. -/
theorem Coherent.step
    {libraries : Libraries Blob}
    {now : Time}
    {entry : JournalEntry Blob}
    (lawful : log.Lawful)
    (coherent : Coherent log entry.before)
    (justified : DbCall.Justified loro entry.before entry.call)
    (effect : DbCall.Effect libraries now entry.before entry.call entry.reply
      entry.after) :
    Coherent log entry.after := by
  intro path row live
  by_cases written : entry.committed = some path
  · rcases stores_or_removes justified effect written with ⟨incoming, stores⟩ | removed
    · obtain ⟨row', live', merges⟩ := row_of_stores effect stores
      obtain rfl := Option.some.inj (live.symm.trans live')
      exact (coherentRow_of_merges lawful (coherent path) merges).1
    · cases removed.symm.trans live
  · rw [effect.documents_frame written] at live
    exact coherent path row live

end Coherent

end VaultCrdtServer
