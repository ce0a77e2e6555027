import VaultCrdtServer.Db

/-!
# Effects of the database calls

`DbCall.Effect` lists what a call that succeeds can have done.  Everything that
is proved about the tables later is proved from this list.
-/

namespace VaultCrdtServer

variable {Blob : Type}

namespace Db

/-- `next_incarnation`, with the value a missing counter row stands for. -/
def nextIncarnation (vault : String) (db : Db Blob) : Int :=
  (db.vaultIncarnation.lookup vault).getD 1

/-- The live row's token, zero without a live row. -/
def liveIncarnation (path : DocPath) (db : Db Blob) : Int :=
  ((db.documents.lookup path).map DocumentRow.incarnation).getD 0

/-- The snapshot of the live row. -/
def liveSnapshot (path : DocPath) (db : Db Blob) : Option Blob :=
  (db.documents.lookup path).map DocumentRow.snapshotBlob

/-- The counter of a vault has moved on by one. -/
def advanceIncarnation (vault : String) (db : Db Blob) : Db Blob :=
  { db with
    vaultIncarnation :=
      db.vaultIncarnation.insert vault (db.nextIncarnation vault + 1) }

/-- A live row has been written. -/
def putDocument
    (path : DocPath)
    (row : DocumentRow Blob)
    (db : Db Blob) : Db Blob :=
  { db with documents := db.documents.insert path row }

/-- Allocation hands out the counter's value while it is below the maximum. -/
theorem allocateIncarnation_eq (vault : String) (db : Db Blob) :
    db.allocateIncarnation vault =
      if db.nextIncarnation vault < i64Max then
        .ok (db.nextIncarnation vault, db.advanceIncarnation vault)
      else
        .error (.db "incarnation space exhausted") := by
  cases found : db.vaultIncarnation.lookup vault with
  | none => simp [allocateIncarnation, nextIncarnation, advanceIncarnation, found, i64Max]
  | some next =>
      simp [allocateIncarnation, nextIncarnation, advanceIncarnation, found]

/-- Allocation moves one vault's counter on. -/
theorem nextIncarnation_advanceIncarnation
    (vault other : String)
    (db : Db Blob) :
    (db.advanceIncarnation vault).nextIncarnation other =
      if other = vault then
        db.nextIncarnation vault + 1
      else
        db.nextIncarnation other := by
  simp only [advanceIncarnation, nextIncarnation, Table.lookup_insert_eq_ite]
  split_ifs with same
  · rfl
  · rfl

end Db

namespace DbCall

/-- The call reads and writes nothing. -/
def isRead : DbCall Blob → Bool
  | .getSnapshotWithVv _ | .getSnapshotWithIncarnation _ | .isTombstoned _
  | .listDocsWithVv _ | .listTombstones _ | .listTombstonesWithHash _ => true
  | _ => false

/-- The path a call writes to. -/
def target : DbCall Blob → Option DocPath
  | .storeSnapshotWithVv path .. | .storeSnapshotReplacingTombstone path ..
  | .deleteDocGuarded path .. => some path
  | _ => none

/-- The path a call has written to, given its reply: a rejected delete has not
written. -/
def committed : (call : DbCall Blob) → call.Reply → Option DocPath
  | .storeSnapshotWithVv path .., _ => some path
  | .storeSnapshotReplacingTombstone path .., _ => some path
  | .deleteDocGuarded .., .rejected _ => none
  | .deleteDocGuarded path .., _ => some path
  | _, _ => none

/-- What a successful call did to the database. -/
inductive Effect (libraries : Libraries Blob) (now : Time) (db : Db Blob) :
    (call : DbCall Blob) → call.Reply → Db Blob → Prop
  | read {call : DbCall Blob} {reply : call.Reply}
      (isRead : call.isRead = true) :
      Effect libraries now db call reply db
  /-- The live row was rewritten and kept its token. -/
  | kept {path : DocPath} {snapshot vvBlob : Blob} {row : DocumentRow Blob}
      (live : db.documents.lookup path = some row) :
      Effect libraries now db (.storeSnapshotWithVv path snapshot vvBlob)
        row.incarnation
        (db.putDocument path
          { row with
            snapshotBlob := snapshot, vvBlob := vvBlob, updatedAt := now })
  /-- A live row was created with a fresh token. -/
  | established {path : DocPath} {snapshot vvBlob : Blob}
      (absent : db.documents.lookup path = none)
      (room : db.nextIncarnation path.vault < i64Max) :
      Effect libraries now db (.storeSnapshotWithVv path snapshot vvBlob)
        (db.nextIncarnation path.vault)
        ((db.advanceIncarnation path.vault).putDocument path
          { snapshotBlob := snapshot
            vvBlob := vvBlob
            updatedAt := now
            incarnation := db.nextIncarnation path.vault })
  /-- The row was written with a fresh token and the tombstone removed. -/
  | replaced {path : DocPath} {snapshot vvBlob : Blob}
      (room : db.nextIncarnation path.vault < i64Max) :
      Effect libraries now db
        (.storeSnapshotReplacingTombstone path snapshot vvBlob)
        (db.nextIncarnation path.vault)
        { (db.advanceIncarnation path.vault).putDocument path
            { snapshotBlob := snapshot
              vvBlob := vvBlob
              updatedAt := now
              incarnation := db.nextIncarnation path.vault } with
          tombstones := db.tombstones.erase path }
  /-- The expected token is not the live row's. -/
  | rejected {path : DocPath} {deletedBy : String} {expected : Int}
      (differs : expected ≠ db.liveIncarnation path) :
      Effect libraries now db (.deleteDocGuarded path deletedBy (some expected))
        (.rejected (db.liveIncarnation path)) db
  /-- The live row was removed and a tombstone written. -/
  | removed {path : DocPath} {deletedBy : String} {expected : Option Int}
      {row : DocumentRow Blob} {buried : TombstoneRow}
      (live : db.documents.lookup path = some row)
      (matching : ∀ token ∈ expected, token = row.incarnation)
      (tombstone : buried = Db.buriedRow now deletedBy
        (Db.contentHashFromSnapshotBlob libraries.loro row.snapshotBlob)
        (some row.incarnation) (db.tombstones.lookup path)) :
      Effect libraries now db (.deleteDocGuarded path deletedBy expected)
        (.deleted buried.contentHash row.incarnation)
        { db with
          documents := db.documents.erase path
          tombstones := db.tombstones.insert path buried }
  /-- There was no live row, and a tombstone was written. -/
  | absent {path : DocPath} {deletedBy : String} {expected : Option Int}
      {buried : TombstoneRow}
      (absent : db.documents.lookup path = none)
      (matching : ∀ token ∈ expected, token = 0)
      (tombstone : buried = Db.buriedRow now deletedBy none none
        (db.tombstones.lookup path)) :
      Effect libraries now db (.deleteDocGuarded path deletedBy expected)
        (.idempotentNoLive buried.contentHash)
        { db with
          documents := db.documents.erase path
          tombstones := db.tombstones.insert path buried }
  | peerUpserted {key : PeerKey} {deviceName : String} :
      Effect libraries now db (.upsertPeer key deviceName) ()
        (db.upsertPeer now key deviceName)
  | tombstonesExpired {maxAgeDays : Int} :
      Effect libraries now db (.expireTombstones maxAgeDays)
        (db.expireTombstones now maxAgeDays).1
        (db.expireTombstones now maxAgeDays).2
  | peersExpired {maxAgeDays : Int} :
      Effect libraries now db (.expireStalePeers maxAgeDays)
        (db.expireStalePeers now maxAgeDays).1
        (db.expireStalePeers now maxAgeDays).2

variable {libraries : Libraries Blob} {now : Time} {db db' : Db Blob}

/-- A store that succeeds has kept the live row's token or allocated one. -/
theorem effect_of_storeSnapshotWithVv
    {path : DocPath}
    {snapshot vvBlob : Blob}
    {token : Int}
    (stored : db.storeSnapshotWithVv now path snapshot vvBlob = .ok (token, db')) :
    Effect libraries now db (.storeSnapshotWithVv path snapshot vvBlob) token db' := by
  cases live : db.documents.lookup path with
  | some row =>
      simp only [Db.storeSnapshotWithVv, live, Except.ok.injEq, Prod.mk.injEq] at stored
      obtain ⟨rfl, rfl⟩ := stored
      exact .kept live
  | none =>
      by_cases room : db.nextIncarnation path.vault < i64Max
      · simp only [Db.storeSnapshotWithVv, live, Db.allocateIncarnation_eq, room,
          ↓reduceIte, bind, Except.bind, Except.ok.injEq, Prod.mk.injEq] at stored
        obtain ⟨rfl, rfl⟩ := stored
        exact .established live room
      · simp [Db.storeSnapshotWithVv, live, Db.allocateIncarnation_eq, room,
          bind, Except.bind] at stored

/-- A replacing store that succeeds has allocated a token. -/
theorem effect_of_storeSnapshotReplacingTombstone
    {path : DocPath}
    {snapshot vvBlob : Blob}
    {token : Int}
    (stored : db.storeSnapshotReplacingTombstone now path snapshot vvBlob =
      .ok (token, db')) :
    Effect libraries now db (.storeSnapshotReplacingTombstone path snapshot vvBlob)
      token db' := by
  by_cases room : db.nextIncarnation path.vault < i64Max
  · simp only [Db.storeSnapshotReplacingTombstone, Db.allocateIncarnation_eq, room,
      ↓reduceIte, bind, Except.bind, Except.ok.injEq, Prod.mk.injEq] at stored
    obtain ⟨rfl, rfl⟩ := stored
    exact .replaced room
  · simp [Db.storeSnapshotReplacingTombstone, Db.allocateIncarnation_eq, room,
      bind, Except.bind] at stored

/-- A delete whose guard matches removes the row and writes a tombstone. -/
theorem effect_of_unrejected_delete
    {path : DocPath}
    {deletedBy : String}
    {expected : Option Int}
    (matching : ∀ token ∈ expected, token = db.liveIncarnation path) :
    Effect libraries now db (.deleteDocGuarded path deletedBy expected)
      (db.deleteDocGuarded libraries.loro now path deletedBy expected).1
      (db.deleteDocGuarded libraries.loro now path deletedBy expected).2 := by
  have passes : (expected.any fun token =>
      decide (token ≠ db.liveIncarnation path)) = false := by
    cases expected with
    | none => rfl
    | some token => simp [matching token rfl]
  unfold Db.liveIncarnation at passes
  cases live : db.documents.lookup path with
  | none =>
      simp only [live, Option.map_none] at passes
      simp only [Db.deleteDocGuarded, live, passes, Option.map_none,
        Option.bind_none, Bool.false_eq_true, ↓reduceIte]
      refine .absent live ?_ rfl
      simpa [Db.liveIncarnation, live] using matching
  | some row =>
      simp only [live, Option.map_some] at passes
      simp only [Db.deleteDocGuarded, live, passes, Option.map_some,
        Option.bind_some, Bool.false_eq_true, ↓reduceIte]
      refine .removed live ?_ rfl
      simpa [Db.liveIncarnation, live] using matching

/-- The guard of a delete compares the expected token with the live row's. -/
theorem effect_of_deleteDocGuarded
    {path : DocPath}
    {deletedBy : String}
    {expected : Option Int}
    {outcome : DeleteOutcome}
    (deleted : db.deleteDocGuarded libraries.loro now path deletedBy expected =
      (outcome, db')) :
    Effect libraries now db (.deleteDocGuarded path deletedBy expected)
      outcome db' := by
  by_cases matching : ∀ token ∈ expected, token = db.liveIncarnation path
  · have effect : Effect libraries now db (.deleteDocGuarded path deletedBy expected)
        (db.deleteDocGuarded libraries.loro now path deletedBy expected).1
        (db.deleteDocGuarded libraries.loro now path deletedBy expected).2 :=
      effect_of_unrejected_delete matching
    rwa [deleted] at effect
  · push Not at matching
    obtain ⟨token, rfl, differs⟩ := matching
    have rejects : decide (token ≠ db.liveIncarnation path) = true :=
      decide_eq_true differs
    unfold Db.liveIncarnation at rejects
    simp only [Db.deleteDocGuarded, Option.any_some, rejects, ↓reduceIte,
      Prod.mk.injEq] at deleted
    obtain ⟨rfl, rfl⟩ := deleted
    exact .rejected differs

/-- What a successful call did. -/
theorem effect_of_exec
    {call : DbCall Blob}
    {reply : call.Reply}
    (executed : call.exec libraries now db = .ok (reply, db')) :
    Effect libraries now db call reply db' := by
  cases call with
  | getSnapshotWithVv path | getSnapshotWithIncarnation path | isTombstoned path
  | listDocsWithVv vault | listTombstones vault | listTombstonesWithHash vault =>
      cases executed
      exact .read rfl
  | storeSnapshotWithVv path snapshot vvBlob =>
      exact effect_of_storeSnapshotWithVv executed
  | storeSnapshotReplacingTombstone path snapshot vvBlob =>
      exact effect_of_storeSnapshotReplacingTombstone executed
  | deleteDocGuarded path deletedBy expected =>
      exact effect_of_deleteDocGuarded (Except.ok.inj executed)
  | upsertPeer key deviceName =>
      cases executed
      exact .peerUpserted
  | expireTombstones maxAgeDays =>
      cases executed
      exact .tombstonesExpired
  | expireStalePeers maxAgeDays =>
      cases executed
      exact .peersExpired

/-- A path that is written to is the call's target. -/
theorem target_of_committed
    {call : DbCall Blob}
    {reply : call.Reply}
    {path : DocPath}
    (committed : call.committed reply = some path) :
    call.target = some path := by
  cases call with
  | deleteDocGuarded target deletedBy expected =>
      cases reply <;> simp_all [DbCall.committed, DbCall.target]
  | _ => simp_all [DbCall.committed, DbCall.target]

/-- A call that reads has no target. -/
theorem target_of_isRead
    {call : DbCall Blob}
    (isRead : call.isRead = true) :
    call.target = none := by
  cases call <;> simp_all [DbCall.isRead, DbCall.target]

namespace Effect

variable {call : DbCall Blob} {reply : call.Reply} {path : DocPath}

/-- A row of `documents` changes only with a call that has written to it. -/
theorem documents_frame
    (effect : Effect libraries now db call reply db')
    (elsewhere : call.committed reply ≠ some path) :
    db'.documents.lookup path = db.documents.lookup path := by
  cases effect with
  | read | rejected | peerUpserted | tombstonesExpired | peersExpired => rfl
  | kept | established | replaced =>
      exact AList.lookup_insert_ne fun same =>
        elsewhere (congrArg some same.symm)
  | removed | absent =>
      exact AList.lookup_erase_ne fun same =>
        elsewhere (congrArg some same.symm)

/-- Without a write to its path a tombstone can only expire. -/
theorem tombstones_frame
    (effect : Effect libraries now db call reply db')
    (elsewhere : call.committed reply ≠ some path) :
    db'.tombstones.lookup path = db.tombstones.lookup path ∨
      db'.tombstones.lookup path = none := by
  cases effect with
  | read | rejected | peerUpserted | peersExpired => exact Or.inl rfl
  | kept | established => exact Or.inl rfl
  | replaced =>
      exact Or.inl (AList.lookup_erase_ne fun same =>
        elsewhere (congrArg some same.symm))
  | removed | absent =>
      exact Or.inl (AList.lookup_insert_ne fun same =>
        elsewhere (congrArg some same.symm))
  | tombstonesExpired => exact Table.lookup_deleteWhere_eq_or _ _ _

/-- A call that reads leaves the database as it was. -/
theorem eq_of_isRead
    (effect : Effect libraries now db call reply db')
    (isRead : call.isRead = true) :
    db' = db := by
  cases effect with
  | read => rfl
  | _ => simp [DbCall.isRead] at isRead

end Effect

end DbCall

/-- A peer's row was there before, or has just been refreshed. -/
theorem peers_of_effect
    {libraries : Libraries Blob}
    {now : Time}
    {db db' : Db Blob}
    {call : DbCall Blob}
    {reply : call.Reply}
    (effect : DbCall.Effect libraries now db call reply db')
    {key : PeerKey}
    {peer : PeerRow}
    (seen : db'.peers.lookup key = some peer) :
    db.peers.lookup key = some peer ∨
      peer.lastSeenAt = now ∧ ∃ deviceName, call = .upsertPeer key deviceName := by
  cases effect with
  | read | kept | established | replaced | rejected | removed | absent
  | tombstonesExpired => exact Or.inl seen
  | @peerUpserted key' deviceName =>
      rw [Db.upsertPeer, Table.lookup_insert_eq_ite] at seen
      split_ifs at seen with same
      · subst same
        obtain rfl := Option.some.inj seen
        exact Or.inr ⟨rfl, deviceName, rfl⟩
      · exact Or.inl seen
  | peersExpired =>
      refine Or.inl ?_
      rcases Table.lookup_deleteWhere_eq_or _ db.peers key with same | none
      · exact same.symm.trans seen
      · cases none.symm.trans seen

end VaultCrdtServer
