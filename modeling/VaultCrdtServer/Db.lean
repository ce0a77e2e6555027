import VaultCrdtServer.Foundation.Table
import VaultCrdtServer.Fnv
import VaultCrdtServer.VvSerde

/-!
# The database

The tables of the document lane and the functions of `src/db.rs` on them.  A
function that runs in a transaction returns its result together with the new
database, or an error, in which case the transaction is dropped and the
database stays as it was.  Times are seconds, as `datetime('now')` counts them.

`DbCall` lists the functions as calls of one database acquisition each.
-/

namespace VaultCrdtServer

/-- `datetime('now')`, in seconds. -/
abbrev Time := Int

/-- The primary key `(vault_id, doc_uuid)`. -/
structure DocPath where
  /-- `vault_id` -/
  vault : String
  /-- `doc_uuid` -/
  doc : String
  deriving DecidableEq

/-- The primary key `(vault_id, peer_id)`. -/
structure PeerKey where
  /-- `vault_id` -/
  vault : String
  /-- `peer_id` -/
  peer : String
  deriving DecidableEq

/-- A row of `documents`. -/
structure DocumentRow (Blob : Type) where
  snapshotBlob : Blob
  vvBlob : Blob
  updatedAt : Time
  incarnation : Int

/-- A row of `tombstones`. -/
structure TombstoneRow where
  deletedBy : String
  deletedAt : Time
  contentHash : Option String
  incarnation : Int

/-- A row of `peers`. -/
structure PeerRow where
  deviceName : String
  lastSeenAt : Time

/-- The tables of the document lane. -/
structure Db (Blob : Type) where
  documents : Table DocPath (DocumentRow Blob)
  tombstones : Table DocPath TombstoneRow
  vaultIncarnation : Table String Int
  peers : Table PeerKey PeerRow

/-- A database in which nothing is stored. -/
def Db.empty {Blob : Type} : Db Blob where
  documents := ∅
  tombstones := ∅
  vaultIncarnation := ∅
  peers := ∅

/-- `DocEntry` -/
structure DocEntry where
  docUuid : String
  updatedAt : Time
  serverVv : Bytes
  incarnation : Option Int

/-- `TombstoneHash` -/
structure TombstoneHash where
  docUuid : String
  contentHash : Option String

/-- `DeleteOutcome` -/
inductive DeleteOutcome
  | deleted (contentHash : Option String) (incarnation : Int)
  | idempotentNoLive (contentHash : Option String)
  | rejected (liveIncarnation : Int)

/-- The libraries the server is linked with. -/
structure Libraries (Blob : Type) where
  loro : Loro Blob
  json : SerdeJson

/-- `i64::MAX` -/
def i64Max : Int := 9223372036854775807

/-- `INVALID_VV_SENTINEL_JSON` -/
def invalidVvSentinelJson : Bytes :=
  "__vaultcrdt_invalid_vv__".toUTF8.toList

namespace Db

variable {Blob : Type}

/-! ## Incarnations and snapshots -/

/-- `allocate_incarnation`: the counter row is inserted as 2 or incremented
below `i64::MAX`, and the token is one less than the value returned. -/
def allocateIncarnation
    (vault : String)
    (db : Db Blob) : Except ServerError (Int × Db Blob) :=
  match db.vaultIncarnation.lookup vault with
  | none =>
      .ok (2 - 1,
        { db with vaultIncarnation := db.vaultIncarnation.insert vault 2 })
  | some next =>
      if next < i64Max then
        .ok (next + 1 - 1,
          { db with
            vaultIncarnation := db.vaultIncarnation.insert vault (next + 1) })
      else
        .error (.db "incarnation space exhausted")

/-- `store_snapshot_with_vv`: a live row keeps its incarnation, a new one is
given a fresh token. -/
def storeSnapshotWithVv
    (now : Time)
    (path : DocPath)
    (snapshot vvBlob : Blob)
    (db : Db Blob) : Except ServerError (Int × Db Blob) :=
  match db.documents.lookup path with
  | some row =>
      .ok (row.incarnation,
        { db with
          documents := db.documents.insert path
            { row with
              snapshotBlob := snapshot, vvBlob := vvBlob, updatedAt := now } })
  | none => do
      let (incarnation, db) ← db.allocateIncarnation path.vault
      .ok (incarnation,
        { db with
          documents := db.documents.insert path
            { snapshotBlob := snapshot
              vvBlob := vvBlob
              updatedAt := now
              incarnation := incarnation } })

/-- `store_snapshot_replacing_tombstone`: always a fresh token, and the path's
tombstone is removed with the same transaction. -/
def storeSnapshotReplacingTombstone
    (now : Time)
    (path : DocPath)
    (snapshot vvBlob : Blob)
    (db : Db Blob) : Except ServerError (Int × Db Blob) := do
  let (incarnation, db) ← db.allocateIncarnation path.vault
  .ok (incarnation,
    { db with
      documents := db.documents.insert path
        { snapshotBlob := snapshot
          vvBlob := vvBlob
          updatedAt := now
          incarnation := incarnation }
      tombstones := db.tombstones.erase path })

/-- `get_snapshot_with_incarnation` -/
def getSnapshotWithIncarnation
    (path : DocPath)
    (db : Db Blob) : Option (Blob × Int) :=
  (db.documents.lookup path).map fun row => (row.snapshotBlob, row.incarnation)

/-- `get_snapshot_with_vv` -/
def getSnapshotWithVv (path : DocPath) (db : Db Blob) : Option (Blob × Blob) :=
  (db.documents.lookup path).map fun row => (row.snapshotBlob, row.vvBlob)

/-! ## Listings -/

/-- `list_docs_with_vv`: a version vector that does not decode is listed as the
sentinel. -/
def listDocsWithVv
    (libraries : Libraries Blob)
    (vault : String)
    (db : Db Blob) : List DocEntry :=
  (db.documents.select (fun path _ => path.vault = vault) DocPath.doc).map
    fun (path, row) =>
      { docUuid := path.doc
        updatedAt := row.updatedAt
        serverVv := match libraries.loro.decodeVv row.vvBlob with
          | .ok vv => vvToJsonBytes libraries.json vv
          | .error _ => invalidVvSentinelJson
        incarnation := some row.incarnation }

/-- `list_tombstones` -/
def listTombstones (vault : String) (db : Db Blob) : List String :=
  (db.tombstones.select (fun path _ => path.vault = vault) DocPath.doc).map
    fun (path, _) => path.doc

/-- `list_tombstones_with_hash` -/
def listTombstonesWithHash
    (vault : String)
    (db : Db Blob) : List TombstoneHash :=
  (db.tombstones.select (fun path _ => path.vault = vault) DocPath.doc).map
    fun (path, row) =>
      { docUuid := path.doc, contentHash := row.contentHash }

/-- `is_tombstoned` -/
def isTombstoned (path : DocPath) (db : Db Blob) : Bool :=
  (db.tombstones.lookup path).isSome

/-! ## Deletes -/

/-- `content_hash_from_snapshot_blob` -/
def contentHashFromSnapshotBlob
    (loro : Loro Blob)
    (snapshot : Blob) : Option String :=
  match loro.importBlob loro.new snapshot with
  | .ok doc => some (fnv1a64Hex (loro.contentText doc))
  | .error _ => none

/-- The tombstone a delete leaves: `content_hash` and `incarnation` of an older
tombstone survive where the delete itself has none. -/
def buriedRow
    (now : Time)
    (deletedBy : String)
    (contentHash : Option String)
    (incarnation : Option Int) : Option TombstoneRow → TombstoneRow
  | none =>
      { deletedBy := deletedBy
        deletedAt := now
        contentHash := contentHash
        incarnation := incarnation.getD 1 }
  | some old =>
      { deletedBy := deletedBy
        deletedAt := now
        contentHash := contentHash.or old.contentHash
        incarnation := incarnation.getD old.incarnation }

/-- `delete_doc_guarded`: compare the expected token with the live row's, zero
standing for no live row, and delete in one transaction. -/
def deleteDocGuarded
    (loro : Loro Blob)
    (now : Time)
    (path : DocPath)
    (deletedBy : String)
    (expected : Option Int)
    (db : Db Blob) : DeleteOutcome × Db Blob :=
  let live := db.documents.lookup path
  let incarnation := live.map DocumentRow.incarnation
  let liveIncarnation := incarnation.getD 0
  if expected.any (· ≠ liveIncarnation) then
    (.rejected liveIncarnation, db)
  else
    let contentHash := live.bind fun row =>
      contentHashFromSnapshotBlob loro row.snapshotBlob
    let buried := buriedRow now deletedBy contentHash incarnation
      (db.tombstones.lookup path)
    let db' :=
      { db with
        documents := db.documents.erase path
        tombstones := db.tombstones.insert path buried }
    match incarnation with
    | some incarnation => (.deleted buried.contentHash incarnation, db')
    | none => (.idempotentNoLive buried.contentHash, db')

/-! ## Peers and retention -/

/-- `upsert_peer` -/
def upsertPeer
    (now : Time)
    (key : PeerKey)
    (deviceName : String)
    (db : Db Blob) : Db Blob :=
  { db with
    peers := db.peers.insert key
      { deviceName := deviceName, lastSeenAt := now } }

/-- The earliest time SQLite's date functions represent. -/
def earliestTime : Time := -210866760000

/-- `datetime('now', '-' || ? || ' days')`: null for a negative number of days
and for a time that is out of range. -/
def daysBefore (now : Time) (days : Int) : Option Time :=
  if days < 0 ∨ now - days * 86400 < earliestTime then
    none
  else
    some (now - days * 86400)

/-- Some peer of the vault has not been seen since the deletion. -/
def awaited (db : Db Blob) (path : DocPath) (row : TombstoneRow) : Bool :=
  db.peers.entries.any fun peer =>
    peer.1.vault = path.vault && decide (peer.2.lastSeenAt ≤ row.deletedAt)

/-- `expire_tombstones` -/
def expireTombstones
    (now : Time)
    (maxAgeDays : Int)
    (db : Db Blob) : Nat × Db Blob :=
  let expired := fun (path : DocPath) (row : TombstoneRow) =>
    (daysBefore now maxAgeDays).any (fun limit => row.deletedAt < limit) &&
      !db.awaited path row
  let tombstones := db.tombstones.deleteWhere expired
  (db.tombstones.entries.length - tombstones.entries.length,
    { db with tombstones := tombstones })

/-- `expire_stale_peers` -/
def expireStalePeers
    (now : Time)
    (maxAgeDays : Int)
    (db : Db Blob) : Nat × Db Blob :=
  let peers := db.peers.deleteWhere fun _ row =>
    (daysBefore now maxAgeDays).any fun limit => row.lastSeenAt < limit
  (db.peers.entries.length - peers.entries.length, { db with peers := peers })

end Db

/-! ## Calls -/

/-- The functions of the database, one acquisition each. -/
inductive DbCall (Blob : Type)
  | getSnapshotWithVv (path : DocPath)
  | getSnapshotWithIncarnation (path : DocPath)
  | isTombstoned (path : DocPath)
  | storeSnapshotWithVv (path : DocPath) (snapshot vvBlob : Blob)
  | storeSnapshotReplacingTombstone (path : DocPath) (snapshot vvBlob : Blob)
  | deleteDocGuarded
      (path : DocPath)
      (deletedBy : String)
      (expected : Option Int)
  | listDocsWithVv (vault : String)
  | listTombstones (vault : String)
  | listTombstonesWithHash (vault : String)
  | upsertPeer (key : PeerKey) (deviceName : String)
  | expireTombstones (maxAgeDays : Int)
  | expireStalePeers (maxAgeDays : Int)

namespace DbCall

variable {Blob : Type}

/-- What a call returns. -/
@[reducible] def Reply : DbCall Blob → Type
  | .getSnapshotWithVv _ => Option (Blob × Blob)
  | .getSnapshotWithIncarnation _ => Option (Blob × Int)
  | .isTombstoned _ => Bool
  | .storeSnapshotWithVv .. => Int
  | .storeSnapshotReplacingTombstone .. => Int
  | .deleteDocGuarded .. => DeleteOutcome
  | .listDocsWithVv _ => List DocEntry
  | .listTombstones _ => List String
  | .listTombstonesWithHash _ => List TombstoneHash
  | .upsertPeer .. => Unit
  | .expireTombstones _ => Nat
  | .expireStalePeers _ => Nat

/-- Execute a call at a given time. -/
def exec (libraries : Libraries Blob) (now : Time) :
    (call : DbCall Blob) → Db Blob → Except ServerError (call.Reply × Db Blob)
  | .getSnapshotWithVv path, db => .ok (db.getSnapshotWithVv path, db)
  | .getSnapshotWithIncarnation path, db =>
      .ok (db.getSnapshotWithIncarnation path, db)
  | .isTombstoned path, db => .ok (db.isTombstoned path, db)
  | .storeSnapshotWithVv path snapshot vvBlob, db =>
      db.storeSnapshotWithVv now path snapshot vvBlob
  | .storeSnapshotReplacingTombstone path snapshot vvBlob, db =>
      db.storeSnapshotReplacingTombstone now path snapshot vvBlob
  | .deleteDocGuarded path deletedBy expected, db =>
      .ok (db.deleteDocGuarded libraries.loro now path deletedBy expected)
  | .listDocsWithVv vault, db => .ok (db.listDocsWithVv libraries vault, db)
  | .listTombstones vault, db => .ok (db.listTombstones vault, db)
  | .listTombstonesWithHash vault, db =>
      .ok (db.listTombstonesWithHash vault, db)
  | .upsertPeer key deviceName, db => .ok ((), db.upsertPeer now key deviceName)
  | .expireTombstones maxAgeDays, db => .ok (db.expireTombstones now maxAgeDays)
  | .expireStalePeers maxAgeDays, db => .ok (db.expireStalePeers now maxAgeDays)

end DbCall

end VaultCrdtServer
