import VaultCrdtServer.Db
import VaultCrdtServer.Blobs.Content

/-!
# The database of the blob lane

The tables of `004_blob_lane.sql` and the statements `src/blobs.rs` runs on
them.  What the source does under one acquisition of the database is one call.
`BlobDbCall` lists the calls; a call that fails leaves the database as it was.
-/

namespace VaultCrdtServer

/-- The primary key `(vault_id, hash)`. -/
structure BlobKey where
  /-- `vault_id` -/
  vault : VaultId
  /-- `hash` -/
  hash : Hash
  deriving DecidableEq

/-- The primary key `(vault_id, path_key)`. -/
structure PathKey where
  /-- `vault_id` -/
  vault : VaultId
  /-- `path_key` -/
  key : String
  deriving DecidableEq

/-- A row of `blob_uploads`, whose primary key is `upload_id`. -/
structure UploadRow where
  vaultId : VaultId
  hashClaimed : Hash
  sizeClaimed : Int
  receivedBytes : Int
  createdAt : Time

/-- The column `state` of `blob_path_states`. -/
inductive PathState
  | live
  | deleted
  deriving DecidableEq

/-- The columns of `blob_path_states` that a request sets. -/
structure PathChange where
  displayPath : String
  keyVersion : Int
  generation : Int
  state : PathState
  contentHash : Option Hash
  size : Option Int
  peerId : String
  deriving DecidableEq

/-- A row of `blob_path_states`. -/
structure PathRow extends PathChange where
  updatedAt : Time
  seq : Int
  envJson : Option String
  deriving DecidableEq

/-- The tables of the blob lane. -/
structure BlobDb where
  /-- The column `quota_bytes` of `vaults`. -/
  quotaBytes : Table String (Option Int)
  /-- The column `size` of `blobs`. -/
  blobs : Table BlobKey Int
  blobPathStates : Table PathKey PathRow
  blobUploads : Table String UploadRow
  /-- The counter `blob_seq`. -/
  blobSeq : Int

/-- `as u64` -/
def asU64 (value : Int) : Nat := (value % 2 ^ 64).toNat

theorem asU64_of_nonneg
    {value : Int}
    (nonneg : 0 ≤ value)
    (small : value ≤ i64Max) :
    (asU64 value : Int) = value := by
  unfold asU64
  have : value % 2 ^ 64 = value := Int.emod_eq_of_lt nonneg (by unfold i64Max at small; omega)
  omega

/-- `as i64` -/
def asI64 (value : Nat) : Int :=
  if value ≤ 9223372036854775807 then value else (value % 2 ^ 64 : Nat) - 2 ^ 64

/-- `SUM` of integers fails when it overflows. -/
def sqlSum (values : List Int) : Except ServerError Int :=
  if values.sum ≤ i64Max then .ok values.sum else .error (.db "integer overflow")

/-- `'-24 hours'`, in seconds. -/
def uploadLifetime : Int := 24 * 60 * 60

/-- `created_at < datetime('now', '-24 hours')` -/
def UploadRow.expired (now : Time) (row : UploadRow) : Bool :=
  decide (row.createdAt < now - uploadLifetime)

/-- `MAX_OPEN_UPLOADS` -/
def maxOpenUploads : Nat := 4

/-- What `create_upload` finds out before it creates a file. -/
inductive Admission
  | tooManyUploads
  | quotaExceeded (quotaBytes : Nat)
  | admitted (uploadId : String)

/-- What `read_upload` returns. -/
structure UploadView where
  hashClaimed : Hash
  sizeClaimed : Int
  receivedBytes : Int
  expired : Bool

/-- The row a change is stored as. -/
def PathChange.row (change : PathChange) (now : Time) (seq : Int) : PathRow :=
  { change with
    updatedAt := now
    seq := seq
    envJson := none }

namespace BlobDb

/-- The database after the migration, on given quotas. -/
def fresh (quotaBytes : Table String (Option Int)) : BlobDb where
  quotaBytes := quotaBytes
  blobs := ∅
  blobPathStates := ∅
  blobUploads := ∅
  blobSeq := 0

/-- The uploads of a vault that have not expired. -/
def openUploads (vault : VaultId) (now : Time) (db : BlobDb) : List UploadRow :=
  (db.blobUploads.entries.map Sigma.snd).filter fun row =>
    decide (row.vaultId = vault) && !row.expired now

/-- Sizes of the blobs of a vault. -/
def blobSizes (vault : VaultId) (db : BlobDb) : List Int :=
  (db.blobs.entries.filter fun entry => decide (entry.1.vault = vault)).map Sigma.snd

/-- The quota in force for a vault, zero for none. -/
def effectiveQuota (vault : VaultId) (defaultQuotaBytes : Nat) (db : BlobDb) : Nat :=
  match (db.quotaBytes.lookup vault.1).join with
  | some quota =>
      if quota = 0 then 0
      else if 0 < quota then asU64 quota
      else defaultQuotaBytes
  | none => defaultQuotaBytes

/-- Count, quota and upload id of `create_upload`, under one acquisition. -/
def admitUpload
    (vault : VaultId)
    (size : Nat)
    (defaultQuotaBytes : Nat)
    (now : Time)
    (uuid : String)
    (db : BlobDb) : Except ServerError Admission := do
  let uploads := db.openUploads vault now
  if maxOpenUploads ≤ uploads.length then
    return .tooManyUploads
  let effective := db.effectiveQuota vault defaultQuotaBytes
  if 0 < effective then
    let stored ← sqlSum (db.blobSizes vault)
    let inflight ← sqlSum (uploads.map fun row => row.sizeClaimed - row.receivedBytes)
    let projected := saturatingAdd (saturatingAdd (asU64 stored) (asU64 inflight)) size
    if effective < projected then
      return .quotaExceeded effective
  return .admitted uuid

/-- The row of an upload, if it belongs to the vault. -/
def upload (vault : VaultId) (uploadId : String) (db : BlobDb) : Option UploadRow :=
  (db.blobUploads.lookup uploadId).filter fun row => decide (row.vaultId = vault)

/-- `read_upload` -/
def readUpload
    (vault : VaultId)
    (uploadId : String)
    (now : Time)
    (db : BlobDb) : Option UploadView :=
  (db.upload vault uploadId).map fun row =>
    { hashClaimed := row.hashClaimed
      sizeClaimed := row.sizeClaimed
      receivedBytes := row.receivedBytes
      expired := row.expired now }

/-- `INSERT INTO blob_uploads` -/
def insertUpload
    (vault : VaultId)
    (uploadId : String)
    (hash : Hash)
    (size : Int)
    (now : Time)
    (db : BlobDb) : Except ServerError BlobDb :=
  match db.blobUploads.lookup uploadId with
  | some _ => .error (.db "UNIQUE constraint failed: blob_uploads.upload_id")
  | none =>
      .ok { db with
        blobUploads := db.blobUploads.insert uploadId
          { vaultId := vault
            hashClaimed := hash
            sizeClaimed := size
            receivedBytes := 0
            createdAt := now } }

/-- `DELETE FROM blob_uploads` of one upload. -/
def deleteUpload (vault : VaultId) (uploadId : String) (db : BlobDb) : BlobDb :=
  match db.upload vault uploadId with
  | some _ => { db with blobUploads := db.blobUploads.erase uploadId }
  | none => db

/-- `UPDATE blob_uploads SET received_bytes` of one upload. -/
def updateReceived
    (vault : VaultId)
    (uploadId : String)
    (next : Int)
    (db : BlobDb) : BlobDb :=
  match db.upload vault uploadId with
  | some row =>
      { db with
        blobUploads := db.blobUploads.insert uploadId { row with receivedBytes := next } }
  | none => db

/-- The expired uploads of all vaults. -/
def expiredUploads (now : Time) (db : BlobDb) : List (VaultId × String) :=
  (db.blobUploads.entries.filter fun entry => entry.2.expired now).map fun entry =>
    (entry.2.vaultId, entry.1)

/-- `INSERT OR IGNORE INTO blobs`, with the number of rows inserted. -/
def insertBlob (key : BlobKey) (size : Int) (db : BlobDb) : Nat × BlobDb :=
  match db.blobs.lookup key with
  | some _ => (0, db)
  | none => (1, { db with blobs := db.blobs.insert key size })

/-- The transaction of `post_blob_path`: the counter is incremented and the row
written.  An increment beyond `i64::MAX` is no integer and the transaction is
dropped. -/
def upsertPath
    (key : PathKey)
    (change : PathChange)
    (now : Time)
    (db : BlobDb) : Except ServerError (Int × BlobDb) :=
  if db.blobSeq < i64Max then
    .ok (db.blobSeq + 1,
      { db with
        blobSeq := db.blobSeq + 1
        blobPathStates :=
          db.blobPathStates.insert key (change.row now (db.blobSeq + 1)) })
  else
    .error (.db "Invalid column type Real at index: 0, name: value")

/-- The rows of a vault in `blob_path_states`. -/
def vaultPaths (vault : VaultId) (db : BlobDb) : List (String × PathRow) :=
  (db.blobPathStates.entries.filter fun entry => decide (entry.1.vault = vault)).map
    fun entry => (entry.1.key, entry.2)

/-- `COALESCE(MAX(seq), 0)` over a vault. -/
def maxSeq (vault : VaultId) (db : BlobDb) : Int :=
  (((db.vaultPaths vault).map fun entry => entry.2.seq).max?).getD 0

/-- The rows `list_blob_paths` returns. -/
def pathsSince
    (vault : VaultId)
    (sinceSeq : Int)
    (limit : Nat)
    (db : BlobDb) : List (String × PathRow) :=
  (((db.vaultPaths vault).filter fun entry => decide (sinceSeq < entry.2.seq)).insertionSort
    fun first second => first.2.seq ≤ second.2.seq).take limit

end BlobDb

/-! ## Calls -/

/-- The acquisitions of the database. -/
inductive BlobDbCall
  | blobExists (key : BlobKey)
  | blobSize (key : BlobKey)
  | admitUpload (vault : VaultId) (size : Nat)
  | insertUpload (vault : VaultId) (uploadId : String) (hash : Hash) (size : Int)
  | readUpload (vault : VaultId) (uploadId : String)
  | deleteUpload (vault : VaultId) (uploadId : String)
  | expiredUploads
  | uploadStillThere (vault : VaultId) (uploadId : String)
  | updateReceived (vault : VaultId) (uploadId : String) (next : Int)
  | insertBlob (key : BlobKey) (size : Int)
  | readPath (key : PathKey)
  | upsertPath (key : PathKey) (change : PathChange)
  | listPaths (vault : VaultId) (sinceSeq : Int) (limit : Nat)

/-- Reply of a call that succeeds. -/
abbrev BlobDbCall.Reply : BlobDbCall → Type
  | .blobExists _ => Bool
  | .blobSize _ => Option Int
  | .admitUpload _ _ => Admission
  | .insertUpload _ _ _ _ => Unit
  | .readUpload _ _ => Option UploadView
  | .deleteUpload _ _ => Unit
  | .expiredUploads => List (VaultId × String)
  | .uploadStillThere _ _ => Bool
  | .updateReceived _ _ _ => Unit
  | .insertBlob _ _ => Nat
  | .readPath _ => Option PathRow
  | .upsertPath _ _ => Int
  | .listPaths _ _ _ => Int × List (String × PathRow)

/-- Effect of a call at a time.  `uuid` is the id `Uuid::new_v4` would return. -/
def BlobDbCall.exec
    (defaultQuotaBytes : Nat)
    (now : Time)
    (uuid : String) :
    (call : BlobDbCall) → BlobDb → Except ServerError (call.Reply × BlobDb)
  | .blobExists key, db => .ok ((db.blobs.lookup key).isSome, db)
  | .blobSize key, db => .ok (db.blobs.lookup key, db)
  | .admitUpload vault size, db =>
      (db.admitUpload vault size defaultQuotaBytes now uuid).map fun admission =>
        (admission, db)
  | .insertUpload vault uploadId hash size, db =>
      (db.insertUpload vault uploadId hash size now).map fun db => ((), db)
  | .readUpload vault uploadId, db => .ok (db.readUpload vault uploadId now, db)
  | .deleteUpload vault uploadId, db => .ok ((), db.deleteUpload vault uploadId)
  | .expiredUploads, db => .ok (db.expiredUploads now, db)
  | .uploadStillThere vault uploadId, db =>
      .ok ((db.upload vault uploadId).isSome, db)
  | .updateReceived vault uploadId next, db =>
      .ok ((), db.updateReceived vault uploadId next)
  | .insertBlob key size, db => .ok (db.insertBlob key size)
  | .readPath key, db => .ok (db.blobPathStates.lookup key, db)
  | .upsertPath key change, db => db.upsertPath key change now
  | .listPaths vault sinceSeq limit, db =>
      .ok ((db.maxSeq vault, db.pathsSince vault sinceSeq limit), db)

end VaultCrdtServer
