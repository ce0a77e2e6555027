import VaultCrdtServer.Db

/-!
# Vaults, invites and device keys

The tables behind authentication and onboarding, beside those of the document
lane, and the statements of `src/db.rs`, `src/invites.rs` and `src/lib.rs` on
them.  A statement that commits by itself is one call, and so is a transaction.
A call that fails leaves the database as it was.

The housekeeping and the insertion of `mint_invite` are two calls: the commands
of the operator run in a process of their own, so the lock of the server's
connection does not keep them together.
-/

namespace VaultCrdtServer

/-- A row of `invites`. -/
structure InviteRow where
  vaultId : String
  tokenHash : String
  inviterPeerId : String
  deviceName : Option String
  createdAt : Time
  expiresAt : Time
  usedAt : Option Time
  deriving DecidableEq

/-- A row of `device_keys`. -/
structure DeviceKeyRow where
  keyHash : String
  deviceName : Option String
  createdAt : Time
  revokedAt : Option Time
  deriving DecidableEq

/-- The document lane's tables and those of this lane. -/
structure AccessDb (Blob : Type) extends Db Blob where
  /-- `api_key` of each vault. -/
  vaults : Table String String
  invites : Table Int InviteRow
  /-- The last `id` of `invites`, as `sqlite_sequence` keeps it. -/
  inviteSeq : Int
  deviceKeys : Table PeerKey DeviceKeyRow

/-- The libraries the server is linked with. -/
structure AccessLibraries (Blob : Type) extends Libraries Blob where
  /-- `sha2::Sha256`, as lowercase hexadecimal digits. -/
  sha256Hex : String → String
  /-- `hash_password` of Argon2id: the PHC string for a salt and a password. -/
  hashPassword : String → String → Except String String
  /-- `verify_password` of a password against what `PasswordHash::new` parses. -/
  verifyPassword : String → String → Bool

section Secrets

variable {Blob : Type} (libraries : AccessLibraries Blob)

/-- `hash_secret` -/
def hashSecret (salt plaintext : String) : Except ServerError String :=
  match libraries.hashPassword salt plaintext with
  | .ok stored => .ok stored
  | .error reason => .error (.auth s!"hash error: {reason}")

/-- The stored value is a PHC string. -/
def startsWithArgon2 (stored : String) : Bool :=
  "$argon2".toList.isPrefixOf stored.toList

/-- `verify_secret` -/
def verifySecret (plaintext stored : String) : Bool :=
  if startsWithArgon2 stored then
    libraries.verifyPassword plaintext stored
  else
    stored == plaintext

end Secrets

/-- `length` of SQLite, which counts the characters before the first NUL. -/
def sqlLength (text : String) : Nat :=
  (text.toList.takeWhile fun char => char ≠ Char.ofNat 0).length

/-- A `CHECK (length(…) > 0)` of each of the columns. -/
def checkLengths (columns : List String) : Except ServerError Unit :=
  if columns.all fun column => 0 < sqlLength column then
    .ok ()
  else
    .error (.db "CHECK constraint failed")

/-- Outcome of the transaction that redeems an invite. -/
inductive RedeemOutcome
  | consumed
  | alreadyUsed
  | expired
  deriving DecidableEq

namespace AccessDb

variable {Blob : Type}

/-! ## Vaults -/

/-- `vault_exists` -/
def vaultExists (vaultId : String) (db : AccessDb Blob) : Bool :=
  (db.vaults.lookup vaultId).isSome

/-- `INSERT OR IGNORE INTO vaults`, and whether a row was inserted. -/
def insertVault
    (vaultId apiKey : String)
    (db : AccessDb Blob) : Bool × AccessDb Blob :=
  match db.vaults.lookup vaultId with
  | some _ => (false, db)
  | none => (true, { db with vaults := db.vaults.insert vaultId apiKey })

/-- `UPDATE vaults SET api_key` -/
def updateApiKey
    (vaultId apiKey : String)
    (db : AccessDb Blob) : AccessDb Blob :=
  match db.vaults.lookup vaultId with
  | some _ => { db with vaults := db.vaults.insert vaultId apiKey }
  | none => db

/-! ## Invites -/

/-- The invites of the last day are kept. -/
def clearInvites (now : Time) (db : AccessDb Blob) : AccessDb Blob :=
  { db with
    invites := db.invites.deleteWhere fun _ row =>
      (Db.daysBefore now 1).any fun limit => row.createdAt < limit }

/-- `INSERT INTO invites`: the next id, and fifteen minutes to redeem it. -/
def insertInvite
    (now : Time)
    (vaultId tokenHash inviterPeerId : String)
    (deviceName : Option String)
    (db : AccessDb Blob) : Except ServerError (Time × AccessDb Blob) := do
  checkLengths [vaultId, tokenHash, inviterPeerId]
  if db.inviteSeq < i64Max then
    .ok (now + 900,
      { db with
        inviteSeq := db.inviteSeq + 1
        invites := db.invites.insert (db.inviteSeq + 1)
          { vaultId := vaultId
            tokenHash := tokenHash
            inviterPeerId := inviterPeerId
            deviceName := deviceName
            createdAt := now
            expiresAt := now + 900
            usedAt := none } })
  else
    .error (.db "database or disk is full")

/-- The invites of the last day, in the order of their ids. -/
def listInvites (now : Time) (db : AccessDb Blob) : List (Int × String × String) :=
  (db.invites.select
    (fun _ row => (Db.daysBefore now 1).any fun limit => limit < row.createdAt)
    id).map fun (id, row) => (id, row.vaultId, row.tokenHash)

/-- `INSERT INTO device_keys` -/
def insertDeviceKey
    (now : Time)
    (key : PeerKey)
    (keyHash deviceName : String)
    (db : AccessDb Blob) : Except ServerError (AccessDb Blob) := do
  checkLengths [key.vault, key.peer, keyHash]
  match db.deviceKeys.lookup key with
  | some _ =>
      .error (.db "UNIQUE constraint failed: device_keys.vault_id, device_keys.peer_id")
  | none =>
      .ok { db with
        deviceKeys := db.deviceKeys.insert key
          { keyHash := keyHash
            deviceName := some deviceName
            createdAt := now
            revokedAt := none } }

/-- The transaction of `redeem`: mark the invite as used and insert the key, or
tell why the invite cannot be used. -/
def redeemInvite
    (now : Time)
    (id : Int)
    (key : PeerKey)
    (keyHash deviceName : String)
    (db : AccessDb Blob) : Except ServerError (RedeemOutcome × AccessDb Blob) :=
  match db.invites.lookup id with
  | none => .error (.db "Query returned no rows")
  | some row =>
      if row.usedAt = none ∧ now < row.expiresAt then do
        let db ← insertDeviceKey now key keyHash deviceName
          { db with invites := db.invites.insert id { row with usedAt := some now } }
        .ok (.consumed, db)
      else if row.usedAt.isSome then
        .ok (.alreadyUsed, db)
      else
        .ok (.expired, db)

/-! ## Device keys and peers -/

/-- `key_hash` of a key that is not revoked. -/
def keyHash (key : PeerKey) (db : AccessDb Blob) : Option String :=
  ((db.deviceKeys.lookup key).filter fun row => row.revokedAt.isNone).map
    DeviceKeyRow.keyHash

/-- `ensure_not_revoked` -/
def ensureNotRevoked (key : PeerKey) (db : AccessDb Blob) : Bool :=
  (db.deviceKeys.lookup key).any fun row => row.revokedAt.isNone

/-- `count_peer_blocked_tombstones` -/
def countPeerBlockedTombstones
    (vaultId : String)
    (lastSeenAt : Time)
    (db : AccessDb Blob) : Nat :=
  db.tombstones.entries.countP fun entry =>
    entry.1.vault = vaultId && decide (lastSeenAt ≤ entry.2.deletedAt)

/-- The transaction of `retire_peer_handler`: the key is revoked and the peer
deleted. -/
def retirePeer (now : Time) (key : PeerKey) (db : AccessDb Blob) : AccessDb Blob :=
  { db with
    deviceKeys := match db.deviceKeys.lookup key with
      | some row => db.deviceKeys.insert key { row with revokedAt := some now }
      | none => db.deviceKeys
    peers := db.peers.erase key }

end AccessDb

/-! ## Calls -/

/-- The calls of this lane, one acquisition of the database each. -/
inductive AccessDbCall (Blob : Type)
  | vaultExists (vaultId : String)
  | insertVault (vaultId apiKey : String)
  | getApiKey (vaultId : String)
  | updateApiKey (vaultId apiKey : String)
  | clearInvites
  | insertInvite
      (vaultId invite inviterPeerId : String)
      (deviceName : Option String)
  | listInvites
  | redeemInvite (id : Int) (key : PeerKey) (keyHash deviceName : String)
  | getKeyHash (key : PeerKey)
  | ensureNotRevoked (key : PeerKey)
  | getPeer (key : PeerKey)
  | countPeerBlockedTombstones (vaultId : String) (lastSeenAt : Time)
  | retirePeer (key : PeerKey)
  | upsertPeer (key : PeerKey) (deviceName : String)

namespace AccessDbCall

variable {Blob : Type}

/-- What a call returns. -/
@[reducible] def Reply : AccessDbCall Blob → Type
  | .vaultExists _ => Bool
  | .insertVault .. => Bool
  | .getApiKey _ => Option String
  | .updateApiKey .. => Unit
  | .clearInvites => Unit
  | .insertInvite .. => Time
  | .listInvites => List (Int × String × String)
  | .redeemInvite .. => RedeemOutcome
  | .getKeyHash _ => Option String
  | .ensureNotRevoked _ => Bool
  | .getPeer _ => Option PeerRow
  | .countPeerBlockedTombstones .. => Nat
  | .retirePeer _ => Unit
  | .upsertPeer .. => Unit

/-- Effect of a call whose statements do not fail of themselves. -/
def exec (libraries : AccessLibraries Blob) (now : Time) :
    (call : AccessDbCall Blob) → AccessDb Blob →
      Except ServerError (call.Reply × AccessDb Blob)
  | .vaultExists vaultId, db => .ok (db.vaultExists vaultId, db)
  | .insertVault vaultId apiKey, db => .ok (db.insertVault vaultId apiKey)
  | .getApiKey vaultId, db => .ok (db.vaults.lookup vaultId, db)
  | .updateApiKey vaultId apiKey, db => .ok ((), db.updateApiKey vaultId apiKey)
  | .clearInvites, db => .ok ((), db.clearInvites now)
  | .insertInvite vaultId invite inviterPeerId deviceName, db =>
      db.insertInvite now vaultId (libraries.sha256Hex invite) inviterPeerId deviceName
  | .listInvites, db => .ok (db.listInvites now, db)
  | .redeemInvite id key keyHash deviceName, db =>
      db.redeemInvite now id key keyHash deviceName
  | .getKeyHash key, db => .ok (db.keyHash key, db)
  | .ensureNotRevoked key, db => .ok (db.ensureNotRevoked key, db)
  | .getPeer key, db => .ok (db.peers.lookup key, db)
  | .countPeerBlockedTombstones vaultId lastSeenAt, db =>
      .ok (db.countPeerBlockedTombstones vaultId lastSeenAt, db)
  | .retirePeer key, db => .ok ((), db.retirePeer now key)
  | .upsertPeer key deviceName, db =>
      .ok ((), { db with toDb := db.upsertPeer now key deviceName })

/-- One call, which may fail of itself. -/
def perform
    (libraries : AccessLibraries Blob)
    (now : Time)
    (fault : Option ServerError)
    (call : AccessDbCall Blob)
    (db : AccessDb Blob) : Except ServerError call.Reply × AccessDb Blob :=
  match fault with
  | some error => (.error error, db)
  | none =>
      match call.exec libraries now db with
      | .ok (reply, db') => (.ok reply, db')
      | .error error => (.error error, db)

end AccessDbCall

end VaultCrdtServer
