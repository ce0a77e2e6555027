import VaultCrdtServer.Msg

/-!
# Message handlers

The handlers of `src/handlers.rs` as programs.  Every `.await` of the source is
a call; what lies between two of them is computed at once.  `?` is the error
case of `ExceptT`.
-/

namespace VaultCrdtServer

open Interleaving

variable {Blob : Type}

/-- An asynchronous function that may fail. -/
abbrev Handler (Blob α : Type) :=
  ExceptT ServerError (Program (serverSignature Blob)) α

/-- One acquisition of the database. -/
def dbCall (call : DbCall Blob) : Handler Blob call.Reply :=
  ExceptT.mk (Program.perform (S := serverSignature Blob) (.db call))

/-- A computation without `.await`. -/
def ofExcept {α : Type} (result : Except ServerError α) : Handler Blob α :=
  ExceptT.mk (.done result)

/-- `DocLocks::lock_key` -/
def lockKey (path : DocPath) : String := path.vault ++ ":" ++ path.doc

/-- Run a block under the lock of a path.  The guard lives until the block's
result is there, whether it is a value or an error. -/
def withLock {α : Type}
    (path : DocPath)
    (block : Handler Blob α) : Handler Blob α :=
  ExceptT.mk do
    Program.perform (S := serverSignature Blob) (.lock (lockKey path))
    let result ← block.run
    Program.perform (S := serverSignature Blob) (.unlock (lockKey path))
    return result

/-- Response of a handler and the event to broadcast. -/
abbrev Answer (Blob : Type) := ServerMsg Blob × Option (BroadcastEvent Blob)

/-- `VersionVector::is_empty` -/
def VersionVector.isEmpty (vv : VersionVector) : Bool :=
  decide (vv.keys = ∅)

/-- Run a Loro function, labelling its error. -/
def labelled {α : Type}
    (label : String)
    (result : Except String α) : Except ServerError α :=
  match result with
  | .ok value => .ok value
  | .error reason => .error (.sync s!"loro {label}: {reason}")

/-- What a write stores. -/
structure Merged (Blob : Type) where
  /-- The exported snapshot. -/
  snapshot : Blob
  /-- The version vector after the import. -/
  vv : VersionVector

/-- Import the stored snapshot, if any, then the incoming blob, and export the
result. -/
def mergeSnapshot
    (loro : Loro Blob)
    (label : String)
    (base : Option Blob)
    (incoming : Blob) : Except ServerError (Merged Blob) := do
  let doc ← match base with
    | some snapshot =>
        labelled "import existing" (loro.importBlob loro.new snapshot)
    | none => .ok loro.new
  let doc ← labelled label (loro.importBlob doc incoming)
  let snapshot ← labelled "export snapshot" (loro.exportSnapshot doc)
  .ok { snapshot := snapshot, vv := loro.oplogVv doc }

/-! ## SyncStart -/

/-- `handle_sync_start` -/
def handleSyncStart
    (libraries : Libraries Blob)
    (path : DocPath)
    (clientVvBytes : Option Bytes) : Handler Blob (Answer Blob) := do
  let existing ← dbCall (.getSnapshotWithIncarnation path)
  match existing with
  | none => return (.docUnknown path.doc, none)
  | some (snapshotBlob, incarnation) =>
      let doc ← ofExcept (labelled "import existing"
        (libraries.loro.importBlob libraries.loro.new snapshotBlob))
      let serverVv := vvToJsonBytes libraries.json (libraries.loro.oplogVv doc)
      match clientVvBytes with
      | some vvBytes =>
          let clientVv ← ofExcept (vvFromJsonBytes libraries.json vvBytes)
          let delta ← ofExcept (labelled "export delta"
            (libraries.loro.exportUpdates doc clientVv))
          return (.syncDelta path.doc delta serverVv (some incarnation), none)
      | none =>
          return (.syncDelta path.doc snapshotBlob serverVv (some incarnation),
            none)

/-! ## SyncPush -/

/-- The delta shares no history with the stored version vector: its first
changes have no dependencies although something is stored.  A stored vector
that does not decode counts as disjoint. -/
def disjointDelta
    (loro : Loro Blob)
    (existing : Option (Blob × Blob))
    (delta : Blob) : Except ServerError Bool :=
  match existing with
  | none => .ok false
  | some (_, existingVvBlob) =>
      match loro.decodeVv existingVvBlob with
      | .ok storedVv => do
          let info ← labelled "decode client delta"
            (loro.decodeImportBlobMeta delta)
          .ok (!VersionVector.isEmpty storedVv && decide (0 < info.changeNum) &&
            info.startFrontiers.isEmpty)
      | .error _ => .ok true

/-- `handle_sync_push` -/
def handleSyncPush
    (libraries : Libraries Blob)
    (path : DocPath)
    (delta : Blob)
    (peerId : String)
    (connId : Nat) : Handler Blob (Answer Blob) := do
  let existing ← dbCall (.getSnapshotWithVv path)
  let tombstoned ←
    (if existing.isNone then dbCall (.isTombstoned path) else pure false)
  if tombstoned then
    return (.docTombstoned path.doc, none)
  else
    let disjoint ← ofExcept (disjointDelta libraries.loro existing delta)
    if disjoint then
      return (.createConflict path.doc, none)
    else
      let merged ← ofExcept (mergeSnapshot libraries.loro "import client delta"
        (existing.map Prod.fst) delta)
      let token ← dbCall (.storeSnapshotWithVv path merged.snapshot
        (libraries.loro.encodeVv merged.vv))
      let incarnation := if existing.isNone then some token else none
      return (.ack incarnation none,
        some (.delta path.vault path.doc delta peerId connId
          (vvToJsonBytes libraries.json merged.vv) incarnation))

/-! ## DocCreate -/

/-- The snapshot shares no peer with the stored version vector.  The incoming
vector is that of a probe import into an empty document. -/
def disjointSnapshot
    (loro : Loro Blob)
    (existing : Option (Blob × Blob))
    (snapshot : Blob) : Except ServerError Bool :=
  match existing with
  | none => .ok false
  | some (_, existingVvBlob) =>
      match loro.decodeVv existingVvBlob with
      | .ok storedVv => do
          let probe ← labelled "import client snapshot"
            (loro.importBlob loro.new snapshot)
          let incomingVv := loro.oplogVv probe
          .ok (!VersionVector.isEmpty storedVv &&
            !VersionVector.isEmpty incomingVv &&
            !decide (∃ peer ∈ storedVv.keys, (incomingVv.lookup peer).isSome))
      | .error _ => .ok true

/-- `handle_doc_create` -/
def handleDocCreate
    (libraries : Libraries Blob)
    (path : DocPath)
    (snapshot : Blob)
    (peerId : String)
    (connId : Nat)
    (replaceTombstone : Bool) : Handler Blob (Answer Blob) := do
  let existing ← dbCall (.getSnapshotWithVv path)
  let wasTombstoned ←
    (if existing.isNone then dbCall (.isTombstoned path) else pure false)
  if wasTombstoned && !replaceTombstone then
    return (.docTombstoned path.doc, none)
  else
    let effectiveReplace := wasTombstoned && replaceTombstone
    let clearStaleTombstone ←
      (if replaceTombstone && !wasTombstoned && existing.isSome then
        dbCall (.isTombstoned path)
      else
        pure false)
    let disjoint ←
      (if effectiveReplace then
        pure false
      else
        ofExcept (disjointSnapshot libraries.loro existing snapshot))
    if disjoint then
      return (.createConflict path.doc, none)
    else
      let base := if effectiveReplace then none else existing.map Prod.fst
      let merged ← ofExcept (mergeSnapshot libraries.loro
        "import client snapshot" base snapshot)
      let vvBlob := libraries.loro.encodeVv merged.vv
      let token : Int ←
        (if effectiveReplace || clearStaleTombstone then
          dbCall (.storeSnapshotReplacingTombstone path merged.snapshot vvBlob)
        else
          dbCall (.storeSnapshotWithVv path merged.snapshot vvBlob))
      let incarnation :=
        if existing.isNone || effectiveReplace || clearStaleTombstone then
          some token
        else
          none
      return (.ack incarnation none,
        some (.delta path.vault path.doc snapshot peerId connId
          (vvToJsonBytes libraries.json merged.vv) incarnation))

/-! ## Dispatch -/

/-- `MAX_DOC_UUID_BYTES` -/
def maxDocUuidBytes : Nat := 1024

/-- `MAX_PEER_ID_BYTES` -/
def maxPeerIdBytes : Nat := 128

/-- `MAX_REQUEST_ID_BYTES` -/
def maxRequestIdBytes : Nat := 128

/-- `check_len` -/
def checkLen
    (field value : String)
    (limit : Nat) : Except ServerError Unit :=
  if limit < value.utf8ByteSize then
    .error (.badFrame s!"{field} too long")
  else
    .ok ()

/-- `check_len` on an identifier that may be absent. -/
def checkLenOptional
    (field : String)
    (value : Option String)
    (limit : Nat) : Except ServerError Unit :=
  match value with
  | some value => checkLen field value limit
  | none => .ok ()

/-- The identifier caps at the head of `process_inner`. -/
def checkIdentifiers : ClientMsg Blob → Except ServerError Unit
  | .syncStart docUuid _ => checkLen "doc_uuid" docUuid maxDocUuidBytes
  | .syncPush docUuid _ peerId requestId
  | .docCreate docUuid _ peerId _ requestId => do
      checkLen "doc_uuid" docUuid maxDocUuidBytes
      checkLen "peer_id" peerId maxPeerIdBytes
      checkLenOptional "request_id" requestId maxRequestIdBytes
  | .docDelete docUuid peerId _ intentId requestId => do
      checkLen "doc_uuid" docUuid maxDocUuidBytes
      checkLen "peer_id" peerId maxPeerIdBytes
      checkLenOptional "request_id" requestId maxRequestIdBytes
      checkLenOptional "intent_id" intentId maxRequestIdBytes
  | _ => .ok ()

/-- The `DocDelete` arm of `process_inner`, under the document's lock. -/
def handleDocDelete
    (path : DocPath)
    (peerId : String)
    (connId : Nat)
    (expectedIncarnation : Option Int)
    (intentId requestId : Option String) : Handler Blob (Answer Blob) := do
  let outcome ← dbCall (.deleteDocGuarded path peerId expectedIncarnation)
  match outcome with
  | .deleted contentHash _ | .idempotentNoLive contentHash =>
      return (.ack none requestId,
        some (.delete path.vault path.doc connId contentHash))
  | .rejected _ => return (.deleteRejected path.doc intentId requestId, none)

/-- `process_inner` -/
def processInner
    (libraries : Libraries Blob)
    (msg : ClientMsg Blob)
    (vaultId : String)
    (connId : Nat) : Handler Blob (Answer Blob) := do
  ofExcept (checkIdentifiers msg)
  match msg with
  | .auth .. => ofExcept (.error (.badFrame "unexpected auth frame"))
  | .ping => return (.pong, none)
  | .requestDocList =>
      let docs ← dbCall (.listDocsWithVv vaultId)
      let tombstones ← dbCall (.listTombstones vaultId)
      let tombstoneHashes ← dbCall (.listTombstonesWithHash vaultId)
      return (.docList docs tombstones tombstoneHashes, none)
  | .syncStart docUuid clientVv =>
      handleSyncStart libraries ⟨vaultId, docUuid⟩ clientVv
  | .syncPush docUuid delta peerId _ =>
      withLock ⟨vaultId, docUuid⟩
        (handleSyncPush libraries ⟨vaultId, docUuid⟩ delta peerId connId)
  | .docCreate docUuid snapshot peerId replaceTombstone _ =>
      withLock ⟨vaultId, docUuid⟩
        (handleDocCreate libraries ⟨vaultId, docUuid⟩ snapshot peerId connId
          replaceTombstone)
  | .docDelete docUuid peerId expectedIncarnation intentId requestId =>
      withLock ⟨vaultId, docUuid⟩
        (handleDocDelete ⟨vaultId, docUuid⟩ peerId connId expectedIncarnation
          intentId requestId)

/-- The `request_id` a frame carries. -/
def requestIdOf : Except String (ClientMsg Blob) → Option String
  | .ok (.syncPush _ _ _ requestId)
  | .ok (.docCreate _ _ _ _ requestId)
  | .ok (.docDelete _ _ _ _ requestId) => requestId
  | _ => none

/-- Echo the request's id in an `Ack`, or report the error to the client. -/
def finishAnswer
    (requestId : Option String) :
    Except ServerError (Answer Blob) → Answer Blob
  | .ok (.ack incarnation _, broadcast) =>
      (.ack incarnation requestId, broadcast)
  | .ok answer => answer
  | .error error =>
      (.error error.clientFacing.1 error.clientFacing.2 requestId, none)

/-- `process_message` -/
def processMessage
    (libraries : Libraries Blob)
    (frame : Frame Blob)
    (vaultId : String)
    (connId : Nat) : Program (serverSignature Blob) (Answer Blob) := do
  let result ← (match frame.decoded with
    | .ok msg => (processInner libraries msg vaultId connId).run
    | .error reason => pure (.error (.badFrame s!"invalid msgpack: {reason}")))
  return finishAnswer (requestIdOf frame.decoded) result

end VaultCrdtServer
