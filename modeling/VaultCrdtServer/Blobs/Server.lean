import VaultCrdtServer.Blobs.Handlers
import VaultCrdtServer.Blobs.Reader
import VaultCrdtServer.Foundation.Disk
import VaultCrdtServer.Foundation.Interleaving

/-!
# The server of the blob lane

The state the blob handlers share, what each of their calls does to it, and the
requests as threads of a machine.  A request can be dropped whenever it waits;
its guard is released then, as it is when the request has been answered.

A file operation takes effect at once or fails.  A write that fails may have
written a part.  Upload ids are never drawn twice.

`requests`, `uploads`, `journal` and `answers` record what has happened.  No
program reads them.
-/

namespace VaultCrdtServer

open Interleaving

/-- What `create_upload` was asked for. -/
structure UploadClaim where
  vault : VaultId
  hash : Hash
  size : Int
  deriving DecidableEq

/-- The upload ids that have been drawn. -/
structure UploadLedger where
  /-- The request an id was drawn for. -/
  issued : String → Option Nat
  /-- The claim an id was inserted with. -/
  registered : String → Option UploadClaim

/-- A database call that has taken effect. -/
structure BlobEntry where
  /-- The request it was made for. -/
  origin : Nat
  now : Time
  call : BlobDbCall
  reply : call.Reply
  before : BlobDb
  after : BlobDb

/-- What a request is for. -/
inductive BlobTask
  | createUpload (vault : VaultId) (hash : String) (size : Int64)
  | getUpload (vault : VaultId) (uploadId : String)
  | putUpload (vault : VaultId) (uploadId : String) (request : PutRequest)
  | getBlob (vault : VaultId) (hash : String) (range : Option String)
  | postBlobPath (vault : VaultId) (body : BlobPathBody)
  | listBlobPaths (vault : VaultId) (sinceSeq limit : Int64)
  /-- The hourly cleanup. -/
  | sweep
  /-- A task of the document lane that holds a document lock. -/
  | holdLock (key : String)

/-- What a request ends with. -/
inductive BlobOutcome
  | response (result : Except ServerError Response)
  | swept (result : Except ServerError Nat)
  | held

/-- What the blob handlers share. -/
structure BlobServer where
  db : BlobDb
  disk : Disk FilePath UInt8
  /-- The request that holds a lock. -/
  docLocks : String → Option Nat
  /-- Every event sent on `broadcast_tx`, with its request, oldest first. -/
  channel : List (Nat × BlobPathChanged)
  readers : Nat → Option Reader
  /-- The requests so far; a request is known by its position. -/
  requests : List BlobTask
  uploads : UploadLedger
  /-- Every database call that took effect, oldest first. -/
  journal : List BlobEntry
  /-- Every request that has been answered, oldest first. -/
  answers : List (Nat × BlobOutcome)

/-- The libraries and settings the server runs with. -/
structure BlobSettings extends BlobLibraries where
  /-- `VAULTCRDT_DEFAULT_VAULT_QUOTA` -/
  defaultQuotaBytes : Nat

/-- What is left open when a call is executed. -/
structure BlobCircumstance where
  now : Time
  /-- SQLite fails. -/
  dbFault : Option ServerError
  /-- The file operation fails. -/
  ioFault : Option IoError
  /-- Bytes a failing write has written. -/
  written : Nat
  /-- The next `Uuid::new_v4`. -/
  uuid : String

namespace UploadLedger

/-- Nothing has been drawn. -/
def empty : UploadLedger where
  issued := fun _ => none
  registered := fun _ => none

/-- Record a database call of a request. -/
def record (request : Nat) (ledger : UploadLedger) :
    (call : BlobDbCall) → call.Reply → UploadLedger
  | .admitUpload _ _, .admitted uploadId =>
      { ledger with issued := Function.update ledger.issued uploadId (some request) }
  | .insertUpload vault uploadId hash size, _ =>
      { ledger with
        registered :=
          Function.update ledger.registered uploadId (some ⟨vault, hash, size⟩) }
  | _, _ => ledger

end UploadLedger

namespace BlobServer

/-- A server that has just been started on a database and a disk. -/
def started (db : BlobDb) (disk : Disk FilePath UInt8) : BlobServer where
  db := db
  disk := disk
  docLocks := fun _ => none
  channel := []
  readers := fun _ => none
  requests := []
  uploads := .empty
  journal := []
  answers := []

/-- A database call has taken effect. -/
def commit
    (request : Nat)
    (now : Time)
    (call : BlobDbCall)
    (reply : call.Reply)
    (db : BlobDb)
    (server : BlobServer) : BlobServer :=
  { server with
    db := db
    uploads := server.uploads.record request call reply
    journal := server.journal ++ [⟨request, now, call, reply, server.db, db⟩] }

/-- One acquisition of the database.  An id that has been drawn is not drawn
again. -/
def query
    (settings : BlobSettings)
    (request : Nat)
    (call : BlobDbCall)
    (circumstance : BlobCircumstance)
    (server : BlobServer) :
    Option (Except ServerError call.Reply × BlobServer) :=
  match circumstance.dbFault with
  | some error => some (.error error, server)
  | none =>
      if (server.uploads.issued circumstance.uuid).isSome then
        none
      else
        match call.exec settings.defaultQuotaBytes circumstance.now circumstance.uuid
            server.db with
        | .ok (reply, db) =>
            some (.ok reply, server.commit request circumstance.now call reply db)
        | .error error => some (.error error, server)

/-- Effect of a file operation that does not fail of itself. -/
def fileEffect (disk : Disk FilePath UInt8) :
    (call : FileCall) → Except IoError call.Reply × Disk FilePath UInt8
  | .createDirAll _ => (.ok (), disk)
  | .create path => (.ok (), (disk.create path).2)
  | .open path true =>
      let opened := disk.openOrCreate path
      (.ok ⟨opened.1, 0⟩, opened.2)
  | .open path false =>
      match disk.entry path with
      | some inode => (.ok ⟨inode, 0⟩, disk)
      | none => (.error .notFound, disk)
  | .seek file position => (.ok { file with position := position }, disk)
  | .writeAll file bytes =>
      (.ok (), disk.writeAt 0 file.inode file.position bytes)
  | .syncAll _ => (.ok (), disk)
  | .readExact file length =>
      let bytes := ((disk.contents file.inode).drop file.position).take length
      if bytes.length = length then
        (.ok bytes, disk)
      else
        (.error (.other "failed to fill whole buffer"), disk)
  | .read path =>
      match disk.read path with
      | some bytes => (.ok bytes, disk)
      | none => (.error .notFound, disk)
  | .length path =>
      match disk.read path with
      | some bytes => (.ok bytes.length, disk)
      | none => (.error .notFound, disk)
  | .tryExists path => (.ok (disk.entry path).isSome, disk)
  | .removeFile path =>
      match disk.entry path with
      | some _ => (.ok (), disk.remove path)
      | none => (.error .notFound, disk)
  | .rename source target =>
      match disk.entry source with
      | some _ => (.ok (), disk.rename source target)
      | none => (.error .notFound, disk)

/-- What a file operation leaves behind when it fails. -/
def fileFault (written : Nat) (disk : Disk FilePath UInt8) :
    FileCall → Disk FilePath UInt8
  | .writeAll file bytes =>
      disk.writeAt 0 file.inode file.position (bytes.take written)
  | _ => disk

/-- One file operation. -/
def operate
    (call : FileCall)
    (circumstance : BlobCircumstance)
    (server : BlobServer) : Except IoError call.Reply × BlobServer :=
  match circumstance.ioFault with
  | some error =>
      (.error error,
        { server with disk := fileFault circumstance.written server.disk call })
  | none =>
      let result := fileEffect server.disk call
      (result.1, { server with disk := result.2 })

/-- One call of a request, or `none` while it waits. -/
def exec
    (settings : BlobSettings)
    (request : Nat) :
    (call : BlobCall) → BlobCircumstance → BlobServer →
      Option (blobSignature.Reply call × BlobServer)
  | .db call, circumstance, server => server.query settings request call circumstance
  | .file call, circumstance, server => some (server.operate call circumstance)
  | .lock key, _, server =>
      match server.docLocks key with
      | none =>
          some ((), { server with
            docLocks := Function.update server.docLocks key (some request) })
      | some _ => none
  | .publish event, _, server =>
      some ((), { server with channel := server.channel ++ [(request, event)] })

/-- The guards of a request are dropped. -/
def release (request : Nat) (server : BlobServer) : BlobServer :=
  { server with
    docLocks := fun key =>
      if server.docLocks key = some request then none else server.docLocks key }

end BlobServer

/-- What happens besides the requests' programs. -/
inductive BlobEvent
  /-- `vault quota` of the operator CLI. -/
  | setQuota (vault : VaultId) (quotaBytes : Option Int)
  /-- A client begins to follow a vault's path states. -/
  | follow (reader : Nat) (vault : VaultId)
  /-- A client asks for its next page: the request is the one it sends. -/
  | ask (reader request : Nat)
  /-- A client receives the page it has asked for. -/
  | receive (reader : Nat)
  /-- A client does without an answer that has failed or got lost. -/
  | giveUp (reader : Nat)

/-- The request is for the next page of a reader, with a limit it may use. -/
def Reader.asks (reader : Reader) : BlobTask → Bool
  | .listBlobPaths vault sinceSeq limit =>
      decide (vault = reader.vault ∧ sinceSeq.toInt = reader.position ∧
        1 ≤ limit.toInt ∧ limit.toInt ≤ 1000)
  | _ => false

/-- The page a request was answered with, and the limit it asked for. -/
def BlobServer.pageOf (request : Nat) (server : BlobServer) : Option (Nat × Page) :=
  match server.requests[request]?, server.answers.lookup request with
  | some (.listBlobPaths _ _ limit), some (.response (.ok (.pathStates rows maxSeq))) =>
      some (limit.toInt.toNat, (maxSeq, rows))
  | _, _ => none

/-- The state of a reader changes. -/
def BlobServer.setReader (reader : Nat) (state : Reader) (server : BlobServer) : BlobServer :=
  { server with readers := Function.update server.readers reader (some state) }

/-- Effect of an event. -/
def BlobServer.environment : BlobEvent → BlobServer → Option BlobServer
  | .setQuota vault quotaBytes, server =>
      match server.db.quotaBytes.lookup vault.1 with
      | some _ =>
          some { server with
            db := { server.db with
              quotaBytes := server.db.quotaBytes.insert vault.1 quotaBytes } }
      | none => none
  | .follow reader vault, server =>
      match server.readers reader with
      | some _ => none
      | none => some (server.setReader reader (.new vault))
  | .ask reader request, server => do
      let state ← server.readers reader
      let task ← server.requests[request]?
      -- The request has not read anything yet, so that its page is read after
      -- the client has applied the one before.
      if state.awaiting = none ∧ state.asks task = true ∧
          ∀ entry ∈ server.journal, entry.origin ≠ request then
        some (server.setReader reader { state with awaiting := some request })
      else
        none
  | .receive reader, server => do
      let state ← server.readers reader
      let request ← state.awaiting
      let (limit, page) ← server.pageOf request
      some (server.setReader reader (state.apply limit page))
  | .giveUp reader, server => do
      let state ← server.readers reader
      some (server.setReader reader { state with awaiting := none })

/-- The program of a request. -/
def blobProgram (settings : BlobSettings) : BlobTask → Program blobSignature BlobOutcome
  | .createUpload vault hash size =>
      (createUpload vault hash size).run.bind fun result => .done (.response result)
  | .getUpload vault uploadId =>
      (getUpload vault uploadId).run.bind fun result => .done (.response result)
  | .putUpload vault uploadId request =>
      (putUpload settings.toBlobLibraries vault uploadId request).run.bind fun result =>
        .done (.response result)
  | .getBlob vault hash range =>
      (getBlob vault hash range).run.bind fun result => .done (.response result)
  | .postBlobPath vault body =>
      (postBlobPath settings.toBlobLibraries vault body).run.bind fun result =>
        .done (.response result)
  | .listBlobPaths vault sinceSeq limit =>
      (listBlobPaths vault sinceSeq limit).run.bind fun result => .done (.response result)
  | .sweep => sweepExpiredUploads.run.bind fun result => .done (.swept result)
  | .holdLock key => .call (.lock key) fun _ => .done .held

section Machine

variable (settings : BlobSettings)

/-- A request starts with the next number. -/
def BlobServer.start
    (request : Nat)
    (task : BlobTask)
    (server : BlobServer) : Option (Program blobSignature BlobOutcome × BlobServer) :=
  if request = server.requests.length then
    some (blobProgram settings task, { server with requests := server.requests ++ [task] })
  else
    none

/-- The server as a machine whose threads are the requests. -/
def blobMachine : Machine blobSignature BlobServer where
  Choice := BlobCircumstance
  exec := BlobServer.exec settings
  Event := BlobEvent
  environment := BlobServer.environment
  Task := BlobTask
  Outcome := BlobOutcome
  start := BlobServer.start settings
  finish := fun request outcome server =>
    { server.release request with answers := server.answers ++ [(request, outcome)] }
  abandon := BlobServer.release

/-- No request has been made. -/
def blobConfig (db : BlobDb) (disk : Disk FilePath UInt8) : (blobMachine settings).Config where
  shared := BlobServer.started db disk
  thread := fun _ => none

/-- The configuration is reached from a freshly migrated database and an empty
blob directory. -/
def BlobReachable
    (quotaBytes : Table String (Option Int))
    (config : (blobMachine settings).Config) : Prop :=
  ∃ labels, (blobMachine settings).run labels
    (blobConfig settings (.fresh quotaBytes) .empty) = some config

end Machine

end VaultCrdtServer
