import VaultCrdtServer.Blobs.UploadRuns
import VaultCrdtServer.Foundation.Composition
import VaultCrdtServer.Foundation.Pieces

/-!
# Progress of an upload

A PUT counts its segment by moving `received_bytes` past it.  The segments that
have been counted are read off the journal, and what they amount to is what the
staged file starts with.  The lock of the claimed hash protects the row, the
counter and the staged file of an upload that misses bytes, as long as it is not
discarded.
-/

namespace VaultCrdtServer

open Interleaving

/-! ## Segments -/

/-- The segment of a PUT, at the offset its header names. -/
def PutRequest.piece (put : PutRequest) : Option (Piece UInt8) :=
  match put.contentRange.bind parseContentRange, bufferBody put.chunks [] with
  | some range, .ok (some segment) => some ⟨range.first, segment⟩
  | _, _ => none

/-- The segment a request sends. -/
def BlobTask.piece : BlobTask → Option (Piece UInt8)
  | .putUpload _ _ put => put.piece
  | _ => none

/-- A segment that has been counted, with its request. -/
structure CountedPiece where
  origin : Nat
  piece : Piece UInt8
  deriving DecidableEq

/-- The segment a call has counted: an update that found the upload. -/
def BlobEntry.countedPiece
    (requests : List BlobTask)
    (uploadId : String)
    (entry : BlobEntry) : Option CountedPiece :=
  match entry.call with
  | .updateReceived vault uploadId' _ =>
      if uploadId' = uploadId ∧ (entry.before.upload vault uploadId).isSome then
        ((requests[entry.origin]?).bind BlobTask.piece).map (CountedPiece.mk entry.origin)
      else
        none
  | _ => none

namespace BlobServer

variable (uploadId : String) (request : Nat) (server server' : BlobServer)

/-- The segments of an upload that have been counted, oldest first. -/
def countedPieces : List CountedPiece :=
  server.journal.filterMap (BlobEntry.countedPiece server.requests uploadId)

/-- The same without their requests. -/
def pieces : List (Piece UInt8) := (server.countedPieces uploadId).map CountedPiece.piece

/-- A request has counted its segment. -/
def Counted : Prop :=
  ∃ entry ∈ server.entriesOf request,
    (entry.countedPiece server.requests uploadId).isSome = true

/-- While an upload misses bytes, neither its row nor its staged file goes away. -/
def KeepsUpload : Prop :=
  match server.db.blobUploads.lookup uploadId with
  | some row =>
      row.receivedBytes < row.sizeClaimed →
        (server'.db.blobUploads.lookup uploadId).isSome = true ∧
          ((server.disk.entry (tmpFilePath uploadId)).isSome = true →
            (server'.disk.entry (tmpFilePath uploadId)).isSome = true)
  | none => True

instance : Decidable (KeepsUpload uploadId server server') := by
  unfold KeepsUpload
  split <;> infer_instance

/-- A call has been made at a time at which the upload had expired. -/
def Outlived : Prop :=
  ∀ row, server.db.blobUploads.lookup uploadId = some row →
    ∃ entry ∈ server.journal, row.expired entry.now = true

/-- The upload misses no bytes or has been seen expired. -/
def Removable : Prop :=
  ∀ row, server.db.blobUploads.lookup uploadId = some row →
    row.receivedBytes = row.sizeClaimed ∨
      ∃ entry ∈ server.journal, row.expired entry.now = true

end BlobServer

/-- The step does not discard the upload. -/
abbrev Undiscarded (settings : BlobSettings) (uploadId : String) :
    (blobMachine settings).Label → (blobMachine settings).Config → Prop :=
  Machine.Respects (BlobServer.KeepsUpload uploadId)

/-- What has been received of an upload. -/
structure Progress (uploadId : String) (server : BlobServer) : Prop where
  unregistered : server.uploads.registered uploadId = none → server.countedPieces uploadId = []
  tiles : Piece.Tiles 0 (server.pieces uploadId)
    (Piece.assemble (server.pieces uploadId)).length
  received : ∀ row, server.db.blobUploads.lookup uploadId = some row →
    row.receivedBytes = (Piece.assemble (server.pieces uploadId)).length ∧
      row.receivedBytes ≤ row.sizeClaimed
  /-- The staged file starts with what has been counted. -/
  staged : ∀ row inode, server.db.blobUploads.lookup uploadId = some row →
    server.disk.entry (tmpFilePath uploadId) = some inode →
    Piece.assemble (server.pieces uploadId) <+: server.disk.contents inode
  present : ∀ row, server.db.blobUploads.lookup uploadId = some row →
    0 < row.receivedBytes → row.receivedBytes < row.sizeClaimed →
    server.disk.entry (tmpFilePath uploadId) ≠ none
  once : ((server.countedPieces uploadId).map CountedPiece.origin).Nodup
  /-- A counted segment is one that was sent for the upload. -/
  sent : ∀ counted ∈ server.countedPieces uploadId, ∃ vault put,
    server.requests[counted.origin]? = some (.putUpload vault uploadId put) ∧
      put.piece = some counted.piece

/-! ## Terms -/

/-- What the lock protects of an upload that is not discarded. -/
structure Progressing (uploadId : String) (server server' : BlobServer) : Prop where
  rows : ∀ row, server'.db.blobUploads.lookup uploadId = some row →
    server.db.blobUploads.lookup uploadId = some row
  kept : ∀ row, server.db.blobUploads.lookup uploadId = some row →
    row.receivedBytes < row.sizeClaimed →
    server'.db.blobUploads.lookup uploadId = some row
  file : ∀ row inode, server.db.blobUploads.lookup uploadId = some row →
    row.receivedBytes < row.sizeClaimed →
    server.disk.entry (tmpFilePath uploadId) = some inode →
    server'.disk.entry (tmpFilePath uploadId) = some inode

theorem Progressing.refl (uploadId : String) (server : BlobServer) :
    Progressing uploadId server server where
  rows := fun _ found => found
  kept := fun _ found _ => found
  file := fun _ _ _ _ found => found

theorem Progressing.trans
    {uploadId : String}
    {first second third : BlobServer}
    (before : Progressing uploadId first second)
    (after : Progressing uploadId second third) :
    Progressing uploadId first third where
  rows := fun row found => before.rows row (after.rows row found)
  kept := fun row found missing => after.kept row (before.kept row found missing) missing
  file := fun row inode found missing staged =>
    after.file row inode (before.kept row found missing) missing
      (before.file row inode found missing staged)

/-- Interference leaves a request what it receives. -/
theorem BlobServer.Receiving.tolerates
    {request : Nat}
    {uploadId : String}
    {key : BlobKey}
    {size : Int}
    {server server' : BlobServer}
    (receiving : server.Receiving request uploadId key size)
    (tolerated : StagingRely request server server') :
    server'.Receiving request uploadId key size where
  upload := tolerated.registered _ _ receiving.upload
  lock := (tolerated.locks _).mpr receiving.lock

/-- What the others may do while a request waits, as far as one upload is
concerned. -/
structure ProgressRely (uploadId : String) (request : Nat) (server server' : BlobServer) : Prop
    extends StagingRely request server server' where
  requests : server.requests <+: server'.requests
  entries : server'.entriesOf request = server.entriesOf request
  journal : server.journal <+: server'.journal
  created : server.uploads.registered uploadId ≠ none →
    ∀ row', server'.db.blobUploads.lookup uploadId = some row' →
      ∃ row, server.db.blobUploads.lookup uploadId = some row ∧
        row'.createdAt = row.createdAt
  progress : ∀ key size, server.Receiving request uploadId key size →
    Progressing uploadId server server'

theorem ProgressRely.refl (uploadId : String) (request : Nat) (server : BlobServer) :
    ProgressRely uploadId request server server where
  toStagingRely := .refl request server
  requests := List.prefix_rfl
  entries := rfl
  journal := List.prefix_rfl
  created := fun _ row found => ⟨row, found, rfl⟩
  progress := fun _ _ _ => .refl uploadId server

theorem ProgressRely.trans
    {uploadId : String}
    {request : Nat}
    {first second third : BlobServer}
    (before : ProgressRely uploadId request first second)
    (after : ProgressRely uploadId request second third) :
    ProgressRely uploadId request first third where
  toStagingRely := before.toStagingRely.trans after.toStagingRely
  requests := before.requests.trans after.requests
  entries := after.entries.trans before.entries
  journal := before.journal.trans after.journal
  created := by
    intro registered row'' found
    obtain ⟨claim, known⟩ := Option.ne_none_iff_exists'.mp registered
    have registered' : second.uploads.registered uploadId ≠ none :=
      Option.ne_none_iff_exists'.mpr ⟨claim, before.registered uploadId claim known⟩
    obtain ⟨row', found', same'⟩ := after.created registered' row'' found
    obtain ⟨row, found, same⟩ := before.created registered row' found'
    exact ⟨row, found, same'.trans same⟩
  progress := by
    intro key size receiving
    exact (before.progress key size receiving).trans
      (after.progress key size (receiving.tolerates before.toStagingRely))

/-- What holds whenever a request makes a call. -/
def progressPre (uploadId : String) (request : Nat) : BlobCall → BlobServer → Prop
  | .db (.updateReceived vault uploadId' next), server => uploadId' = uploadId →
      ∃ put piece row inode key size,
        server.requests[request]? = some (.putUpload vault uploadId put) ∧
        put.piece = some piece ∧ piece.contents ≠ [] ∧
        server.Receiving request uploadId key size ∧
        ¬ server.Counted uploadId request ∧
        server.db.blobUploads.lookup uploadId = some row ∧ row.vaultId = vault ∧
        row.receivedBytes = piece.offset ∧ next = piece.stop ∧ next ≤ row.sizeClaimed ∧
        server.disk.entry (tmpFilePath uploadId) = some inode ∧
        ∃ front, front.length = piece.offset ∧
          front ++ piece.contents <+: server.disk.contents inode
  | .db (.deleteUpload _ uploadId'), server => uploadId' = uploadId →
      server.uploads.registered uploadId = none ∨ server.Removable uploadId
  | .file (.removeFile path), server => path = tmpFilePath uploadId →
      server.uploads.registered uploadId = none ∨ server.Removable uploadId
  | .file (.rename source _), server => source = tmpFilePath uploadId →
      server.uploads.registered uploadId = none ∨ server.Removable uploadId
  | .file (.open path true), server => path = tmpFilePath uploadId →
      ∀ row, server.db.blobUploads.lookup uploadId = some row →
        row.receivedBytes < row.sizeClaimed
  | .file (.writeAll file _), server =>
      server.disk.birth file.inode = some (tmpFilePath uploadId) →
        ∀ row, server.db.blobUploads.lookup uploadId = some row →
          row.receivedBytes = file.position
  | _, _ => True

/-- The terms of the requests, as far as the progress of one upload is
concerned. -/
def progressTerms (libraries : BlobLibraries) (uploadId : String) (request : Nat) :
    BlobTerms where
  rely := ProgressRely uploadId request
  pre := progressPre uploadId request
  facts := fun server => StoreSound libraries server ∧ Progress uploadId server
  rely_refl := ProgressRely.refl uploadId request
  rely_trans := ProgressRely.trans

end VaultCrdtServer
