import VaultCrdtServer.Blobs.ProgressRuns
import VaultCrdtServer.Blobs.Reference

/-!
# Resumable uploads

However the requests on an upload interleave and fail, the counter only moves
forward, and what it has passed is what the requests have sent, in order.
-/

namespace VaultCrdtServer

open Interleaving

/-- What the counter and the staged file of an upload say. -/
structure UploadProgress (uploadId : String) (server : BlobServer) : Prop where
  /-- The counted segments cover what has been received. -/
  tiles : ∀ row, server.db.blobUploads.lookup uploadId = some row →
    0 ≤ row.receivedBytes ∧ row.receivedBytes ≤ row.sizeClaimed ∧
      Piece.Tiles 0 (server.pieces uploadId) row.receivedBytes.toNat
  staged : ∀ row inode, server.db.blobUploads.lookup uploadId = some row →
    server.disk.entry (tmpFilePath uploadId) = some inode →
    (server.disk.contents inode).take row.receivedBytes.toNat =
      Piece.assemble (server.pieces uploadId)
  present : ∀ row, server.db.blobUploads.lookup uploadId = some row →
    0 < row.receivedBytes → row.receivedBytes < row.sizeClaimed →
    server.disk.entry (tmpFilePath uploadId) ≠ none
  /-- No request has counted two segments. -/
  once : ((server.countedPieces uploadId).map CountedPiece.origin).Nodup
  sent : ∀ counted ∈ server.countedPieces uploadId, ∃ vault put,
    server.requests[counted.origin]? = some (.putUpload vault uploadId put) ∧
      put.piece = some counted.piece
  accepted : ∀ answer ∈ server.answers, ∀ vault put response,
    server.requests[answer.1]? = some (.putUpload vault uploadId put) →
    answer.2 = .response (.ok response) → response.status = 201 ∨ response.status = 202 →
    server.Counted uploadId answer.1
  refused : ∀ answer ∈ server.answers, ∀ vault put response,
    server.requests[answer.1]? = some (.putUpload vault uploadId put) →
    answer.2 = .response (.ok response) → response.status ∈ [400, 404, 409, 413] →
    ¬ server.Counted uploadId answer.1

/-- Neither the counter of an upload moves nor what it has passed. -/
structure Unmoved (uploadId : String) (server server' : BlobServer) : Prop where
  counter : ∀ row row', server.db.blobUploads.lookup uploadId = some row →
    server'.db.blobUploads.lookup uploadId = some row' →
    row'.receivedBytes = row.receivedBytes
  bytes : ∀ row inode inode', server.db.blobUploads.lookup uploadId = some row →
    server.disk.entry (tmpFilePath uploadId) = some inode →
    server'.disk.entry (tmpFilePath uploadId) = some inode' →
    (server'.disk.contents inode').take row.receivedBytes.toNat =
      (server.disk.contents inode).take row.receivedBytes.toNat

variable {settings : BlobSettings} {uploadId : String}
variable {config config' : (blobMachine settings).Config}

/-- The counter stands at the end of what has been counted. -/
theorem Progress.received_toNat
    {server : BlobServer}
    {row : UploadRow}
    (progress : Progress uploadId server)
    (found : server.db.blobUploads.lookup uploadId = some row) :
    row.receivedBytes.toNat = (Piece.assemble (server.pieces uploadId)).length := by
  have counter := (progress.received row found).1
  omega

theorem Progress.take_staged
    {server : BlobServer}
    {row : UploadRow}
    {inode : Nat}
    (progress : Progress uploadId server)
    (found : server.db.blobUploads.lookup uploadId = some row)
    (there : server.disk.entry (tmpFilePath uploadId) = some inode) :
    (server.disk.contents inode).take row.receivedBytes.toNat =
      Piece.assemble (server.pieces uploadId) := by
  rw [progress.received_toNat found]
  exact (List.prefix_iff_eq_take.mp (progress.staged row inode found there)).symm

/-- What has been established of an upload that is not discarded. -/
theorem UploadProgress.of_holds
    (holds : ((progressDiscipline settings uploadId).given
      (progressBase settings uploadId)).Holds config) :
    UploadProgress uploadId config.shared := by
  obtain ⟨-, kept, progress⟩ := holds.invariant
  refine
    { tiles := ?_
      staged := fun row inode found there => progress.take_staged found there
      present := progress.present
      once := progress.once
      sent := progress.sent
      accepted := ?_
      refused := ?_ }
  · intro row found
    obtain ⟨counter, within⟩ := progress.received row found
    refine ⟨by omega, within, ?_⟩
    rw [progress.received_toNat found]
    exact progress.tiles
  · intro answer member vault put response made same accepts
    exact ((kept.answered answer member).2.2 vault put response made same).accepted rfl accepts
  · intro answer member vault put response made same refuses
    exact ((kept.answered answer member).2.2 vault put response made same).refused rfl refuses

/-- A step that counts nothing moves nothing. -/
theorem Unmoved.of_step
    {label : (blobMachine settings).Label}
    (progress : Progress uploadId config.shared)
    (progress' : Progress uploadId config'.shared)
    (same : config'.shared.countedPieces uploadId = config.shared.countedPieces uploadId)
    (stepped : Machine.Steps _ label config config') :
    Unmoved uploadId config.shared config'.shared := by
  have pieces : config'.shared.pieces uploadId = config.shared.pieces uploadId := by
    unfold BlobServer.pieces
    rw [same]
  have counter : ∀ row row', config.shared.db.blobUploads.lookup uploadId = some row →
      config'.shared.db.blobUploads.lookup uploadId = some row' →
      row'.receivedBytes = row.receivedBytes := by
    intro row row' found found'
    rw [(progress'.received row' found').1, (progress.received row found).1, pieces]
  refine ⟨counter, ?_⟩
  intro row inode inode' found there there'
  have untouched : config'.shared.disk = config.shared.disk →
      (config'.shared.disk.contents inode').take row.receivedBytes.toNat =
        (config.shared.disk.contents inode).take row.receivedBytes.toNat := by
    intro disk
    rw [disk] at there' ⊢
    rw [Option.some.inj (there.symm.trans there')]
  cases stepped with
  | @act config request circumstance call next reply server' current executed =>
      have executed : config.shared.exec settings request call circumstance =
        some (reply, server') := executed
      cases call with
      | db call =>
          refine untouched ?_
          rcases BlobServer.query_cases executed with ⟨-, -, rfl⟩ | ⟨_, _, -, -, -, rfl⟩
          · rfl
          · rfl
      | file call =>
          -- The row is left alone, and the file starts with the same segments.
          have found' : server'.db.blobUploads.lookup uploadId = some row := by
            rw [BlobServer.operate_db (Option.some.inj executed), found]
          rw [progress'.take_staged found' there', pieces, progress.take_staged found there]
      | lock key =>
          refine untouched ?_
          simp only [BlobServer.exec] at executed
          split at executed
          · obtain ⟨-, rfl⟩ := Prod.mk.inj (Option.some.inj executed)
            rfl
          · cases executed
      | publish event =>
          obtain ⟨-, rfl⟩ := Prod.mk.inj (Option.some.inj executed)
          exact untouched rfl
  | environment happened =>
      exact untouched (BlobServer.environment_alike happened).disk
  | start current started =>
      obtain ⟨-, -, rfl⟩ := start_eq started
      exact untouched rfl
  | finish current => exact untouched rfl
  | abandon => exact untouched rfl

/-- In every run in which an upload is not discarded, its counter never moves
back, the segments that have been counted tile what it has passed and are what
the staged file starts with, and a request that has not counted its segment
moves neither. -/
theorem upload_progress
    {quotaBytes : Table String (Option Int)}
    {labels : List (blobMachine settings).Label}
    (undiscarded : Machine.Admits (Undiscarded settings uploadId) labels
      (blobConfig settings (.fresh quotaBytes) .empty))
    (runs : (blobMachine settings).run labels
      (blobConfig settings (.fresh quotaBytes) .empty) = some config) :
    UploadProgress uploadId config.shared ∧
      ∀ first second middle, labels = first ++ second →
        (blobMachine settings).run first (blobConfig settings (.fresh quotaBytes) .empty) =
          some middle →
        (∀ row row', middle.shared.db.blobUploads.lookup uploadId = some row →
          config.shared.db.blobUploads.lookup uploadId = some row' →
          row.receivedBytes ≤ row'.receivedBytes) ∧
        ∀ request circumstance rest next, second = .act request circumstance :: rest →
          (blobMachine settings).step (.act request circumstance) middle = some next →
          ¬ config.shared.Counted uploadId request →
          Unmoved uploadId middle.shared next.shared := by
  have initial : ((progressDiscipline settings uploadId).given
      (progressBase settings uploadId)).Holds (blobConfig settings (.fresh quotaBytes) .empty) :=
    progressDiscipline_initial quotaBytes
  refine ⟨.of_holds (progress_run undiscarded initial runs).1, ?_⟩
  rintro first second middle rfl runs'
  have holds := (progress_run undiscarded.first initial runs').1
  have remaining := undiscarded.second runs'
  have runs : (blobMachine settings).run second middle = some config := by
    rw [Machine.run_append, runs'] at runs
    exact runs
  obtain ⟨holds', counted⟩ := progress_run remaining holds runs
  refine ⟨?_, ?_⟩
  · intro row row' found found'
    rw [(holds.invariant.2.2.received row found).1,
      (holds'.invariant.2.2.received row' found').1]
    obtain ⟨added, extended⟩ := counted
    unfold BlobServer.pieces
    rw [← extended, List.map_append, Piece.assemble_append, List.length_append]
    omega
  · rintro request circumstance rest next rfl stepped uncounted
    have steps := Machine.step_eq_some_iff.mp stepped
    have single : (blobMachine settings).run [.act request circumstance] middle = some next := by
      simp [Machine.run, stepped]
    have split : Machine.Admits (Undiscarded settings uploadId)
        ([.act request circumstance] ++ rest) middle := remaining
    have onward : (blobMachine settings).run rest next = some config := by
      simpa [Machine.run, stepped] using runs
    obtain ⟨holds'', -⟩ := progress_run split.first holds single
    obtain ⟨-, later⟩ := progress_run (split.second single) holds'' onward
    obtain ⟨added, extended, origins⟩ :=
      BlobServer.countedPieces_step holds.invariant.2.1 steps
    refine .of_step holds.invariant.2.2 holds''.invariant.2.2 ?_ steps
    suffices added = [] by rw [extended, this, List.append_nil]
    refine List.eq_nil_iff_forall_not_mem.mpr ?_
    intro piece member
    obtain ⟨circumstance', same⟩ := origins piece member
    refine uncounted (BlobServer.counted_iff.mpr ⟨piece, later.subset ?_, ?_⟩)
    · rw [extended]
      exact List.mem_append_right _ member
    · exact ((Machine.Label.act.inj same).1).symm

/-- The first byte of an upload is sent twice. -/
def BlobSchedule.resent : BlobSchedule :=
  [.start 0 (.createUpload VaultId.v Hash.ofA.1 2)] ++ calls 0 "u" 2 ++ calls 0 "spare" 3 ++
    [.finish 0] ++
    serves 1 (.putUpload VaultId.v "u" ⟨some "bytes 0-0/2", [.ok [0x61]]⟩) 8 ++
    serves 2 (.putUpload VaultId.v "u" ⟨some "bytes 0-0/2", [.ok [0x61]]⟩) 3

theorem BlobSchedule.resent_enabled : BlobSchedule.resent.Enabled := by
  decide +kernel

theorem upload_progress_resent :
    UploadProgress "u" (BlobSchedule.resent.config BlobSchedule.resent_enabled).shared :=
  (upload_progress (by decide +kernel)
    (BlobSchedule.run_eq_config BlobSchedule.resent_enabled)).1

end VaultCrdtServer
