import VaultCrdtServer.Blobs.Staging
import VaultCrdtServer.Blobs.Footprint

/-!
# What the requests do to uploads and blobs

Every handler keeps to the terms of `Staging`.  A handler that has verified the
bytes it staged moves them to their destination or finds bytes of the same
digest there, the same bytes if the digest has no collisions.
-/

namespace VaultCrdtServer

open Interleaving

/-- A call that any request may make at any time. -/
def Unprotected (libraries : BlobLibraries) (call : BlobCall) : Prop :=
  ∀ request server, stagingPre libraries request call server

section Rules

variable {settings : BlobSettings} {request : Nat} {server : BlobServer} {α β : Type}
variable {assertion : BlobServer → Prop}

/-- The contract of a request. -/
abbrev stagingContract
    (settings : BlobSettings)
    (request : Nat) : Contract blobSignature BlobServer :=
  blobContract settings request (stagingTerms settings.toBlobLibraries request)

/-- What changes neither files nor locks nor blobs nor upload ids is tolerated. -/
theorem StagingRely.of_steady
    {server' : BlobServer}
    (disk : server'.disk = server.disk)
    (locks : server'.docLocks = server.docLocks)
    (uploads : server'.uploads = server.uploads)
    (blobs : server'.db.blobs = server.db.blobs) :
    StagingRely request server server' where
  locks := by simp [locks]
  births := by simp [disk]
  registered := by simp [uploads]
  drawn := fun _ drawn => ⟨uploads ▸ drawn.issued, uploads ▸ drawn.unused⟩
  held := fun key _ =>
    { row := by rw [blobs]
      file := disk ▸ .refl _ _
      staged := fun _ _ _ => disk ▸ (Disk.Same.refl _ _).survives }

/-- A handler whose calls are all unprotected. -/
theorem unprotected_yields
    {handler : BlobHandler α}
    (only : handler.run.Only (Unprotected settings.toBlobLibraries)) :
    handler.run.Meets (stagingContract settings request) (Yields (Ends α)) server := by
  refine (only.meets (fun _ => True) (fun _ _ _ _ => trivial) ?_ ?_ trivial).weaken ?_
  · exact fun call server unprotected _ => unprotected request server
  · exact fun _ _ _ _ _ _ _ => trivial
  · intro result server _
    cases result <;> trivial

/-- Removing a file leaves the others alone. -/
theorem FileCall.Effect.removes
    {name path : FilePath}
    {disk disk' : Disk FilePath UInt8}
    (effect : (FileCall.removeFile path).Effect disk disk')
    (different : name ≠ path) :
    Disk.Same name disk disk' := by
  cases effect with
  | unchanged => exact .refl name disk
  | remove => exact .remove different

variable {final : α → BlobServer → Prop}

/-- A database call that keeps what the terms speak of. -/
theorem yields_query
    {call : BlobDbCall}
    {continuation : call.Reply → BlobHandler α}
    (stable : (stagingTerms settings.toBlobLibraries request).Stable assertion)
    (holds : assertion server)
    (pre : Unprotected settings.toBlobLibraries (.db call))
    (uploads : ∀ reply (ledger : UploadLedger), ledger.record request call reply = ledger)
    (blobs : ∀ key size, call ≠ .insertBlob key size)
    (continues : ∀ server reply now uuid db, assertion server →
      StoreSound settings.toBlobLibraries server →
      call.exec settings.defaultQuotaBytes now uuid server.db = .ok (reply, db) →
      (∀ server', assertion server' → server'.uploads = server.uploads →
        (continuation reply).run.Meets (stagingContract settings request) (Yields final)
          server')) :
    (BlobHandler.db call >>= continuation).run.Meets (stagingContract settings request)
      (Yields final) server := by
  refine blob_meets_db stable holds (fun server _ => pre request server)
    (fun _ _ _ => trivial) ?_
  intro server reply server' holds facts committed
  obtain ⟨now, uuid, db, executed, -, rfl⟩ := committed.exec
  have kept : db.blobs = server.db.blobs := by
    rcases (BlobDbCall.exec_effect executed).blobs with same | ⟨key, size, inserts, -⟩
    · exact same
    · exact absurd inserts (blobs key size)
  refine continues server reply now uuid db holds facts executed _ ?_ (uploads _ _)
  exact stable server _ holds (.of_steady rfl rfl (uploads _ _) kept)

end Rules

/-! ## Handlers that protect nothing -/

section Unprotected

variable {libraries : BlobLibraries}

theorem discardUpload_unprotected (vault : VaultId) (uploadId : String) :
    (discardUpload vault uploadId).run.Only (Unprotected libraries) :=
  discardUpload_only vault uploadId (fun _ _ => trivial) fun _ _ => Or.inl ⟨uploadId, rfl⟩

theorem sweepUploads_unprotected (expired : List (VaultId × String)) (attempted : Nat) :
    (sweepUploads expired attempted).run.Only (Unprotected libraries) :=
  sweepUploads_only (fun _ _ _ _ => trivial) (fun uploadId _ _ => Or.inl ⟨uploadId, rfl⟩)
    (fun _ _ _ _ => trivial) expired attempted

theorem getUpload_unprotected (vault : VaultId) (uploadId : String) :
    (getUpload vault uploadId).run.Only (Unprotected libraries) :=
  getUpload_only vault uploadId (fun _ _ => trivial) (fun _ _ => trivial)
    fun _ _ => Or.inl ⟨uploadId, rfl⟩

end Unprotected

/-! ## Handlers that hold a lock -/

section Locked

variable {settings : BlobSettings} {request : Nat} {server : BlobServer}
variable {vault : VaultId} {uploadId : String} {key : BlobKey} {size : Int}

theorem BlobServer.Uploads.stable :
    (stagingTerms settings.toBlobLibraries request).Stable
      (BlobServer.Uploads uploadId key size) :=
  fun _ _ upload tolerated => tolerated.registered _ _ upload

/-- An upload that is found has the claim its id was inserted with. -/
theorem liveUpload_yields
    {assertion : BlobServer → Prop}
    (stable : (stagingTerms settings.toBlobLibraries request).Stable assertion)
    (holds : assertion server) :
    (liveUpload vault uploadId).run.Meets (stagingContract settings request)
      (Yields fun row server => ∀ view : UploadView, row = some view →
        assertion server ∧ server.Uploads uploadId ⟨vault, view.hashClaimed⟩ view.sizeClaimed ∧
          0 < view.sizeClaimed ∧ view.sizeClaimed ≤ absoluteMax)
      server := by
  refine yields_query stable holds (fun _ _ => trivial) (fun _ _ => rfl) (by simp) ?_
  intro before row now uuid db _ facts executed server' holds uploads
  cases row with
  | none => exact blob_meets_pure stable holds (by simp [Yields])
  | some view =>
      have claimed : before.Uploads uploadId ⟨vault, view.hashClaimed⟩ view.sizeClaimed := by
        simp only [BlobDbCall.exec, Except.ok.injEq, Prod.mk.injEq] at executed
        obtain ⟨row, found, rfl⟩ := Option.map_eq_some_iff.mp executed.1
        obtain ⟨stored, rfl⟩ := BlobDb.upload_eq_some_iff.mp found
        exact facts.uploadRows uploadId row stored
      have sizes := facts.sizes uploadId _ _ claimed
      have upload : server'.Uploads uploadId ⟨vault, view.hashClaimed⟩ view.sizeClaimed := by
        rwa [BlobServer.Uploads, uploads]
      dsimp only
      split
      · refine yields_bind (unprotected_yields (discardUpload_unprotected vault uploadId)) ?_
        intro _ server _
        have anything : (fun _ : BlobServer => True) server := trivial
        exact blob_meets_pure (fun _ _ _ _ => trivial) anything (by simp [Yields])
      · refine blob_meets_pure (BlobTerms.Stable.and stable BlobServer.Uploads.stable)
          ⟨holds, upload⟩ ?_
        rintro server ⟨holds, upload⟩ view' same
        obtain rfl := Option.some.inj same
        exact ⟨holds, upload, sizes⟩

/-- A segment has been written.  If it was the last, the file has its size. -/
theorem stageSegment_yields
    {offset : Nat}
    {segment : Bytes}
    (receiving : server.Receiving request uploadId key size)
    (nonempty : segment ≠ [])
    (within : (offset + segment.length : Int) ≤ size) :
    (stageSegment uploadId offset segment).run.Meets (stagingContract settings request)
      (Yields fun _ => Staged
        (fun bytes => (offset + segment.length : Int) = size → (bytes.length : Int) = size)
        request uploadId key size) server := by
  refine yields_file BlobServer.Receiving.stable receiving
    (fun server receiving => ⟨uploadId, key, size, rfl, receiving⟩) ?_
  intro before file disk receiving facts opened
  obtain ⟨replied, rfl⟩ := Prod.mk.inj opened
  obtain rfl := Except.ok.inj replied
  have opened : Opened request uploadId key size
      (before.disk.openOrCreate (tmpFilePath uploadId)).1
      { before with disk := (before.disk.openOrCreate (tmpFilePath uploadId)).2 } := by
    have entry := before.disk.entry_openOrCreate_self (tmpFilePath uploadId)
    refine
      { toReceiving := ⟨receiving.upload, receiving.lock⟩
        born := Disk.birth_openOrCreate_self (facts.staged uploadId)
        current := fun inode found => Option.some.inj (found.symm.trans entry)
        unpublished := ?_ }
    intro published
    exact BlobKey.file_ne_tmpFilePath key uploadId
      ((before.disk.openOrCreate (tmpFilePath uploadId)).2.entry_injective published entry)
  refine yields_look rfl Opened.stable opened (fun _ _ => trivial) ?_
  intro server file opened _ sought
  obtain rfl := Except.ok.inj (Prod.mk.inj sought).1
  refine yields_file Opened.stable opened ?_ ?_
  · exact fun server opened =>
      ⟨uploadId, key, size, opened.toReceiving, opened.born, opened.unpublished, within⟩
  · intro server _ disk opened facts wrote
    obtain ⟨-, rfl⟩ := Prod.mk.inj wrote
    have staged : Staged
        (fun bytes => (offset + segment.length : Int) = size → (bytes.length : Int) = size)
        request uploadId key size
        { server with
          disk := server.disk.writeAt 0
            (before.disk.openOrCreate (tmpFilePath uploadId)).1 offset segment } := by
      refine ⟨⟨opened.upload, opened.lock⟩, ?_⟩
      intro inode found complete
      obtain rfl := opened.current inode found
      have short := facts.bounded _ uploadId opened.born
      rw [opened.upload.claimed] at short
      rw [Disk.contents_writeAt, if_pos rfl, Disk.length_overwrite 0 offset nonempty]
      omega
    exact yields_last_look rfl Staged.stable staged fun _ _ => trivial

/-- The staged file has been moved to its destination, or the same bytes have
been found there. -/
theorem placeBlob_yields
    {bytes : Bytes}
    (verified : settings.Verified key.hash bytes)
    (sized : (bytes.length : Int) = size)
    (staged : Staged (fun contents => contents = bytes) request uploadId key size server) :
    (placeBlob key.vault uploadId key.hash).run.Meets (stagingContract settings request)
      (Yields fun destExisted =>
        Placed settings.toBlobLibraries request uploadId key size destExisted) server := by
  refine yields_look rfl Staged.stable staged (fun _ _ => trivial) ?_
  intro server _ staged _ _
  refine yields_look rfl Staged.stable staged (fun _ _ => trivial) ?_
  intro server destExisted staged facts looked
  have exists_ := Except.ok.inj (Prod.mk.inj looked).1
  cases destExisted with
  | true =>
      obtain ⟨inode, found⟩ := Option.isSome_iff_exists.mp exists_
      have same : settings.Sized (server.disk.contents inode) size := by
        intro collisionFree
        rw [← sized]
        have digest := (facts.published key inode found).2.digest.trans verified.digest.symm
        exact congrArg _ (congrArg _ (collisionFree digest))
      have placed : Placed settings.toBlobLibraries request uploadId key size true server :=
        { toReceiving := staged.toReceiving
          file := ⟨inode, found, same⟩
          noRow := fun new => nomatch new }
      refine blob_meets_attempt Placed.stable placed (fun _ _ => Or.inl ⟨uploadId, rfl⟩) ?_
      intro server circumstance reply server' placed _ executed
      simp only [BlobServer.exec, Option.some.injEq] at executed
      rw [BlobServer.operate_eq executed]
      obtain ⟨inode, found, sized⟩ := placed.file
      have kept : Disk.Same key.file server.disk server'.disk :=
        (BlobServer.operate_effect executed).removes (key.file_ne_tmpFilePath uploadId)
      have placed' : Placed settings.toBlobLibraries request uploadId key size true
          { server with disk := server'.disk } :=
        { toReceiving := ⟨placed.upload, placed.lock⟩
          file := ⟨inode, kept.entry.trans found, by
            dsimp only
            rwa [kept.contents inode found]⟩
          noRow := fun new => nomatch new }
      exact blob_meets_pure Placed.stable placed' fun _ placed => placed
  | false =>
      have noFile : server.disk.entry key.file = none :=
        Option.isNone_iff_eq_none.mp (Option.isSome_eq_false_iff.mp exists_)
      have vacant : Vacant (fun contents => contents = bytes) request uploadId key size server :=
        { toStaged := staged
          noFile := noFile
          noRow := by
            by_contra stored
            obtain ⟨size', found⟩ := Option.ne_none_iff_exists'.mp stored
            obtain ⟨inode, there, -⟩ := facts.rows key size' found
            exact absurd (noFile.symm.trans there) (by simp) }
      refine yields_look rfl Vacant.stable vacant (fun _ _ => trivial) ?_
      intro server file vacant _ _
      refine yields_look rfl Vacant.stable vacant (fun _ _ => trivial) ?_
      intro server _ vacant _ _
      refine yields_file Vacant.stable vacant ?_ ?_
      · intro server vacant
        refine ⟨uploadId, key, size, rfl, rfl, vacant.toReceiving, vacant.noFile, ?_⟩
        intro inode found
        rw [vacant.contents inode found]
        exact verified
      · intro server _ disk vacant _ renamed
        dsimp only [BlobServer.fileEffect] at renamed
        split at renamed
        · rename_i inode found
          obtain ⟨-, rfl⟩ := Prod.mk.inj renamed
          have placed : Placed settings.toBlobLibraries request uploadId key size false
              { server with
                disk := server.disk.rename (tmpFilePath uploadId) key.file } :=
            { toReceiving := ⟨vacant.upload, vacant.lock⟩
              file := ⟨inode, by
                rw [Disk.entry_rename, if_pos rfl]
                exact found, by
                rw [Disk.contents_rename, vacant.contents inode found]
                exact fun _ => sized⟩
              noRow := fun _ => vacant.noRow }
          exact blob_meets_pure Placed.stable placed fun _ placed => placed
        · cases (Prod.mk.inj renamed).1

/-- The row is inserted when the file is in place, and a file is removed only
where there is no row. -/
theorem recordBlob_yields
    {view : UploadView}
    {destExisted : Bool}
    (placed : Placed settings.toBlobLibraries request uploadId ⟨vault, view.hashClaimed⟩
      view.sizeClaimed destExisted server) :
    (recordBlob vault uploadId view destExisted).run.Meets (stagingContract settings request)
      (Yields (Ends Response)) server := by
  have discards : ∀ error : ServerError,
      (do discardUpload vault uploadId
          throw error : BlobHandler Response).run.Only (Unprotected settings.toBlobLibraries) :=
    fun error => (discardUpload_unprotected vault uploadId).bind_fallible fun _ => trivial
  have deletes : (do BlobHandler.db (.deleteUpload vault uploadId)
                     return .blobStored view.hashClaimed : BlobHandler Response).run.Only
      (Unprotected settings.toBlobLibraries) :=
    only_db.mpr ⟨fun _ _ => trivial, fun _ => trivial⟩
  refine blob_meets_attempt Placed.stable placed (fun _ placed => ⟨placed.lock, placed.file⟩) ?_
  intro server circumstance reply server' placed _ executed
  have queried : server.query settings request
      (.insertBlob ⟨vault, view.hashClaimed⟩ view.sizeClaimed) circumstance =
        some (reply, server') := executed
  rcases BlobServer.query_cases queried with
    ⟨error, rfl, rfl⟩ | ⟨inserted, db, rfl, -, effect, rfl⟩
  · cases destExisted with
    | true => exact unprotected_yields (discards error)
    | false =>
        refine blob_meets_attempt Placed.stable placed ?_ ?_
        · exact fun _ placed => Or.inr ⟨_, rfl, placed.lock, placed.noRow rfl⟩
        · exact fun _ _ _ _ _ _ _ => unprotected_yields (discards error)
  · have recorded : ¬ (inserted = 0 ∧ destExisted = false) := by
      rintro ⟨ignored, new⟩
      have noRow := placed.noRow new
      simp only [BlobDbCall.exec, BlobDb.insertBlob, noRow, Except.ok.injEq,
        Prod.mk.injEq] at effect
      exact absurd (effect.1.trans ignored) Nat.one_ne_zero
    simp only [recorded, if_false]
    exact unprotected_yields deletes

/-- Bytes are verified before they are moved. -/
theorem finishUpload_yields
    {view : UploadView}
    {next : Nat}
    (staged : Staged (fun bytes => (bytes.length : Int) = view.sizeClaimed) request uploadId
      ⟨vault, view.hashClaimed⟩ view.sizeClaimed server) :
    (finishUpload settings.toBlobLibraries vault uploadId view next).run.Meets
      (stagingContract settings request) (Yields (Ends Response)) server := by
  have discards : ∀ response : Response,
      (do discardUpload vault uploadId
          return response : BlobHandler Response).run.Only
        (Unprotected settings.toBlobLibraries) :=
    fun error => (discardUpload_unprotected vault uploadId).bind_fallible fun _ => trivial
  unfold finishUpload
  split
  · exact unprotected_yields (discards _)
  · refine yields_look rfl Staged.stable staged (fun _ _ => trivial) ?_
    intro server bytes staged facts looked
    obtain ⟨inode, found, rfl⟩ : ∃ inode,
        server.disk.entry (tmpFilePath uploadId) = some inode ∧
          bytes = server.disk.contents inode := by
      dsimp only [BlobServer.fileEffect, Disk.read] at looked
      cases found : server.disk.entry (tmpFilePath uploadId) with
      | none => simp [found] at looked
      | some inode =>
          simp only [found, Option.map_some] at looked
          exact ⟨inode, rfl, (Except.ok.inj (Prod.mk.inj looked).1).symm⟩
    have sized := staged.contents inode found
    obtain ⟨positive, within⟩ := facts.sizes uploadId _ _ staged.upload
    split
    · exact unprotected_yields (discards _)
    · rename_i digest
      split
      · exact unprotected_yields (discards _)
      · rename_i checked
        have verified : settings.Verified view.hashClaimed (server.disk.contents inode) :=
          { digest := not_not.mp digest
            nonempty := by omega
            within := by omega
            sanitized := by
              intro svg
              rw [if_pos svg] at checked
              exact settings.svgFixpointError_eq_none_iff.mp checked }
        have same : Staged (fun contents => contents = server.disk.contents inode) request
            uploadId ⟨vault, view.hashClaimed⟩ view.sizeClaimed server :=
          { toReceiving := staged.toReceiving
            contents := by
              intro inode' found'
              rw [Option.some.inj (found'.symm.trans found)] }
        exact yields_bind (placeBlob_yields verified sized same)
          fun _ _ placed => recordBlob_yields placed

/-- What is done under the lock. -/
theorem receiveSegment_yields
    {hash : Hash}
    {range : ContentRange}
    {segment : Bytes}
    (ordered : range.first ≤ range.last)
    (filled : saturatingAdd (range.last - range.first) 1 = segment.length)
    (receiving : server.Receiving request uploadId ⟨vault, hash⟩ size) :
    (receiveSegment settings.toBlobLibraries vault uploadId range segment).run.Meets
      (stagingContract settings request) (Yields (Ends Response)) server := by
  refine yields_bind (liveUpload_yields BlobServer.Receiving.stable receiving) ?_
  intro row server found
  cases row with
  | none => exact unprotected_yields trivial
  | some view =>
      obtain ⟨receiving, upload, positive, within⟩ := found view rfl
      obtain ⟨same, rfl⟩ := receiving.upload.unique upload
      obtain ⟨-, rfl⟩ := BlobKey.mk.inj same
      have small : view.sizeClaimed ≤ i64Max := by
        unfold i64Max
        unfold absoluteMax audioCap at within
        omega
      have claimed := asU64_of_nonneg positive.le small
      dsimp only
      split
      · exact unprotected_yields trivial
      · split
        · exact unprotected_yields trivial
        · rename_i aligned
          split
          · exact unprotected_yields trivial
          · rename_i room
            rw [not_not] at aligned
            rw [← aligned]
            have counted : (range.first + segment.length : Int) = saturatingAdd range.last 1 ∧
                0 < segment.length := by
              unfold saturatingAdd u64Max at *
              unfold absoluteMax audioCap at within
              omega
            have nonempty : segment ≠ [] := List.ne_nil_of_length_pos counted.2
            refine yields_bind (stageSegment_yields receiving nonempty (by omega)) ?_
            intro _ server staged
            refine yields_query Staged.stable staged (fun _ _ => trivial) (fun _ _ => rfl)
              (by simp) ?_
            intro _ _ _ _ _ _ _ _ server staged _
            split
            · exact unprotected_yields trivial
            · rename_i last
              rw [not_not] at last
              refine finishUpload_yields ⟨staged.toReceiving, ?_⟩
              exact fun inode current => staged.contents inode current (by omega)

/-- `put_upload` keeps to the terms. -/
theorem putUpload_yields
    (put : PutRequest) :
    (putUpload settings.toBlobLibraries vault uploadId put).run.Meets
      (stagingContract settings request) (Yields (Ends Response)) server := by
  unfold putUpload
  split
  · exact unprotected_yields trivial
  · rename_i range _
    split
    · exact unprotected_yields trivial
    · rename_i ordered
      split
      · exact unprotected_yields trivial
      · exact unprotected_yields trivial
      · rename_i segment _
        split_ifs with large filled
        · exact unprotected_yields trivial
        · exact unprotected_yields trivial
        · have anything : (fun _ : BlobServer => True) server := trivial
          refine yields_bind (liveUpload_yields (fun _ _ _ _ => trivial) anything) ?_
          intro row server found
          cases row with
          | none => exact unprotected_yields trivial
          | some preview =>
              obtain ⟨-, upload, -⟩ := found preview rfl
              refine blob_meets_attempt BlobServer.Uploads.stable upload (fun _ _ => trivial) ?_
              intro server circumstance reply server' upload _ executed
              simp only [BlobServer.exec] at executed
              split at executed
              · obtain ⟨-, rfl⟩ := Prod.mk.inj (Option.some.inj executed)
                exact receiveSegment_yields
                  (Nat.not_lt.mp ordered) (not_not.mp filled)
                  ⟨upload, Function.update_self ..⟩
              · cases executed

end Locked

/-! ## Creating an upload -/

section Creating

variable {settings : BlobSettings} {request : Nat} {server : BlobServer}

section Admission

variable {defaultQuotaBytes : Nat} {now : Time} {uuid uploadId : String}
variable {vault : VaultId} {size : Nat} {db db' : BlobDb}

/-- An admission changes nothing. -/
theorem BlobDbCall.exec_admitUpload_eq
    (executed : BlobDbCall.exec defaultQuotaBytes now uuid (.admitUpload vault size) db =
      .ok (.admitted uploadId, db')) :
    db.admitUpload vault size defaultQuotaBytes now uuid = .ok (.admitted uploadId) ∧
      db' = db := by
  simp only [exec] at executed
  cases admission : db.admitUpload vault size defaultQuotaBytes now uuid with
  | error error => simp [admission, Except.map] at executed
  | ok value =>
      simp only [admission, Except.map, Except.ok.injEq, Prod.mk.injEq] at executed
      obtain ⟨rfl, rfl⟩ := executed
      exact ⟨rfl, rfl⟩

/-- An admission draws the id. -/
theorem BlobDbCall.exec_admitUpload
    (executed : BlobDbCall.exec defaultQuotaBytes now uuid (.admitUpload vault size) db =
      .ok (.admitted uploadId, db')) :
    uploadId = uuid ∧ db' = db := by
  obtain ⟨admission, same⟩ := exec_admitUpload_eq executed
  exact ⟨(BlobDb.admitUpload_eq_admitted admission).1, same⟩

end Admission

/-- `create_upload` keeps to the terms. -/
theorem createUpload_yields (vault : VaultId) (hash : String) (size : Int64) :
    (createUpload vault hash size).run.Meets (stagingContract settings request)
      (Yields (Ends Response)) server := by
  have anything : ∀ server, (fun _ : BlobServer => True) server := fun _ => trivial
  unfold createUpload
  dsimp only
  split
  · rename_i valid
    refine yields_query (fun _ _ _ _ => trivial) (anything server) (fun _ _ => trivial)
      (fun _ _ => rfl) (by simp) ?_
    intro _ exists_ _ _ _ _ _ _ server _ _
    split
    · exact unprotected_yields trivial
    · split
      · exact unprotected_yields trivial
      · rename_i within
        refine blob_meets_db (fun _ _ _ _ => trivial) (anything server) (fun _ _ => trivial)
          (fun _ _ _ => trivial) ?_
        intro server admission server' _ facts committed
        cases admission with
        | tooManyUploads => exact unprotected_yields trivial
        | quotaExceeded effective => exact unprotected_yields trivial
        | admitted uploadId =>
            obtain ⟨now, uuid, db, executed, undrawn, rfl⟩ := committed.exec
            obtain ⟨rfl, rfl⟩ := BlobDbCall.exec_admitUpload executed
            have drawn : BlobServer.Drawn request uploadId
                (server.commit request now (.admitUpload vault (asU64 size.toInt))
                  (.admitted uploadId) server.db) :=
              { issued := Function.update_self ..
                unused := facts.undrawn uploadId undrawn }
            refine yields_look rfl BlobServer.Drawn.stable drawn (fun _ _ => trivial) ?_
            intro server _ drawn _ _
            refine yields_file BlobServer.Drawn.stable drawn
              (fun _ drawn => ⟨uploadId, rfl, drawn⟩) ?_
            intro server _ disk drawn _ _
            have drawn : BlobServer.Drawn request uploadId { server with disk := disk } :=
              ⟨drawn.issued, drawn.unused⟩
            refine blob_meets_attempt BlobServer.Drawn.stable drawn
              (fun _ drawn => ⟨drawn, valid.2, claimed_within valid.2 within⟩) ?_
            intro _ _ reply _ _ _ _
            cases reply with
            | ok _ => exact unprotected_yields trivial
            | error error =>
                exact unprotected_yields
                  (only_attempt.mpr ⟨fun _ _ => Or.inl ⟨uploadId, rfl⟩, fun _ => trivial⟩)
  · exact unprotected_yields trivial

/-- Every request keeps to the terms. -/
theorem blobProgram_staging
    (task : BlobTask) :
    (blobProgram settings task).Meets (stagingContract settings request) (Ends BlobOutcome)
      server := by
  have ends : ∀ {α : Type} {handler : BlobHandler α}
      {outcome : Except ServerError α → BlobOutcome},
      handler.run.Meets (stagingContract settings request) (Yields (Ends α)) server →
      (handler.run.bind fun result => .done (outcome result)).Meets
        (stagingContract settings request) (Ends BlobOutcome) server :=
    fun yields => Program.Meets.bind _ yields fun _ _ _ _ _ => trivial
  have untouched : ∀ {call : BlobCall}, call.KeepsUploads →
      Unprotected settings.toBlobLibraries call := by
    intro call keeps request server
    unfold stagingPre
    split <;> trivial
  cases task with
  | createUpload vault hash size => exact ends (createUpload_yields vault hash size)
  | getUpload vault uploadId =>
      exact ends (unprotected_yields (getUpload_unprotected vault uploadId))
  | putUpload vault uploadId put => exact ends (putUpload_yields put)
  | getBlob vault hash range =>
      refine ends (unprotected_yields (getBlob_only vault hash range ?_ ?_ ?_ ?_ ?_))
      all_goals (intros; exact untouched (by rfl))
  | postBlobPath vault body =>
      exact ends (unprotected_yields
        ((postBlobPath_keepsUploads _ vault body).mono fun _ => untouched))
  | listBlobPaths vault sinceSeq limit =>
      exact ends (unprotected_yields (only_db.mpr ⟨untouched (by rfl), fun _ => trivial⟩))
  | sweep =>
      refine ends (unprotected_yields (only_db.mpr ⟨untouched (by rfl), ?_⟩))
      exact fun expired => sweepUploads_unprotected expired 0
  | holdLock key =>
      intro _ _
      exact ⟨trivial, fun _ _ _ _ _ => trivial⟩

end Creating

end VaultCrdtServer
