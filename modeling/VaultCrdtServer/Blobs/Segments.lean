import VaultCrdtServer.Blobs.ProgressTasks

/-!
# Segments that are received

`put_upload` keeps to the terms of `Progress`, and so do the other requests.
-/

namespace VaultCrdtServer

open Interleaving

section Segments

variable {settings : BlobSettings} {uploadId uploadId' : String} {request : Nat}
variable {server server' : BlobServer} {task : BlobTask} {vault : VaultId} {hash : Hash}
variable {size : Int}

/-- What a PUT finds when it reads the upload again under the lock. -/
structure Rechecked
    (uploadId uploadId' : String)
    (vault : VaultId)
    (hash : Hash)
    (size : Int)
    (view : UploadView)
    (server : BlobServer) : Prop where
  named : view.hashClaimed = hash
  sized : view.sizeClaimed = size
  positive : 0 < size
  within : size ≤ absoluteMax
  nonneg : uploadId' = uploadId → 0 ≤ view.receivedBytes ∧ view.receivedBytes ≤ size
  row : uploadId' = uploadId → view.receivedBytes < size →
    ∃ row, server.db.blobUploads.lookup uploadId = some row ∧ row.vaultId = vault ∧
      row.receivedBytes = view.receivedBytes ∧ row.sizeClaimed = size

theorem Rechecked.tolerates
    {view : UploadView}
    (locking : Locking uploadId request task uploadId' ⟨vault, hash⟩ size server)
    (rechecked : Rechecked uploadId uploadId' vault hash size view server)
    (tolerated : ProgressRely uploadId request server server') :
    Rechecked uploadId uploadId' vault hash size view server' := by
  refine { rechecked with row := ?_ }
  rintro rfl missing
  obtain ⟨row, found, owned, counter, claimed⟩ := rechecked.row rfl missing
  have incomplete : row.receivedBytes < row.sizeClaimed := by
    rw [counter, claimed]
    exact missing
  exact ⟨row, (tolerated.progress _ size locking.toReceiving).kept row found incomplete,
    owned, counter, claimed⟩

/-- What is read under the lock is what the id was inserted with. -/
theorem Rechecked.of_read
    {libraries : BlobLibraries}
    {now : Time}
    {row : UploadRow}
    {reply : Option UploadView}
    (locking : Locking uploadId request task uploadId' ⟨vault, hash⟩ size server)
    (sound : StoreSound libraries server)
    (progress : Progress uploadId server)
    (found : server.db.upload vault uploadId' = some row) :
    Rechecked uploadId uploadId' vault hash size (row.view now)
      (server.commit request now (.readUpload vault uploadId') reply server.db) := by
  obtain ⟨stored, owned⟩ := BlobDb.upload_eq_some_iff.mp found
  obtain ⟨same, sized⟩ := (sound.uploadRows uploadId' row stored).unique locking.upload
  obtain ⟨-, rfl⟩ := BlobKey.mk.inj same
  obtain ⟨positive, within⟩ := sound.sizes uploadId' _ _ locking.upload
  refine
    { named := rfl
      sized := sized
      positive := positive
      within := within
      nonneg := ?_
      row := ?_ }
  · rintro rfl
    obtain ⟨counted, bounded⟩ := progress.received row stored
    dsimp only [UploadRow.view]
    omega
  · rintro rfl -
    exact ⟨row, stored, owned, rfl, sized⟩

/-- The PUT has counted its segment. -/
structure UploadRecorded
    (uploadId : String)
    (request : Nat)
    (task : BlobTask)
    (uploadId' : String)
    (server : BlobServer) : Prop where
  task : server.requests[request]? = some task
  counted : uploadId' = uploadId → server.Counted uploadId request

theorem UploadRecorded.tolerates
    (recorded : UploadRecorded uploadId request task uploadId' server)
    (tolerated : ProgressRely uploadId request server server') :
    UploadRecorded uploadId request task uploadId' server' where
  task := tolerated.made recorded.task
  counted := fun same => (tolerated.counted_iff recorded.task).mpr (recorded.counted same)

variable {put : PutRequest} {segment : Bytes} {inode : Nat} {offset : Nat} {next : Int}

/-- The counter may be moved past a segment that has been written. -/
theorem Written.pre
    (written : Written uploadId request (.putUpload vault uploadId' put) uploadId'
      ⟨vault, hash⟩ size offset segment inode server)
    (sent : put.piece = some ⟨offset, segment⟩)
    (nonempty : segment ≠ [])
    (moved : next = offset + segment.length)
    (within : next ≤ size) :
    progressPre uploadId request (.db (.updateReceived vault uploadId' next)) server := by
  rintro rfl
  obtain ⟨row, found, owned, counter, claimed⟩ := written.row rfl
  obtain ⟨front, reached, follows⟩ := written.follows rfl
  refine ⟨put, _, row, inode, _, size, written.task, sent, nonempty, written.toReceiving,
    written.uncounted, found, owned, counter, ?_, ?_, written.current rfl, front,
    Int.natCast_inj.mp reached, follows⟩
  · rw [moved]
    simp [Piece.stop]
  · rwa [claimed]

/-- The counter has been moved past the segment. -/
theorem Written.count
    {defaultQuotaBytes : Nat}
    {now : Time}
    {uuid : String}
    {reply : Unit}
    {db : BlobDb}
    (written : Written uploadId request (.putUpload vault uploadId' put) uploadId'
      ⟨vault, hash⟩ size offset segment inode server)
    (sent : put.piece = some ⟨offset, segment⟩)
    (executed : (BlobDbCall.updateReceived vault uploadId' next).exec defaultQuotaBytes now
      uuid server.db = .ok (reply, db)) :
    let counted := server.commit request now (.updateReceived vault uploadId' next) reply db
    UploadRecorded uploadId request (.putUpload vault uploadId' put) uploadId' counted ∧
      counted.Receiving request uploadId' ⟨vault, hash⟩ size ∧
      (uploadId' = uploadId → ∀ row, counted.db.blobUploads.lookup uploadId = some row →
        row.receivedBytes = next ∧ row.sizeClaimed = size) := by
  refine ⟨⟨written.task, ?_⟩, ⟨written.upload, written.lock⟩, ?_⟩
  · rintro rfl
    obtain ⟨row, found, owned, -⟩ := written.row rfl
    refine BlobServer.counted_commit_self.mpr (Or.inr ?_)
    have present : server.db.upload vault uploadId' = some row :=
      BlobDb.upload_eq_some_iff.mpr ⟨found, owned⟩
    simp [BlobEntry.countedPiece, present, written.task, BlobTask.piece, sent]
  · rintro rfl row' found'
    obtain ⟨row, found, owned, -, claimed⟩ := written.row rfl
    have present : server.db.upload vault uploadId' = some row :=
      BlobDb.upload_eq_some_iff.mpr ⟨found, owned⟩
    obtain ⟨-, rfl⟩ := Prod.mk.inj (Except.ok.inj executed)
    simp only [BlobServer.commit, BlobDb.updateReceived, present,
      Table.lookup_insert_eq_ite, if_true, Option.some.injEq] at found'
    subst found'
    exact ⟨rfl, claimed⟩

/-- What is done under the lock. -/
theorem receiveSegment_meets
    {range : ContentRange}
    (sent : put.piece = some ⟨range.first, segment⟩)
    (ordered : range.first ≤ range.last)
    (filled : saturatingAdd (range.last - range.first) 1 = segment.length)
    (locking : Locking uploadId request (.putUpload vault uploadId' put) uploadId'
      ⟨vault, hash⟩ size server) :
    (receiveSegment settings.toBlobLibraries vault uploadId' range segment).run.Meets
      (progressContract settings uploadId request)
      (Yields (Concluded uploadId request (.putUpload vault uploadId' put) uploadId'))
      server := by
  have live : (liveUpload vault uploadId').run.Meets
      (progressContract settings uploadId request)
      (Yields fun result server =>
        Locking uploadId request (.putUpload vault uploadId' put) uploadId' ⟨vault, hash⟩ size
          server ∧
        ∀ view, result = some view →
          Rechecked uploadId uploadId' vault hash size view server) server :=
    liveUpload_meets Locking.tolerates Locking.steady Rechecked.tolerates
      (fun _ _ _ locking sound progress found => .of_read locking sound progress found) locking
  refine yields_bind live ?_
  rintro row server ⟨locking, found⟩
  cases row with
  | none => exact progress_refuses_meets locking.toAwaiting (by decide)
  | some view =>
      have rechecked := found view rfl
      obtain rfl := rechecked.named
      obtain rfl := rechecked.sized
      have positive := rechecked.positive
      have within := rechecked.within
      have small : view.sizeClaimed ≤ i64Max := by
        unfold i64Max
        unfold absoluteMax audioCap at within
        omega
      have claimed := asU64_of_nonneg positive.le small
      dsimp only
      split
      · exact progress_refuses_meets locking.toAwaiting (by decide)
      · split
        · exact progress_refuses_meets locking.toAwaiting (by simp [Response.status])
        · rename_i aligned
          split
          · exact progress_refuses_meets locking.toAwaiting (by decide)
          · rename_i room
            rw [not_not] at aligned
            rw [← aligned]
            have stop : saturatingAdd range.last 1 = range.first + segment.length ∧
                0 < segment.length ∧ range.first + segment.length ≤ absoluteMax := by
              unfold saturatingAdd u64Max at *
              unfold absoluteMax audioCap at within ⊢
              omega
            obtain ⟨moved, filled, below⟩ := stop
            have checked : Checked uploadId request (.putUpload vault uploadId' put)
                uploadId' ⟨vault, view.hashClaimed⟩ view.sizeClaimed range.first server :=
              { toLocking := locking
                missing := by omega
                row := by
                  intro same
                  obtain ⟨nonneg, bounded⟩ := rechecked.nonneg same
                  have counter := asU64_of_nonneg nonneg (bounded.trans small)
                  rw [← aligned] at counter
                  obtain ⟨row, found, owned, here, sized⟩ := rechecked.row same (by omega)
                  exact ⟨row, found, owned, here.trans counter.symm, sized⟩ }
            refine yields_bind (stageSegment_meets checked) ?_
            rintro _ server ⟨inode, written⟩
            have exactly : asI64 (saturatingAdd range.last 1) =
                range.first + segment.length := by
              unfold asI64
              unfold absoluteMax audioCap at below
              rw [moved, if_pos (by omega)]
              push_cast
              rfl
            refine blob_meets_db (fun _ _ written tolerated => written.tolerates tolerated)
              written ?_ (fun _ _ _ => trivial) ?_
            · exact fun server written => written.pre sent
                (List.ne_nil_of_length_pos filled) exactly (by omega)
            rintro server _ server' written - committed
            obtain ⟨now, uuid, db, executed, -, rfl⟩ := committed.exec
            obtain ⟨recorded, receiving, counter⟩ := written.count sent executed
            split
            · refine blob_meets_pure (fun _ _ recorded tolerated =>
                recorded.tolerates tolerated) recorded ?_
              exact fun _ recorded =>
                { task := recorded.task
                  accepted := fun same _ => recorded.counted same
                  refused := fun _ refused => absurd refused (by simp [Response.status]) }
            · rename_i last
              rw [not_not] at last
              refine finishUpload_meets (by omega)
                { toReceiving := receiving
                  task := recorded.task
                  counted := recorded.counted
                  complete := ?_ }
              intro same row found
              obtain ⟨here, sized⟩ := counter same row found
              omega

/-- `put_upload` counts a segment or refuses it. -/
theorem putUpload_meets
    (awaiting : Awaiting uploadId request (.putUpload vault uploadId' put) server) :
    (putUpload settings.toBlobLibraries vault uploadId' put).run.Meets
      (progressContract settings uploadId request)
      (Yields (Concluded uploadId request (.putUpload vault uploadId' put) uploadId'))
      server := by
  unfold putUpload
  split
  · exact progress_refuses_meets awaiting (by decide)
  · rename_i range parsed
    split
    · exact progress_refuses_meets awaiting (by decide)
    · rename_i ordered
      split
      · exact fun _ _ => trivial
      · exact progress_refuses_meets awaiting (by decide)
      · rename_i segment buffered
        split_ifs with large filled
        · exact progress_refuses_meets awaiting (by decide)
        · exact progress_refuses_meets awaiting (by decide)
        · have sent : put.piece = some ⟨range.first, segment⟩ := by
            unfold PutRequest.piece
            rw [parsed, buffered]
          have live : (liveUpload vault uploadId').run.Meets
              (progressContract settings uploadId request)
              (Yields fun result server =>
                Awaiting uploadId request (.putUpload vault uploadId' put) server ∧
                ∀ view, result = some view → ∃ size,
                  server.Uploads uploadId' ⟨vault, view.hashClaimed⟩ size) server := by
            refine liveUpload_meets Awaiting.tolerates Awaiting.steady ?_ ?_ awaiting
            · rintro view server server' - ⟨size, upload⟩ tolerated
              exact ⟨size, tolerated.registered _ _ upload⟩
            · intro server now row _ sound _ found
              obtain ⟨stored, rfl⟩ := BlobDb.upload_eq_some_iff.mp found
              exact ⟨_, sound.uploadRows uploadId' row stored⟩
          refine yields_bind live ?_
          rintro row server ⟨awaiting, found⟩
          cases row with
          | none => exact progress_refuses_meets awaiting (by decide)
          | some preview =>
              obtain ⟨size, upload⟩ := found preview rfl
              have stable : (progressTerms settings.toBlobLibraries uploadId request).Stable
                  fun server =>
                    Awaiting uploadId request (.putUpload vault uploadId' put) server ∧
                    server.Uploads uploadId' ⟨vault, preview.hashClaimed⟩ size :=
                fun _ _ both tolerated => ⟨both.1.tolerates tolerated,
                  tolerated.registered _ _ both.2⟩
              refine blob_meets_attempt stable ⟨awaiting, upload⟩ (fun _ _ => trivial) ?_
              rintro server circumstance reply server' ⟨awaiting, upload⟩ - executed
              simp only [BlobServer.exec] at executed
              split at executed
              · obtain ⟨-, rfl⟩ := Prod.mk.inj (Option.some.inj executed)
                exact receiveSegment_meets sent (Nat.not_lt.mp ordered) (not_not.mp filled)
                  { task := awaiting.task
                    uncounted := awaiting.uncounted
                    upload := upload
                    lock := Function.update_self .. }
              · cases executed

/-! ## The other requests -/

/-- A call the terms ask nothing of. -/
def Indifferent (uploadId : String) (call : BlobCall) : Prop :=
  ∀ request server, progressPre uploadId request call server

theorem indifferent_meets
    {α : Type}
    {handler : BlobHandler α}
    (only : handler.run.Only (Indifferent uploadId)) :
    handler.run.Meets (progressContract settings uploadId request) (Yields (Ends α))
      server := by
  refine yields_always (only.meets (fun _ => True) (fun _ _ _ _ => trivial) ?_ ?_ trivial)
  · exact fun call server indifferent _ => indifferent request server
  · exact fun _ _ _ _ _ _ _ => trivial

theorem BlobCall.KeepsUploads.indifferent
    {call : BlobCall}
    (keeps : call.KeepsUploads) :
    Indifferent uploadId call := by
  intro request server
  unfold progressPre
  split <;> trivial

/-- Uploads are swept that have been seen expired. -/
theorem sweepUploads_meets
    {expired : List (VaultId × String)}
    {attempted : Nat}
    (outlived : ∀ upload ∈ expired, upload.2 = uploadId →
      server.uploads.registered uploadId ≠ none ∧ server.Outlived uploadId) :
    (sweepUploads expired attempted).run.Meets (progressContract settings uploadId request)
      (Yields (Ends Nat)) server := by
  induction expired generalizing attempted server with
  | nil => exact fun _ _ => trivial
  | cons upload rest inductionHypothesis =>
      have later : ∀ {server server' : BlobServer},
          (∀ upload ∈ rest, upload.2 = uploadId →
            server.uploads.registered uploadId ≠ none ∧ server.Outlived uploadId) →
          ProgressRely uploadId request server server' →
          ∀ upload ∈ rest, upload.2 = uploadId →
            server'.uploads.registered uploadId ≠ none ∧ server'.Outlived uploadId := by
        intro server server' outlived tolerated upload member same
        obtain ⟨registered, expired⟩ := outlived upload member same
        exact ⟨tolerated.known registered, tolerated.outlived registered expired⟩
      have settled : ∀ {server server' : BlobServer},
          (∀ upload ∈ rest, upload.2 = uploadId →
            server.uploads.registered uploadId ≠ none ∧ server.Outlived uploadId) →
          Steady uploadId request server server' →
          ∀ upload ∈ rest, upload.2 = uploadId →
            server'.uploads.registered uploadId ≠ none ∧ server'.Outlived uploadId := by
        intro server server' outlived steady upload member same
        obtain ⟨registered, expired⟩ := outlived upload member same
        exact ⟨steady.uploads ▸ registered, steady.outlived expired⟩
      refine yields_bind (discardUpload_meets later settled (outlived upload (.head _))
        fun upload member => outlived upload (.tail _ member)) ?_
      intro _ server outlived
      refine blob_meets_db (fun _ _ => later) outlived (fun _ _ => trivial)
        (fun _ _ _ => trivial) ?_
      intro server reply server' outlived _ committed
      obtain ⟨now, uuid, db, executed, -, rfl⟩ := committed.exec
      obtain ⟨-, rfl⟩ := Prod.mk.inj (Except.ok.inj executed)
      refine inductionHypothesis (settled outlived ?_)
      exact
        { requests := rfl
          locks := rfl
          uploads := rfl
          journal := List.prefix_append _ _
          rows := fun _ found => found
          counted := BlobServer.counted_commit_self.trans (or_iff_left Bool.false_ne_true) }

/-- The cleanup discards uploads that have expired. -/
theorem sweepExpiredUploads_meets :
    sweepExpiredUploads.run.Meets (progressContract settings uploadId request)
      (Yields (Ends Nat)) server := by
  have anything : (fun _ : BlobServer => True) server := trivial
  refine blob_meets_db (fun _ _ _ _ => trivial) anything (fun _ _ => trivial)
    (fun _ _ _ => trivial) ?_
  rintro server expired server' - ⟨sound, -⟩ committed
  obtain ⟨now, uuid, db, executed, -, rfl⟩ := committed.exec
  obtain ⟨rfl, rfl⟩ := Prod.mk.inj (Except.ok.inj executed)
  refine sweepUploads_meets ?_
  rintro upload member rfl
  simp only [BlobDb.expiredUploads, List.mem_map, List.mem_filter] at member
  obtain ⟨⟨uploadId, row⟩, ⟨stored, late⟩, rfl⟩ := member
  have found := AList.mem_lookup_iff.mpr stored
  refine ⟨?_, ?_⟩
  · change server.uploads.registered uploadId ≠ none
    rw [sound.uploadRows uploadId row found]
    exact nofun
  · intro row' found'
    obtain rfl := Option.some.inj (found.symm.trans found')
    exact ⟨_, List.mem_append_right _ (List.mem_singleton_self _), late⟩

/-- `get_upload` discards an upload that has expired. -/
theorem getUpload_meets :
    (getUpload vault uploadId').run.Meets (progressContract settings uploadId request)
      (Yields (Ends Response)) server := by
  have live : (liveUpload vault uploadId').run.Meets
      (progressContract settings uploadId request)
      (Yields fun result _ => True ∧ ∀ view, result = some view → True) server :=
    liveUpload_meets (fun _ _ => trivial) (fun _ _ => trivial) (fun _ _ _ => trivial)
      (fun _ _ _ _ _ _ _ => trivial) trivial
  refine yields_bind live ?_
  intro row server _
  cases row <;> exact fun _ _ => trivial

/-- The file of an upload that is not inserted may be removed. -/
theorem createUpload_meets (name : String) (claimed : Int64) :
    (createUpload vault name claimed).run.Meets (progressContract settings uploadId request)
      (Yields (Ends Response)) server := by
  have anything : ∀ server, (fun _ : BlobServer => True) server := fun _ => trivial
  have ends : ∀ response server, (pure response : BlobHandler Response).run.Meets
      (progressContract settings uploadId request) (Yields (Ends Response)) server :=
    fun _ _ _ _ => trivial
  unfold createUpload
  dsimp only
  split
  · rename_i valid
    refine blob_meets_db (fun _ _ _ _ => trivial) (anything server) (fun _ _ => trivial)
      (fun _ _ _ => trivial) ?_
    intro server found server' _ _ _
    split
    · exact ends _ _
    · split
      · exact ends _ _
      · refine blob_meets_db (fun _ _ _ _ => trivial) (anything server') (fun _ _ => trivial)
          (fun _ _ _ => trivial) ?_
        rintro server admission server' - ⟨sound, -⟩ committed
        cases admission with
        | tooManyUploads => exact ends _ _
        | quotaExceeded effective => exact ends _ _
        | admitted uploadId' =>
            obtain ⟨now, uuid, db, executed, undrawn, rfl⟩ := committed.exec
            obtain ⟨rfl, rfl⟩ := BlobDbCall.exec_admitUpload executed
            have drawn : BlobServer.Drawn request uploadId'
                (server.commit request now (.admitUpload vault (asU64 claimed.toInt))
                  (.admitted uploadId') server.db) :=
              { issued := Function.update_self ..
                unused := sound.undrawn uploadId' undrawn }
            have stable : (progressTerms settings.toBlobLibraries uploadId request).Stable
                (BlobServer.Drawn request uploadId') :=
              fun _ _ drawn tolerated => tolerated.drawn uploadId' drawn
            refine yields_look rfl stable drawn (fun _ _ => trivial) ?_
            intro server _ drawn _ _
            refine yields_file stable drawn (fun _ _ => trivial) ?_
            intro server _ disk drawn _ _
            have drawn : BlobServer.Drawn request uploadId' { server with disk := disk } :=
              ⟨drawn.issued, drawn.unused⟩
            refine blob_meets_attempt stable drawn (fun _ _ => trivial) ?_
            intro server circumstance inserted server' drawn _ executed
            cases inserted with
            | ok _ => exact ends _ _
            | error error =>
                rcases BlobServer.query_cases executed with ⟨_, -, rfl⟩ | ⟨_, _, failed, -⟩
                · refine blob_meets_attempt stable drawn ?_
                    fun _ _ _ _ _ _ _ _ _ => trivial
                  intro server drawn same
                  obtain rfl := tmpFilePath_inj.mp same
                  exact Or.inl drawn.unused
                · cases failed
  · exact ends _ _

/-- What has come of an answered request. -/
def ProgressOutcome
    (uploadId : String)
    (request : Nat)
    (outcome : BlobOutcome)
    (server : BlobServer) : Prop :=
  ∀ vault put response,
    server.requests[request]? = some (.putUpload vault uploadId put) →
    outcome = .response (.ok response) →
    Concluded uploadId request (.putUpload vault uploadId put) uploadId response server

/-- Every request keeps to the terms. -/
theorem blobProgram_progress
    (awaiting : Awaiting uploadId request task server) :
    (blobProgram settings task).Meets (progressContract settings uploadId request)
      (ProgressOutcome uploadId request) server := by
  have known : ∀ {program : Program blobSignature BlobOutcome},
      (∀ vault put, task ≠ .putUpload vault uploadId put) →
      program.Meets (progressContract settings uploadId request) (fun _ _ => True) server →
      program.Meets (progressContract settings uploadId request)
        (ProgressOutcome uploadId request) server := by
    intro program other meets
    refine (meets.keeps (fun server => server.requests[request]? = some task) ?_ ?_
      awaiting.task).weaken ?_
    · exact fun server server' made tolerated => ProgressRely.made tolerated made
    · rintro call server reply server' made ⟨-, circumstance, executed⟩
      rw [(BlobServer.exec_records executed).1, made]
    · rintro outcome server ⟨-, made⟩ vault put response same -
      exact absurd (Option.some.inj (made.symm.trans same)) (other vault put)
  have ends : ∀ {α : Type} {handler : BlobHandler α}
      {outcome : Except ServerError α → BlobOutcome},
      handler.run.Meets (progressContract settings uploadId request) (Yields (Ends α))
        server →
      (handler.run.bind fun result => .done (outcome result)).Meets
        (progressContract settings uploadId request) (fun _ _ => True) server :=
    fun yields => Program.Meets.bind _ yields fun _ _ _ _ _ => trivial
  cases task with
  | putUpload vault uploadId' put =>
      refine Program.Meets.bind _ (putUpload_meets awaiting) ?_
      intro result server ended later tolerated vault' put' response same answered
      have concluded := ended later tolerated
      obtain rfl := BlobOutcome.response.inj answered
      obtain ⟨rfl, rfl, rfl⟩ := BlobTask.putUpload.inj
        (Option.some.inj (concluded.task.symm.trans same))
      exact concluded
  | createUpload vault hash size =>
      exact known nofun (ends (createUpload_meets hash size))
  | getUpload vault uploadId' => exact known nofun (ends getUpload_meets)
  | sweep => exact known nofun (ends sweepExpiredUploads_meets)
  | getBlob vault hash range =>
      refine known nofun (ends (indifferent_meets (getBlob_only vault hash range ?_ ?_ ?_ ?_ ?_)))
      all_goals (intros; exact BlobCall.KeepsUploads.indifferent rfl)
  | postBlobPath vault body =>
      exact known nofun (ends (indifferent_meets ((postBlobPath_keepsUploads _ vault body).mono
        fun _ => BlobCall.KeepsUploads.indifferent)))
  | listBlobPaths vault sinceSeq limit =>
      exact known nofun (ends (indifferent_meets
        (only_db.mpr ⟨BlobCall.KeepsUploads.indifferent rfl, fun _ => trivial⟩)))
  | holdLock key =>
      refine known nofun ?_
      exact fun _ _ => ⟨trivial, fun _ _ _ _ _ => trivial⟩

end Segments

end VaultCrdtServer
