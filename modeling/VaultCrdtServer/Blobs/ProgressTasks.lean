import VaultCrdtServer.Blobs.Progress

/-!
# What the requests do to the progress of an upload

A PUT that has found the upload again under the lock writes its segment where
the counter stands and moves the counter past it.  Whoever else takes an upload
away has seen it expired, or misses none of its bytes.
-/

namespace VaultCrdtServer

open Interleaving

/-! ## Counting -/

namespace BlobServer

variable {uploadId : String} {request other : Nat} {server server' : BlobServer}

/-- A counted segment is that of the request the call was made for. -/
theorem countedPiece_origin
    {entry : BlobEntry}
    {counted : CountedPiece}
    {requests : List BlobTask}
    (found : entry.countedPiece requests uploadId = some counted) :
    counted.origin = entry.origin := by
  unfold BlobEntry.countedPiece at found
  split at found
  · split_ifs at found
    obtain ⟨piece, -, rfl⟩ := Option.map_eq_some_iff.mp found
    rfl
  · cases found

/-- What has been counted depends on the requests and the journal. -/
theorem counted_iff :
    server.Counted uploadId request ↔
      ∃ counted ∈ server.countedPieces uploadId, counted.origin = request := by
  simp only [Counted, countedPieces, entriesOf, List.mem_filter, List.mem_filterMap,
    decide_eq_true_eq, Option.isSome_iff_exists]
  constructor
  · rintro ⟨entry, ⟨member, rfl⟩, counted, found⟩
    exact ⟨counted, ⟨entry, member, found⟩, countedPiece_origin found⟩
  · rintro ⟨counted, ⟨entry, member, found⟩, rfl⟩
    exact ⟨entry, ⟨member, (countedPiece_origin found).symm⟩, counted, found⟩

theorem counted_commit_self
    {now : Time}
    {call : BlobDbCall}
    {reply : call.Reply}
    {db : BlobDb} :
    (server.commit request now call reply db).Counted uploadId request ↔
      server.Counted uploadId request ∨
        (BlobEntry.countedPiece server.requests uploadId
          ⟨request, now, call, reply, server.db, db⟩).isSome = true := by
  unfold Counted
  rw [entriesOf_commit_self]
  simp only [List.mem_append, List.mem_singleton, or_and_right, exists_or, exists_eq_left]
  rfl

/-- The requests and database calls of a request say whether it has counted its
segment. -/
theorem counted_of_entries
    (requests : server'.requests[request]? = server.requests[request]?)
    (entries : server'.entriesOf request = server.entriesOf request) :
    server'.Counted uploadId request ↔ server.Counted uploadId request := by
  unfold Counted
  rw [entries]
  refine exists_congr fun entry => and_congr_right fun member => ?_
  have own : entry.origin = request := by
    simpa [entriesOf] using (List.mem_filter.mp member).2
  unfold BlobEntry.countedPiece
  rw [own, requests]

end BlobServer

/-! ## Assertions -/

/-- What a call that settles an upload leaves alone. -/
structure Steady (uploadId : String) (request : Nat) (server server' : BlobServer) : Prop where
  requests : server'.requests = server.requests
  locks : server'.docLocks = server.docLocks
  uploads : server'.uploads = server.uploads
  journal : server.journal <+: server'.journal
  rows : ∀ row, server'.db.blobUploads.lookup uploadId = some row →
    server.db.blobUploads.lookup uploadId = some row
  counted : server'.Counted uploadId request ↔ server.Counted uploadId request

theorem Steady.of_exec
    {settings : BlobSettings}
    {uploadId uploadId' : String}
    {request : Nat}
    {call : BlobCall}
    {circumstance : BlobCircumstance}
    {reply : blobSignature.Reply call}
    {server server' : BlobServer}
    (settles : call.Settles uploadId')
    (executed : BlobServer.exec settings request call circumstance server =
      some (reply, server')) :
    Steady uploadId request server server' := by
  cases call with
  | db call =>
      rcases BlobServer.query_cases executed with
        ⟨error, rfl, rfl⟩ | ⟨value, db, rfl, -, effect, rfl⟩
      · exact ⟨rfl, rfl, rfl, List.prefix_rfl, fun _ found => found, Iff.rfl⟩
      · refine
          { requests := rfl
            locks := rfl
            uploads := ?_
            journal := List.prefix_append _ _
            rows := ?_
            counted := ?_ }
        · cases call <;> first | rfl | cases settles
        · intro row found
          change db.blobUploads.lookup uploadId = some row at found
          cases BlobDbCall.exec_effect effect with
          | deleteUpload found' owned =>
              rw [Table.lookup_erase_eq_ite] at found
              split_ifs at found
              exact found
          | insertUpload => cases settles
          | updateReceived => cases settles
          | upsertPath => cases settles
          | _ => exact found
        · rw [BlobServer.counted_commit_self]
          refine or_iff_left ?_
          cases call <;> first | exact Bool.false_ne_true | cases settles
  | file call =>
      simp only [BlobServer.exec, Option.some.injEq] at executed
      rw [BlobServer.operate_eq executed]
      exact ⟨rfl, rfl, rfl, List.prefix_rfl, fun _ found => found, Iff.rfl⟩
  | lock key => cases settles
  | publish event => cases settles

section Assertions

variable {uploadId : String} {request : Nat} {server server' : BlobServer} {task : BlobTask}

/-- The contract of a request. -/
abbrev progressContract
    (settings : BlobSettings)
    (uploadId : String)
    (request : Nat) : Contract blobSignature BlobServer :=
  blobContract settings request (progressTerms settings.toBlobLibraries uploadId request)

/-- Requests that have been made stay so. -/
theorem made_of_prefix
    (extended : server.requests <+: server'.requests)
    (made : server.requests[request]? = some task) :
    server'.requests[request]? = some task := by
  obtain ⟨within, rfl⟩ := List.getElem?_eq_some_iff.mp made
  exact List.prefix_iff_getElem?.mp extended request within

theorem ProgressRely.made
    (tolerated : ProgressRely uploadId request server server')
    (made : server.requests[request]? = some task) :
    server'.requests[request]? = some task :=
  made_of_prefix tolerated.requests made

theorem ProgressRely.counted_iff
    (tolerated : ProgressRely uploadId request server server')
    (made : server.requests[request]? = some task) :
    server'.Counted uploadId request ↔ server.Counted uploadId request :=
  BlobServer.counted_of_entries ((tolerated.made made).trans made.symm) tolerated.entries

theorem ProgressRely.outlived
    (tolerated : ProgressRely uploadId request server server')
    (registered : server.uploads.registered uploadId ≠ none)
    (outlived : server.Outlived uploadId) :
    server'.Outlived uploadId := by
  intro row' found'
  obtain ⟨row, found, same⟩ := tolerated.created registered row' found'
  obtain ⟨entry, member, expired⟩ := outlived row found
  refine ⟨entry, tolerated.journal.subset member, ?_⟩
  simpa only [UploadRow.expired, same] using expired

/-- An upload id that is known stays so. -/
theorem ProgressRely.known
    (tolerated : ProgressRely uploadId request server server')
    (registered : server.uploads.registered uploadId ≠ none) :
    server'.uploads.registered uploadId ≠ none := by
  obtain ⟨claim, known⟩ := Option.ne_none_iff_exists'.mp registered
  rw [tolerated.registered uploadId claim known]
  exact nofun

theorem Steady.outlived
    (steady : Steady uploadId request server server')
    (outlived : server.Outlived uploadId) :
    server'.Outlived uploadId := by
  intro row found
  obtain ⟨entry, member, expired⟩ := outlived row (steady.rows row found)
  exact ⟨entry, steady.journal.subset member, expired⟩

/-- The request has not counted a segment of the upload. -/
structure Awaiting
    (uploadId : String)
    (request : Nat)
    (task : BlobTask)
    (server : BlobServer) : Prop where
  task : server.requests[request]? = some task
  uncounted : ¬ server.Counted uploadId request

theorem Awaiting.tolerates
    (awaiting : Awaiting uploadId request task server)
    (tolerated : ProgressRely uploadId request server server') :
    Awaiting uploadId request task server' where
  task := tolerated.made awaiting.task
  uncounted := (tolerated.counted_iff awaiting.task).not.mpr awaiting.uncounted

theorem Awaiting.steady
    (awaiting : Awaiting uploadId request task server)
    (steady : Steady uploadId request server server') :
    Awaiting uploadId request task server' where
  task := by rw [steady.requests, awaiting.task]
  uncounted := steady.counted.not.mpr awaiting.uncounted

variable {uploadId' : String} {key : BlobKey} {size : Int}

/-- The request waits with the lock of an upload. -/
structure Locking
    (uploadId : String)
    (request : Nat)
    (task : BlobTask)
    (uploadId' : String)
    (key : BlobKey)
    (size : Int)
    (server : BlobServer) : Prop
    extends Awaiting uploadId request task server,
      server.Receiving request uploadId' key size

theorem Locking.tolerates
    (locking : Locking uploadId request task uploadId' key size server)
    (tolerated : ProgressRely uploadId request server server') :
    Locking uploadId request task uploadId' key size server' where
  toAwaiting := locking.toAwaiting.tolerates tolerated
  toReceiving := locking.toReceiving.tolerates tolerated.toStagingRely

theorem Locking.steady
    (locking : Locking uploadId request task uploadId' key size server)
    (steady : Steady uploadId request server server') :
    Locking uploadId request task uploadId' key size server' where
  toAwaiting := locking.toAwaiting.steady steady
  upload := by
    rw [BlobServer.Uploads, steady.uploads]
    exact locking.upload
  lock := by
    rw [BlobServer.LocksBlob, steady.locks]
    exact locking.lock

/-- The upload is there, and the counter stands somewhere before its end. -/
structure Checked
    (uploadId : String)
    (request : Nat)
    (task : BlobTask)
    (uploadId' : String)
    (key : BlobKey)
    (size received : Int)
    (server : BlobServer) : Prop
    extends Locking uploadId request task uploadId' key size server where
  missing : received < size
  row : uploadId' = uploadId → ∃ row, server.db.blobUploads.lookup uploadId = some row ∧
    row.vaultId = key.vault ∧ row.receivedBytes = received ∧ row.sizeClaimed = size

variable {received : Int}

theorem Checked.tolerates
    (checked : Checked uploadId request task uploadId' key size received server)
    (tolerated : ProgressRely uploadId request server server') :
    Checked uploadId request task uploadId' key size received server' := by
  refine
    { toLocking := checked.toLocking.tolerates tolerated
      missing := checked.missing
      row := ?_ }
  rintro rfl
  obtain ⟨row, found, vault, counter, claimed⟩ := checked.row rfl
  have incomplete : row.receivedBytes < row.sizeClaimed := by
    rw [counter, claimed]
    exact checked.missing
  exact ⟨row, (tolerated.progress key size checked.toReceiving).kept row found incomplete,
    vault, counter, claimed⟩

/-- The request has the staged file open. -/
structure Writing
    (uploadId : String)
    (request : Nat)
    (task : BlobTask)
    (uploadId' : String)
    (key : BlobKey)
    (size received : Int)
    (inode : Nat)
    (server : BlobServer) : Prop
    extends Checked uploadId request task uploadId' key size received server where
  born : server.disk.birth inode = some (tmpFilePath uploadId')
  current : uploadId' = uploadId →
    server.disk.entry (tmpFilePath uploadId) = some inode

variable {inode : Nat}

theorem Writing.tolerates
    (writing : Writing uploadId request task uploadId' key size received inode server)
    (tolerated : ProgressRely uploadId request server server') :
    Writing uploadId request task uploadId' key size received inode server' := by
  refine
    { toChecked := writing.toChecked.tolerates tolerated
      born := tolerated.births _ _ writing.born
      current := ?_ }
  rintro rfl
  obtain ⟨row, found, -, counter, claimed⟩ := writing.row rfl
  have incomplete : row.receivedBytes < row.sizeClaimed := by
    rw [counter, claimed]
    exact writing.missing
  exact (tolerated.progress key size writing.toReceiving).file row inode found incomplete
    (writing.current rfl)

/-- The segment stands in the staged file where the counter stands. -/
structure Written
    (uploadId : String)
    (request : Nat)
    (task : BlobTask)
    (uploadId' : String)
    (key : BlobKey)
    (size received : Int)
    (segment : Bytes)
    (inode : Nat)
    (server : BlobServer) : Prop
    extends Writing uploadId request task uploadId' key size received inode server where
  follows : uploadId' = uploadId → ∃ front, (front.length : Int) = received ∧
    front ++ segment <+: server.disk.contents inode

variable {segment : Bytes}

theorem Written.tolerates
    (written : Written uploadId request task uploadId' key size received segment inode server)
    (tolerated : ProgressRely uploadId request server server') :
    Written uploadId request task uploadId' key size received segment inode server' := by
  have writing := written.toWriting.tolerates tolerated
  refine { toWriting := writing, follows := ?_ }
  rintro rfl
  have held := tolerated.held key written.lock
  obtain ⟨-, same⟩ := held.staged uploadId' size written.upload inode (writing.current rfl)
  rw [same]
  exact written.follows rfl

/-- The segment has been counted, and it was the last. -/
structure Finishing
    (uploadId : String)
    (request : Nat)
    (task : BlobTask)
    (uploadId' : String)
    (key : BlobKey)
    (size : Int)
    (server : BlobServer) : Prop extends server.Receiving request uploadId' key size where
  task : server.requests[request]? = some task
  counted : uploadId' = uploadId → server.Counted uploadId request
  complete : uploadId' = uploadId → ∀ row,
    server.db.blobUploads.lookup uploadId = some row → row.receivedBytes = row.sizeClaimed

theorem Finishing.tolerates
    (finishing : Finishing uploadId request task uploadId' key size server)
    (tolerated : ProgressRely uploadId request server server') :
    Finishing uploadId request task uploadId' key size server' := by
  refine
    { toReceiving := finishing.toReceiving.tolerates tolerated.toStagingRely
      task := tolerated.made finishing.task
      counted := fun same => (tolerated.counted_iff finishing.task).mpr (finishing.counted same)
      complete := ?_ }
  rintro rfl row found
  exact finishing.complete rfl row
    ((tolerated.progress key size finishing.toReceiving).rows row found)

theorem Finishing.steady
    (finishing : Finishing uploadId request task uploadId' key size server)
    (steady : Steady uploadId request server server') :
    Finishing uploadId request task uploadId' key size server' where
  upload := by
    rw [BlobServer.Uploads, steady.uploads]
    exact finishing.upload
  lock := by
    rw [BlobServer.LocksBlob, steady.locks]
    exact finishing.lock
  task := by rw [steady.requests, finishing.task]
  counted := fun same => steady.counted.mpr (finishing.counted same)
  complete := fun same row found => finishing.complete same row (steady.rows row found)

/-- The staged file may be touched. -/
theorem Checked.of_disk
    (checked : Checked uploadId request task uploadId' key size received server)
    (disk : Disk FilePath UInt8) :
    Checked uploadId request task uploadId' key size received
      { server with disk := disk } where
  task := checked.task
  uncounted := checked.uncounted
  upload := checked.upload
  lock := checked.lock
  missing := checked.missing
  row := checked.row

end Assertions

/-! ## Handlers -/

/-- What `read_upload` makes of a row. -/
def UploadRow.view (now : Time) (row : UploadRow) : UploadView where
  hashClaimed := row.hashClaimed
  sizeClaimed := row.sizeClaimed
  receivedBytes := row.receivedBytes
  expired := row.expired now

section Handlers

variable {settings : BlobSettings} {uploadId uploadId' : String} {request : Nat}
variable {server : BlobServer} {task : BlobTask} {vault : VaultId} {α : Type}

/-- A handler that settles an upload. -/
theorem settles_meets
    {handler : BlobHandler α}
    {assertion : BlobServer → Prop}
    (only : handler.run.Only (BlobCall.Settles uploadId'))
    (tolerates : ∀ {server server'}, assertion server →
      ProgressRely uploadId request server server' → assertion server')
    (steady : ∀ {server server'}, assertion server →
      Steady uploadId request server server' → assertion server')
    (removable : ∀ {server}, assertion server → uploadId' = uploadId →
      server.uploads.registered uploadId = none ∨ server.Removable uploadId)
    (holds : assertion server) :
    handler.run.Meets (progressContract settings uploadId request) (fun _ => assertion)
      server := by
  refine only.meets assertion (fun _ _ => tolerates) ?_ ?_ holds
  · intro call server settles holds
    cases call with
    | db call =>
        cases call with
        | deleteUpload vault uploadId'' =>
            rintro rfl
            exact removable holds (Eq.symm settles)
        | updateReceived => cases settles
        | _ => trivial
    | file call =>
        cases call with
        | removeFile path =>
            rintro rfl
            rcases settles with same | other
            · exact removable holds (tmpFilePath_inj.mp same).symm
            · exact absurd rfl (other uploadId)
        | rename source target =>
            rintro rfl
            exact removable holds (tmpFilePath_inj.mp settles.1).symm
        | «open» path create =>
            obtain rfl : create = false := settles
            trivial
        | writeAll => cases settles
        | _ => trivial
    | lock key => cases settles
    | publish event => cases settles
  · rintro call server reply server' settles holds ⟨-, circumstance, executed⟩
    exact steady holds (.of_exec settles executed)

/-- An upload that has been seen expired may be discarded. -/
theorem discardUpload_meets
    {assertion : BlobServer → Prop}
    (tolerates : ∀ {server server'}, assertion server →
      ProgressRely uploadId request server server' → assertion server')
    (steady : ∀ {server server'}, assertion server →
      Steady uploadId request server server' → assertion server')
    (outlived : uploadId' = uploadId →
      server.uploads.registered uploadId ≠ none ∧ server.Outlived uploadId)
    (holds : assertion server) :
    (discardUpload vault uploadId').run.Meets (progressContract settings uploadId request)
      (Yields fun _ => assertion) server := by
  have discards : (discardUpload vault uploadId').run.Meets
      (progressContract settings uploadId request)
      (fun _ server => assertion server ∧ (uploadId' = uploadId →
        server.uploads.registered uploadId ≠ none ∧ server.Outlived uploadId)) server := by
    refine settles_meets (discardUpload_settles vault uploadId') ?_ ?_ ?_ ⟨holds, outlived⟩
    · rintro server server' ⟨holds, outlived⟩ tolerated
      refine ⟨tolerates holds tolerated, ?_⟩
      intro same
      obtain ⟨registered, expired⟩ := outlived same
      exact ⟨tolerated.known registered, tolerated.outlived registered expired⟩
    · rintro server server' ⟨holds, outlived⟩ kept
      refine ⟨steady holds kept, ?_⟩
      intro same
      obtain ⟨registered, expired⟩ := outlived same
      exact ⟨kept.uploads ▸ registered, kept.outlived expired⟩
    · rintro server ⟨-, outlived⟩ same
      exact Or.inr fun row found => Or.inr ((outlived same).2 row found)
  exact yields_always (discards.weaken fun _ _ known => known.1)

/-- An upload that is found is there when it is read, and one that has expired is
discarded. -/
theorem liveUpload_meets
    {assertion : BlobServer → Prop}
    {found : UploadView → BlobServer → Prop}
    (tolerates : ∀ {server server'}, assertion server →
      ProgressRely uploadId request server server' → assertion server')
    (steady : ∀ {server server'}, assertion server →
      Steady uploadId request server server' → assertion server')
    (stable : ∀ {view server server'}, assertion server → found view server →
      ProgressRely uploadId request server server' → found view server')
    (reads : ∀ (server : BlobServer) (now : Time) (row : UploadRow), assertion server →
      StoreSound settings.toBlobLibraries server → Progress uploadId server →
      server.db.upload vault uploadId' = some row →
      found (row.view now) (server.commit request now (.readUpload vault uploadId')
        (some (row.view now)) server.db))
    (holds : assertion server) :
    (liveUpload vault uploadId').run.Meets (progressContract settings uploadId request)
      (Yields fun result server => assertion server ∧
        ∀ view, result = some view → found view server) server := by
  refine blob_meets_db (fun _ _ => tolerates) holds (fun _ _ => trivial)
    (fun _ _ _ => trivial) ?_
  rintro server result server' holds ⟨sound, progress⟩ committed
  obtain ⟨now, uuid, db, executed, -, rfl⟩ := committed.exec
  obtain ⟨replied, rfl⟩ := Prod.mk.inj (Except.ok.inj executed)
  subst replied
  have kept : ∀ reply, Steady uploadId request server
      (server.commit request now (.readUpload vault uploadId') reply server.db) :=
    fun reply =>
      { requests := rfl
        locks := rfl
        uploads := rfl
        journal := List.prefix_append _ _
        rows := fun _ found => found
        counted := BlobServer.counted_commit_self.trans (or_iff_left Bool.false_ne_true) }
  unfold BlobDb.readUpload
  cases present : server.db.upload vault uploadId' with
  | none =>
      exact blob_meets_pure (fun _ _ => tolerates) (steady holds (kept _))
        fun _ holds => ⟨holds, nofun⟩
  | some row =>
      have here := reads server now row holds sound progress present
      dsimp only [Option.map_some]
      split
      · rename_i expired
        obtain ⟨stored, -⟩ := BlobDb.upload_eq_some_iff.mp present
        have outlived : uploadId' = uploadId →
            server.uploads.registered uploadId ≠ none ∧
              (server.commit request now (.readUpload vault uploadId')
                (some (row.view now)) server.db).Outlived uploadId := by
          rintro rfl
          refine ⟨?_, ?_⟩
          · rw [sound.uploadRows uploadId' row stored]
            exact nofun
          · intro row' stored'
            obtain rfl := Option.some.inj (stored.symm.trans stored')
            exact ⟨_, List.mem_append_right _ (List.mem_singleton_self _), expired⟩
        refine yields_bind (discardUpload_meets tolerates steady outlived
          (steady holds (kept _))) ?_
        intro _ server holds
        exact blob_meets_pure (fun _ _ => tolerates) holds fun _ holds => ⟨holds, nofun⟩
      · have both : (progressTerms settings.toBlobLibraries uploadId request).Stable
            fun server => assertion server ∧ found (row.view now) server :=
          fun _ _ both tolerated =>
            ⟨tolerates both.1 tolerated, stable both.1 both.2 tolerated⟩
        refine blob_meets_pure both ⟨steady holds (kept _), here⟩ ?_
        rintro server ⟨holds, here⟩
        refine ⟨holds, ?_⟩
        intro view same
        obtain rfl := Option.some.inj same
        exact here

/-- A segment is written where the counter stands. -/
theorem stageSegment_meets
    {key : BlobKey}
    {size : Int}
    {offset : Nat}
    {segment : Bytes}
    (checked : Checked uploadId request task uploadId' key size offset server) :
    (stageSegment uploadId' offset segment).run.Meets
      (progressContract settings uploadId request)
      (Yields fun _ server => ∃ inode,
        Written uploadId request task uploadId' key size offset segment inode server)
      server := by
  refine yields_file (fun _ _ checked tolerated => checked.tolerates tolerated) checked ?_ ?_
  · intro server checked same row found
    obtain rfl := tmpFilePath_inj.mp same
    obtain ⟨row', found', -, counter, claimed⟩ := checked.row rfl
    obtain rfl := Option.some.inj (found'.symm.trans found)
    rw [counter, claimed]
    exact checked.missing
  rintro before file disk checked ⟨sound, -⟩ opened
  obtain ⟨replied, rfl⟩ := Prod.mk.inj opened
  obtain rfl := Except.ok.inj replied
  have writing : Writing uploadId request task uploadId' key size offset
      (before.disk.openOrCreate (tmpFilePath uploadId')).1
      { before with disk := (before.disk.openOrCreate (tmpFilePath uploadId')).2 } :=
    { toChecked := checked.of_disk _
      born := Disk.birth_openOrCreate_self (sound.staged uploadId')
      current := by
        rintro rfl
        exact before.disk.entry_openOrCreate_self (tmpFilePath uploadId') }
  have stable : (progressTerms settings.toBlobLibraries uploadId request).Stable
      (Writing uploadId request task uploadId' key size offset
        (before.disk.openOrCreate (tmpFilePath uploadId')).1) :=
    fun _ _ writing tolerated => writing.tolerates tolerated
  refine yields_look rfl stable writing (fun _ _ => trivial) ?_
  intro server file writing _ sought
  obtain rfl := Except.ok.inj (Prod.mk.inj sought).1
  refine yields_file stable writing ?_ ?_
  · intro server writing born row found
    obtain rfl := tmpFilePath_inj.mp (Option.some.inj (born.symm.trans writing.born))
    obtain ⟨row', found', -, counter, -⟩ := writing.row rfl
    obtain rfl := Option.some.inj (found'.symm.trans found)
    exact counter
  rintro server _ disk writing ⟨-, progress⟩ wrote
  obtain ⟨-, rfl⟩ := Prod.mk.inj wrote
  have written : Written uploadId request task uploadId' key size offset segment
      (before.disk.openOrCreate (tmpFilePath uploadId')).1
      { server with
        disk := server.disk.writeAt 0
          (before.disk.openOrCreate (tmpFilePath uploadId')).1 offset segment } :=
    { toChecked := writing.toChecked.of_disk _
      born := writing.born
      current := writing.current
      follows := by
        rintro rfl
        obtain ⟨row, found, -, counter, -⟩ := writing.row rfl
        have begins := progress.staged row _ found (writing.current rfl)
        have counted := (progress.received row found).1
        rw [counter, Int.natCast_inj] at counted
        refine ⟨_, congrArg _ counted.symm, ?_⟩
        rw [Disk.contents_writeAt, if_pos rfl, counted]
        exact Disk.append_prefix_overwrite 0 begins segment }
  have synced : (progressTerms settings.toBlobLibraries uploadId request).Stable
      fun server => ∃ inode,
        Written uploadId request task uploadId' key size offset segment inode server := by
    rintro server server' ⟨inode, written⟩ tolerated
    exact ⟨inode, written.tolerates tolerated⟩
  exact yields_last_look rfl synced ⟨_, written⟩ fun _ _ => trivial

/-- What a PUT has done when it is answered. -/
structure Concluded
    (uploadId : String)
    (request : Nat)
    (task : BlobTask)
    (uploadId' : String)
    (response : Response)
    (server : BlobServer) : Prop where
  task : server.requests[request]? = some task
  accepted : uploadId' = uploadId → response.status = 201 ∨ response.status = 202 →
    server.Counted uploadId request
  refused : uploadId' = uploadId → response.status ∈ [400, 404, 409, 413] →
    ¬ server.Counted uploadId request

theorem Awaiting.concludes
    {response : Response}
    (awaiting : Awaiting uploadId request task server)
    (refuses : response.status ≠ 201 ∧ response.status ≠ 202) :
    Concluded uploadId request task uploadId' response server where
  task := awaiting.task
  accepted := fun _ accepts => absurd accepts (by simp [refuses])
  refused := fun _ _ => awaiting.uncounted

/-- A PUT is refused before it has counted its segment. -/
theorem progress_refuses_meets
    {response : Response}
    (awaiting : Awaiting uploadId request task server)
    (refuses : response.status ≠ 201 ∧ response.status ≠ 202) :
    (pure response : BlobHandler Response).run.Meets
      (progressContract settings uploadId request)
      (Yields (Concluded uploadId request task uploadId')) server :=
  blob_meets_pure (fun _ _ awaiting tolerated => awaiting.tolerates tolerated) awaiting
    fun _ awaiting => awaiting.concludes refuses

/-- An answer with which a PUT may end once its last segment has been counted. -/
def EndsFinished (result : Except ServerError Response) : Prop :=
  ∀ response, result = .ok response → response.status = 201 ∨ response.status = 422

theorem endsFinished_error (error : ServerError) : EndsFinished (.error error) := nofun

theorem endsFinished_ok
    {response : Response}
    (finished : response.status = 201 ∨ response.status = 422) :
    EndsFinished (.ok response) := by
  intro response' same
  rw [← Except.ok.inj same]
  exact finished

theorem recordBlob_finally (view : UploadView) (destExisted : Bool) :
    (recordBlob vault uploadId view destExisted).run.Finally EndsFinished := by
  have fails : ∀ error : ServerError,
      (do discardUpload vault uploadId
          throw error : BlobHandler Response).run.Finally EndsFinished :=
    fun error => .bind_fallible endsFinished_error fun _ => endsFinished_error error
  have stores : (do BlobHandler.db (.deleteUpload vault uploadId)
                    return .blobStored view.hashClaimed : BlobHandler Response).run.Finally
      EndsFinished :=
    .bind_fallible endsFinished_error fun _ => endsFinished_ok (Or.inl rfl)
  refine finally_attempt.mpr ?_
  intro inserted
  cases inserted with
  | error error =>
      cases destExisted with
      | true => exact fails error
      | false => exact finally_attempt.mpr fun _ => fails error
  | ok inserted =>
      dsimp only
      split
      · refine .bind_fallible endsFinished_error ?_
        intro hasRow
        cases hasRow with
        | true => exact stores
        | false => exact finally_attempt.mpr fun _ => fails _
      · exact stores

/-- The end of a PUT neither accepts a segment nor refuses it. -/
theorem finishUpload_finally
    {libraries : BlobLibraries}
    {view : UploadView}
    {next : Nat}
    (within : next ≤ absoluteMax) :
    (finishUpload libraries vault uploadId view next).run.Finally EndsFinished := by
  have refuses : ∀ kind : String,
      (do discardUpload vault uploadId
          return .error 422 kind : BlobHandler Response).run.Finally EndsFinished :=
    fun kind => .bind_fallible endsFinished_error fun _ => endsFinished_ok (Or.inr rfl)
  unfold finishUpload
  rw [if_neg (by omega)]
  refine .bind_fallible endsFinished_error ?_
  intro bytes
  split
  · exact refuses _
  · split
    · exact refuses _
    · exact .bind_fallible endsFinished_error fun destExisted =>
        recordBlob_finally view destExisted

/-- A PUT whose last segment has been counted. -/
theorem finishUpload_meets
    {key : BlobKey}
    {size : Int}
    {view : UploadView}
    {next : Nat}
    (within : next ≤ absoluteMax)
    (finishing : Finishing uploadId request task uploadId' key size server) :
    (finishUpload settings.toBlobLibraries vault uploadId' view next).run.Meets
      (progressContract settings uploadId request)
      (Yields (Concluded uploadId request task uploadId')) server := by
  have settles : (finishUpload settings.toBlobLibraries vault uploadId' view next).run.Meets
      (progressContract settings uploadId request)
      (fun _ => Finishing uploadId request task uploadId' key size) server := by
    refine settles_meets (finishUpload_settles _ vault uploadId' view next)
      Finishing.tolerates Finishing.steady ?_ finishing
    exact fun finishing same => Or.inr fun row found =>
      Or.inl (finishing.complete same row found)
  refine (settles.finally (finishUpload_finally within)).weaken ?_
  rintro result server ⟨finishing, ends⟩
  cases result with
  | error error => trivial
  | ok response =>
      have finished := ends response rfl
      exact
        { task := finishing.task
          accepted := fun same _ => finishing.counted same
          refused := by
            intro _ refused
            rcases finished with status | status <;> simp [status] at refused }

end Handlers

end VaultCrdtServer
