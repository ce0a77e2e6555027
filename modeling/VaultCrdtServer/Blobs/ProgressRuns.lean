import VaultCrdtServer.Blobs.Records
import VaultCrdtServer.Blobs.Segments

/-!
# Runs, as far as the progress of an upload is concerned

A call that is made as the terms of `Progress` require moves the counter past a
segment that stands in the staged file, or leaves the counter and what has been
counted alone.
-/

namespace VaultCrdtServer

open Interleaving

section Calls

variable {settings : BlobSettings} {libraries : BlobLibraries} {uploadId : String}
variable {request other : Nat} {server server' : BlobServer}

/-- What a database call adds to the segments that have been counted. -/
theorem BlobServer.countedPieces_commit
    {now : Time}
    {call : BlobDbCall}
    {reply : call.Reply}
    {db : BlobDb} :
    (server.commit request now call reply db).countedPieces uploadId =
      server.countedPieces uploadId ++
        (BlobEntry.countedPiece server.requests uploadId
          ⟨request, now, call, reply, server.db, db⟩).toList := by
  simp only [countedPieces, commit, List.filterMap_append]
  congr 1

/-- A database call counts the segment of the upload. -/
def BlobDbCall.Counts (uploadId : String) : BlobDbCall → Prop
  | .updateReceived _ uploadId' _ => uploadId' = uploadId
  | _ => False

/-- A call that counts nothing. -/
theorem BlobEntry.countedPiece_eq_none
    {entry : BlobEntry}
    {requests : List BlobTask}
    (counts : ¬ entry.call.Counts uploadId) :
    entry.countedPiece requests uploadId = none := by
  obtain ⟨origin, now, call, reply, before, after⟩ := entry
  cases call with
  | updateReceived vault uploadId' next => exact if_neg fun both => counts both.1
  | _ => rfl

/-- The rows of an upload that others have inserted do not come back or change. -/
theorem BlobDbCall.Effect.keepsRow
    {now : Time}
    {call : BlobDbCall}
    {reply : call.Reply}
    {db db' : BlobDb}
    {row : UploadRow}
    (effect : Effect now call reply db db')
    (counts : ¬ call.Counts uploadId)
    (inserts : ∀ vault hash size, call ≠ .insertUpload vault uploadId hash size)
    (found : db'.blobUploads.lookup uploadId = some row) :
    db.blobUploads.lookup uploadId = some row := by
  cases effect with
  | @insertUpload vault uploadId' hash size _ absent =>
      rw [Table.lookup_insert_eq_ite] at found
      split_ifs at found with same
      · subst same
        exact absurd rfl (inserts vault hash size)
      · exact found
  | deleteUpload found' owned =>
      rw [Table.lookup_erase_eq_ite] at found
      split_ifs at found
      exact found
  | updateReceived found' owned =>
      rw [Table.lookup_insert_eq_ite] at found
      split_ifs at found with same
      · exact absurd same.symm counts
      · exact found
  | _ => exact found

/-- The rows of an upload keep their time. -/
theorem BlobDbCall.Effect.created
    {now : Time}
    {call : BlobDbCall}
    {reply : call.Reply}
    {db db' : BlobDb}
    {row' : UploadRow}
    (effect : Effect now call reply db db')
    (inserts : ∀ vault hash size, call ≠ .insertUpload vault uploadId hash size)
    (found : db'.blobUploads.lookup uploadId = some row') :
    ∃ row, db.blobUploads.lookup uploadId = some row ∧ row'.createdAt = row.createdAt := by
  cases effect with
  | @insertUpload vault uploadId' hash size _ absent =>
      rw [Table.lookup_insert_eq_ite] at found
      split_ifs at found with same
      · subst same
        exact absurd rfl (inserts vault hash size)
      · exact ⟨row', found, rfl⟩
  | deleteUpload found' owned =>
      rw [Table.lookup_erase_eq_ite] at found
      split_ifs at found
      exact ⟨row', found, rfl⟩
  | updateReceived found' owned =>
      rw [Table.lookup_insert_eq_ite] at found
      split_ifs at found with same
      · subst same
        obtain rfl := Option.some.inj found
        exact ⟨_, found', rfl⟩
      · exact ⟨row', found, rfl⟩
  | _ => exact ⟨row', found, rfl⟩

/-- Nobody else inserts an upload id that is known. -/
theorem inserts_unknown
    {call : BlobDbCall}
    (pre : stagingPre libraries request (.db call) server)
    (registered : server.uploads.registered uploadId ≠ none) :
    ∀ vault hash size, call ≠ .insertUpload vault uploadId hash size := by
  rintro vault hash size rfl
  exact registered pre.1.unused

/-- Nobody else counts a segment of an upload whose lock is held. -/
theorem counts_locked
    {call : BlobDbCall}
    {key : BlobKey}
    {size : Int}
    (pre : progressPre uploadId request (.db call) server)
    (receiving : server.Receiving other uploadId key size)
    (different : other ≠ request) :
    ¬ call.Counts uploadId := by
  intro counts
  cases call with
  | updateReceived vault uploadId' next =>
      obtain ⟨_, _, _, _, key', size', _, _, _, receiving', _⟩ := pre counts
      exact receiving'.ne receiving different rfl
  | _ => cases counts

/-- What is left alone under a lock, as long as the upload is not discarded. -/
theorem Progressing.of_keeps
    (rows : ∀ row, server'.db.blobUploads.lookup uploadId = some row →
      server.db.blobUploads.lookup uploadId = some row)
    (survives : Disk.Survives (tmpFilePath uploadId) server.disk server'.disk)
    (keeps : server.KeepsUpload uploadId server') :
    Progressing uploadId server server' where
  rows := rows
  kept := by
    intro row found missing
    simp only [BlobServer.KeepsUpload, found] at keeps
    obtain ⟨row', found'⟩ := Option.isSome_iff_exists.mp (keeps missing).1
    obtain rfl := Option.some.inj (found.symm.trans (rows row' found'))
    exact found'
  file := by
    intro row inode found missing staged
    simp only [BlobServer.KeepsUpload, found] at keeps
    obtain ⟨inode', staged'⟩ := Option.isSome_iff_exists.mp
      ((keeps missing).2 (Option.isSome_iff_exists.mpr ⟨inode, staged⟩))
    rw [staged', ← (survives inode' staged').1, staged]

/-- A call that is made as the terms require is interference the others
tolerate. -/
theorem ProgressRely.of_exec
    {call : BlobCall}
    {circumstance : BlobCircumstance}
    {reply : blobSignature.Reply call}
    (sound : StoreSound settings.toBlobLibraries server)
    (staging : stagingPre settings.toBlobLibraries request call server)
    (pre : progressPre uploadId request call server)
    (keeps : server.KeepsUpload uploadId server')
    (executed : BlobServer.exec settings request call circumstance server =
      some (reply, server'))
    (different : other ≠ request) :
    ProgressRely uploadId other server server' := by
  have tolerated : StagingRely other server server' :=
    .of_exec sound staging executed different
  have steady : server'.db = server.db → server'.journal = server.journal →
      ProgressRely uploadId other server server' := by
    intro db journal
    refine
      { toStagingRely := tolerated
        requests := by rw [(BlobServer.exec_records executed).1]
        entries := by rw [BlobServer.entriesOf, journal]; rfl
        journal := by rw [journal]
        created := fun _ row found => ⟨row, by rwa [db] at found, rfl⟩
        progress := ?_ }
    intro key size receiving
    refine .of_keeps (fun row found => by rwa [db] at found) ?_ keeps
    exact (tolerated.held key receiving.lock).staged uploadId size receiving.upload
  cases call with
  | db call =>
      rcases BlobServer.query_cases executed with
        ⟨error, rfl, rfl⟩ | ⟨value, db, rfl, -, effect, rfl⟩
      · exact .refl uploadId other _
      · have effect := BlobDbCall.exec_effect effect
        refine
          { toStagingRely := tolerated
            requests := List.prefix_rfl
            entries := BlobServer.entriesOf_commit_of_ne call value _ db different
            journal := List.prefix_append _ _
            created := ?_
            progress := ?_ }
        · exact fun registered row' found =>
            effect.created (inserts_unknown staging registered) found
        · intro key size receiving
          refine .of_keeps ?_ ?_ keeps
          · intro row found
            refine effect.keepsRow (counts_locked pre receiving different)
              (inserts_unknown staging ?_) found
            rw [receiving.upload]
            exact Option.some_ne_none _
          · exact (tolerated.held key receiving.lock).staged uploadId size receiving.upload
  | _ =>
      have others := BlobServer.exec_other executed fun _ same => by cases same
      exact steady (by rw [others]) (by rw [others])

/-! ## What has been received -/

theorem Progress.empty
    (progress : Progress uploadId server)
    (unregistered : server.uploads.registered uploadId = none) :
    Piece.assemble (server.pieces uploadId) = [] := by
  rw [BlobServer.pieces, progress.unregistered unregistered]
  rfl

/-- What an upload has received stays so as long as nothing is counted and its row
and its staged file do not change. -/
theorem Progress.of_kept
    (progress : Progress uploadId server)
    (registered : server'.uploads.registered uploadId = none →
      server.uploads.registered uploadId = none)
    (counted : server'.countedPieces uploadId = server.countedPieces uploadId)
    (rows : ∀ row, server'.db.blobUploads.lookup uploadId = some row →
      server.db.blobUploads.lookup uploadId = some row)
    (file : Disk.Same (tmpFilePath uploadId) server.disk server'.disk)
    (requests : server.requests <+: server'.requests) :
    Progress uploadId server' := by
  have pieces : server'.pieces uploadId = server.pieces uploadId := by
    unfold BlobServer.pieces
    rw [counted]
  refine
    { unregistered := ?_
      tiles := ?_
      received := ?_
      staged := ?_
      present := ?_
      once := ?_
      sent := ?_ }
  · intro unregistered
    rw [counted]
    exact progress.unregistered (registered unregistered)
  · rw [pieces]
    exact progress.tiles
  · intro row found
    rw [pieces]
    exact progress.received row (rows row found)
  · intro row inode found there
    rw [file.entry] at there
    rw [pieces, file.contents inode there]
    exact progress.staged row inode (rows row found) there
  · intro row found
    rw [file.entry]
    exact progress.present row (rows row found)
  · rw [counted]
    exact progress.once
  · intro piece member
    rw [counted] at member
    obtain ⟨vault, put, made, sent⟩ := progress.sent piece member
    exact ⟨vault, put, made_of_prefix requests made, sent⟩

/-- What is done to files under the terms keeps what has been received. -/
theorem Progress.operate
    {call : FileCall}
    {disk : Disk FilePath UInt8}
    (progress : Progress uploadId server)
    (sound : StoreSound libraries server)
    (staging : stagingPre libraries request (.file call) server)
    (pre : progressPre uploadId request (.file call) server)
    (keeps : server.KeepsUpload uploadId { server with disk := disk })
    (effect : call.Effect server.disk disk) :
    Progress uploadId { server with disk := disk } := by
  refine { progress with staged := ?_, present := ?_ }
  · intro row inode found there
    change Piece.assemble (server.pieces uploadId) <+: disk.contents inode
    have kept : Disk.Survives (tmpFilePath uploadId) server.disk disk →
        Piece.assemble (server.pieces uploadId) <+: disk.contents inode := by
      intro survives
      obtain ⟨there, same⟩ := survives inode there
      rw [same]
      exact progress.staged row inode found there
    cases effect with
    | unchanged => exact progress.staged row inode found there
    | create =>
        obtain ⟨uploadId', rfl, drawn⟩ := staging
        by_cases same : uploadId = uploadId'
        · subst same
          rw [progress.empty drawn.unused]
          exact List.nil_prefix
        · exact kept (Disk.Same.create (tmpFilePath_inj.not.mpr same)).survives
    | «open» =>
        obtain ⟨uploadId', _, _, rfl, receiving⟩ := staging
        by_cases same : uploadId = uploadId'
        · subst same
          have missing := pre rfl row found
          rcases server.disk.openOrCreate_cases (tmpFilePath uploadId) with
            ⟨same, -⟩ | ⟨absent, -⟩
          · simp only [same] at there ⊢
            exact progress.staged row inode found there
          · -- A file that is not there is that of an upload that has received nothing.
            have nothing : ¬ 0 < row.receivedBytes :=
              fun some => progress.present row found some missing absent
            have counter := (progress.received row found).1
            rw [List.eq_nil_of_length_eq_zero (l := Piece.assemble (server.pieces uploadId))
              (by omega)]
            exact List.nil_prefix
        · exact kept (Disk.Same.openOrCreate (tmpFilePath_inj.not.mpr same)).survives
    | @write file _ _ written part =>
        by_cases same : server.disk.entry (tmpFilePath uploadId) = some file.inode
        · obtain rfl := Option.some.inj (same.symm.trans there)
          have position := pre (sound.staged uploadId _ same) row found
          have counter := (progress.received row found).1
          have stands : file.position = (Piece.assemble (server.pieces uploadId)).length := by
            omega
          rw [Disk.contents_writeAt, if_pos rfl, stands]
          exact Disk.prefix_overwrite 0 (progress.staged row _ found same) written
        · exact kept (Disk.Same.writeAt same).survives
    | remove => exact kept .remove
    | rename there' =>
        obtain ⟨uploadId', key, _, rfl, rfl, -⟩ := staging
        by_cases same : uploadId = uploadId'
        · subst same
          simp [Disk.entry_rename] at there
        · exact kept (Disk.Same.rename (tmpFilePath_inj.not.mpr same)
            (tmpFilePath_ne_file key uploadId)).survives
  · intro row found some missing
    have there := progress.present row found some missing
    have found' : server.db.blobUploads.lookup uploadId = Option.some row := found
    simp only [BlobServer.KeepsUpload, found'] at keeps
    have kept := (keeps missing).2 (Option.ne_none_iff_isSome.mp there)
    exact Option.ne_none_iff_isSome.mpr kept

/-- A segment that is counted follows those before it. -/
theorem Progress.count
    {now : Time}
    {vault : VaultId}
    {next : Int}
    {reply : Unit}
    {db : BlobDb}
    (progress : Progress uploadId server)
    (pre : progressPre uploadId request (.db (.updateReceived vault uploadId next)) server)
    (effect : BlobDbCall.Effect now (.updateReceived vault uploadId next) reply server.db db) :
    Progress uploadId
      (server.commit request now (.updateReceived vault uploadId next) reply db) := by
  obtain ⟨put, piece, row, inode, key, size, made, sends, -, receiving, uncounted, found,
    owned, counter, rfl, within, there, front, length, follows⟩ := pre rfl
  have counted : (server.commit request now (.updateReceived vault uploadId piece.stop) reply
      db).countedPieces uploadId = server.countedPieces uploadId ++ [⟨request, piece⟩] := by
    rw [BlobServer.countedPieces_commit]
    simp [BlobEntry.countedPiece, BlobDb.upload, found, owned, made, BlobTask.piece, sends]
  have pieces : (server.commit request now (.updateReceived vault uploadId piece.stop) reply
      db).pieces uploadId = server.pieces uploadId ++ [piece] := by
    unfold BlobServer.pieces
    rw [counted, List.map_append, List.map_singleton]
  have stands : (Piece.assemble (server.pieces uploadId)).length = piece.offset := by
    have := (progress.received row found).1
    omega
  have begins := progress.staged row inode found there
  have same : front = Piece.assemble (server.pieces uploadId) :=
    (List.prefix_of_prefix_length_le ((List.prefix_append _ _).trans follows) begins
      (by omega)).eq_of_length (by omega)
  have stop : (Piece.assemble (server.pieces uploadId ++ [piece])).length = piece.stop := by
    rw [Piece.assemble_append, List.length_append, stands, Piece.assemble_singleton]
    rfl
  have stored : ∀ row', db.blobUploads.lookup uploadId = some row' →
      row' = { row with receivedBytes := piece.stop } := by
    intro row' found'
    cases effect with
    | updateReceived found'' owned' =>
        rw [Table.lookup_insert_eq_ite, if_pos rfl] at found'
        obtain rfl := Option.some.inj (found.symm.trans found'')
        exact (Option.some.inj found').symm
    | missedUpdate missed =>
        cases missed.symm.trans (BlobDb.upload_eq_some_iff.mpr ⟨found, owned⟩)
    | read reads => cases reads
  refine
    { unregistered := ?_
      tiles := ?_
      received := ?_
      staged := ?_
      present := ?_
      once := ?_
      sent := ?_ }
  · intro unregistered
    cases receiving.upload.symm.trans unregistered
  · rw [pieces, stop]
    refine Piece.Tiles.snoc ?_
    rw [← stands]
    exact progress.tiles
  · intro row' found'
    rw [stored row' found', pieces, stop]
    exact ⟨rfl, within⟩
  · intro row' inode' _ there'
    obtain rfl := Option.some.inj (there.symm.trans there')
    rw [pieces, Piece.assemble_append, Piece.assemble_singleton, ← same]
    exact follows
  · intro _ _ _ _ absent
    cases there.symm.trans absent
  · rw [counted, List.map_append, List.nodup_append]
    refine ⟨progress.once, List.nodup_singleton _, ?_⟩
    intro origin member origin' member' together
    rw [List.map_singleton, List.mem_singleton] at member'
    obtain ⟨counted, member, same⟩ := List.mem_map.mp member
    refine uncounted (BlobServer.counted_iff.mpr ⟨counted, member, ?_⟩)
    rw [same, together, member']
  · intro piece' member
    rw [counted, List.mem_append, List.mem_singleton] at member
    rcases member with older | rfl
    · exact progress.sent piece' older
    · exact ⟨vault, put, made, sends⟩

/-- A database call that is made as the terms require keeps what has been
received. -/
theorem Progress.commit
    {now : Time}
    {call : BlobDbCall}
    {reply : call.Reply}
    {db : BlobDb}
    (progress : Progress uploadId server)
    (staging : stagingPre libraries request (.db call) server)
    (pre : progressPre uploadId request (.db call) server)
    (effect : call.Effect now reply server.db db) :
    Progress uploadId (server.commit request now call reply db) := by
  by_cases counts : call.Counts uploadId
  · cases call with
    | updateReceived vault uploadId' next =>
        obtain rfl : uploadId' = uploadId := counts
        exact progress.count pre effect
    | _ => cases counts
  · have same : (server.commit request now call reply db).countedPieces uploadId =
        server.countedPieces uploadId := by
      rw [BlobServer.countedPieces_commit, BlobEntry.countedPiece_eq_none counts]
      exact List.append_nil _
    have registered :
        (server.commit request now call reply db).uploads.registered uploadId = none →
          server.uploads.registered uploadId = none := by
      intro unregistered
      by_contra registered
      obtain ⟨claim, registered⟩ := Option.ne_none_iff_exists'.mp registered
      exact absurd (unregistered.symm.trans (UploadLedger.registered_record staging registered))
        nofun
    by_cases inserts : ∃ vault hash size, call = .insertUpload vault uploadId hash size
    · obtain ⟨vault, hash, size, rfl⟩ := inserts
      obtain ⟨drawn, positive, -⟩ := staging
      have nothing : (server.commit request now (.insertUpload vault uploadId hash size) reply
          db).pieces uploadId = [] := by
        rw [BlobServer.pieces, same, progress.unregistered drawn.unused]
        rfl
      have stored : ∀ row, db.blobUploads.lookup uploadId = some row →
          row.receivedBytes = 0 ∧ row.sizeClaimed = size := by
        intro row found
        cases effect with
        | insertUpload absent =>
            rw [Table.lookup_insert_eq_ite, if_pos rfl] at found
            rw [← Option.some.inj found]
            exact ⟨rfl, rfl⟩
        | read reads => cases reads
      refine
        { unregistered := fun _ => same.trans (progress.unregistered drawn.unused)
          tiles := ?_
          received := ?_
          staged := ?_
          present := ?_
          once := ?_
          sent := ?_ }
      · rw [nothing]
        rfl
      · intro row found
        obtain ⟨counter, claimed⟩ := stored row found
        rw [nothing, counter, claimed]
        exact ⟨rfl, positive.le⟩
      · intro _ _ _ _
        rw [nothing]
        exact List.nil_prefix
      · intro row found some
        rw [(stored row found).1] at some
        exact absurd some (Int.lt_irrefl 0)
      · rw [same]
        exact progress.once
      · rw [same]
        exact progress.sent
    · refine progress.of_kept registered same ?_ (.refl _ _) List.prefix_rfl
      exact fun row found => effect.keepsRow counts
        (fun vault hash size inserted => inserts ⟨vault, hash, size, inserted⟩) found

/-- A call that is made as the terms require keeps what has been received. -/
theorem Progress.exec
    {call : BlobCall}
    {circumstance : BlobCircumstance}
    {reply : blobSignature.Reply call}
    (progress : Progress uploadId server)
    (sound : StoreSound settings.toBlobLibraries server)
    (staging : stagingPre settings.toBlobLibraries request call server)
    (pre : progressPre uploadId request call server)
    (keeps : server.KeepsUpload uploadId server')
    (executed : BlobServer.exec settings request call circumstance server =
      some (reply, server')) :
    Progress uploadId server' := by
  cases call with
  | db call =>
      rcases BlobServer.query_cases executed with
        ⟨error, rfl, rfl⟩ | ⟨value, db, rfl, -, effect, rfl⟩
      · exact progress
      · exact progress.commit staging pre (BlobDbCall.exec_effect effect)
  | file call =>
      simp only [BlobServer.exec, Option.some.injEq] at executed
      rw [BlobServer.operate_eq executed] at keeps ⊢
      exact progress.operate sound staging pre keeps (BlobServer.operate_effect executed)
  | lock key =>
      simp only [BlobServer.exec] at executed
      split at executed
      · obtain ⟨-, rfl⟩ := Prod.mk.inj (Option.some.inj executed)
        exact { progress with }
      · cases executed
  | publish event =>
      obtain ⟨-, rfl⟩ := Prod.mk.inj (Option.some.inj executed)
      exact { progress with }

end Calls

/-! ## Runs -/

section Runs

variable {settings : BlobSettings} {uploadId : String}
variable {config config' : (blobMachine settings).Config}
variable {label : (blobMachine settings).Label}

/-- What neither locks nor counts nor touches an upload goes unnoticed. -/
theorem ProgressRely.of_steady
    {request : Nat}
    {server server' : BlobServer}
    (tolerated : StagingRely request server server')
    (requests : server.requests <+: server'.requests)
    (journal : server'.journal = server.journal)
    (rows : server'.db.blobUploads = server.db.blobUploads)
    (disk : server'.disk = server.disk) :
    ProgressRely uploadId request server server' where
  toStagingRely := tolerated
  requests := requests
  entries := by
    unfold BlobServer.entriesOf
    rw [journal]
  journal := by rw [journal]
  created := fun _ row found => ⟨row, by rwa [rows] at found, rfl⟩
  progress := fun _ _ _ =>
    { rows := fun row found => by rwa [rows] at found
      kept := fun row found _ => by rwa [rows]
      file := fun row inode _ _ there => by rwa [disk] }

/-- What has come of a request that has been answered stays so. -/
theorem progressOutcome_lasting : Lasting (ProgressOutcome uploadId) := by
  intro request outcome server server' concluded requests entries vault put response made same
  rw [requests] at made
  have ended := concluded vault put response made same
  have counted : server'.Counted uploadId request ↔ server.Counted uploadId request :=
    BlobServer.counted_of_entries requests entries
  exact
    { task := by rw [requests, made]
      accepted := fun own accepts => counted.mpr (ended.accepted own accepts)
      refused := fun own refuses => counted.not.mpr (ended.refused own refuses) }

/-- The requests' terms, put together. -/
def progressDiscipline (settings : BlobSettings) (uploadId : String) :
    Discipline (blobMachine settings) where
  contract := progressContract settings uploadId
  idle := fun _ _ => True
  post := ProgressOutcome uploadId
  allowed := Undiscarded settings uploadId
  invariant := fun config =>
    RecordsKept (ProgressOutcome uploadId) config ∧ Progress uploadId config.shared

/-- What the progress of an upload rests on. -/
abbrev progressBase (settings : BlobSettings) (uploadId : String) :
    Discipline (blobMachine settings) :=
  (Discipline.observed (blobMachine settings) (BlobServer.KeepsUpload uploadId)).given
    (stagingDiscipline settings)

/-- A request that has not been made has not counted anything. -/
theorem Awaiting.of_start
    {server : BlobServer}
    (task : BlobTask)
    (origins : ∀ entry ∈ server.journal, entry.origin < server.requests.length) :
    Awaiting uploadId server.requests.length task
      { server with requests := server.requests ++ [task] } where
  task := by simp
  uncounted := by
    rintro ⟨entry, member, -⟩
    have own := List.mem_filter.mp member
    exact absurd (origins entry own.1) (by simpa using (of_decide_eq_true own.2).ge)

/-- A new request counts nothing. -/
theorem BlobServer.countedPieces_start
    {server : BlobServer}
    (task : BlobTask)
    (origins : ∀ entry ∈ server.journal, entry.origin < server.requests.length) :
    ({ server with requests := server.requests ++ [task] } : BlobServer).countedPieces
      uploadId = server.countedPieces uploadId := by
  unfold countedPieces
  refine List.filterMap_congr ?_
  intro entry member
  unfold BlobEntry.countedPiece
  rw [List.getElem?_append_left (origins entry member)]

/-- A step counts a segment of the request that makes it, or none. -/
theorem BlobServer.countedPieces_step
    (kept : RecordsKept (ProgressOutcome uploadId) config)
    (stepped : Machine.Steps _ label config config') :
    ∃ added, config'.shared.countedPieces uploadId =
        config.shared.countedPieces uploadId ++ added ∧
      ∀ counted ∈ added, ∃ circumstance, label = .act counted.origin circumstance := by
  have nothing : config'.shared.countedPieces uploadId = config.shared.countedPieces uploadId →
      ∃ added, config'.shared.countedPieces uploadId =
          config.shared.countedPieces uploadId ++ added ∧
        ∀ counted ∈ added, ∃ circumstance, label = .act counted.origin circumstance :=
    fun same => ⟨[], by rw [same, List.append_nil], nofun⟩
  cases stepped with
  | @act config request circumstance call next reply server' current executed =>
      have executed : config.shared.exec settings request call circumstance =
        some (reply, server') := executed
      cases call with
      | db call =>
          rcases BlobServer.query_cases executed with
            ⟨error, -, rfl⟩ | ⟨value, db, -, -, -, rfl⟩
          · exact nothing rfl
          · refine ⟨_, BlobServer.countedPieces_commit, ?_⟩
            intro counted member
            exact ⟨circumstance, by
              rw [BlobServer.countedPiece_origin (Option.mem_toList.mp member)]⟩
      | _ =>
          refine nothing ?_
          rw [BlobServer.exec_other executed fun _ same => by cases same]
          rfl
  | environment happened =>
      have alike := BlobServer.environment_alike happened
      refine nothing ?_
      unfold BlobServer.countedPieces
      rw [alike.journal, alike.requests]
  | start current started =>
      obtain ⟨-, -, rfl⟩ := start_eq started
      exact nothing (BlobServer.countedPieces_start _ kept.origins)
  | finish current => exact nothing rfl
  | abandon => exact nothing rfl

/-- A step keeps what has been received. -/
theorem Progress.step
    (holds : ((progressDiscipline settings uploadId).given
      (progressBase settings uploadId)).Holds config)
    (undiscarded : Undiscarded settings uploadId label config)
    (stepped : Machine.Steps _ label config config') :
    Progress uploadId config'.shared := by
  obtain ⟨base, kept, progress⟩ := holds.invariant
  have staging : (stagingDiscipline settings).Holds config := base.invariant.1
  cases stepped with
  | @act config request circumstance call next reply server' current executed =>
      have keeps : config.shared.KeepsUpload uploadId server' :=
        undiscarded.of_steps (.act current executed)
      exact progress.exec staging.invariant (staging.pre current) (holds.pre current) keeps
        executed
  | environment happened =>
      have alike := BlobServer.environment_alike happened
      refine progress.of_kept ?_ ?_ ?_ ?_ ?_
      · rw [alike.uploads]
        exact id
      · unfold BlobServer.countedPieces
        rw [alike.journal, alike.requests]
      · rw [alike.uploadRows]
        exact fun _ found => found
      · rw [alike.disk]
        exact .refl _ _
      · rw [alike.requests]
  | start current started =>
      obtain ⟨-, -, rfl⟩ := start_eq started
      exact progress.of_kept id (BlobServer.countedPieces_start _ kept.origins)
        (fun _ found => found) (.refl _ _) (List.prefix_append _ _)
  | finish current =>
      exact progress.of_kept id rfl (fun _ found => found) (.refl _ _) List.prefix_rfl
  | abandon =>
      exact progress.of_kept id rfl (fun _ found => found) (.refl _ _) List.prefix_rfl

/-- The terms fit together where those of `Staging` are kept and the upload is not
discarded. -/
theorem progressDiscipline_sound :
    (progressDiscipline settings uploadId).SoundGiven (progressBase settings uploadId) where
  exec := fun invariant _ _ executed =>
    ⟨⟨invariant.1.invariant.1.invariant, invariant.2.2⟩, _, executed⟩
  exec_frame := by
    rintro request other call server reply server' pre
      ⟨-, ⟨staging, ⟨sound, circumstance, executed⟩, keeps⟩, -⟩ different
    exact .of_exec sound staging pre keeps executed different
  environment_frame := by
    intro event server server' other happened
    have alike := BlobServer.environment_alike happened
    exact .of_steady (.of_steady alike.disk alike.locks alike.uploads alike.blobs)
      (by rw [alike.requests]) alike.journal alike.uploadRows alike.disk
  idle_stable := fun _ _ => trivial
  start := by
    intro config request task program server' invariant _ started
    obtain ⟨rfl, rfl, rfl⟩ := start_eq started
    exact blobProgram_progress (.of_start task invariant.2.1.origins)
  start_frame := by
    intro request other task server program server' started different
    obtain ⟨-, -, rfl⟩ := start_eq started
    exact .of_steady (.of_steady rfl rfl rfl rfl) (List.prefix_append _ _) rfl rfl rfl
  finish := fun _ => trivial
  finish_frame := by
    intro request other outcome server different
    exact .of_steady ((StagingRely.of_release different).trans (.of_steady rfl rfl rfl rfl))
      List.prefix_rfl rfl rfl rfl
  abandon := fun _ => trivial
  abandon_frame := fun different =>
    .of_steady (.of_release different) List.prefix_rfl rfl rfl rfl
  invariant := fun holds undiscarded stepped =>
    ⟨holds.invariant.2.1.step progressOutcome_lasting
        (fun _ _ current => (holds.meets current).post_of_done) stepped,
      Progress.step holds undiscarded stepped⟩

/-- Nothing has been received yet. -/
theorem progressDiscipline_initial (quotaBytes : Table String (Option Int)) :
    ((progressDiscipline settings uploadId).given (progressBase settings uploadId)).Holds
      (blobConfig settings (.fresh quotaBytes) .empty) where
  invariant :=
    ⟨(stagingDiscipline_initial quotaBytes).observed, .initial _ _,
      { unregistered := fun _ => rfl
        tiles := rfl
        received := fun _ found => nomatch found
        staged := fun _ _ found => nomatch found
        present := fun _ found => nomatch found
        once := List.nodup_nil
        sent := nofun }⟩
  threads := fun _ => trivial

/-- The configurations of a run in which the upload is not discarded. -/
theorem progress_run
    {labels : List (blobMachine settings).Label}
    (undiscarded : Machine.Admits (Undiscarded settings uploadId) labels config)
    (holds : ((progressDiscipline settings uploadId).given
      (progressBase settings uploadId)).Holds config)
    (runs : (blobMachine settings).run labels config = some config') :
    ((progressDiscipline settings uploadId).given
        (progressBase settings uploadId)).Holds config' ∧
      config.shared.countedPieces uploadId <+: config'.shared.countedPieces uploadId := by
  have sound : ((progressDiscipline settings uploadId).given
      (progressBase settings uploadId)).Sound :=
    progressDiscipline_sound.sound
      (Discipline.observed_soundGiven _ |>.sound stagingDiscipline_sound)
  have preserved : ∀ {label middle next},
      ((progressDiscipline settings uploadId).given
          (progressBase settings uploadId)).Holds middle ∧
        config.shared.countedPieces uploadId <+: middle.shared.countedPieces uploadId →
      Undiscarded settings uploadId label middle → Machine.Steps _ label middle next →
      ((progressDiscipline settings uploadId).given
          (progressBase settings uploadId)).Holds next ∧
        config.shared.countedPieces uploadId <+: next.shared.countedPieces uploadId := by
    rintro label middle next ⟨holds, before⟩ here stepped
    obtain ⟨added, counted, -⟩ := BlobServer.countedPieces_step holds.invariant.2.1 stepped
    refine ⟨sound.step holds ⟨⟨trivial, here⟩, here⟩ stepped, before.trans ?_⟩
    rw [counted]
    exact List.prefix_append _ _
  exact Machine.run_induction preserved ⟨holds, List.prefix_rfl⟩ undiscarded runs

end Runs

end VaultCrdtServer
