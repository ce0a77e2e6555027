import VaultCrdtServer.Blobs.UploadTasks
import VaultCrdtServer.Blobs.PathRuns

/-!
# Runs of the server, as far as uploads and blobs are concerned

A call that is made as the terms of `Staging` require is interference the other
requests tolerate, keeps the store sound, and touches neither the row nor the
file of a blob that is stored.
-/

namespace VaultCrdtServer

open Interleaving

section Files

variable {libraries : BlobLibraries} {request other : Nat} {server : BlobServer}
variable {call : FileCall} {disk : Disk FilePath UInt8}

/-- Inodes keep their birth. -/
theorem FileCall.Effect.births
    {disk' : Disk FilePath UInt8}
    (effect : call.Effect disk disk')
    {inode : Nat}
    {name : FilePath}
    (born : disk.birth inode = some name) :
    disk'.birth inode = some name := by
  cases effect with
  | create => exact (disk.birth_create_of_lt _ (disk.birth_lt born)).trans born
  | «open» => exact (disk.birth_openOrCreate_of_lt _ (disk.birth_lt born)).trans born
  | _ => exact born

/-- A published file was staged under one upload id. -/
theorem StoreSound.unpublished
    (sound : StoreSound libraries server)
    {uploadId : String}
    {key key' : BlobKey}
    {size : Int}
    {inode : Nat}
    (upload : server.Uploads uploadId key size)
    (born : server.disk.birth inode = some (tmpFilePath uploadId))
    (unpublished : server.disk.entry key.file ≠ some inode) :
    server.disk.entry key'.file ≠ some inode := by
  intro published
  obtain ⟨⟨uploadId', size', born', upload'⟩, -⟩ := sound.published key' inode published
  obtain rfl := tmpFilePath_inj.mp (Option.some.inj (born'.symm.trans born))
  obtain ⟨rfl, -⟩ := upload'.unique upload
  exact unpublished published

/-- What is done to files under the terms leaves what another lock protects
alone. -/
theorem Undisturbed.of_effect
    (sound : StoreSound libraries server)
    (pre : stagingPre libraries request (.file call) server)
    (effect : call.Effect server.disk disk)
    (different : other ≠ request)
    {key : BlobKey}
    (lock : server.LocksBlob other key) :
    Undisturbed key server { server with disk := disk } := by
  refine ⟨rfl, ?_, ?_⟩
  · cases effect with
    | unchanged => exact .refl _ _
    | create =>
        obtain ⟨uploadId, rfl, -⟩ := pre
        exact .create (key.file_ne_tmpFilePath uploadId)
    | «open» =>
        obtain ⟨uploadId, _, _, rfl, -⟩ := pre
        exact .openOrCreate (key.file_ne_tmpFilePath uploadId)
    | write part =>
        obtain ⟨uploadId, key', size, receiving, born, unpublished, -⟩ := pre
        exact .writeAt (sound.unpublished receiving.upload born unpublished)
    | remove =>
        obtain ⟨uploadId, rfl⟩ | ⟨key', rfl, lock', -⟩ := pre
        · exact .remove (key.file_ne_tmpFilePath uploadId)
        · exact .remove (BlobKey.file_inj.not.mpr (lock'.ne lock different))
    | rename found =>
        obtain ⟨uploadId, key', size, rfl, rfl, receiving, -⟩ := pre
        exact .rename (key.file_ne_tmpFilePath uploadId)
          (BlobKey.file_inj.not.mpr (receiving.lock.ne lock different))
  · intro uploadId size upload
    cases effect with
    | unchanged => exact (Disk.Same.refl _ _).survives
    | create =>
        obtain ⟨uploadId', rfl, drawn⟩ := pre
        refine (Disk.Same.create ?_).survives
        rw [Ne, tmpFilePath_inj]
        rintro rfl
        exact absurd (upload.symm.trans drawn.unused) (by simp)
    | «open» =>
        obtain ⟨uploadId', key', size', rfl, receiving⟩ := pre
        exact (Disk.Same.openOrCreate
          (tmpFilePath_inj.not.mpr (receiving.ne ⟨upload, lock⟩ different))).survives
    | write part =>
        obtain ⟨uploadId', key', size', receiving, born, -⟩ := pre
        refine (Disk.Same.writeAt ?_).survives
        intro found
        have born' := sound.staged uploadId _ found
        exact receiving.ne ⟨upload, lock⟩ different
          (tmpFilePath_inj.mp (Option.some.inj (born'.symm.trans born)))
    | remove => exact .remove
    | rename found =>
        obtain ⟨uploadId', key', size', rfl, rfl, receiving, -⟩ := pre
        exact (Disk.Same.rename
          (tmpFilePath_inj.not.mpr (receiving.ne ⟨upload, lock⟩ different))
          (tmpFilePath_ne_file key' uploadId)).survives

/-- The file of a stored blob is left alone. -/
theorem StoreSound.stored_same
    (sound : StoreSound libraries server)
    (pre : stagingPre libraries request (.file call) server)
    (effect : call.Effect server.disk disk)
    {key : BlobKey}
    {size : Int}
    (stored : server.db.blobs.lookup key = some size) :
    Disk.Same key.file server.disk disk := by
  cases effect with
  | unchanged => exact .refl _ _
  | create =>
      obtain ⟨uploadId, rfl, -⟩ := pre
      exact .create (key.file_ne_tmpFilePath uploadId)
  | «open» =>
      obtain ⟨uploadId, _, _, rfl, -⟩ := pre
      exact .openOrCreate (key.file_ne_tmpFilePath uploadId)
  | write part =>
      obtain ⟨uploadId, key', size, receiving, born, unpublished, -⟩ := pre
      exact .writeAt (sound.unpublished receiving.upload born unpublished)
  | remove =>
      obtain ⟨uploadId, rfl⟩ | ⟨key', rfl, -, noRow⟩ := pre
      · exact .remove (key.file_ne_tmpFilePath uploadId)
      · refine .remove (BlobKey.file_inj.not.mpr ?_)
        rintro rfl
        exact absurd (noRow.symm.trans stored) (by simp)
  | rename found =>
      obtain ⟨uploadId, key', size, rfl, rfl, -, noFile, -⟩ := pre
      refine .rename (key.file_ne_tmpFilePath uploadId) (BlobKey.file_inj.not.mpr ?_)
      rintro rfl
      obtain ⟨inode, there, -⟩ := sound.rows key _ stored
      exact absurd (noFile.symm.trans there) (by simp)

/-- A file that is published afterwards was published before, or has just been
verified. -/
theorem StoreSound.published_of_effect
    (sound : StoreSound libraries server)
    (pre : stagingPre libraries request (.file call) server)
    (effect : call.Effect server.disk disk)
    {key : BlobKey}
    {inode : Nat}
    (published : disk.entry key.file = some inode) :
    (∃ uploadId size, server.disk.birth inode = some (tmpFilePath uploadId) ∧
      server.Uploads uploadId key size) ∧
      libraries.Verified key.hash (disk.contents inode) := by
  have kept : Disk.Survives key.file server.disk disk →
      (∃ uploadId size, server.disk.birth inode = some (tmpFilePath uploadId) ∧
        server.Uploads uploadId key size) ∧
        libraries.Verified key.hash (disk.contents inode) := by
    intro survives
    obtain ⟨found, same⟩ := survives inode published
    rw [same]
    exact sound.published key inode found
  cases effect with
  | unchanged => exact sound.published key inode published
  | create =>
      obtain ⟨uploadId, rfl, -⟩ := pre
      exact kept (Disk.Same.create (key.file_ne_tmpFilePath uploadId)).survives
  | «open» =>
      obtain ⟨uploadId, _, _, rfl, -⟩ := pre
      exact kept (Disk.Same.openOrCreate (key.file_ne_tmpFilePath uploadId)).survives
  | write part =>
      obtain ⟨uploadId, key', size, receiving, born, unpublished, -⟩ := pre
      exact kept
        (Disk.Same.writeAt (sound.unpublished receiving.upload born unpublished)).survives
  | remove => exact kept .remove
  | rename found =>
      obtain ⟨uploadId, key', size, rfl, rfl, receiving, -, verified⟩ := pre
      by_cases same : key = key'
      · subst same
        rw [Disk.entry_rename, if_pos rfl] at published
        exact ⟨⟨uploadId, size, sound.staged uploadId inode published, receiving.upload⟩,
          verified inode published⟩
      · exact kept (Disk.Same.rename (key.file_ne_tmpFilePath uploadId)
          (BlobKey.file_inj.not.mpr same)).survives

/-- Staged files are born under their upload ids. -/
theorem StoreSound.staged_of_effect
    (sound : StoreSound libraries server)
    (pre : stagingPre libraries request (.file call) server)
    (effect : call.Effect server.disk disk)
    {uploadId : String}
    {inode : Nat}
    (found : disk.entry (tmpFilePath uploadId) = some inode) :
    disk.birth inode = some (tmpFilePath uploadId) := by
  have kept : Disk.Survives (tmpFilePath uploadId) server.disk disk →
      disk.birth inode = some (tmpFilePath uploadId) :=
    fun survives => effect.births (sound.staged uploadId inode (survives inode found).1)
  cases effect with
  | unchanged => exact sound.staged uploadId inode found
  | create =>
      obtain ⟨uploadId', rfl, -⟩ := pre
      by_cases same : uploadId = uploadId'
      · subst same
        have opened := Option.some.inj
          ((server.disk.entry_openOrCreate_self (tmpFilePath uploadId)).symm.trans found)
        rw [← opened]
        exact Disk.birth_openOrCreate_self (sound.staged uploadId)
      · exact kept (Disk.Same.create (tmpFilePath_inj.not.mpr same)).survives
  | «open» =>
      obtain ⟨uploadId', _, _, rfl, -⟩ := pre
      by_cases same : uploadId = uploadId'
      · subst same
        have opened := Option.some.inj
          ((server.disk.entry_openOrCreate_self (tmpFilePath uploadId)).symm.trans found)
        rw [← opened]
        exact Disk.birth_openOrCreate_self (sound.staged uploadId)
      · exact kept (Disk.Same.openOrCreate (tmpFilePath_inj.not.mpr same)).survives
  | write part => exact sound.staged uploadId inode found
  | remove => exact kept .remove
  | rename there =>
      obtain ⟨uploadId', key, size, rfl, rfl, -⟩ := pre
      by_cases same : uploadId = uploadId'
      · subst same
        simp [Disk.entry_rename] at found
      · exact kept (Disk.Same.rename (tmpFilePath_inj.not.mpr same)
          (tmpFilePath_ne_file key uploadId)).survives

/-- No more is staged than an upload claims. -/
theorem StoreSound.bounded_of_effect
    (sound : StoreSound libraries server)
    (pre : stagingPre libraries request (.file call) server)
    (effect : call.Effect server.disk disk)
    {inode : Nat}
    {uploadId : String}
    (born : disk.birth inode = some (tmpFilePath uploadId)) :
    ((disk.contents inode).length : Int) ≤ server.uploads.claimed uploadId := by
  have nonneg : (0 : Int) ≤ server.uploads.claimed uploadId := by
    unfold UploadLedger.claimed
    cases registered : server.uploads.registered uploadId with
    | none => simp
    | some claim => exact (sound.sizes uploadId ⟨claim.vault, claim.hash⟩ _ registered).1.le
  have opened : ∀ name : FilePath,
      (server.disk.openOrCreate name).2.birth inode = some (tmpFilePath uploadId) →
      (((server.disk.openOrCreate name).2.contents inode).length : Int) ≤
        server.uploads.claimed uploadId := by
    intro name born
    rcases Disk.openOrCreate_inode born with ⟨born, same⟩ | new
    · rw [same]
      exact sound.bounded inode uploadId born
    · simpa [new] using nonneg
  cases effect with
  | @create path =>
      dsimp only [Disk.create]
      rw [Disk.contents_setContents]
      split_ifs
      · exact nonneg
      · exact opened path born
  | «open» => exact opened _ born
  | @write file _ _ written part =>
      obtain ⟨uploadId', key, size, receiving, born', -, within⟩ := pre
      rw [Disk.contents_writeAt]
      split_ifs with same
      · subst same
        obtain rfl := tmpFilePath_inj.mp (Option.some.inj (born.symm.trans born'))
        have short := sound.bounded _ uploadId born
        rw [receiving.upload.claimed] at short ⊢
        have fits : (Disk.overwrite 0 file.position written
            (server.disk.contents file.inode)).length ≤ size.toNat :=
          Disk.length_overwrite_le (by omega) (by omega)
        omega
      · exact sound.bounded inode uploadId born
  | _ => exact sound.bounded inode uploadId born

/-- What is done to files under the terms keeps the store sound. -/
theorem StoreSound.operate
    (sound : StoreSound libraries server)
    (pre : stagingPre libraries request (.file call) server)
    (effect : call.Effect server.disk disk) :
    StoreSound libraries { server with disk := disk } where
  published := by
    intro key inode published
    obtain ⟨⟨uploadId, size, born, upload⟩, verified⟩ :=
      sound.published_of_effect pre effect published
    exact ⟨⟨uploadId, size, effect.births born, upload⟩, verified⟩
  staged := fun _ _ found => sound.staged_of_effect pre effect found
  rows := by
    intro key size stored
    have same := sound.stored_same pre effect stored
    obtain ⟨inode, found, sized⟩ := sound.rows key size stored
    refine ⟨inode, same.entry.trans found, ?_⟩
    rwa [same.contents inode found]
  uploadRows := sound.uploadRows
  sizes := sound.sizes
  bounded := fun _ _ born => sound.bounded_of_effect pre effect born
  undrawn := sound.undrawn

end Files

section Calls

variable {libraries : BlobLibraries} {request other : Nat} {server : BlobServer}
variable {call : BlobDbCall} {reply : call.Reply}

/-- A claim that has been registered stays. -/
theorem UploadLedger.registered_record
    (pre : stagingPre libraries request (.db call) server)
    {uploadId : String}
    {claim : UploadClaim}
    (registered : server.uploads.registered uploadId = some claim) :
    (server.uploads.record request call reply).registered uploadId = some claim := by
  cases call with
  | insertUpload vault uploadId' hash size =>
      have different : uploadId ≠ uploadId' := by
        rintro rfl
        exact absurd (registered.symm.trans pre.1.unused) (by simp)
      exact (Function.update_of_ne different ..).trans registered
  | admitUpload vault size => cases reply <;> exact registered
  | _ => exact registered

/-- A claim that is registered was so before, or is that of an insertion. -/
theorem UploadLedger.registered_of_record
    {ledger : UploadLedger}
    {uploadId : String}
    {claim : UploadClaim}
    (registered : (ledger.record request call reply).registered uploadId = some claim) :
    ledger.registered uploadId = some claim ∨
      call = .insertUpload claim.vault uploadId claim.hash claim.size := by
  cases call with
  | insertUpload vault uploadId' hash size =>
      change Function.update ledger.registered uploadId' (some ⟨vault, hash, size⟩) uploadId =
        some claim at registered
      rw [Function.update_apply] at registered
      split_ifs at registered with same
      · subst same
        obtain rfl := Option.some.inj registered
        exact Or.inr rfl
      · exact Or.inl registered
  | admitUpload vault size =>
      left
      cases reply <;> exact registered
  | _ => exact Or.inl registered

/-- An id that has been drawn stays so. -/
theorem UploadLedger.issued_record
    {ledger : UploadLedger}
    {uploadId : String}
    (issued : (ledger.record request call reply).issued uploadId = none) :
    ledger.issued uploadId = none := by
  cases call with
  | admitUpload vault size =>
      cases reply with
      | admitted uploadId' =>
          by_cases same : uploadId = uploadId'
          · subst same
            exact absurd ((Function.update_self ..).symm.trans issued) (by simp)
          · exact (Function.update_of_ne same ..).symm.trans issued
      | _ => exact issued
  | _ => exact issued

variable {defaultQuotaBytes : Nat} {now : Time} {uuid : String} {db : BlobDb}

/-- An id of another request stays as it is. -/
theorem BlobServer.Drawn.commit
    {uploadId : String}
    (drawn : server.Drawn other uploadId)
    (pre : stagingPre libraries request (.db call) server)
    (undrawn : server.uploads.issued uuid = none)
    (executed : call.exec defaultQuotaBytes now uuid server.db = .ok (reply, db))
    (different : other ≠ request) :
    (server.commit request now call reply db).Drawn other uploadId := by
  cases call with
  | insertUpload vault uploadId' hash size =>
      have different : uploadId ≠ uploadId' := by
        rintro rfl
        exact different (Option.some.inj (drawn.issued.symm.trans pre.1.issued))
      exact ⟨drawn.issued, (Function.update_of_ne different ..).trans drawn.unused⟩
  | admitUpload vault size =>
      cases reply with
      | admitted uploadId' =>
          obtain ⟨rfl, -⟩ := BlobDbCall.exec_admitUpload executed
          have different : uploadId ≠ uploadId' := by
            rintro rfl
            exact absurd (drawn.issued.symm.trans undrawn) (by simp)
          exact ⟨(Function.update_of_ne different ..).trans drawn.issued, drawn.unused⟩
      | _ => exact ⟨drawn.issued, drawn.unused⟩
  | _ => exact ⟨drawn.issued, drawn.unused⟩

/-- The blobs another lock protects stay as they are. -/
theorem BlobDbCall.Effect.blobs_protected
    (effect : call.Effect now reply server.db db)
    (pre : stagingPre libraries request (.db call) server)
    (different : other ≠ request)
    {key : BlobKey}
    (lock : server.LocksBlob other key) :
    db.blobs.lookup key = server.db.blobs.lookup key := by
  rcases effect.blobs with same | ⟨key', size, rfl, absent, inserted⟩
  · rw [same]
  · rw [inserted, Table.lookup_insert_eq_ite, if_neg]
    exact pre.1.ne lock different

/-- Upload rows have the claims their ids were inserted with. -/
theorem StoreSound.uploadRows_of_effect
    (sound : StoreSound libraries server)
    (pre : stagingPre libraries request (.db call) server)
    (effect : call.Effect now reply server.db db)
    {uploadId : String}
    {row : UploadRow}
    (found : db.blobUploads.lookup uploadId = some row) :
    (server.commit request now call reply db).Uploads uploadId
      ⟨row.vaultId, row.hashClaimed⟩ row.sizeClaimed := by
  have kept : ∀ row : UploadRow, server.db.blobUploads.lookup uploadId = some row →
      (server.commit request now call reply db).Uploads uploadId
        ⟨row.vaultId, row.hashClaimed⟩ row.sizeClaimed :=
    fun row found => UploadLedger.registered_record pre (sound.uploadRows uploadId row found)
  cases effect with
  | @insertUpload vault uploadId' hash size _ absent =>
      rw [Table.lookup_insert_eq_ite] at found
      split_ifs at found with same
      · subst same
        obtain rfl := Option.some.inj found
        exact Function.update_self ..
      · exact kept row found
  | @deleteUpload vault uploadId' _ row' found' owned =>
      by_cases same : uploadId = uploadId'
      · subst same
        simp at found
      · rw [AList.lookup_erase_ne same] at found
        exact kept row found
  | @updateReceived vault uploadId' next _ row' found' owned =>
      rw [Table.lookup_insert_eq_ite] at found
      split_ifs at found with same
      · subst same
        obtain rfl := Option.some.inj found
        exact kept row' found'
      · exact kept row found
  | _ => exact kept row found

/-- A database call that is made as the terms require keeps the store sound. -/
theorem StoreSound.commit
    (sound : StoreSound libraries server)
    (pre : stagingPre libraries request (.db call) server)
    (effect : call.Effect now reply server.db db) :
    StoreSound libraries (server.commit request now call reply db) where
  published := by
    intro key inode found
    obtain ⟨⟨uploadId, size, born, upload⟩, verified⟩ := sound.published key inode found
    exact ⟨⟨uploadId, size, born, UploadLedger.registered_record pre upload⟩, verified⟩
  staged := sound.staged
  rows := by
    intro key size stored
    change db.blobs.lookup key = some size at stored
    rcases effect.blobs with same | ⟨key', size', rfl, absent, inserted⟩
    · rw [same] at stored
      exact sound.rows key size stored
    · rw [inserted, Table.lookup_insert_eq_ite] at stored
      split_ifs at stored with same
      · subst same
        obtain rfl := Option.some.inj stored
        exact pre.2
      · exact sound.rows key size stored
  uploadRows := fun _ _ found => sound.uploadRows_of_effect pre effect found
  sizes := by
    intro uploadId key size upload
    rcases UploadLedger.registered_of_record upload with older | rfl
    · exact sound.sizes uploadId key size older
    · exact pre.2
  bounded := by
    intro inode uploadId born
    refine (sound.bounded inode uploadId born).trans ?_
    unfold UploadLedger.claimed
    cases registered : server.uploads.registered uploadId with
    | some claim =>
        rw [show (server.commit request now call reply db).uploads.registered uploadId =
          some claim from UploadLedger.registered_record pre registered]
    | none =>
        cases registered' :
            (server.commit request now call reply db).uploads.registered uploadId with
        | none => rfl
        | some claim =>
            rcases UploadLedger.registered_of_record registered' with older | rfl
            · exact absurd (registered.symm.trans older) (by simp)
            · exact pre.2.1.le
  undrawn := by
    intro uploadId undrawn
    have before := UploadLedger.issued_record undrawn
    by_contra registered'
    obtain ⟨claim, registered'⟩ := Option.ne_none_iff_exists'.mp registered'
    rcases UploadLedger.registered_of_record registered' with older | rfl
    · exact absurd ((sound.undrawn uploadId before).symm.trans older) (by simp)
    · exact absurd (before.symm.trans pre.1.issued) (by simp)

end Calls

section Runs

variable {settings : BlobSettings} {request other : Nat} {server server' : BlobServer}

/-- A call that is made as the terms require is interference the others
tolerate. -/
theorem StagingRely.of_exec
    {call : BlobCall}
    {circumstance : BlobCircumstance}
    {reply : blobSignature.Reply call}
    (sound : StoreSound settings.toBlobLibraries server)
    (pre : stagingPre settings.toBlobLibraries request call server)
    (executed : BlobServer.exec settings request call circumstance server =
      some (reply, server'))
    (different : other ≠ request) :
    StagingRely other server server' := by
  cases call with
  | db call =>
      rcases BlobServer.query_cases executed with
        ⟨error, rfl, rfl⟩ | ⟨value, db, rfl, undrawn, effect, rfl⟩
      · exact StagingRely.refl other _
      · exact
          { locks := fun _ => Iff.rfl
            births := fun _ _ born => born
            registered := fun _ _ registered => UploadLedger.registered_record pre registered
            drawn := fun _ drawn => drawn.commit pre undrawn effect different
            held := fun key lock =>
              { row := (BlobDbCall.exec_effect effect).blobs_protected pre different lock
                file := .refl _ _
                staged := fun _ _ _ => (Disk.Same.refl _ _).survives } }
  | file call =>
      simp only [BlobServer.exec, Option.some.injEq] at executed
      have effect := BlobServer.operate_effect executed
      rw [BlobServer.operate_eq executed]
      exact
        { locks := fun _ => Iff.rfl
          births := fun _ _ born => effect.births born
          registered := fun _ _ registered => registered
          drawn := fun _ drawn => ⟨drawn.issued, drawn.unused⟩
          held := fun _ lock => .of_effect sound pre effect different lock }
  | lock key =>
      simp only [BlobServer.exec] at executed
      split at executed
      · rename_i free
        obtain ⟨-, rfl⟩ := Prod.mk.inj (Option.some.inj executed)
        exact
          { StagingRely.refl other server with
            locks := (PathRely.of_lock free different).locks
            drawn := fun _ drawn => ⟨drawn.issued, drawn.unused⟩
            held := fun _ _ =>
              ⟨rfl, .refl _ _, fun _ _ _ => (Disk.Same.refl _ _).survives⟩ }
      · cases executed
  | publish event =>
      obtain ⟨-, rfl⟩ := Prod.mk.inj (Option.some.inj executed)
      exact .of_steady rfl rfl rfl rfl

/-- A call that is made as the terms require keeps the store sound. -/
theorem StoreSound.exec
    {call : BlobCall}
    {circumstance : BlobCircumstance}
    {reply : blobSignature.Reply call}
    (sound : StoreSound settings.toBlobLibraries server)
    (pre : stagingPre settings.toBlobLibraries request call server)
    (executed : BlobServer.exec settings request call circumstance server =
      some (reply, server')) :
    StoreSound settings.toBlobLibraries server' := by
  cases call with
  | db call =>
      rcases BlobServer.query_cases executed with
        ⟨error, rfl, rfl⟩ | ⟨value, db, rfl, -, effect, rfl⟩
      · exact sound
      · exact sound.commit pre (BlobDbCall.exec_effect effect)
  | file call =>
      simp only [BlobServer.exec, Option.some.injEq] at executed
      rw [BlobServer.operate_eq executed]
      exact sound.operate pre (BlobServer.operate_effect executed)
  | lock key =>
      simp only [BlobServer.exec] at executed
      split at executed
      · obtain ⟨-, rfl⟩ := Prod.mk.inj (Option.some.inj executed)
        exact { sound with }
      · cases executed
  | publish event =>
      obtain ⟨-, rfl⟩ := Prod.mk.inj (Option.some.inj executed)
      exact { sound with }

/-- Dropped guards are those of the request that drops them. -/
theorem StagingRely.of_release (different : other ≠ request) :
    StagingRely other server (server.release request) :=
  { StagingRely.refl other server with
    locks := (PathRely.of_release different).locks
    drawn := fun _ drawn => ⟨drawn.issued, drawn.unused⟩
    held := fun _ _ => ⟨rfl, .refl _ _, fun _ _ _ => (Disk.Same.refl _ _).survives⟩ }

/-- What changes neither files nor blobs nor upload rows keeps the store sound. -/
theorem StoreSound.of_eq
    {libraries : BlobLibraries}
    (sound : StoreSound libraries server)
    (disk : server'.disk = server.disk)
    (blobs : server'.db.blobs = server.db.blobs)
    (uploadRows : server'.db.blobUploads = server.db.blobUploads)
    (uploads : server'.uploads = server.uploads) :
    StoreSound libraries server' where
  published := by
    simpa only [BlobServer.Uploads, disk, uploads] using sound.published
  staged := by simpa only [disk] using sound.staged
  rows := by simpa only [disk, blobs] using sound.rows
  uploadRows := by simpa only [BlobServer.Uploads, uploads, uploadRows] using sound.uploadRows
  sizes := by simpa only [BlobServer.Uploads, uploads] using sound.sizes
  bounded := by simpa only [disk, uploads] using sound.bounded
  undrawn := by simpa only [uploads] using sound.undrawn

/-- Rows of blobs and their files stay as they are. -/
structure BlobsKept (server server' : BlobServer) : Prop where
  rows : ∀ key size, server.db.blobs.lookup key = some size →
    server'.db.blobs.lookup key = some size
  files : ∀ key size, server.db.blobs.lookup key = some size →
    server'.disk.read key.file = server.disk.read key.file

theorem BlobsKept.of_eq
    (disk : server'.disk = server.disk)
    (blobs : server'.db.blobs = server.db.blobs) :
    BlobsKept server server' where
  rows := by simp [blobs]
  files := by simp [disk]

theorem BlobsKept.trans
    {server'' : BlobServer}
    (first : BlobsKept server server')
    (second : BlobsKept server' server'') :
    BlobsKept server server'' where
  rows := fun key size stored => second.rows key size (first.rows key size stored)
  files := fun key size stored =>
    (second.files key size (first.rows key size stored)).trans (first.files key size stored)

/-- A call that is made as the terms require keeps the blobs. -/
theorem BlobsKept.of_exec
    {call : BlobCall}
    {circumstance : BlobCircumstance}
    {reply : blobSignature.Reply call}
    (sound : StoreSound settings.toBlobLibraries server)
    (pre : stagingPre settings.toBlobLibraries request call server)
    (executed : BlobServer.exec settings request call circumstance server =
      some (reply, server')) :
    BlobsKept server server' := by
  cases call with
  | db call =>
      rcases BlobServer.query_cases executed with
        ⟨error, rfl, rfl⟩ | ⟨value, db, rfl, -, effect, rfl⟩
      · exact .of_eq rfl rfl
      · exact
          { rows := fun _ _ stored => (BlobDbCall.exec_effect effect).blobs_kept stored
            files := fun _ _ _ => rfl }
  | file call =>
      simp only [BlobServer.exec, Option.some.injEq] at executed
      rw [BlobServer.operate_eq executed]
      exact
        { rows := fun _ _ stored => stored
          files := fun _ _ stored =>
            (sound.stored_same pre (BlobServer.operate_effect executed) stored).read }
  | lock key =>
      simp only [BlobServer.exec] at executed
      split at executed
      · obtain ⟨-, rfl⟩ := Prod.mk.inj (Option.some.inj executed)
        exact .of_eq rfl rfl
      · cases executed
  | publish event =>
      obtain ⟨-, rfl⟩ := Prod.mk.inj (Option.some.inj executed)
      exact .of_eq rfl rfl

/-- The requests' terms, put together. -/
def stagingDiscipline (settings : BlobSettings) : Discipline (blobMachine settings) where
  contract := stagingContract settings
  idle := fun _ _ => True
  post := fun _ _ _ => True
  allowed := fun _ _ => True
  invariant := fun config => StoreSound settings.toBlobLibraries config.shared

variable {config config' : (blobMachine settings).Config}

/-- A step keeps the store sound, and the blobs. -/
theorem staging_step
    {label : (blobMachine settings).Label}
    (holds : (stagingDiscipline settings).Holds config)
    (stepped : Machine.Steps _ label config config') :
    StoreSound settings.toBlobLibraries config'.shared ∧
      BlobsKept config.shared config'.shared := by
  have sound : StoreSound settings.toBlobLibraries config.shared := holds.invariant
  cases stepped with
  | act current executed =>
      have pre := holds.pre current
      exact ⟨sound.exec pre executed, .of_exec sound pre executed⟩
  | environment happened =>
      have alike := BlobServer.environment_alike happened
      exact ⟨sound.of_eq alike.disk alike.blobs alike.uploadRows alike.uploads,
        .of_eq alike.disk alike.blobs⟩
  | start current started =>
      obtain ⟨-, -, rfl⟩ := start_eq started
      exact ⟨sound.of_eq rfl rfl rfl rfl, .of_eq rfl rfl⟩
  | finish current => exact ⟨sound.of_eq rfl rfl rfl rfl, .of_eq rfl rfl⟩
  | abandon => exact ⟨sound.of_eq rfl rfl rfl rfl, .of_eq rfl rfl⟩

/-- The terms fit together. -/
theorem stagingDiscipline_sound :
    (stagingDiscipline settings).Sound where
  exec := fun sound _ _ executed => ⟨sound, _, executed⟩
  exec_frame := by
    rintro request other call server reply server' pre ⟨sound, circumstance, executed⟩ different
    exact .of_exec sound pre executed different
  environment_frame := fun happened =>
    let alike := BlobServer.environment_alike happened
    .of_steady alike.disk alike.locks alike.uploads alike.blobs
  idle_stable := fun _ _ => trivial
  start := by
    intro config request task program server' _ _ started
    obtain ⟨-, rfl, rfl⟩ := start_eq started
    exact blobProgram_staging task
  start_frame := by
    intro request other task server program server' started different
    obtain ⟨-, -, rfl⟩ := start_eq started
    exact .of_steady rfl rfl rfl rfl
  finish := fun _ => trivial
  finish_frame := fun different =>
    (StagingRely.of_release different).trans (.of_steady rfl rfl rfl rfl)
  abandon := fun _ => trivial
  abandon_frame := fun different => .of_release different
  invariant := fun holds _ stepped => (staging_step holds stepped).1

/-- A fresh server is in order. -/
theorem stagingDiscipline_initial (quotaBytes : Table String (Option Int)) :
    (stagingDiscipline settings).Holds (blobConfig settings (.fresh quotaBytes) .empty) where
  invariant :=
    { published := fun _ _ found => nomatch found
      staged := fun _ _ found => nomatch found
      rows := fun _ _ stored => nomatch stored
      uploadRows := fun _ _ found => nomatch found
      sizes := fun _ _ _ upload => nomatch upload
      bounded := fun _ _ born => nomatch born
      undrawn := fun _ _ => rfl }
  threads := fun _ => trivial

/-- Runs keep the blobs. -/
theorem staging_run
    {labels : List (blobMachine settings).Label}
    (holds : (stagingDiscipline settings).Holds config)
    (runs : (blobMachine settings).run labels config = some config') :
    (stagingDiscipline settings).Holds config' ∧ BlobsKept config.shared config'.shared := by
  have preserved : ∀ {label middle next},
      (stagingDiscipline settings).Holds middle ∧ BlobsKept config.shared middle.shared →
      True → Machine.Steps _ label middle next →
      (stagingDiscipline settings).Holds next ∧ BlobsKept config.shared next.shared :=
    fun ⟨holds, kept⟩ _ stepped =>
      ⟨stagingDiscipline_sound.step holds trivial stepped,
        kept.trans (staging_step holds stepped).2⟩
  exact Machine.run_induction preserved ⟨holds, .of_eq rfl rfl⟩
    (.of_forall _ _ fun _ _ => trivial) runs

end Runs

end VaultCrdtServer
