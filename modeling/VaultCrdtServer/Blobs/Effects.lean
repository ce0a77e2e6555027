import VaultCrdtServer.Blobs.Server

/-!
# What the calls of the blob lane change

For every table the calls that change it and how, and for a call that took
effect what the server has recorded of it.
-/

namespace VaultCrdtServer

open Interleaving

/-- A change of a path row that has been committed. -/
structure AcceptedPath where
  /-- The request it was made for. -/
  origin : Nat
  key : PathKey
  row : PathRow

/-- The change of a path row a call has made. -/
def BlobDbCall.accepted (request : Nat) (now : Time) :
    (call : BlobDbCall) → call.Reply → Option AcceptedPath
  | .upsertPath key change, seq => some ⟨request, key, change.row now seq⟩
  | _, _ => none

theorem BlobDbCall.accepted_eq_some
    {request : Nat}
    {now : Time}
    {call : BlobDbCall}
    {reply : call.Reply}
    {accepted : AcceptedPath}
    (made : call.accepted request now reply = some accepted) :
    ∃ key change, call = .upsertPath key change ∧ accepted.origin = request ∧
      accepted.key = key ∧ accepted.row.toPathChange = change := by
  cases call with
  | upsertPath key change =>
      obtain rfl := Option.some.inj made
      exact ⟨key, change, rfl, rfl, rfl, rfl⟩
  | _ => cases made

/-- The change of a path row an entry of the journal stands for. -/
def BlobEntry.accepted (entry : BlobEntry) : Option AcceptedPath :=
  entry.call.accepted entry.origin entry.now entry.reply

/-- The changes of path rows so far, in commit order. -/
def BlobServer.accepted (server : BlobServer) : List AcceptedPath :=
  server.journal.filterMap BlobEntry.accepted

namespace BlobDbCall

/-- The call changes no table. -/
def isRead : BlobDbCall → Bool
  | .insertUpload .. | .deleteUpload .. | .updateReceived .. | .insertBlob ..
  | .upsertPath .. => false
  | _ => true

/-- What a call that succeeds can have done. -/
inductive Effect : Time → (call : BlobDbCall) → call.Reply → BlobDb → BlobDb → Prop
  | read {now call reply db} (reads : call.isRead = true) : Effect now call reply db db
  | insertUpload {now vault uploadId hash size db}
      (absent : db.blobUploads.lookup uploadId = none) :
      Effect now (.insertUpload vault uploadId hash size) () db
        { db with
          blobUploads := db.blobUploads.insert uploadId
            { vaultId := vault
              hashClaimed := hash
              sizeClaimed := size
              receivedBytes := 0
              createdAt := now } }
  | deleteUpload {now vault uploadId db row}
      (found : db.blobUploads.lookup uploadId = some row)
      (owned : row.vaultId = vault) :
      Effect now (.deleteUpload vault uploadId) () db
        { db with blobUploads := db.blobUploads.erase uploadId }
  | missedDelete {now vault uploadId db} (missed : db.upload vault uploadId = none) :
      Effect now (.deleteUpload vault uploadId) () db db
  | updateReceived {now vault uploadId next db row}
      (found : db.blobUploads.lookup uploadId = some row)
      (owned : row.vaultId = vault) :
      Effect now (.updateReceived vault uploadId next) () db
        { db with
          blobUploads :=
            db.blobUploads.insert uploadId { row with receivedBytes := next } }
  | missedUpdate {now vault uploadId next db} (missed : db.upload vault uploadId = none) :
      Effect now (.updateReceived vault uploadId next) () db db
  | insertBlob {now key size db} (absent : db.blobs.lookup key = none) :
      Effect now (.insertBlob key size) (1 : Nat) db
        { db with blobs := db.blobs.insert key size }
  | ignoredBlob {now key size stored db} (found : db.blobs.lookup key = some stored) :
      Effect now (.insertBlob key size) (0 : Nat) db db
  | upsertPath {now key change db} (below : db.blobSeq < i64Max) :
      Effect now (.upsertPath key change) (db.blobSeq + 1 : Int) db
        { db with
          blobSeq := db.blobSeq + 1
          blobPathStates :=
            db.blobPathStates.insert key (change.row now (db.blobSeq + 1)) }

end BlobDbCall

section Calls

variable {defaultQuotaBytes : Nat} {now : Time} {uuid : String}
variable {call : BlobDbCall} {reply : call.Reply} {db db' : BlobDb}

theorem BlobDb.upsertPath_eq_ok_iff
    {key : PathKey}
    {change : PathChange}
    {seq : Int} :
    db.upsertPath key change now = .ok (seq, db') ↔
      db.blobSeq < i64Max ∧ seq = db.blobSeq + 1 ∧
        db' = { db with
          blobSeq := db.blobSeq + 1
          blobPathStates :=
            db.blobPathStates.insert key (change.row now (db.blobSeq + 1)) } := by
  unfold BlobDb.upsertPath
  split_ifs with below
  · simp only [Except.ok.injEq, Prod.mk.injEq, below, true_and]
    constructor
    · rintro ⟨rfl, rfl⟩
      exact ⟨rfl, rfl⟩
    · rintro ⟨rfl, rfl⟩
      exact ⟨rfl, rfl⟩
  · simp [below]

theorem BlobDb.insertUpload_eq_ok_iff
    {vault : VaultId}
    {uploadId : String}
    {hash : Hash}
    {size : Int} :
    db.insertUpload vault uploadId hash size now = .ok db' ↔
      db.blobUploads.lookup uploadId = none ∧
        db' = { db with
          blobUploads := db.blobUploads.insert uploadId
            { vaultId := vault
              hashClaimed := hash
              sizeClaimed := size
              receivedBytes := 0
              createdAt := now } } := by
  unfold BlobDb.insertUpload
  cases found : db.blobUploads.lookup uploadId with
  | none => simp [eq_comm]
  | some row => simp

theorem BlobDb.upload_eq_some_iff
    {vault : VaultId}
    {uploadId : String}
    {row : UploadRow} :
    db.upload vault uploadId = some row ↔
      db.blobUploads.lookup uploadId = some row ∧ row.vaultId = vault := by
  simp [BlobDb.upload, Option.filter_eq_some_iff]

/-- What an admission has found: fewer uploads than allowed, and room for the
upload where there is a quota. -/
theorem BlobDb.admitUpload_eq_admitted
    {uploadId : String}
    {vault : VaultId}
    {size : Nat}
    (admission : db.admitUpload vault size defaultQuotaBytes now uuid =
      .ok (.admitted uploadId)) :
    uploadId = uuid ∧ (db.openUploads vault now).length < maxOpenUploads ∧
      (0 < db.effectiveQuota vault defaultQuotaBytes →
        ∃ stored inflight,
          sqlSum (db.blobSizes vault) = .ok stored ∧
          sqlSum ((db.openUploads vault now).map fun row =>
            row.sizeClaimed - row.receivedBytes) = .ok inflight ∧
          saturatingAdd (saturatingAdd (asU64 stored) (asU64 inflight)) size ≤
            db.effectiveQuota vault defaultQuotaBytes) := by
  unfold BlobDb.admitUpload at admission
  by_cases full : maxOpenUploads ≤ (db.openUploads vault now).length
  · simp [full, pure, Except.pure] at admission
  · by_cases limited : 0 < db.effectiveQuota vault defaultQuotaBytes
    · simp only [full, limited, if_true, if_false, bind, Except.bind, pure,
        Except.pure] at admission
      split at admission
      · cases admission
      · rename_i stored found
        split at admission
        · cases admission
        · rename_i inflight found'
          split_ifs at admission with above
          · cases admission
          · obtain rfl := Admission.admitted.inj (Except.ok.inj admission)
            exact ⟨rfl, Nat.not_le.mp full, fun _ =>
              ⟨stored, inflight, found, found', Nat.not_lt.mp above⟩⟩
    · simp only [full, limited, if_false, pure, Except.pure] at admission
      obtain rfl := Admission.admitted.inj (Except.ok.inj admission)
      exact ⟨rfl, Nat.not_le.mp full, fun positive => absurd positive limited⟩

namespace BlobDbCall

/-- A call that succeeds has one of the effects. -/
theorem exec_effect
    (executed : call.exec defaultQuotaBytes now uuid db = .ok (reply, db')) :
    Effect now call reply db db' := by
  cases call with
  | upsertPath key change =>
      obtain ⟨below, rfl, rfl⟩ := BlobDb.upsertPath_eq_ok_iff.mp executed
      exact .upsertPath below
  | admitUpload vault size =>
      simp only [exec] at executed
      cases admission : db.admitUpload vault size defaultQuotaBytes now uuid with
      | error error => simp [admission, Except.map] at executed
      | ok value =>
          simp only [admission, Except.map, Except.ok.injEq, Prod.mk.injEq] at executed
          obtain ⟨-, rfl⟩ := executed
          exact .read rfl
  | insertUpload vault uploadId hash size =>
      simp only [exec] at executed
      cases inserted : db.insertUpload vault uploadId hash size now with
      | error error => simp [inserted, Except.map] at executed
      | ok value =>
          simp only [inserted, Except.map, Except.ok.injEq, Prod.mk.injEq] at executed
          obtain ⟨absent, rfl⟩ := BlobDb.insertUpload_eq_ok_iff.mp inserted
          obtain ⟨-, rfl⟩ := executed
          exact .insertUpload absent
  | deleteUpload vault uploadId =>
      simp only [exec, Except.ok.injEq, Prod.mk.injEq] at executed
      obtain ⟨-, rfl⟩ := executed
      cases found : db.upload vault uploadId with
      | none =>
          simp only [BlobDb.deleteUpload, found]
          exact .missedDelete found
      | some row =>
          simp only [BlobDb.deleteUpload, found]
          obtain ⟨stored, owned⟩ := BlobDb.upload_eq_some_iff.mp found
          exact .deleteUpload stored owned
  | updateReceived vault uploadId next =>
      simp only [exec, Except.ok.injEq, Prod.mk.injEq] at executed
      obtain ⟨-, rfl⟩ := executed
      cases found : db.upload vault uploadId with
      | none =>
          simp only [BlobDb.updateReceived, found]
          exact .missedUpdate found
      | some row =>
          simp only [BlobDb.updateReceived, found]
          obtain ⟨stored, owned⟩ := BlobDb.upload_eq_some_iff.mp found
          exact .updateReceived stored owned
  | insertBlob key size =>
      simp only [exec, Except.ok.injEq] at executed
      cases found : db.blobs.lookup key with
      | none =>
          simp only [BlobDb.insertBlob, found, Prod.mk.injEq] at executed
          obtain ⟨rfl, rfl⟩ := executed
          exact .insertBlob found
      | some stored =>
          simp only [BlobDb.insertBlob, found, Prod.mk.injEq] at executed
          obtain ⟨rfl, rfl⟩ := executed
          exact .ignoredBlob found
  | _ =>
      simp only [exec, Except.ok.injEq, Prod.mk.injEq] at executed
      obtain ⟨-, rfl⟩ := executed
      exact .read rfl

end BlobDbCall

namespace BlobDbCall.Effect

/-- The path rows and their counter change together, by an upsert. -/
theorem accepted
    (effect : Effect now call reply db db')
    (request : Nat) :
    match call.accepted request now reply with
    | none => db'.blobPathStates = db.blobPathStates ∧ db'.blobSeq = db.blobSeq
    | some accepted =>
        accepted.row.seq = db.blobSeq + 1 ∧ db'.blobSeq = db.blobSeq + 1 ∧
          db'.blobPathStates = db.blobPathStates.insert accepted.key accepted.row := by
  cases effect with
  | upsertPath below => exact ⟨rfl, rfl, rfl⟩
  | read reads =>
      cases call with
      | upsertPath key change => cases reads
      | _ => exact ⟨rfl, rfl⟩
  | _ => exact ⟨rfl, rfl⟩

/-- A path row was there before, or has just been written. -/
theorem paths
    (effect : Effect now call reply db db')
    {key : PathKey}
    {row : PathRow}
    (found : db'.blobPathStates.lookup key = some row) :
    db.blobPathStates.lookup key = some row ∨
      ∃ change seq, call = .upsertPath key change ∧ row = change.row now seq := by
  cases effect with
  | upsertPath below =>
      rw [Table.lookup_insert_eq_ite] at found
      split_ifs at found with same
      · subst same
        exact Or.inr ⟨_, _, rfl, (Option.some.inj found).symm⟩
      · exact Or.inl found
  | _ => exact Or.inl found

/-- The blobs of a database grow, and only by an insertion. -/
theorem blobs (effect : Effect now call reply db db') :
    db'.blobs = db.blobs ∨
      ∃ key size, call = .insertBlob key size ∧ db.blobs.lookup key = none ∧
        db'.blobs = db.blobs.insert key size := by
  cases effect with
  | insertBlob absent => exact Or.inr ⟨_, _, rfl, absent, rfl⟩
  | _ => exact Or.inl rfl

/-- A blob's row is never changed or removed. -/
theorem blobs_kept
    (effect : Effect now call reply db db')
    {key : BlobKey}
    {size : Int}
    (stored : db.blobs.lookup key = some size) :
    db'.blobs.lookup key = some size := by
  rcases effect.blobs with same | ⟨other, size', rfl, absent, inserted⟩
  · rw [same, stored]
  · rw [inserted, Table.lookup_insert_eq_ite]
    split_ifs with overwritten
    · rw [overwritten, absent] at stored
      cases stored
    · exact stored

/-- The quotas are not the business of the handlers. -/
theorem quotas (effect : Effect now call reply db db') : db'.quotaBytes = db.quotaBytes := by
  cases effect <;> rfl

end BlobDbCall.Effect

end Calls

/-- What a file operation can have done to the disk. -/
inductive FileCall.Effect : FileCall → Disk FilePath UInt8 → Disk FilePath UInt8 → Prop
  | unchanged {call disk} : Effect call disk disk
  | create {path disk} : Effect (.create path) disk (disk.create path).2
  | open {path disk} : Effect (.open path true) disk (disk.openOrCreate path).2
  | write {file bytes disk} {written : Bytes} (part : written.length ≤ bytes.length) :
      Effect (.writeAll file bytes) disk (disk.writeAt 0 file.inode file.position written)
  | remove {path disk} : Effect (.removeFile path) disk (disk.remove path)
  | rename {source target inode disk} (found : disk.entry source = some inode) :
      Effect (.rename source target) disk (disk.rename source target)

namespace BlobServer

variable {settings : BlobSettings} {request : Nat} {circumstance : BlobCircumstance}
variable {server server' : BlobServer}

/-- A database call fails and changes nothing, or it takes effect and is
recorded. -/
theorem query_cases
    {call : BlobDbCall}
    {reply : Except ServerError call.Reply}
    (queried : server.query settings request call circumstance = some (reply, server')) :
    (∃ error, reply = .error error ∧ server' = server) ∨
      ∃ value db, reply = .ok value ∧ server.uploads.issued circumstance.uuid = none ∧
        call.exec settings.defaultQuotaBytes circumstance.now circumstance.uuid server.db =
          .ok (value, db) ∧
        server' = server.commit request circumstance.now call value db := by
  unfold query at queried
  split at queried
  · rename_i error _
    simp only [Option.some.injEq, Prod.mk.injEq] at queried
    exact Or.inl ⟨error, queried.1.symm, queried.2.symm⟩
  · split_ifs at queried with drawn
    split at queried
    · rename_i value db executed
      simp only [Option.some.injEq, Prod.mk.injEq] at queried
      refine Or.inr ⟨value, db, queried.1.symm, ?_, executed, queried.2.symm⟩
      simpa using drawn
    · rename_i error _
      simp only [Option.some.injEq, Prod.mk.injEq] at queried
      exact Or.inl ⟨error, queried.1.symm, queried.2.symm⟩

/-- A file operation leaves everything but the disk alone. -/
theorem operate_eq
    {call : FileCall}
    {reply : Except IoError call.Reply}
    (operated : server.operate call circumstance = (reply, server')) :
    server' = { server with disk := server'.disk } := by
  unfold operate at operated
  split at operated <;>
    (obtain ⟨-, rfl⟩ := Prod.mk.inj operated
     rfl)

theorem operate_db
    {call : FileCall}
    {reply : Except IoError call.Reply}
    (operated : server.operate call circumstance = (reply, server')) :
    server'.db = server.db := by
  rw [operate_eq operated]

/-- What a file operation can have done. -/
theorem operate_effect
    {call : FileCall}
    {reply : Except IoError call.Reply}
    (operated : server.operate call circumstance = (reply, server')) :
    call.Effect server.disk server'.disk := by
  unfold operate at operated
  split at operated
  · obtain ⟨-, rfl⟩ := Prod.mk.inj operated
    cases call with
    | writeAll file bytes => exact .write (List.length_take_le' _ _)
    | _ => exact .unchanged
  · obtain ⟨-, rfl⟩ := Prod.mk.inj operated
    cases call with
    | create path => exact .create
    | «open» path create =>
        cases create with
        | true => exact .open
        | false =>
            dsimp only [fileEffect]
            split <;> exact .unchanged
    | writeAll file bytes => exact .write le_rfl
    | removeFile path =>
        dsimp only [fileEffect]
        split
        · exact .remove
        · exact .unchanged
    | rename source target =>
        dsimp only [fileEffect]
        split
        · exact .rename (by assumption)
        · exact .unchanged
    | readExact file length =>
        dsimp only [fileEffect]
        split <;> exact .unchanged
    | read path =>
        dsimp only [fileEffect]
        split <;> exact .unchanged
    | length path =>
        dsimp only [fileEffect]
        split <;> exact .unchanged
    | _ => exact .unchanged

/-- A file operation that succeeds had its whole effect. -/
theorem operate_eq_ok
    {call : FileCall}
    {value : call.Reply}
    (operated : server.operate call circumstance = (.ok value, server')) :
    fileEffect server.disk call = (.ok value, server'.disk) := by
  unfold operate at operated
  split at operated
  · cases (Prod.mk.inj operated).1
  · obtain ⟨replied, rfl⟩ := Prod.mk.inj operated
    exact Prod.ext replied rfl

/-- Calls besides those to the database change files, locks and the channel. -/
theorem exec_other
    {call : BlobCall}
    {reply : blobSignature.Reply call}
    (executed : exec settings request call circumstance server = some (reply, server'))
    (other : ∀ dbCall, call ≠ .db dbCall) :
    server' =
      { server with
        disk := server'.disk
        docLocks := server'.docLocks
        channel := server'.channel } := by
  cases call with
  | db call => exact absurd rfl (other call)
  | file call =>
      simp only [exec, Option.some.injEq] at executed
      rw [operate_eq executed]
  | lock key =>
      simp only [exec] at executed
      split at executed
      · obtain ⟨-, rfl⟩ := Prod.mk.inj (Option.some.inj executed)
        rfl
      · cases executed
  | publish event =>
      obtain ⟨-, rfl⟩ := Prod.mk.inj (Option.some.inj executed)
      rfl

/-- What no call changes, and whose database calls are recorded. -/
theorem exec_records
    {call : BlobCall}
    {reply : blobSignature.Reply call}
    (executed : exec settings request call circumstance server = some (reply, server')) :
    server'.requests = server.requests ∧ server'.answers = server.answers ∧
      server'.readers = server.readers ∧
      ∀ entry ∈ server'.journal, entry ∈ server.journal ∨ entry.origin = request := by
  cases call with
  | db call =>
      rcases query_cases executed with ⟨error, rfl, rfl⟩ | ⟨value, db, rfl, -, -, rfl⟩
      · exact ⟨rfl, rfl, rfl, fun _ member => Or.inl member⟩
      · refine ⟨rfl, rfl, rfl, ?_⟩
        intro entry member
        simp only [commit, List.mem_append, List.mem_singleton] at member
        rcases member with older | rfl
        · exact Or.inl older
        · exact Or.inr rfl
  | _ =>
      rw [exec_other executed fun _ same => by cases same]
      exact ⟨rfl, rfl, rfl, fun _ member => Or.inl member⟩

/-- At most the quotas and the readers differ. -/
structure Alike (server server' : BlobServer) : Prop where
  blobs : server'.db.blobs = server.db.blobs
  paths : server'.db.blobPathStates = server.db.blobPathStates
  uploadRows : server'.db.blobUploads = server.db.blobUploads
  counter : server'.db.blobSeq = server.db.blobSeq
  disk : server'.disk = server.disk
  locks : server'.docLocks = server.docLocks
  channel : server'.channel = server.channel
  requests : server'.requests = server.requests
  uploads : server'.uploads = server.uploads
  journal : server'.journal = server.journal
  answers : server'.answers = server.answers

theorem Alike.db_eq (alike : Alike server server') :
    server'.db = { server.db with quotaBytes := server'.db.quotaBytes } := by
  dsimp only
  rw [← alike.blobs, ← alike.paths, ← alike.uploadRows, ← alike.counter]

/-- What happens besides the requests is about quotas and readers. -/
theorem environment_alike
    {event : BlobEvent}
    (happened : server.environment event = some server') :
    Alike server server' := by
  cases event with
  | setQuota vault quotaBytes =>
      simp only [environment] at happened
      split at happened
      · obtain rfl := Option.some.inj happened
        exact ⟨rfl, rfl, rfl, rfl, rfl, rfl, rfl, rfl, rfl, rfl, rfl⟩
      · cases happened
  | follow reader vault =>
      simp only [environment] at happened
      split at happened
      · cases happened
      · obtain rfl := Option.some.inj happened
        exact ⟨rfl, rfl, rfl, rfl, rfl, rfl, rfl, rfl, rfl, rfl, rfl⟩
  | ask reader request =>
      simp only [environment, Option.bind_eq_bind, Option.bind_eq_some_iff] at happened
      obtain ⟨state, -, task, -, happened⟩ := happened
      split_ifs at happened
      obtain rfl := Option.some.inj happened
      exact ⟨rfl, rfl, rfl, rfl, rfl, rfl, rfl, rfl, rfl, rfl, rfl⟩
  | receive reader =>
      simp only [environment, Option.bind_eq_bind, Option.bind_eq_some_iff] at happened
      obtain ⟨state, -, request, -, ⟨limit, page⟩, -, happened⟩ := happened
      obtain rfl := Option.some.inj happened
      exact ⟨rfl, rfl, rfl, rfl, rfl, rfl, rfl, rfl, rfl, rfl, rfl⟩
  | giveUp reader =>
      simp only [environment, Option.bind_eq_bind, Option.bind_eq_some_iff] at happened
      obtain ⟨state, -, happened⟩ := happened
      obtain rfl := Option.some.inj happened
      exact ⟨rfl, rfl, rfl, rfl, rfl, rfl, rfl, rfl, rfl, rfl, rfl⟩

/-- The changes of path rows made for one request. -/
def acceptedBy (request : Nat) (server : BlobServer) : List AcceptedPath :=
  server.accepted.filter fun accepted => decide (accepted.origin = request)

/-- The database calls made for one request. -/
def entriesOf (request : Nat) (server : BlobServer) : List BlobEntry :=
  server.journal.filter fun entry => decide (entry.origin = request)

/-- The events of one path. -/
def eventsOf (key : PathKey) (server : BlobServer) : List BlobPathChanged :=
  (server.channel.map Prod.snd).filter fun event => decide (event.path = key)

section Commit

variable (call : BlobDbCall) (reply : call.Reply) (now : Time) (db : BlobDb)

theorem accepted_commit :
    (server.commit request now call reply db).accepted =
      server.accepted ++ (call.accepted request now reply).toList := by
  simp only [accepted, commit, List.filterMap_append]
  cases result : call.accepted request now reply <;> simp [BlobEntry.accepted, result]

theorem entriesOf_commit_self :
    (server.commit request now call reply db).entriesOf request =
      server.entriesOf request ++ [⟨request, now, call, reply, server.db, db⟩] := by
  simp [entriesOf, commit]

theorem entriesOf_commit_of_ne {other : Nat} (different : other ≠ request) :
    (server.commit request now call reply db).entriesOf other = server.entriesOf other := by
  simp [entriesOf, commit, different.symm]

end Commit

/-- The changes made for a request are among its database calls. -/
theorem acceptedBy_eq (request : Nat) (server : BlobServer) :
    server.acceptedBy request = (server.entriesOf request).filterMap BlobEntry.accepted := by
  have origin : ∀ entry : BlobEntry, ∀ accepted, entry.accepted = some accepted →
      accepted.origin = entry.origin := by
    rintro ⟨origin, now, call, reply, before, after⟩ accepted found
    cases call with
    | upsertPath key change =>
        simp only [BlobEntry.accepted, BlobDbCall.accepted, Option.some.injEq] at found
        rw [← found]
    | _ => simp [BlobEntry.accepted, BlobDbCall.accepted] at found
  unfold acceptedBy accepted entriesOf
  induction server.journal with
  | nil => rfl
  | cons entry entries inductionHypothesis =>
      cases found : entry.accepted with
      | none =>
          by_cases own : entry.origin = request <;>
            simp [found, own, inductionHypothesis]
      | some accepted =>
          by_cases own : entry.origin = request <;>
            simp [found, origin entry accepted found, own,
              inductionHypothesis]

end BlobServer

/-! ## Steps -/

section Steps

variable {settings : BlobSettings}

/-- A request starts with its program and is recorded. -/
theorem start_eq
    {request : Nat}
    {task : BlobTask}
    {server server' : BlobServer}
    {program : Program blobSignature BlobOutcome}
    (started : BlobServer.start settings request task server = some (program, server')) :
    request = server.requests.length ∧ program = blobProgram settings task ∧
      server' = { server with requests := server.requests ++ [task] } := by
  unfold BlobServer.start at started
  split_ifs at started with next
  obtain ⟨rfl, rfl⟩ := Prod.mk.inj (Option.some.inj started)
  exact ⟨next, rfl, rfl⟩

/-- A step changes at most the quotas, or makes a database call. -/
theorem db_of_step
    {label : (blobMachine settings).Label}
    {config config' : (blobMachine settings).Config}
    (stepped : Machine.Steps (blobMachine settings) label config config') :
    config'.shared.db =
        { config.shared.db with quotaBytes := config'.shared.db.quotaBytes } ∨
      ∃ request circumstance call next, ∃ reply : call.Reply,
        label = .act request circumstance ∧
        config.thread request = some (.call (.db call) next) ∧
        call.Effect circumstance.now reply config.shared.db config'.shared.db := by
  cases stepped with
  | @act _ request circumstance call next reply shared current effect =>
      have executed : config.shared.exec settings request call circumstance =
        some (reply, shared) := effect
      cases call with
      | db call =>
          rcases BlobServer.query_cases executed with ⟨-, -, rfl⟩ | ⟨value, db, -, -, made, rfl⟩
          · exact Or.inl rfl
          · exact Or.inr ⟨request, circumstance, call, next, value, rfl, current,
              BlobDbCall.exec_effect made⟩
      | _ =>
          rw [BlobServer.exec_other executed fun _ same => by cases same]
          exact Or.inl rfl
  | environment effect => exact Or.inl (BlobServer.environment_alike effect).db_eq
  | start current effect =>
      obtain ⟨-, -, rfl⟩ := start_eq effect
      exact Or.inl rfl
  | finish current => exact Or.inl rfl
  | abandon => exact Or.inl rfl

end Steps

end VaultCrdtServer
