import VaultCrdtServer.Blobs.TidyPuts
import VaultCrdtServer.Blobs.Records

/-!
# Runs in which no upload is torn

Between its second look at the row and its update of the counter a PUT relies on
the row, which only the lock protects, and whoever discards an expired upload
does not take the lock.  Where no discard falls into that gap, a segment is
accepted only if the row has counted it, and no staged file outlives its row.
-/

namespace VaultCrdtServer

open Interleaving

/-! ## Conditions on runs -/

section Conditions

variable {settings : BlobSettings}

/-- The request is about to make a call. -/
def Calling (config : (blobMachine settings).Config) (request : Nat) : Prop :=
  match config.thread request with
  | some (.call ..) => True
  | _ => False

instance (config : (blobMachine settings).Config) (request : Nat) :
    Decidable (Calling config request) := by
  change Decidable (match config.thread request with
    | some (.call ..) => True
    | _ => False)
  generalize config.thread request = thread
  induction thread using Option.casesOn with
  | none => exact isFalse id
  | some program =>
      induction program using Program.casesOn with
      | done => exact isFalse id
      | call => exact isTrue trivial

/-- The step does not delete the row of an upload another PUT has been let in
for. -/
def Untorn (label : (blobMachine settings).Label) (config : (blobMachine settings).Config) :
    Prop :=
  match label with
  | .act request _ =>
      match config.thread request with
      | some (.call (.db (.deleteUpload vault uploadId)) _) =>
          ∀ other < config.shared.requests.length, other ≠ request → Calling config other →
            config.shared.LetIn other vault uploadId →
            config.shared.db.upload vault uploadId = none
      | _ => True
  | _ => True

instance (label : (blobMachine settings).Label) (config : (blobMachine settings).Config) :
    Decidable (Untorn label config) := by
  induction label using Machine.Label.casesOn with
  | act request circumstance =>
      change Decidable (match config.thread request with
        | some (.call (.db (.deleteUpload vault uploadId)) _) =>
            ∀ other < config.shared.requests.length, other ≠ request → Calling config other →
              config.shared.LetIn other vault uploadId →
              config.shared.db.upload vault uploadId = none
        | _ => True)
      generalize config.thread request = thread
      induction thread using Option.casesOn with
      | none => exact isTrue trivial
      | some program =>
          induction program using Program.casesOn with
          | done => exact isTrue trivial
          | call call next =>
              induction call using BlobCall.casesOn with
              | db call =>
                  induction call using BlobDbCall.casesOn with
                  | deleteUpload =>
                      dsimp only
                      infer_instance
                  | _ => exact isTrue trivial
              | _ => exact isTrue trivial
  | _ => exact isTrue trivial

/-- In the step no call fails and no request is dropped. -/
def Smooth : (blobMachine settings).Label → Prop
  | .act _ circumstance => BlobCircumstance.Calm circumstance
  | .abandon _ => False
  | _ => True

instance (label : (blobMachine settings).Label) : Decidable (Smooth label) :=
  match label with
  | .act _ circumstance =>
      (fun circumstance : BlobCircumstance =>
        (inferInstance : Decidable circumstance.Calm)) circumstance
  | .abandon _ => inferInstanceAs (Decidable False)
  | .environment _ | .start .. | .finish _ => inferInstanceAs (Decidable True)

end Conditions

/-! ## Interference -/

section Interference

variable {settings : BlobSettings} {libraries : BlobLibraries} {request other : Nat}
variable {vault : VaultId} {uploadId : String} {server server' : BlobServer}

/-- What changes neither uploads nor files is tolerated. -/
theorem TidyRely.of_steady
    (tolerated : StagingRely request server server')
    (requests : server.requests <+: server'.requests)
    (journal : server'.journal = server.journal)
    (uploads : server'.uploads = server.uploads)
    (rows : server'.db.blobUploads = server.db.blobUploads)
    (disk : server'.disk = server.disk) :
    TidyRely request server server' where
  toStagingRely := tolerated
  requests := requests
  entries := by
    unfold BlobServer.entriesOf
    rw [journal]
  undrawn := fun _ drawn => ⟨uploads ▸ drawn.issued, uploads ▸ drawn.unused⟩
  gone := fun _ gone => ⟨uploads ▸ gone.registered, rows ▸ gone.row⟩
  bare := fun _ _ absent => disk ▸ absent

/-- A staged file that is there was there before, or an id has been drawn for the
request, or the upload has its row. -/
theorem FileCall.Effect.stages
    {call : FileCall}
    {disk : Disk FilePath UInt8}
    (effect : call.Effect server.disk disk)
    (facts : TidyFacts libraries request server)
    (staging : stagingPre libraries request (.file call) server)
    (pre : tidyPre request (.file call) server)
    (there : disk.entry (tmpFilePath uploadId) ≠ none) :
    server.disk.entry (tmpFilePath uploadId) ≠ none ∨ server.Drawn request uploadId ∨
      ∃ row, server.db.blobUploads.lookup uploadId = some row := by
  cases effect with
  | unchanged => exact Or.inl there
  | write => exact Or.inl there
  | create =>
      obtain ⟨uploadId', rfl, drawn⟩ := staging
      by_cases same : uploadId = uploadId'
      · subst same
        exact Or.inr (Or.inl drawn)
      · rw [(Disk.Same.create (tmpFilePath_inj.not.mpr same)).entry] at there
        exact Or.inl there
  | «open» =>
      obtain ⟨vault, uploadId', rfl, letIn⟩ := pre
      by_cases same : uploadId = uploadId'
      · subst same
        obtain ⟨row, found⟩ := Option.ne_none_iff_exists'.mp (facts.letIn vault uploadId letIn)
        exact Or.inr (Or.inr ⟨row, (BlobDb.upload_eq_some_iff.mp found).1⟩)
      · rw [(Disk.Same.openOrCreate (tmpFilePath_inj.not.mpr same)).entry] at there
        exact Or.inl there
  | remove =>
      refine Or.inl fun absent => there ?_
      rw [Disk.entry_remove, absent, ite_self]
  | rename found =>
      obtain ⟨uploadId', key, size, rfl, rfl, -⟩ := staging
      refine Or.inl fun absent => there ?_
      rw [Disk.entry_rename, if_neg (tmpFilePath_ne_file key uploadId), absent, ite_self]

/-- An id is not drawn for a request by the calls of another one. -/
theorem BlobServer.Drawn.of_commit
    {now : Time}
    {call : BlobDbCall}
    {reply : call.Reply}
    {db : BlobDb}
    (drawn : (server.commit request now call reply db).Drawn other uploadId)
    (staging : stagingPre libraries request (.db call) server)
    (different : other ≠ request) :
    server.Drawn other uploadId where
  issued := by
    have issued := drawn.issued
    change (server.uploads.record request call reply).issued uploadId = some other at issued
    cases call with
    | admitUpload vault size =>
        cases reply with
        | admitted uploadId' =>
            by_cases same : uploadId = uploadId'
            · subst same
              have own := (Function.update_self ..).symm.trans issued
              exact absurd (Option.some.inj own).symm different
            · exact (Function.update_of_ne same ..).symm.trans issued
        | _ => exact issued
    | _ => exact issued
  unused := by
    by_contra registered
    obtain ⟨claim, registered⟩ := Option.ne_none_iff_exists'.mp registered
    exact absurd (drawn.unused.symm.trans (UploadLedger.registered_record staging registered))
      nofun

/-- An upload whose row is gone stays so. -/
theorem BlobServer.Gone.commit
    {now : Time}
    {call : BlobDbCall}
    {reply : call.Reply}
    {db : BlobDb}
    (gone : server.Gone uploadId)
    (staging : stagingPre libraries request (.db call) server)
    (effect : call.Effect now reply server.db db) :
    (server.commit request now call reply db).Gone uploadId where
  registered := by
    obtain ⟨claim, registered⟩ := Option.ne_none_iff_exists'.mp gone.registered
    exact fun unregistered => absurd
      (unregistered.symm.trans (UploadLedger.registered_record staging registered)) nofun
  row := by
    refine effect.lookup_eq_none ?_ gone.row
    rintro vault hash size rfl
    exact gone.registered staging.1.unused

/-- A call that is made as the terms require is tolerated. -/
theorem TidyRely.of_exec
    {call : BlobCall}
    {circumstance : BlobCircumstance}
    {reply : blobSignature.Reply call}
    (facts : TidyFacts settings.toBlobLibraries request server)
    (staging : stagingPre settings.toBlobLibraries request call server)
    (pre : tidyPre request call server)
    (executed : BlobServer.exec settings request call circumstance server =
      some (reply, server'))
    (different : other ≠ request) :
    TidyRely other server server' := by
  have tolerated := StagingRely.of_exec facts.toStoreSound staging executed different
  cases call with
  | db call =>
      rcases BlobServer.query_cases executed with
        ⟨error, rfl, rfl⟩ | ⟨value, db, rfl, -, effect, rfl⟩
      · exact .refl other _
      · exact
          { toStagingRely := tolerated
            requests := List.prefix_rfl
            entries := BlobServer.exec_entriesOf_of_ne executed different
            undrawn := fun _ drawn => drawn.of_commit staging different
            gone := fun _ gone => gone.commit staging (BlobDbCall.exec_effect effect)
            bare := fun _ _ absent => absent }
  | file call =>
      simp only [BlobServer.exec, Option.some.injEq] at executed
      have effect := BlobServer.operate_effect executed
      rw [BlobServer.operate_eq executed] at tolerated ⊢
      refine
        { toStagingRely := tolerated
          requests := List.prefix_rfl
          entries := rfl
          undrawn := fun _ drawn => ⟨drawn.issued, drawn.unused⟩
          gone := fun _ gone => ⟨gone.registered, gone.row⟩
          bare := ?_ }
      intro uploadId unused absent
      by_contra there
      rcases effect.stages facts staging pre there with staged | drawn | ⟨row, stored⟩
      · exact staged absent
      · rcases unused with drawn' | gone
        · exact different (Option.some.inj (drawn'.issued.symm.trans drawn.issued))
        · exact gone.registered drawn.unused
      · rcases unused with drawn' | gone
        · cases (facts.uploadRows uploadId row stored).symm.trans drawn'.unused
        · cases stored.symm.trans gone.row
  | lock key =>
      simp only [BlobServer.exec] at executed
      split at executed
      · obtain ⟨-, rfl⟩ := Prod.mk.inj (Option.some.inj executed)
        exact .of_steady tolerated List.prefix_rfl rfl rfl rfl rfl
      · cases executed
  | publish event =>
      obtain ⟨-, rfl⟩ := Prod.mk.inj (Option.some.inj executed)
      exact .of_steady tolerated List.prefix_rfl rfl rfl rfl rfl

end Interference

/-! ## What holds between steps -/

section Owners

variable {settings : BlobSettings} {request other : Nat}
variable {vault : VaultId} {uploadId : String} {server server' : BlobServer}

/-- A row that is not deleted stays. -/
theorem BlobDbCall.Effect.upload_kept
    {now : Time}
    {call : BlobDbCall}
    {reply : call.Reply}
    {db db' : BlobDb}
    (effect : Effect now call reply db db')
    (keeps : call ≠ .deleteUpload vault uploadId)
    (there : db.upload vault uploadId ≠ none) :
    db'.upload vault uploadId ≠ none := by
  obtain ⟨row, found⟩ := Option.ne_none_iff_exists'.mp there
  obtain ⟨stored, owned⟩ := BlobDb.upload_eq_some_iff.mp found
  cases effect with
  | @insertUpload vault' uploadId' hash size _ absent =>
      refine Option.ne_none_iff_exists'.mpr ⟨row, BlobDb.upload_eq_some_iff.mpr ⟨?_, owned⟩⟩
      rw [Table.lookup_insert_eq_ite, if_neg]
      · exact stored
      · rintro rfl
        exact absurd (stored.symm.trans absent) nofun
  | @deleteUpload vault' uploadId' _ row' found' owned' =>
      refine Option.ne_none_iff_exists'.mpr ⟨row, BlobDb.upload_eq_some_iff.mpr ⟨?_, owned⟩⟩
      rw [Table.lookup_erase_eq_ite, if_neg]
      · exact stored
      · rintro rfl
        obtain rfl := Option.some.inj (stored.symm.trans found')
        exact keeps (by rw [← owned, owned'])
  | @updateReceived vault' uploadId' next _ row' found' owned' =>
      by_cases same : uploadId = uploadId'
      · subst same
        obtain rfl := Option.some.inj (stored.symm.trans found')
        refine Option.ne_none_iff_exists'.mpr ⟨{ row with receivedBytes := next },
          BlobDb.upload_eq_some_iff.mpr ⟨?_, owned⟩⟩
        rw [Table.lookup_insert_eq_ite, if_pos rfl]
      · refine Option.ne_none_iff_exists'.mpr ⟨row, BlobDb.upload_eq_some_iff.mpr ⟨?_, owned⟩⟩
        rw [Table.lookup_insert_eq_ite, if_neg same]
        exact stored
  | _ => exact there

/-- A request that has just been let in has found the row. -/
theorem BlobServer.LetIn.of_commit
    {now : Time}
    {uuid : String}
    {call : BlobDbCall}
    {reply : call.Reply}
    {db : BlobDb}
    {defaultQuotaBytes : Nat}
    (executed : call.exec defaultQuotaBytes now uuid server.db = .ok (reply, db))
    (letIn : (server.commit request now call reply db).LetIn request vault uploadId) :
    db.upload vault uploadId ≠ none := by
  have last := letIn.2
  rw [entriesOf_commit_self, List.getLast?_append, List.getLast?_singleton, Option.some_or,
    Option.bind_some] at last
  cases call with
  | readUpload vault' uploadId' =>
      obtain ⟨replied, rfl⟩ := Prod.mk.inj (Except.ok.inj executed)
      subst replied
      unfold BlobEntry.alive BlobDb.readUpload at last
      intro absent
      cases present : server.db.upload vault' uploadId' with
      | none => simp [present] at last
      | some row =>
          simp only [present, Option.map_some] at last
          split_ifs at last
          obtain ⟨rfl, rfl⟩ := Prod.mk.inj (Option.some.inj last)
          exact absurd (present.symm.trans absent) nofun
  | _ => cases last

/-- A call leaves the tables and the records as they are, or it is a database call
that takes effect. -/
theorem BlobServer.exec_cases
    {call : BlobCall}
    {circumstance : BlobCircumstance}
    {reply : blobSignature.Reply call}
    (executed : BlobServer.exec settings request call circumstance server =
      some (reply, server')) :
    (server'.db = server.db ∧ server'.uploads = server.uploads ∧
        server'.journal = server.journal) ∨
      ∃ query now uuid value db, call = .db query ∧
        query.exec settings.defaultQuotaBytes now uuid server.db = .ok (value, db) ∧
        server' = server.commit request now query value db := by
  cases call with
  | db call =>
      rcases BlobServer.query_cases executed with
        ⟨error, rfl, rfl⟩ | ⟨value, db, rfl, -, effect, rfl⟩
      · exact Or.inl ⟨rfl, rfl, rfl⟩
      · exact Or.inr ⟨call, _, _, value, db, rfl, effect, rfl⟩
  | _ =>
      rw [BlobServer.exec_other executed fun _ same => by cases same]
      exact Or.inl ⟨rfl, rfl, rfl⟩

/-- An id that has been drawn stays drawn until its row is inserted. -/
theorem BlobServer.Drawn.exec
    {call : BlobCall}
    {circumstance : BlobCircumstance}
    {reply : blobSignature.Reply call}
    (drawn : server.Drawn request uploadId)
    (executed : BlobServer.exec settings request call circumstance server =
      some (reply, server')) :
    server'.Drawn request uploadId ∨
      ∃ row, server'.db.blobUploads.lookup uploadId = some row := by
  rcases BlobServer.exec_cases executed with
    ⟨-, uploads, -⟩ | ⟨query, now, uuid, value, db, -, effect, rfl⟩
  · exact Or.inl ⟨uploads ▸ drawn.issued, uploads ▸ drawn.unused⟩
  · cases query with
    | insertUpload vault uploadId' hash size =>
        by_cases same : uploadId = uploadId'
        · subst same
          right
          cases BlobDbCall.exec_effect effect with
          | read reads => cases reads
          | insertUpload absent =>
              exact ⟨_, by
                change (server.db.blobUploads.insert ..).lookup uploadId = some _
                rw [Table.lookup_insert_eq_ite, if_pos rfl]⟩
        · exact Or.inl
            ⟨drawn.issued, (Function.update_of_ne same ..).trans drawn.unused⟩
    | admitUpload vault size =>
        left
        cases value with
        | admitted uploadId' =>
            refine ⟨?_, drawn.unused⟩
            by_cases same : uploadId = uploadId'
            · subst same
              exact Function.update_self ..
            · exact (Function.update_of_ne same ..).trans drawn.issued
        | _ => exact ⟨drawn.issued, drawn.unused⟩
    | _ => exact Or.inl ⟨drawn.issued, drawn.unused⟩

/-- The journal grows. -/
theorem BlobServer.journal_exec
    {call : BlobCall}
    {circumstance : BlobCircumstance}
    {reply : blobSignature.Reply call}
    (executed : BlobServer.exec settings request call circumstance server =
      some (reply, server')) :
    server.journal <+: server'.journal := by
  rcases BlobServer.exec_cases executed with
    ⟨-, -, journal⟩ | ⟨query, now, uuid, value, db, -, -, rfl⟩
  · rw [journal]
  · exact List.prefix_append _ _

/-- What has been deleted stays so. -/
theorem BlobServer.Deleted.of_journal
    (deleted : server.Deleted other uploadId)
    (journal : server.journal <+: server'.journal) :
    server'.Deleted other uploadId := by
  obtain ⟨entry, member, deletes⟩ := deleted
  obtain ⟨older, own⟩ := List.mem_filter.mp member
  exact ⟨entry, List.mem_filter.mpr ⟨journal.subset older, own⟩, deletes⟩

/-- A row stays until it is deleted. -/
theorem BlobServer.row_exec
    {call : BlobCall}
    {circumstance : BlobCircumstance}
    {reply : blobSignature.Reply call}
    {row : UploadRow}
    (stored : server.db.blobUploads.lookup uploadId = some row)
    (executed : BlobServer.exec settings request call circumstance server =
      some (reply, server')) :
    (∃ row, server'.db.blobUploads.lookup uploadId = some row) ∨
      server'.Deleted request uploadId := by
  have there : server.db.upload row.vaultId uploadId = some row :=
    BlobDb.upload_eq_some_iff.mpr ⟨stored, rfl⟩
  rcases BlobServer.exec_cases executed with
    ⟨same, -, -⟩ | ⟨query, now, uuid, value, db, -, effect, rfl⟩
  · exact Or.inl ⟨row, same ▸ stored⟩
  · by_cases deletes : query = .deleteUpload row.vaultId uploadId
    · subst deletes
      refine Or.inr (deleted_commit.mpr (Or.inr ?_))
      simp [BlobEntry.deleted, there]
    · have kept := (BlobDbCall.exec_effect effect).upload_kept deletes (by simp [there])
      obtain ⟨row', found⟩ := Option.ne_none_iff_exists'.mp kept
      exact Or.inl ⟨row', (BlobDb.upload_eq_some_iff.mp found).1⟩

/-- A staged file that is there was there before, or an id has been drawn for the
request, or the upload has its row. -/
theorem BlobServer.staged_exec
    {call : BlobCall}
    {circumstance : BlobCircumstance}
    {reply : blobSignature.Reply call}
    (facts : TidyFacts settings.toBlobLibraries request server)
    (staging : stagingPre settings.toBlobLibraries request call server)
    (pre : tidyPre request call server)
    (executed : BlobServer.exec settings request call circumstance server =
      some (reply, server'))
    (there : server'.disk.entry (tmpFilePath uploadId) ≠ none) :
    server.disk.entry (tmpFilePath uploadId) ≠ none ∨ server.Drawn request uploadId ∨
      ∃ row, server.db.blobUploads.lookup uploadId = some row := by
  cases call with
  | db call =>
      rcases BlobServer.query_cases executed with
        ⟨error, rfl, rfl⟩ | ⟨value, db, rfl, -, -, rfl⟩
      · exact Or.inl there
      · exact Or.inl there
  | file call =>
      exact (BlobServer.operate_effect (Option.some.inj executed)).stages facts staging pre
        there
  | lock key =>
      simp only [BlobServer.exec] at executed
      split at executed
      · obtain ⟨-, rfl⟩ := Prod.mk.inj (Option.some.inj executed)
        exact Or.inl there
      · cases executed
  | publish event =>
      obtain ⟨-, rfl⟩ := Prod.mk.inj (Option.some.inj executed)
      exact Or.inl there

end Owners

section Kept

variable {settings : BlobSettings} {calm : Prop}
variable {config config' : (blobMachine settings).Config}
variable {label : (blobMachine settings).Label}

/-- A staged file has its row, or a request in flight answers for it. -/
def Owned (config : (blobMachine settings).Config) (uploadId : String) : Prop :=
  (∃ row, config.shared.db.blobUploads.lookup uploadId = some row) ∨
    ∃ request, config.thread request ≠ none ∧
      (config.shared.Drawn request uploadId ∨ config.shared.Deleted request uploadId)

/-- What holds between any two steps. -/
structure TidyKept (calm : Prop) (config : (blobMachine settings).Config) : Prop where
  records : RecordsKept CountedOutcome config
  issued : ∀ uploadId request, config.shared.uploads.issued uploadId = some request →
    request < config.shared.requests.length
  letIn : ∀ request vault uploadId, Calling config request →
    config.shared.LetIn request vault uploadId →
    config.shared.db.upload vault uploadId ≠ none
  owned : calm → ∀ uploadId, config.shared.disk.entry (tmpFilePath uploadId) ≠ none →
    Owned config uploadId

/-- What has been accounted for stays so. -/
theorem countedOutcome_lasting : Lasting CountedOutcome := by
  intro request outcome server server' accounted requests entries vault uploadId put next made
  rw [requests] at made
  rw [entries]
  exact accounted vault uploadId put next made

/-- Only the request that is advanced may begin to call. -/
theorem Calling.of_advance
    {request other : Nat}
    {rest : Option (Program blobSignature (blobMachine settings).Outcome)}
    {server : BlobServer}
    (calling : Calling (config.advance request rest server) other)
    (different : other ≠ request) :
    Calling config other := by
  unfold Calling at *
  rwa [config.advance_thread_other different] at calling

/-- A request that calls runs. -/
theorem Calling.active
    {request : Nat}
    (calling : Calling config request) :
    config.thread request ≠ none := by
  intro idle
  unfold Calling at calling
  rw [idle] at calling
  exact calling

/-- A request that has not been made has not been let in. -/
theorem RecordsKept.entriesOf_eq_nil
    {concluded : Nat → BlobOutcome → BlobServer → Prop}
    (kept : RecordsKept concluded config) :
    config.shared.entriesOf config.shared.requests.length = [] := by
  refine List.filter_eq_nil_iff.mpr ?_
  intro entry member
  have made := kept.origins entry member
  simpa using made.ne

/-- The rows of requests that have been let in stay. -/
theorem TidyKept.letIn_step
    (kept : TidyKept calm config)
    (untorn : Untorn label config)
    (stepped : Machine.Steps _ label config config')
    {request : Nat}
    {vault : VaultId}
    {uploadId : String}
    (calling : Calling config' request)
    (letIn : config'.shared.LetIn request vault uploadId) :
    config'.shared.db.upload vault uploadId ≠ none := by
  cases stepped with
  | @act config actor circumstance call next reply server' current executed =>
      have executed : config.shared.exec settings actor call circumstance =
        some (reply, server') := executed
      have before : request ≠ actor → Calling config request ∧
          config.shared.LetIn request vault uploadId := by
        intro different
        refine ⟨calling.of_advance different, ?_⟩
        unfold BlobServer.LetIn at *
        rwa [← BlobServer.exec_entriesOf_of_ne executed different]
      change server'.db.upload vault uploadId ≠ none
      rcases BlobServer.exec_cases executed with
        ⟨same, -, journal⟩ | ⟨query, now, uuid, value, db, rfl, effect, rfl⟩
      · have calls : Calling config request := by
          by_cases own : request = actor
          · subst own
            simp [Calling, current]
          · exact (before own).1
        rw [same]
        refine kept.letIn request vault uploadId calls ?_
        unfold BlobServer.LetIn BlobServer.entriesOf at *
        rwa [← journal]
      · by_cases own : request = actor
        · subst own
          exact letIn.of_commit effect
        · obtain ⟨calls, earlier⟩ := before own
          have there := kept.letIn request vault uploadId calls earlier
          refine (BlobDbCall.exec_effect effect).upload_kept ?_ there
          rintro rfl
          simp only [Untorn, current] at untorn
          exact there
            (untorn request (kept.records.running request calls.active) own calls earlier)
  | @environment config event server' happened =>
      have alike := BlobServer.environment_alike happened
      change server'.db.upload vault uploadId ≠ none
      unfold BlobDb.upload
      rw [alike.uploadRows]
      refine kept.letIn request vault uploadId calling ?_
      unfold BlobServer.LetIn BlobServer.entriesOf at *
      rwa [← alike.journal]
  | start current started =>
      obtain ⟨rfl, -, rfl⟩ := start_eq started
      by_cases new : request = config.shared.requests.length
      · subst new
        have none := kept.records.entriesOf_eq_nil
        exact absurd letIn.1 (by
          change (config.shared.entriesOf config.shared.requests.length).length ≠ 2
          simp [none])
      · exact kept.letIn request vault uploadId (calling.of_advance new) letIn
  | @finish config actor outcome current =>
      by_cases own : request = actor
      · subst own
        simp [Calling] at calling
      · exact kept.letIn request vault uploadId (calling.of_advance own) letIn
  | @abandon config actor =>
      by_cases own : request = actor
      · subst own
        simp [Calling] at calling
      · exact kept.letIn request vault uploadId (calling.of_advance own) letIn

/-- Ids are drawn for requests that have been made. -/
theorem TidyKept.issued_step
    (kept : TidyKept calm config)
    (stepped : Machine.Steps _ label config config')
    {uploadId : String}
    {request : Nat}
    (issued : config'.shared.uploads.issued uploadId = some request) :
    request < config'.shared.requests.length := by
  cases stepped with
  | @act config actor circumstance call next reply server' current executed =>
      have executed : config.shared.exec settings actor call circumstance =
        some (reply, server') := executed
      change server'.uploads.issued uploadId = some request at issued
      change request < server'.requests.length
      rw [(BlobServer.exec_records executed).1]
      rcases BlobServer.exec_cases executed with
        ⟨-, uploads, -⟩ | ⟨query, now, uuid, value, db, rfl, effect, rfl⟩
      · exact kept.issued uploadId request (uploads ▸ issued)
      · change (config.shared.uploads.record actor query value).issued uploadId =
          some request at issued
        cases query with
        | admitUpload vault size =>
            cases value with
            | admitted uploadId' =>
                by_cases same : uploadId = uploadId'
                · subst same
                  have own := (Function.update_self ..).symm.trans issued
                  rw [← Option.some.inj own]
                  exact kept.records.running actor (by simp [current])
                · exact kept.issued uploadId request
                    ((Function.update_of_ne same ..).symm.trans issued)
            | _ => exact kept.issued uploadId request issued
        | _ => exact kept.issued uploadId request issued
  | environment happened =>
      have alike := BlobServer.environment_alike happened
      dsimp only at issued ⊢
      rw [alike.requests]
      exact kept.issued uploadId request (alike.uploads ▸ issued)
  | start current started =>
      obtain ⟨-, -, rfl⟩ := start_eq started
      exact (kept.issued uploadId request issued).trans_le
        (List.prefix_append ..).length_le
  | finish current => exact kept.issued uploadId request issued
  | abandon => exact kept.issued uploadId request issued

/-- Whoever answers for a staged file goes on to do so while it runs. -/
theorem Owned.advance
    {actor : Nat}
    {program : Program blobSignature (blobMachine settings).Outcome}
    {server : BlobServer}
    {uploadId : String}
    (owned : (∃ row, server.db.blobUploads.lookup uploadId = some row) ∨
      ∃ request, (config.thread request ≠ none ∨ request = actor) ∧
        (server.Drawn request uploadId ∨ server.Deleted request uploadId)) :
    Owned (config.advance actor (some program) server) uploadId := by
  refine owned.imp_right ?_
  rintro ⟨request, active, answers⟩
  refine ⟨request, ?_, answers⟩
  by_cases own : request = actor
  · rw [own, config.advance_thread_self]
    exact nofun
  · rw [config.advance_thread_other own]
    exact active.resolve_right own

/-- A request that ends leaves no staged file behind it would have to answer
for. -/
theorem Owned.finish
    {actor : Nat}
    {server : BlobServer}
    {uploadId : String}
    (owned : Owned config uploadId)
    (tidy : config.shared.Tidy actor)
    (there : config.shared.disk.entry (tmpFilePath uploadId) ≠ none)
    (rows : server.db.blobUploads = config.shared.db.blobUploads)
    (uploads : server.uploads = config.shared.uploads)
    (journal : server.journal = config.shared.journal) :
    Owned (config.advance actor none server) uploadId := by
  rcases owned with ⟨row, stored⟩ | ⟨request, active, answers⟩
  · exact Or.inl ⟨row, by rwa [Machine.Config.advance_shared, rows]⟩
  · have different : request ≠ actor := by
      rintro rfl
      rcases answers with drawn | deleted
      · exact there ((tidy.drawn uploadId drawn).resolve_left id)
      · exact there ((tidy.deleted uploadId deleted).resolve_left id)
    refine Or.inr ⟨request, by rwa [config.advance_thread_other different], ?_⟩
    refine answers.imp (fun drawn => ?_) fun deleted => ?_
    · exact ⟨uploads ▸ drawn.issued, uploads ▸ drawn.unused⟩
    · exact deleted.of_journal (by rw [Machine.Config.advance_shared, journal])

end Kept

/-! ## Runs -/

section Runs

variable {settings : BlobSettings} {calm : Prop}
variable {config config' : (blobMachine settings).Config}
variable {label : (blobMachine settings).Label}

/-- The requests' terms, put together. -/
def tidyDiscipline (settings : BlobSettings) (calm : Prop) :
    Discipline (blobMachine settings) where
  contract := tidyContract settings calm
  idle := fun _ _ => True
  post := TidyOutcome calm
  allowed := fun label config => Untorn label config ∧ (calm → Smooth label)
  invariant := TidyKept calm

/-- What is known of the server when a request makes a call. -/
theorem TidyKept.facts
    {request : Nat}
    {call : BlobCall}
    {next : blobSignature.Reply call → Program blobSignature BlobOutcome}
    (kept : TidyKept calm config)
    (sound : StoreSound settings.toBlobLibraries config.shared)
    (current : config.thread request = some (.call call next)) :
    TidyFacts settings.toBlobLibraries request config.shared where
  toStoreSound := sound
  letIn := fun vault uploadId letIn =>
    kept.letIn request vault uploadId (by simp [Calling, current]) letIn

/-- A new request has done nothing yet. -/
theorem TidyKept.looked_start
    (kept : TidyKept calm config)
    {task : BlobTask} :
    Looked calm config.shared.requests.length 0
      { config.shared with requests := config.shared.requests ++ [task] } := by
  have none : config.shared.entriesOf config.shared.requests.length = [] :=
    kept.records.entriesOf_eq_nil
  have nothing : ∀ uploadId, ¬ BlobServer.Deleted config.shared.requests.length uploadId
      { config.shared with requests := config.shared.requests ++ [task] } := by
    rintro uploadId ⟨entry, member, -⟩
    change entry ∈ config.shared.entriesOf config.shared.requests.length at member
    rw [none] at member
    cases member
  refine
    { calls := congrArg List.length none
      leaves := fun _ =>
        { drawn := ?_
          gone := fun uploadId deleted => absurd deleted (nothing uploadId)
          deleted := fun uploadId deleted => absurd deleted (nothing uploadId) } }
  intro uploadId drawn
  exact absurd (kept.issued uploadId _ drawn.issued) (Nat.lt_irrefl _)

/-- A staged file keeps its row, or someone who answers for it. -/
theorem TidyKept.owned_step
    (holds : ((tidyDiscipline settings calm).given (stagingDiscipline settings)).Holds config)
    (smooth : Smooth label)
    (known : calm)
    (stepped : Machine.Steps _ label config config')
    {uploadId : String}
    (there : config'.shared.disk.entry (tmpFilePath uploadId) ≠ none) :
    Owned config' uploadId := by
  obtain ⟨staging, kept⟩ := holds.invariant
  have kept : TidyKept calm config := kept
  cases stepped with
  | @act config actor circumstance call next reply server' current executed =>
      have executed : config.shared.exec settings actor call circumstance =
        some (reply, server') := executed
      have sound : StoreSound settings.toBlobLibraries config.shared := staging.invariant
      have stages := BlobServer.staged_exec (kept.facts sound current) (staging.pre current)
        (holds.pre current) executed there
      refine Owned.advance ?_
      have drawn : config.shared.Drawn actor uploadId →
          (∃ row, server'.db.blobUploads.lookup uploadId = some row) ∨
            ∃ request, (config.thread request ≠ none ∨ request = actor) ∧
              (server'.Drawn request uploadId ∨ server'.Deleted request uploadId) := by
        intro drawn
        rcases drawn.exec executed with drawn | stored
        · exact Or.inr ⟨actor, Or.inr rfl, Or.inl drawn⟩
        · exact Or.inl stored
      have stored : (∃ row, config.shared.db.blobUploads.lookup uploadId = some row) →
          (∃ row, server'.db.blobUploads.lookup uploadId = some row) ∨
            ∃ request, (config.thread request ≠ none ∨ request = actor) ∧
              (server'.Drawn request uploadId ∨ server'.Deleted request uploadId) := by
        rintro ⟨row, stored⟩
        rcases BlobServer.row_exec stored executed with stored | deleted
        · exact Or.inl stored
        · exact Or.inr ⟨actor, Or.inr rfl, Or.inr deleted⟩
      rcases stages with before | drawnHere | row
      · rcases kept.owned known uploadId before with row | ⟨request, active, drawnThere | deleted⟩
        · exact stored row
        · by_cases own : request = actor
          · exact drawn (own ▸ drawnThere)
          · have tolerated := StagingRely.of_exec sound (staging.pre current) executed own
            exact Or.inr ⟨request, Or.inl active,
              Or.inl (tolerated.drawn uploadId drawnThere)⟩
        · exact Or.inr ⟨request, Or.inl active,
            Or.inr (deleted.of_journal (BlobServer.journal_exec executed))⟩
      · exact drawn drawnHere
      · exact stored row
  | environment happened =>
      have alike := BlobServer.environment_alike happened
      dsimp only at there
      rw [alike.disk] at there
      rcases kept.owned known uploadId there with ⟨row, stored⟩ | ⟨request, active, answers⟩
      · exact Or.inl ⟨row, by rwa [alike.uploadRows]⟩
      · refine Or.inr ⟨request, active, answers.imp (fun drawn => ?_) fun deleted => ?_⟩
        · exact ⟨alike.uploads ▸ drawn.issued, alike.uploads ▸ drawn.unused⟩
        · exact deleted.of_journal (by rw [alike.journal])
  | start current started =>
      obtain ⟨-, -, rfl⟩ := start_eq started
      refine Owned.advance ((kept.owned known uploadId there).imp_right ?_)
      rintro ⟨request, active, answers⟩
      exact ⟨request, Or.inl active, answers.imp_left fun drawn => ⟨drawn.issued, drawn.unused⟩⟩
  | finish current =>
      have ended : TidyOutcome calm _ _ config.shared := (holds.meets current).post_of_done
      exact (kept.owned known uploadId there).finish (ended.leaves known) there rfl rfl rfl
  | abandon => exact smooth.elim

/-- The terms fit together where those of `Staging` are kept and no upload is
torn. -/
theorem tidyDiscipline_sound :
    (tidyDiscipline settings calm).SoundGiven (stagingDiscipline settings) where
  exec := by
    intro config request circumstance call next reply server' invariant allowed current executed
    have kept : TidyKept calm config := invariant.2
    exact ⟨kept.facts invariant.1.invariant current, circumstance, allowed.2, executed⟩
  exec_frame := by
    rintro request other call server reply server' pre
      ⟨staging, -, ⟨facts, circumstance, -, executed⟩⟩ different
    exact .of_exec facts staging pre executed different
  environment_frame := by
    intro event server server' other happened
    have alike := BlobServer.environment_alike happened
    exact .of_steady (.of_steady alike.disk alike.locks alike.uploads alike.blobs)
      (by rw [alike.requests]) alike.journal alike.uploads alike.uploadRows alike.disk
  idle_stable := fun _ _ => trivial
  start := by
    intro config request task program server' invariant _ started
    obtain ⟨rfl, rfl, rfl⟩ := start_eq started
    have kept : TidyKept calm config := invariant.2
    exact blobProgram_tidy (List.getElem?_concat_length ..) kept.looked_start
  start_frame := by
    intro request other task server program server' started different
    obtain ⟨-, -, rfl⟩ := start_eq started
    exact .of_steady (.of_steady rfl rfl rfl rfl) (List.prefix_append _ _) rfl rfl rfl rfl
  finish := fun _ => trivial
  finish_frame := by
    intro request other outcome server different
    exact .of_steady ((StagingRely.of_release different).trans (.of_steady rfl rfl rfl rfl))
      List.prefix_rfl rfl rfl rfl rfl
  abandon := fun _ => trivial
  abandon_frame := fun different =>
    .of_steady (.of_release different) List.prefix_rfl rfl rfl rfl rfl
  invariant := by
    rintro label config config' holds ⟨untorn, smooth⟩ stepped
    have kept : TidyKept calm config := holds.invariant.2
    exact
      { records := kept.records.step countedOutcome_lasting
          (fun _ _ current => ((holds.meets current).post_of_done : TidyOutcome ..).accounted)
          stepped
        issued := fun _ _ issued => kept.issued_step stepped issued
        letIn := fun _ _ _ calling letIn => kept.letIn_step untorn stepped calling letIn
        owned := fun known _ there => TidyKept.owned_step holds (smooth known) known stepped
          there }

end Runs

end VaultCrdtServer
