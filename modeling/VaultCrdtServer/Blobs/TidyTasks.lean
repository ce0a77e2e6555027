import VaultCrdtServer.Blobs.Tidy

/-!
# What the requests leave in the staging directory

A request that creates the staged file of an upload inserts its row, and a
request that deletes a row removes the staged file, unless a call fails.
-/

namespace VaultCrdtServer

open Interleaving

/-! ## Calls -/

/-- The call neither begins an upload nor deletes one, and stages no file. -/
def BlobCall.Tidies : BlobCall → Prop
  | .db (.admitUpload ..) | .db (.insertUpload ..) | .db (.deleteUpload ..) => False
  | .file (.create _) => False
  | .file (.open _ create) => create = false
  | .file (.rename _ target) => ∀ uploadId, target ≠ tmpFilePath uploadId
  | _ => True

theorem BlobCall.KeepsUploads.tidies
    {call : BlobCall}
    (keeps : call.KeepsUploads) :
    call.Tidies := by
  unfold Tidies
  split <;> trivial

section Calls

variable {settings : BlobSettings} {calm : Prop} {request : Nat} {uploadId : String}
variable {spared : String → Prop} {server server' : BlobServer}

/-- Rows that are not there do not appear without an insertion. -/
theorem BlobDbCall.Effect.lookup_eq_none
    {now : Time}
    {call : BlobDbCall}
    {reply : call.Reply}
    {db db' : BlobDb}
    (effect : Effect now call reply db db')
    (inserts : ∀ vault hash size, call ≠ .insertUpload vault uploadId hash size)
    (absent : db.blobUploads.lookup uploadId = none) :
    db'.blobUploads.lookup uploadId = none := by
  cases effect with
  | @insertUpload vault uploadId' hash size =>
      rw [Table.lookup_insert_eq_ite, if_neg]
      · exact absent
      · rintro rfl
        exact inserts vault hash size rfl
  | deleteUpload =>
      rw [Table.lookup_erase_eq_ite, absent, ite_self]
  | updateReceived found =>
      rw [Table.lookup_insert_eq_ite, if_neg]
      · exact absent
      · rintro rfl
        exact absurd (found.symm.trans absent) (by simp)
  | _ => exact absent

/-- A file that is not there does not appear where nothing is staged. -/
theorem FileCall.Effect.entry_eq_none
    {call : FileCall}
    {disk disk' : Disk FilePath UInt8}
    (effect : call.Effect disk disk')
    (tidies : (BlobCall.file call).Tidies)
    (absent : disk.entry (tmpFilePath uploadId) = none) :
    disk'.entry (tmpFilePath uploadId) = none := by
  cases effect with
  | create => cases tidies
  | «open» => cases tidies
  | remove => rw [Disk.entry_remove, absent, ite_self]
  | rename found =>
      rw [Disk.entry_rename, if_neg (tidies uploadId).symm, absent, ite_self]
  | _ => exact absent

/-- A database call that has been committed. -/
theorem BlobServer.deleted_commit
    {now : Time}
    {call : BlobDbCall}
    {reply : call.Reply}
    {db : BlobDb} :
    (server.commit request now call reply db).Deleted request uploadId ↔
      server.Deleted request uploadId ∨
        BlobEntry.deleted ⟨request, now, call, reply, server.db, db⟩ = some uploadId := by
  unfold Deleted
  rw [entriesOf_commit_self]
  simp only [List.mem_append, List.mem_singleton, or_and_right, exists_or, exists_eq_left]

theorem BlobServer.TidyBut.commit
    {now : Time}
    {call : BlobDbCall}
    {reply : call.Reply}
    {db : BlobDb}
    (tidy : server.TidyBut request spared)
    (tidies : (BlobCall.db call).Tidies)
    (effect : call.Effect now reply server.db db) :
    (server.commit request now call reply db).TidyBut request spared := by
  have ledger : server.uploads.record request call reply = server.uploads := by
    cases call <;> first | rfl | cases tidies
  have deleted : ∀ {uploadId}, (server.commit request now call reply db).Deleted request
      uploadId → server.Deleted request uploadId := by
    intro uploadId deleted
    refine (deleted_commit.mp deleted).resolve_right ?_
    cases call <;> first | exact False.elim tidies | simp [BlobEntry.deleted]
  refine
    { drawn := ?_
      gone := ?_
      deleted := fun uploadId there => tidy.deleted uploadId (deleted there) }
  · intro uploadId drawn
    refine tidy.drawn uploadId ⟨?_, ?_⟩
    · rw [← ledger]
      exact drawn.issued
    · rw [← ledger]
      exact drawn.unused
  · intro uploadId there
    obtain ⟨registered, row⟩ := tidy.gone uploadId (deleted there)
    refine ⟨?_, effect.lookup_eq_none ?_ row⟩
    · change (server.uploads.record request call reply).registered uploadId ≠ none
      rwa [ledger]
    · rintro vault hash size rfl
      cases tidies

theorem BlobServer.TidyBut.of_disk
    {disk : Disk FilePath UInt8}
    (tidy : server.TidyBut request spared)
    (absent : ∀ uploadId, ¬ spared uploadId → server.Drawn request uploadId ∨
      server.Gone uploadId → server.disk.entry (tmpFilePath uploadId) = none →
        disk.entry (tmpFilePath uploadId) = none) :
    BlobServer.TidyBut request { server with disk := disk } spared where
  drawn := by
    rintro uploadId ⟨issued, unused⟩
    have drawn : server.Drawn request uploadId := ⟨issued, unused⟩
    rw [or_iff_not_imp_left]
    intro kept
    exact absent uploadId kept (Or.inl drawn) ((tidy.drawn uploadId drawn).resolve_left kept)
  gone := by
    intro uploadId deleted
    obtain ⟨registered, row⟩ := tidy.gone uploadId deleted
    exact ⟨registered, row⟩
  deleted := by
    intro uploadId deleted
    rw [or_iff_not_imp_left]
    intro kept
    exact absent uploadId kept (Or.inr (tidy.gone uploadId deleted))
      ((tidy.deleted uploadId deleted).resolve_left kept)

theorem BlobServer.TidyBut.mono
    {spared' : String → Prop}
    (tidy : server.TidyBut request spared)
    (spares : ∀ uploadId, spared uploadId → spared' uploadId) :
    server.TidyBut request spared' where
  drawn := fun uploadId drawn => (tidy.drawn uploadId drawn).imp_left (spares uploadId)
  gone := tidy.gone
  deleted := fun uploadId deleted => (tidy.deleted uploadId deleted).imp_left (spares uploadId)

/-- What calls of other kinds leave. -/
theorem BlobServer.TidyBut.executes
    {terms : CalmTerms}
    {call : BlobCall}
    {reply : blobSignature.Reply call}
    (tidy : server.TidyBut request spared)
    (tidies : call.Tidies)
    (executes : terms.Executes settings request call server reply server') :
    server'.TidyBut request spared := by
  cases call with
  | db call =>
      rcases executes.query with ⟨error, -, rfl, -⟩ | ⟨value, -, committed⟩
      · exact tidy
      · obtain ⟨now, uuid, db, executed, -, rfl⟩ := committed.exec
        exact tidy.commit tidies (BlobDbCall.exec_effect executed)
  | file call =>
      obtain ⟨same, effect, -, -⟩ := executes.operate
      rw [same]
      exact tidy.of_disk fun _ _ _ absent => effect.entry_eq_none tidies absent
  | lock key =>
      obtain ⟨circumstance, -, executed⟩ := executes
      simp only [BlobServer.exec] at executed
      split at executed
      · obtain ⟨-, rfl⟩ := Prod.mk.inj (Option.some.inj executed)
        exact ⟨fun id drawn => tidy.drawn id ⟨drawn.issued, drawn.unused⟩,
          fun id deleted => ⟨(tidy.gone id deleted).registered, (tidy.gone id deleted).row⟩,
          tidy.deleted⟩
      · cases executed
  | publish event =>
      obtain ⟨circumstance, -, executed⟩ := executes
      obtain ⟨-, rfl⟩ := Prod.mk.inj (Option.some.inj executed)
      exact ⟨fun id drawn => tidy.drawn id ⟨drawn.issued, drawn.unused⟩,
        fun id deleted => ⟨(tidy.gone id deleted).registered, (tidy.gone id deleted).row⟩,
        tidy.deleted⟩

end Calls

/-! ## Handlers that discard uploads -/

section Discarding

variable {settings : BlobSettings} {libraries : BlobLibraries} {calm : Prop} {request : Nat}
variable {vault : VaultId} {uploadId : String} {spared : String → Prop} {α : Type}
variable {server : BlobServer}

/-- Where no call fails the directory is tidy, but for what is spared. -/
def LeavesBut
    (calm : Prop)
    (request : Nat)
    (spared : String → Prop)
    (server : BlobServer) : Prop :=
  calm → server.TidyBut request spared

/-- Where no call fails the directory is tidy. -/
abbrev LeavesTidy (calm : Prop) (request : Nat) : BlobServer → Prop :=
  LeavesBut calm request fun _ => False

theorem LeavesBut.stable :
    (tidyTerms libraries calm request).Stable (LeavesBut calm request spared) :=
  fun _ _ leaves tolerated known => (leaves known).tolerates tolerated

/-- A call that stages no file may be made at any time. -/
theorem BlobCall.Tidies.pre
    {call : BlobCall}
    (tidies : call.Tidies)
    (server : BlobServer) :
    tidyPre request call server := by
  unfold tidyPre
  split
  · cases tidies
  · trivial

/-- Programs that begin and delete no uploads. -/
theorem tidies_meets
    {program : Program blobSignature α}
    (only : program.Only BlobCall.Tidies)
    (leaves : LeavesBut calm request spared server) :
    program.Meets (tidyContract settings calm request)
      (fun _ => LeavesBut calm request spared) server := by
  refine only.meets (LeavesBut calm request spared)
    (fun _ _ leaves tolerated known => (leaves known).tolerates tolerated) ?_ ?_ leaves
  · exact fun call server tidies _ => tidies.pre server
  · rintro call server reply server' tidies leaves ⟨-, executes⟩ known
    exact (leaves known).executes tidies executes

/-- The row of an upload is deleted. -/
theorem BlobServer.TidyBut.delete
    {now : Time}
    {reply : Unit}
    {db : BlobDb}
    (tidy : server.Tidy request)
    (sound : StoreSound libraries server)
    (effect : BlobDbCall.Effect now (.deleteUpload vault uploadId) reply server.db db) :
    (server.commit request now (.deleteUpload vault uploadId) reply db).TidyBut request
      (· = uploadId) := by
  have absent : ∀ other, server.Gone other →
      (server.commit request now (.deleteUpload vault uploadId) reply db).Gone other :=
    fun other gone => ⟨gone.registered, effect.lookup_eq_none (by simp) gone.row⟩
  refine
    { drawn := fun other drawn =>
        Or.inr ((tidy.drawn other ⟨drawn.issued, drawn.unused⟩).resolve_left id)
      gone := ?_
      deleted := ?_ }
  · intro other deleted
    rcases deleted_commit.mp deleted with before | here
    · exact absent other (tidy.gone other before)
    · simp only [BlobEntry.deleted] at here
      split_ifs at here with found
      obtain rfl := Option.some.inj here
      obtain ⟨row, found⟩ := Option.isSome_iff_exists.mp found
      obtain ⟨stored, owned⟩ := BlobDb.upload_eq_some_iff.mp found
      refine ⟨?_, ?_⟩
      · change server.uploads.registered uploadId ≠ none
        rw [sound.uploadRows uploadId row stored]
        exact nofun
      · cases effect with
        | read reads => cases reads
        | deleteUpload => exact (Table.lookup_erase_eq_ite ..).trans (if_pos rfl)
        | missedDelete missed => exact absurd (found.symm.trans missed) (by simp)
  · intro other deleted
    rcases deleted_commit.mp deleted with before | here
    · exact Or.inr ((tidy.deleted other before).resolve_left id)
    · simp only [BlobEntry.deleted] at here
      split_ifs at here
      exact Or.inl (Option.some.inj here).symm

/-- What was spared is not there. -/
theorem BlobServer.TidyBut.tidy
    (tidy : server.TidyBut request (· = uploadId))
    (absent : server.disk.entry (tmpFilePath uploadId) = none) :
    server.Tidy request where
  drawn := by
    intro other drawn
    rcases tidy.drawn other drawn with rfl | absent'
    · exact Or.inr absent
    · exact Or.inr absent'
  gone := tidy.gone
  deleted := by
    intro other deleted
    rcases tidy.deleted other deleted with rfl | absent'
    · exact Or.inr absent
    · exact Or.inr absent'

/-- Where no call fails a file is removed, if it has been there. -/
theorem removeFile_absent
    {reply : Except IoError Unit}
    {server' : BlobServer}
    (known : calm)
    (executes : (tidyTerms libraries calm request).Executes settings request
      (.file (.removeFile (tmpFilePath uploadId))) server reply server') :
    server'.disk.entry (tmpFilePath uploadId) = none := by
  obtain ⟨-, -, removed, -⟩ := executes.operate
  have effect := removed known
  dsimp only [BlobServer.fileEffect] at effect
  split at effect
  · rw [← (Prod.mk.inj effect).2, Disk.entry_remove, if_pos rfl]
  · rename_i absent
    rw [← (Prod.mk.inj effect).2, absent]

/-- The staged file of an upload is removed. -/
theorem removeFile_tidies
    {reply : Except IoError Unit}
    {server' : BlobServer}
    (leaves : LeavesBut calm request (· = uploadId) server)
    (executes : (tidyTerms libraries calm request).Executes settings request
      (.file (.removeFile (tmpFilePath uploadId))) server reply server') :
    LeavesTidy calm request server' := by
  intro known
  have tidies : BlobCall.Tidies (.file (.removeFile (tmpFilePath uploadId))) := trivial
  have tidy : server'.TidyBut request (· = uploadId) := (leaves known).executes tidies executes
  exact tidy.tidy (removeFile_absent known executes)

/-- An upload that is discarded leaves no file behind. -/
theorem discardUpload_tidy
    {β : Type}
    {outcome : Except ServerError β → BlobServer → Prop}
    (leaves : LeavesTidy calm request server) :
    (discardUpload vault uploadId).run.Meets (tidyContract settings calm request)
      (Program.Reaches (fun _ => LeavesTidy calm request) outcome) server := by
  refine calm_meets_attempt LeavesBut.stable leaves (fun _ _ => trivial) ?_
  intro server reply server' leaves facts executes
  have spares : LeavesBut calm request (· = uploadId) server' := by
    intro known
    rcases executes.query with ⟨error, -, -, failed⟩ | ⟨value, -, committed⟩
    · obtain ⟨now, uuid, failed⟩ := failed known
      cases failed
    · obtain ⟨now, uuid, db, executed, -, rfl⟩ := committed.exec
      exact (leaves known).delete facts.toStoreSound (BlobDbCall.exec_effect executed)
  refine calm_meets_attempt LeavesBut.stable spares (fun _ _ => trivial) ?_
  intro server reply server' spares _ executes
  exact calm_meets_pure LeavesBut.stable (removeFile_tidies spares executes)
    fun _ leaves => leaves

/-- An upload that is looked for leaves no file behind if it is discarded. -/
theorem liveUpload_tidy
    {assertion : BlobServer → Prop}
    {alive : UploadView → BlobServer → Prop}
    {outcome : Except ServerError Response → BlobServer → Prop}
    (stable : (tidyTerms settings.toBlobLibraries calm request).Stable assertion)
    (aliveStable : ∀ view,
      (tidyTerms settings.toBlobLibraries calm request).Stable (alive view))
    (leaves : ∀ server, assertion server → LeavesTidy calm request server)
    (fails : ∀ server error, LeavesTidy calm request server → outcome (.error error) server)
    (reads : ∀ server now row, assertion server →
      TidyFacts settings.toBlobLibraries request server →
      server.db.upload vault uploadId = some row → row.expired now = false →
      alive (row.view now) (server.commit request now (.readUpload vault uploadId)
        (some (row.view now)) server.db))
    (holds : assertion server) :
    (liveUpload vault uploadId).run.Meets (tidyContract settings calm request)
      (Program.Reaches
        (fun found server => match found with
          | none => LeavesTidy calm request server
          | some view => alive view server) outcome) server := by
  have read : ∀ server now reply, assertion server → LeavesTidy calm request
      (server.commit request now (.readUpload vault uploadId) reply server.db) :=
    fun server now reply holds known =>
      (leaves server holds known).commit trivial (.read rfl)
  refine calm_meets_liveUpload stable LeavesBut.stable aliveStable holds (fun _ _ => trivial)
    ?_ ?_ reads ?_
  · intro server error holds fault later tolerated
    exact fails later error fun known => absurd known fault
  · exact fun server now holds _ _ => read server now none holds
  · exact fun server now row holds _ _ _ =>
      discardUpload_tidy (read server now (some (row.view now)) holds)

theorem getUpload_tidy
    (leaves : LeavesTidy calm request server) :
    (getUpload vault uploadId).run.Meets (tidyContract settings calm request)
      (fun _ => LeavesTidy calm request) server := by
  refine Program.Meets.bind_fallible _
    (liveUpload_tidy LeavesBut.stable (fun _ => LeavesBut.stable) (fun _ leaves => leaves)
      (fun _ _ leaves => leaves)
      (fun server now row leaves _ _ _ known => (leaves known).commit trivial (.read rfl))
      leaves) ?_
  intro row server leaves
  cases row with
  | none => exact calm_meets_pure LeavesBut.stable leaves fun _ leaves => leaves
  | some view => exact calm_meets_pure LeavesBut.stable leaves fun _ leaves => leaves

theorem sweepUploads_tidy
    {expired : List (VaultId × String)}
    {attempted : Nat}
    (leaves : LeavesTidy calm request server) :
    (sweepUploads expired attempted).run.Meets (tidyContract settings calm request)
      (fun _ => LeavesTidy calm request) server := by
  induction expired generalizing attempted server with
  | nil => exact calm_meets_pure LeavesBut.stable leaves fun _ leaves => leaves
  | cons upload rest inductionHypothesis =>
      refine Program.Meets.bind_fallible _ (discardUpload_tidy leaves) ?_
      intro _ server leaves
      refine calm_meets_db LeavesBut.stable leaves (fun _ _ => trivial) ?_ ?_
      · exact fun _ error leaves _ later tolerated =>
          LeavesBut.stable _ _ leaves tolerated
      · intro server reply server' leaves _ committed
        obtain ⟨now, uuid, db, executed, -, rfl⟩ := committed.exec
        exact inductionHypothesis fun known =>
          (leaves known).commit trivial (BlobDbCall.exec_effect executed)

/-- The cleanup leaves no files behind. -/
theorem sweepExpiredUploads_tidy
    (leaves : LeavesTidy calm request server) :
    sweepExpiredUploads.run.Meets (tidyContract settings calm request)
      (fun _ => LeavesTidy calm request) server := by
  refine calm_meets_db LeavesBut.stable leaves (fun _ _ => trivial) ?_ ?_
  · exact fun _ error leaves _ later tolerated => LeavesBut.stable _ _ leaves tolerated
  · intro server reply server' leaves _ committed
    obtain ⟨now, uuid, db, executed, -, rfl⟩ := committed.exec
    exact sweepUploads_tidy fun known =>
      (leaves known).commit trivial (BlobDbCall.exec_effect executed)

end Discarding

/-! ## Creating an upload -/

section Creating

variable {settings : BlobSettings} {libraries : BlobLibraries} {calm : Prop} {request : Nat}
variable {vault : VaultId} {uploadId : String} {server : BlobServer}

/-- An id may have been drawn. -/
theorem BlobServer.TidyBut.admitUpload
    {now : Time}
    {size : Nat}
    {admission : Admission}
    (tidy : server.Tidy request) :
    (server.commit request now (.admitUpload vault size) admission server.db).TidyBut request
      (fun uploadId => admission = .admitted uploadId) where
  drawn := by
    intro other drawn
    cases admission with
    | admitted uploadId =>
        by_cases same : other = uploadId
        · exact Or.inl (by rw [same])
        · refine Or.inr ((tidy.drawn other ⟨?_, drawn.unused⟩).resolve_left id)
          exact (Function.update_of_ne same ..).symm.trans drawn.issued
    | _ => exact Or.inr ((tidy.drawn other ⟨drawn.issued, drawn.unused⟩).resolve_left id)
  gone := by
    intro other deleted
    have gone := tidy.gone other ((deleted_commit.mp deleted).resolve_right nofun)
    refine ⟨?_, gone.row⟩
    cases admission <;> exact gone.registered
  deleted := fun other deleted => Or.inr
    ((tidy.deleted other ((deleted_commit.mp deleted).resolve_right nofun)).resolve_left id)

/-- The id that has been drawn is inserted. -/
theorem BlobServer.TidyBut.insert
    {now : Time}
    {reply : Unit}
    {hash : Hash}
    {size : Int}
    {db : BlobDb}
    (tidy : server.TidyBut request (· = uploadId))
    (drawn : server.Drawn request uploadId)
    (effect : BlobDbCall.Effect now (.insertUpload vault uploadId hash size) reply server.db
      db) :
    (server.commit request now (.insertUpload vault uploadId hash size) reply db).Tidy
      request := by
  have different : ∀ other, server.Deleted request other → other ≠ uploadId := by
    rintro other deleted rfl
    exact (tidy.gone other deleted).registered drawn.unused
  refine
    { drawn := ?_
      gone := ?_
      deleted := ?_ }
  · rintro other ⟨issued, unused⟩
    have different : other ≠ uploadId := by
      rintro rfl
      exact absurd ((Function.update_self ..).symm.trans unused) (by simp)
    have before : server.Drawn request other :=
      ⟨issued, (Function.update_of_ne different ..).symm.trans unused⟩
    exact Or.inr ((tidy.drawn other before).resolve_left different)
  · intro other deleted
    have before := (deleted_commit.mp deleted).resolve_right nofun
    obtain ⟨registered, row⟩ := tidy.gone other before
    refine ⟨?_, effect.lookup_eq_none ?_ row⟩
    · exact fun unused => registered
        ((Function.update_of_ne (different other before) ..).symm.trans unused)
    · rintro vault' hash' size' same
      exact different other before (BlobDbCall.insertUpload.inj same).2.1.symm
  · intro other deleted
    have before := (deleted_commit.mp deleted).resolve_right nofun
    exact Or.inr ((tidy.deleted other before).resolve_left (different other before))

/-- An id has been drawn, and only its file may be there without a row. -/
structure Creating
    (calm : Prop)
    (request : Nat)
    (uploadId : String)
    (server : BlobServer) : Prop extends server.Drawn request uploadId where
  leaves : LeavesBut calm request (· = uploadId) server

theorem Creating.stable :
    (tidyTerms libraries calm request).Stable (Creating calm request uploadId) :=
  fun _ _ creating tolerated =>
    { toDrawn := tolerated.drawn uploadId creating.toDrawn
      leaves := LeavesBut.stable _ _ creating.leaves tolerated }

/-- The staged file of an id that has been drawn is created. -/
theorem Creating.create (creating : Creating calm request uploadId server) :
    Creating calm request uploadId
      { server with disk := (server.disk.create (tmpFilePath uploadId)).2 } where
  issued := creating.issued
  unused := creating.unused
  leaves := by
    refine fun known => (creating.leaves known).of_disk ?_
    intro other different _ absent
    exact (Disk.Same.create (tmpFilePath_inj.not.mpr different)).entry.trans absent

/-- An upload whose id has been drawn is inserted, or its file is removed. -/
theorem createUpload_tidy
    {name : String}
    {size : Int64}
    (leaves : LeavesTidy calm request server) :
    (createUpload vault name size).run.Meets (tidyContract settings calm request)
      (fun _ => LeavesTidy calm request) server := by
  have ends : ∀ {response : Response} {server}, LeavesTidy calm request server →
      (pure response : BlobHandler Response).run.Meets (tidyContract settings calm request)
        (fun _ => LeavesTidy calm request) server :=
    fun leaves => calm_meets_pure LeavesBut.stable leaves fun _ leaves => leaves
  have fails : ∀ server (error : ServerError), LeavesTidy calm request server →
      ∀ later, TidyRely request server later → LeavesTidy calm request later :=
    fun server _ leaves later tolerated known => (leaves known).tolerates tolerated
  unfold createUpload
  dsimp only
  split
  · refine calm_meets_db LeavesBut.stable leaves (fun _ _ => trivial)
      (fun server error leaves _ => fails server error leaves) ?_
    intro server found server' leaves _ committed
    obtain ⟨now, uuid, db, executed, -, rfl⟩ := committed.exec
    have leaves : LeavesTidy calm request (server.commit request now _ found db) :=
      fun known => (leaves known).commit trivial (BlobDbCall.exec_effect executed)
    split
    · exact ends leaves
    · split
      · exact ends leaves
      · refine calm_meets_db LeavesBut.stable leaves (fun _ _ => trivial)
          (fun server error leaves _ => fails server error leaves) ?_
        intro server admission server' leaves facts committed
        obtain ⟨now, uuid, db, executed, undrawn, rfl⟩ := committed.exec
        obtain rfl : db = server.db := by
          cases BlobDbCall.exec_effect executed with
          | read => rfl
        have admits : LeavesBut calm request (fun uploadId => admission = .admitted uploadId)
            (server.commit request now (.admitUpload vault (asU64 size.toInt)) admission
              server.db) :=
          fun known => (leaves known).admitUpload
        cases admission with
        | tooManyUploads => exact ends fun known => (admits known).mono nofun
        | quotaExceeded effective => exact ends fun known => (admits known).mono nofun
        | admitted uploadId =>
            obtain ⟨rfl, -⟩ := BlobDbCall.exec_admitUpload executed
            have creating : Creating calm request uploadId
                (server.commit request now (.admitUpload vault (asU64 size.toInt))
                  (.admitted uploadId) server.db) :=
              { issued := Function.update_self ..
                unused := facts.undrawn uploadId undrawn
                leaves := fun known => (admits known).mono fun _ same =>
                  (Admission.admitted.inj same).symm }
            refine calm_meets_file Creating.stable creating (fun _ _ => trivial) ?_ ?_
            · intro _ _ _ _ _ _ failed _ _ known
              cases (Prod.mk.inj (failed known)).1
            intro server _ disk creating _ made
            obtain ⟨-, rfl⟩ := Prod.mk.inj made
            refine calm_meets_file Creating.stable creating (fun _ _ => trivial) ?_ ?_
            · intro _ _ _ _ _ _ failed _ _ known
              cases (Prod.mk.inj (failed known)).1
            intro server _ disk creating _ created
            obtain ⟨-, rfl⟩ := Prod.mk.inj created
            refine calm_meets_attempt Creating.stable creating.create (fun _ _ => trivial) ?_
            intro server reply server' creating _ executes
            rcases executes.query with ⟨error, rfl, rfl, -⟩ | ⟨value, rfl, committed⟩
            · refine calm_meets_attempt LeavesBut.stable creating.leaves
                (fun _ _ => trivial) ?_
              intro server reply server' spares _ executes
              exact calm_meets_throw LeavesBut.stable (removeFile_tidies spares executes)
                fun _ leaves => leaves
            · obtain ⟨now, uuid, db, executed, -, rfl⟩ := committed.exec
              refine ends ?_
              exact fun known => (creating.leaves known).insert creating.toDrawn
                (BlobDbCall.exec_effect executed)
  · exact ends leaves

end Creating

end VaultCrdtServer
