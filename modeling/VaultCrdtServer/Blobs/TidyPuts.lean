import VaultCrdtServer.Blobs.TidyTasks

/-!
# What a PUT leaves in the staging directory

A PUT that has been let in stages its segment in the file of an upload whose row
is there, counts it in that row, and after the last segment moves the file away
before it deletes the row.
-/

namespace VaultCrdtServer

open Interleaving

/-! ## Assertions that tidying calls keep -/

/-- Interference keeps an assertion, and so does every call that begins and
deletes no upload and stages no file. -/
structure Tidying
    (settings : BlobSettings)
    (calm : Prop)
    (request : Nat)
    (assertion : BlobServer → Prop) : Prop where
  stable : (tidyTerms settings.toBlobLibraries calm request).Stable assertion
  keeps : ∀ {call server reply server'}, BlobCall.Tidies call → assertion server →
    (tidyTerms settings.toBlobLibraries calm request).Executes settings request call server
      reply server' → assertion server'

section Rules

variable {settings : BlobSettings} {calm : Prop} {request : Nat} {assertion : BlobServer → Prop}
variable {α : Type} {post : Except ServerError α → BlobServer → Prop} {server : BlobServer}

/-- A call whose result the handler ignores. -/
theorem Tidying.attempt
    {call : BlobCall}
    {continuation : blobSignature.Reply call → BlobHandler α}
    (kept : Tidying settings calm request assertion)
    (tidies : call.Tidies)
    (holds : assertion server)
    (continues : ∀ reply server, assertion server →
      (continuation reply).run.Meets (tidyContract settings calm request) post server) :
    (BlobHandler.attempt call >>= continuation).run.Meets
      (tidyContract settings calm request) post server := by
  refine calm_meets_attempt kept.stable holds (fun server _ => tidies.pre server) ?_
  exact fun _ reply server holds _ executes =>
    continues reply server (kept.keeps tidies holds executes)

/-- A file operation. -/
theorem Tidying.file
    {call : FileCall}
    {continuation : call.Reply → BlobHandler α}
    (kept : Tidying settings calm request assertion)
    (tidies : (BlobCall.file call).Tidies)
    (holds : assertion server)
    (fails : ∀ server error, assertion server → post (.error error) server)
    (continues : ∀ (server : BlobServer) reply server', assertion server' →
      BlobServer.fileEffect server.disk call = (.ok reply, server'.disk) →
      (continuation reply).run.Meets (tidyContract settings calm request) post server') :
    (BlobHandler.file call >>= continuation).run.Meets
      (tidyContract settings calm request) post server := by
  intro server' tolerated
  have here := kept.stable server server' holds tolerated
  refine ⟨BlobCall.Tidies.pre tidies server', ?_⟩
  rintro reply server'' ⟨-, executes⟩
  have after := kept.keeps tidies here executes
  obtain ⟨-, -, -, replied⟩ := executes.operate
  cases reply with
  | error error =>
      exact fun later tolerated => fails later _ (kept.stable server'' later after tolerated)
  | ok value => exact continues server' value server'' after (replied value rfl)

/-- A database call. -/
theorem Tidying.db
    {call : BlobDbCall}
    {continuation : call.Reply → BlobHandler α}
    (kept : Tidying settings calm request assertion)
    (tidies : (BlobCall.db call).Tidies)
    (holds : assertion server)
    (fails : ∀ server error, assertion server → post (.error error) server)
    (continues : ∀ reply server, assertion server →
      (continuation reply).run.Meets (tidyContract settings calm request) post server) :
    (BlobHandler.db call >>= continuation).run.Meets
      (tidyContract settings calm request) post server := by
  intro server' tolerated
  have here := kept.stable server server' holds tolerated
  refine ⟨trivial, ?_⟩
  rintro reply server'' ⟨-, executes⟩
  have after := kept.keeps tidies here executes
  cases reply with
  | error error =>
      exact fun later tolerated => fails later _ (kept.stable server'' later after tolerated)
  | ok value => exact continues value server'' after

end Rules

section Assertions

variable {settings : BlobSettings} {calm : Prop} {request : Nat}
variable {uploadId : String} {key : BlobKey} {size : Int} {server server' : BlobServer}

theorem LeavesBut.tidying {spared : String → Prop} :
    Tidying settings calm request (LeavesBut calm request spared) where
  stable := LeavesBut.stable
  keeps := fun tidies leaves executes known => (leaves known).executes tidies executes

/-- Locks and upload ids are kept by every call that begins no upload. -/
theorem BlobServer.Receiving.executes
    {terms : CalmTerms}
    {call : BlobCall}
    {reply : blobSignature.Reply call}
    (receiving : server.Receiving request uploadId key size)
    (tidies : call.Tidies)
    (executes : terms.Executes settings request call server reply server') :
    server'.Receiving request uploadId key size := by
  cases call with
  | db call =>
      rcases executes.query with ⟨error, -, rfl, -⟩ | ⟨value, -, committed⟩
      · exact receiving
      · obtain ⟨now, uuid, db, executed, -, rfl⟩ := committed.exec
        refine ⟨?_, receiving.lock⟩
        have ledger : server.uploads.record request call value = server.uploads := by
          cases call <;> first | rfl | cases tidies
        change (server.uploads.record request call value).registered uploadId = _
        rw [ledger]
        exact receiving.upload
  | file call =>
      rw [executes.operate.1]
      exact ⟨receiving.upload, receiving.lock⟩
  | lock other =>
      obtain ⟨circumstance, -, executed⟩ := executes
      simp only [BlobServer.exec] at executed
      split at executed
      · rename_i free
        obtain ⟨-, rfl⟩ := Prod.mk.inj (Option.some.inj executed)
        refine ⟨receiving.upload, (Function.update_of_ne ?_ ..).trans receiving.lock⟩
        rintro rfl
        exact absurd (free.symm.trans receiving.lock) (by simp)
      · cases executed
  | publish event =>
      obtain ⟨circumstance, -, executed⟩ := executes
      obtain ⟨-, rfl⟩ := Prod.mk.inj (Option.some.inj executed)
      exact ⟨receiving.upload, receiving.lock⟩

/-- The request receives an upload, and leaves no files behind so far. -/
structure Leaving
    (calm : Prop)
    (request : Nat)
    (uploadId : String)
    (key : BlobKey)
    (size : Int)
    (server : BlobServer) : Prop extends server.Receiving request uploadId key size where
  leaves : LeavesTidy calm request server

theorem Leaving.tolerates
    (leaving : Leaving calm request uploadId key size server)
    (tolerated : TidyRely request server server') :
    Leaving calm request uploadId key size server' where
  toReceiving := leaving.toReceiving.tolerates tolerated.toStagingRely
  leaves := fun known => (leaving.leaves known).tolerates tolerated

theorem Leaving.tidying :
    Tidying settings calm request (Leaving calm request uploadId key size) where
  stable := fun _ _ leaving tolerated => leaving.tolerates tolerated
  keeps := fun tidies leaving executes =>
    { toReceiving := leaving.toReceiving.executes tidies executes
      leaves := fun known => (leaving.leaves known).executes tidies executes }

/-- The staged file is not there any more. -/
structure Moved
    (calm : Prop)
    (request : Nat)
    (uploadId : String)
    (key : BlobKey)
    (size : Int)
    (server : BlobServer) : Prop extends Leaving calm request uploadId key size server where
  absent : calm → server.disk.entry (tmpFilePath uploadId) = none

theorem Moved.tidying :
    Tidying settings calm request (Moved calm request uploadId key size) where
  stable := by
    intro server server' moved tolerated
    have held := tolerated.held key moved.lock
    refine
      { toLeaving := moved.toLeaving.tolerates tolerated
        absent := fun known => ?_ }
    by_contra there
    obtain ⟨inode, found⟩ := Option.ne_none_iff_exists'.mp there
    have before := (held.staged uploadId size moved.upload inode found).1
    exact absurd ((moved.absent known).symm.trans before) (by simp)
  keeps := by
    intro call server reply server' tidies moved executes
    refine
      { toLeaving := Leaving.tidying.keeps tidies moved.toLeaving executes
        absent := fun known => ?_ }
    have absent := moved.absent known
    cases call with
    | db call =>
        rcases executes.query with ⟨error, -, rfl, -⟩ | ⟨value, -, committed⟩
        · exact absent
        · obtain ⟨now, uuid, db, executed, -, rfl⟩ := committed.exec
          exact absent
    | file call => exact executes.operate.2.1.entry_eq_none tidies absent
    | lock other =>
        obtain ⟨circumstance, -, executed⟩ := executes
        simp only [BlobServer.exec] at executed
        split at executed
        · obtain ⟨-, rfl⟩ := Prod.mk.inj (Option.some.inj executed)
          exact absent
        · cases executed
    | publish event =>
        obtain ⟨circumstance, -, executed⟩ := executes
        obtain ⟨-, rfl⟩ := Prod.mk.inj (Option.some.inj executed)
        exact absent

end Assertions

/-! ## The end of a PUT -/

section Finishing

variable {settings : BlobSettings} {calm : Prop} {request : Nat}
variable {vault : VaultId} {uploadId : String} {key : BlobKey} {size : Int}
variable {server : BlobServer}

/-- An upload is discarded, whatever the handler answers then. -/
theorem discardUpload_ends
    {result : BlobHandler Response}
    {outcome : Except ServerError Response}
    (ends : result.run = .done outcome)
    (leaves : LeavesTidy calm request server) :
    (do discardUpload vault uploadId
        result : BlobHandler Response).run.Meets (tidyContract settings calm request)
      (fun _ => LeavesTidy calm request) server := by
  refine Program.Meets.bind_fallible _ (discardUpload_tidy leaves) ?_
  intro _ server leaves
  rw [ends]
  exact fun later tolerated known => (leaves known).tolerates tolerated

/-- The staged file is moved to its destination, or removed. -/
theorem placeBlob_tidy
    {hash : Hash}
    (leaving : Leaving calm request uploadId key size server) :
    (placeBlob vault uploadId hash).run.Meets (tidyContract settings calm request)
      (Program.Reaches (fun _ => Moved calm request uploadId key size)
        fun _ : Except ServerError Response => LeavesTidy calm request) server := by
  have fails : ∀ server (error : ServerError), Leaving calm request uploadId key size server →
      Program.Reaches (fun _ : Bool => Moved calm request uploadId key size)
        (fun _ : Except ServerError Response => LeavesTidy calm request) (.error error) server :=
    fun _ _ leaving => leaving.leaves
  refine Leaving.tidying.file trivial leaving fails ?_
  intro _ _ server leaving _
  refine Leaving.tidying.file trivial leaving fails ?_
  intro _ destExisted server leaving _
  cases destExisted with
  | true =>
      refine calm_meets_attempt Leaving.tidying.stable leaving (fun _ _ => trivial) ?_
      intro server reply server' leaving _ executes
      have tidies : BlobCall.Tidies (.file (.removeFile (tmpFilePath uploadId))) := trivial
      have moved : Moved calm request uploadId key size server' :=
        { toLeaving := Leaving.tidying.keeps tidies leaving executes
          absent := fun known => removeFile_absent known executes }
      exact calm_meets_pure Moved.tidying.stable moved fun _ moved => moved
  | false =>
      refine Leaving.tidying.file rfl leaving fails ?_
      intro _ file server leaving _
      refine Leaving.tidying.file trivial leaving fails ?_
      intro _ _ server leaving _
      refine Leaving.tidying.file ?_ leaving fails ?_
      · exact fun other => BlobKey.file_ne_tmpFilePath ⟨vault, hash⟩ other
      intro before _ server leaving renamed
      have moved : Moved calm request uploadId key size server := by
        refine { toLeaving := leaving, absent := fun _ => ?_ }
        dsimp only [BlobServer.fileEffect] at renamed
        split at renamed
        · rw [← (Prod.mk.inj renamed).2, Disk.entry_rename, if_neg, if_pos rfl]
          exact tmpFilePath_ne_file ⟨vault, hash⟩ uploadId
        · cases (Prod.mk.inj renamed).1
      exact calm_meets_pure Moved.tidying.stable moved fun _ moved => moved

/-- The row of a blob is inserted, and the upload is deleted once its staged file
is gone. -/
theorem recordBlob_tidy
    {view : UploadView}
    {destExisted : Bool}
    (moved : Moved calm request uploadId key size server) :
    (recordBlob vault uploadId view destExisted).run.Meets (tidyContract settings calm request)
      (fun _ => LeavesTidy calm request) server := by
  have discards : ∀ (error : ServerError) {server}, Moved calm request uploadId key size server →
      (do discardUpload vault uploadId
          throw error : BlobHandler Response).run.Meets (tidyContract settings calm request)
        (fun _ => LeavesTidy calm request) server :=
    fun error _ moved => discardUpload_ends rfl moved.leaves
  have stores : ∀ {server}, Moved calm request uploadId key size server →
      (do BlobHandler.db (.deleteUpload vault uploadId)
          return .blobStored view.hashClaimed : BlobHandler Response).run.Meets
        (tidyContract settings calm request) (fun _ => LeavesTidy calm request) server := by
    intro server moved
    refine calm_meets_db Moved.tidying.stable moved (fun _ _ => trivial) ?_ ?_
    · intro server error moved _ later tolerated known
      exact (moved.leaves known).tolerates tolerated
    · intro server reply server' moved facts committed
      obtain ⟨now, uuid, db, executed, -, rfl⟩ := committed.exec
      refine calm_meets_pure LeavesBut.stable ?_ fun _ leaves => leaves
      intro known
      have deleted := (moved.leaves known).delete facts.toStoreSound
        (BlobDbCall.exec_effect executed)
      exact deleted.tidy (moved.absent known)
  refine Moved.tidying.attempt trivial moved ?_
  intro inserted server moved
  cases inserted with
  | error error =>
      cases destExisted with
      | true => exact discards error moved
      | false =>
          exact Moved.tidying.attempt trivial moved fun _ _ moved => discards error moved
  | ok inserted =>
      dsimp only
      split
      · refine Moved.tidying.db trivial moved (fun _ _ moved => moved.leaves) ?_
        intro hasRow server moved
        cases hasRow with
        | true => exact stores moved
        | false =>
            exact Moved.tidying.attempt trivial moved fun _ _ moved => discards _ moved
      · exact stores moved

/-- A PUT whose last segment has been counted leaves no file behind. -/
theorem finishUpload_tidy
    {view : UploadView}
    {next : Nat}
    (leaving : Leaving calm request uploadId key size server) :
    (finishUpload settings.toBlobLibraries vault uploadId view next).run.Meets
      (tidyContract settings calm request) (fun _ => LeavesTidy calm request) server := by
  have refuses : ∀ (response : Response) {server}, LeavesTidy calm request server →
      (do discardUpload vault uploadId
          return response : BlobHandler Response).run.Meets (tidyContract settings calm request)
        (fun _ => LeavesTidy calm request) server :=
    fun _ _ leaves => discardUpload_ends rfl leaves
  unfold finishUpload
  split
  · exact refuses _ leaving.leaves
  · refine Leaving.tidying.file trivial leaving (fun _ _ leaving => leaving.leaves) ?_
    intro _ bytes server leaving _
    split
    · exact refuses _ leaving.leaves
    · split
      · exact refuses _ leaving.leaves
      · exact Program.Meets.bind_fallible _ (placeBlob_tidy leaving)
          fun _ _ moved => recordBlob_tidy moved

end Finishing

/-! ## Counting a segment -/

section Counting

variable {settings : BlobSettings} {calm : Prop} {request : Nat}
variable {vault : VaultId} {uploadId : String} {key : BlobKey} {size : Int}
variable {server server' : BlobServer}

/-- The request has made some database calls. -/
structure Looked
    (calm : Prop)
    (request calls : Nat)
    (server : BlobServer) : Prop where
  calls : (server.entriesOf request).length = calls
  leaves : LeavesTidy calm request server

theorem Looked.tolerates
    {calls : Nat}
    (looked : Looked calm request calls server)
    (tolerated : TidyRely request server server') :
    Looked calm request calls server' where
  calls := by rw [tolerated.entries, looked.calls]
  leaves := fun known => (looked.leaves known).tolerates tolerated

/-- The request has been let in. -/
structure Entered
    (calm : Prop)
    (request : Nat)
    (vault : VaultId)
    (uploadId : String)
    (key : BlobKey)
    (size : Int)
    (server : BlobServer) : Prop extends Leaving calm request uploadId key size server where
  letIn : server.LetIn request vault uploadId

theorem Entered.tolerates
    (entered : Entered calm request vault uploadId key size server)
    (tolerated : TidyRely request server server') :
    Entered calm request vault uploadId key size server' where
  toLeaving := entered.toLeaving.tolerates tolerated
  letIn := (BlobServer.LetIn.of_tolerates tolerated).mpr entered.letIn

theorem Entered.stable :
    (tidyTerms settings.toBlobLibraries calm request).Stable
      (Entered calm request vault uploadId key size) :=
  fun _ _ entered tolerated => entered.tolerates tolerated

theorem Entered.of_disk
    {disk : Disk FilePath UInt8}
    (entered : Entered calm request vault uploadId key size server)
    (leaves : LeavesTidy calm request { server with disk := disk }) :
    Entered calm request vault uploadId key size { server with disk := disk } where
  upload := entered.upload
  lock := entered.lock
  leaves := leaves
  letIn := entered.letIn

/-- A segment is staged in the file of an upload that is there. -/
theorem stageSegment_tidy
    {offset : Nat}
    {segment : Bytes}
    (entered : Entered calm request vault uploadId key size server) :
    (stageSegment uploadId offset segment).run.Meets (tidyContract settings calm request)
      (fun _ => Entered calm request vault uploadId key size) server := by
  refine calm_meets_file Entered.stable entered
    (fun _ entered => ⟨vault, uploadId, rfl, entered.letIn⟩) ?_ ?_
  · intro server error disk entered _ _ failed later tolerated
    refine (entered.of_disk fun known => ?_).tolerates tolerated
    cases (Prod.mk.inj (failed known)).1
  intro server file disk entered facts opened
  obtain ⟨-, rfl⟩ := Prod.mk.inj opened
  have opened : Entered calm request vault uploadId key size
      { server with disk := (server.disk.openOrCreate (tmpFilePath uploadId)).2 } := by
    refine entered.of_disk fun known => (entered.leaves known).of_disk ?_
    intro other _ unused absent
    obtain ⟨row, found⟩ := Option.ne_none_iff_exists'.mp
      (facts.letIn vault uploadId entered.letIn)
    obtain ⟨stored, -⟩ := BlobDb.upload_eq_some_iff.mp found
    refine (Disk.Same.openOrCreate (tmpFilePath_inj.not.mpr ?_)).entry.trans absent
    rintro rfl
    rcases unused with drawn | gone
    · exact absurd ((facts.uploadRows other row stored).symm.trans drawn.unused) (by simp)
    · exact absurd (stored.symm.trans gone.row) (by simp)
  have writes : ∀ file : OpenFile, (do
      let file ← BlobHandler.file (.seek file offset)
      BlobHandler.file (.writeAll file segment)
      BlobHandler.file (.syncAll file) : BlobHandler Unit).run.Only
        fun call : BlobCall => ∃ operation, call = .file operation ∧ call.Tidies :=
    fun _ => only_file.mpr ⟨⟨_, rfl, trivial⟩, fun _ =>
      only_file.mpr ⟨⟨_, rfl, trivial⟩, fun _ => file_only ⟨_, rfl, trivial⟩⟩⟩
  refine Program.Only.meets (writes file) (Entered calm request vault uploadId key size)
    ?_ ?_ ?_ opened
  · exact fun _ _ entered tolerated => entered.tolerates tolerated
  · rintro call server ⟨operation, rfl, tidies⟩ _
    exact BlobCall.Tidies.pre tidies server
  · rintro call server reply server' ⟨operation, rfl, tidies⟩ entered ⟨-, executes⟩
    have leaving := Leaving.tidying.keeps tidies entered.toLeaving executes
    have same := executes.operate.1
    rw [same] at leaving ⊢
    exact entered.of_disk leaving.leaves

/-- What a PUT has done when it ends. -/
structure PutTidy
    (calm : Prop)
    (request : Nat)
    (vault : VaultId)
    (uploadId : String)
    (result : Except ServerError Response)
    (server : BlobServer) : Prop where
  accepted : ∀ next : Nat, result = .ok (.segmentAccepted next) →
    ∃ entry ∈ server.entriesOf request, entry.CountsTo vault uploadId next
  leaves : LeavesTidy calm request server

/-- A PUT that accepts nothing. -/
theorem PutTidy.refused
    {result : Except ServerError Response}
    (leaves : LeavesTidy calm request server)
    (refuses : ∀ next, result ≠ .ok (.segmentAccepted next)) :
    PutTidy calm request vault uploadId result server where
  accepted := fun next accepts => absurd accepts (refuses next)
  leaves := leaves

/-- Nothing is accepted once the last segment has been counted. -/
theorem finishUpload_refuses
    {view : UploadView}
    {next : Nat}
    (within : next ≤ absoluteMax)
    (leaving : Leaving calm request uploadId key size server) :
    (finishUpload settings.toBlobLibraries vault uploadId view next).run.Meets
      (tidyContract settings calm request) (PutTidy calm request vault uploadId) server := by
  refine ((finishUpload_tidy leaving).finally (finishUpload_finally within)).weaken ?_
  rintro result server ⟨leaves, ends⟩
  refine .refused leaves ?_
  rintro next rfl
  have status := ends _ rfl
  simp [Response.status] at status

/-- The segment has been counted in the row. -/
structure Tallied
    (calm : Prop)
    (request : Nat)
    (vault : VaultId)
    (uploadId : String)
    (key : BlobKey)
    (size next : Int)
    (server : BlobServer) : Prop extends Leaving calm request uploadId key size server where
  tallied : ∃ entry ∈ server.entriesOf request, entry.CountsTo vault uploadId next

theorem Tallied.stable {next : Int} :
    (tidyTerms settings.toBlobLibraries calm request).Stable
      (Tallied calm request vault uploadId key size next) :=
  fun _ _ tallied tolerated =>
    { toLeaving := tallied.toLeaving.tolerates tolerated
      tallied := by
        rw [tolerated.entries]
        exact tallied.tallied }

/-- The counter of an upload that is there is moved. -/
theorem Entered.tally
    {now : Time}
    {next : Int}
    {reply : Unit}
    {db : BlobDb}
    (entered : Entered calm request vault uploadId key size server)
    (facts : TidyFacts settings.toBlobLibraries request server)
    (effect : BlobDbCall.Effect now (.updateReceived vault uploadId next) reply server.db db) :
    Tallied calm request vault uploadId key size next
      (server.commit request now (.updateReceived vault uploadId next) reply db) where
  upload := entered.upload
  lock := entered.lock
  leaves := fun known => (entered.leaves known).commit trivial effect
  tallied := by
    obtain ⟨row, found⟩ := Option.ne_none_iff_exists'.mp
      (facts.letIn vault uploadId entered.letIn)
    refine ⟨⟨request, now, .updateReceived vault uploadId next, reply, server.db, db⟩, ?_,
      { call := rfl, row := ⟨row, found, ?_⟩ }⟩
    · rw [BlobServer.entriesOf_commit_self]
      exact List.mem_append_right _ (List.mem_singleton_self _)
    · obtain ⟨stored, owned⟩ := BlobDb.upload_eq_some_iff.mp found
      cases effect with
      | read reads => cases reads
      | updateReceived stored' owned' =>
          obtain rfl := Option.some.inj (stored.symm.trans stored')
          exact BlobDb.upload_eq_some_iff.mpr
            ⟨by rw [Table.lookup_insert_eq_ite, if_pos rfl], owned⟩
      | missedUpdate missed => exact absurd (missed.symm.trans found) (by simp)

/-- The second look at an upload that is alive lets a PUT in. -/
theorem Looked.letIn
    {now : Time}
    {row : UploadRow}
    (looked : Looked calm request 1 server)
    (alive : row.expired now = false) :
    (server.commit request now (.readUpload vault uploadId) (some (row.view now))
      server.db).LetIn request vault uploadId := by
  unfold BlobServer.LetIn
  rw [BlobServer.entriesOf_commit_self]
  refine ⟨?_, ?_⟩
  · rw [List.length_append, looked.calls]
    rfl
  · rw [List.getLast?_append, List.getLast?_singleton, Option.some_or, Option.bind_some]
    simp [BlobEntry.alive, UploadRow.view, alive]

/-- A PUT has found its upload alive under the lock. -/
structure FoundAlive
    (calm : Prop)
    (request : Nat)
    (vault : VaultId)
    (uploadId : String)
    (key : BlobKey)
    (size : Int)
    (view : UploadView)
    (server : BlobServer) : Prop
    extends Entered calm request vault uploadId key size server where
  claimed : view.sizeClaimed = size
  positive : 0 < size
  within : size ≤ absoluteMax

theorem FoundAlive.stable (view : UploadView) :
    (tidyTerms settings.toBlobLibraries calm request).Stable
      (FoundAlive calm request vault uploadId key size view) :=
  fun _ _ found tolerated =>
    { found with toEntered := found.toEntered.tolerates tolerated }

/-- What is done under the lock. -/
theorem receiveSegment_tidy
    {range : ContentRange}
    {segment : Bytes}
    (looked : Looked calm request 1 server)
    (receiving : server.Receiving request uploadId key size) :
    (receiveSegment settings.toBlobLibraries vault uploadId range segment).run.Meets
      (tidyContract settings calm request) (PutTidy calm request vault uploadId) server := by
  have refuses : ∀ (response : Response) {server}, LeavesTidy calm request server →
      (∀ next, response ≠ .segmentAccepted next) →
      (pure response : BlobHandler Response).run.Meets (tidyContract settings calm request)
        (PutTidy calm request vault uploadId) server :=
    fun response _ leaves refuses => calm_meets_pure LeavesBut.stable leaves
      fun _ leaves => .refused leaves fun next accepts => refuses next (Except.ok.inj accepts)
  have stable : (tidyTerms settings.toBlobLibraries calm request).Stable
      fun server => Looked calm request 1 server ∧
        server.Receiving request uploadId key size :=
    fun _ _ holds tolerated =>
      ⟨holds.1.tolerates tolerated, holds.2.tolerates tolerated.toStagingRely⟩
  have aliveStable : ∀ view, (tidyTerms settings.toBlobLibraries calm request).Stable
      (FoundAlive calm request vault uploadId key size view) := FoundAlive.stable
  refine Program.Meets.bind_fallible _
    (liveUpload_tidy stable aliveStable (fun _ holds => holds.1.leaves)
      (fun _ _ leaves => .refused leaves fun _ => nofun) ?_ ⟨looked, receiving⟩) ?_
  · rintro server now row ⟨looked, receiving⟩ facts found alive
    obtain ⟨stored, -⟩ := BlobDb.upload_eq_some_iff.mp found
    have upload := facts.uploadRows uploadId row stored
    obtain ⟨positive, within⟩ := facts.sizes uploadId key size receiving.upload
    exact
      { upload := receiving.upload
        lock := receiving.lock
        leaves := fun known => (looked.leaves known).commit trivial (.read rfl)
        letIn := looked.letIn alive
        claimed := (upload.unique receiving.upload).2
        positive := positive
        within := within }
  intro row server found
  cases row with
  | none => exact refuses _ found nofun
  | some view =>
      have found : FoundAlive calm request vault uploadId key size view server := found
      dsimp only
      split
      · exact refuses _ found.leaves nofun
      · split
        · exact refuses _ found.leaves nofun
        · split
          · exact refuses _ found.leaves nofun
          · rename_i room
            refine Program.Meets.bind_fallible
              (fun _ => Entered calm request vault uploadId key size)
              ((stageSegment_tidy found.toEntered).weaken ?_) ?_
            · intro result server entered
              cases result with
              | ok _ => exact entered
              | error error => exact .refused entered.leaves fun _ => nofun
            intro _ server entered
            refine calm_meets_db Entered.stable entered (fun _ _ => trivial) ?_ ?_
            · intro server error entered _ later tolerated
              exact .refused (entered.tolerates tolerated).leaves fun _ => nofun
            intro server reply server' entered facts committed
            obtain ⟨now, uuid, db, executed, -, rfl⟩ := committed.exec
            have tallied := entered.tally facts (BlobDbCall.exec_effect executed)
            have small : view.sizeClaimed ≤ i64Max := by
              have := found.claimed
              have := found.within
              unfold absoluteMax audioCap at this
              unfold i64Max
              omega
            have claimed := asU64_of_nonneg (found.claimed ▸ found.positive.le) small
            have bounded : saturatingAdd range.last 1 ≤ absoluteMax := by
              have := found.claimed
              have := found.within
              omega
            have same : asI64 (saturatingAdd range.last 1) = saturatingAdd range.last 1 := by
              unfold absoluteMax audioCap at bounded
              unfold asI64
              split_ifs <;> omega
            split
            · refine calm_meets_pure Tallied.stable tallied ?_
              intro server tallied
              refine { accepted := ?_, leaves := tallied.leaves }
              intro next accepts
              obtain rfl := Response.segmentAccepted.inj (Except.ok.inj accepts)
              rw [← same]
              exact tallied.tallied
            · exact finishUpload_refuses bounded tallied.toLeaving

/-- A PUT. -/
theorem putUpload_tidy
    {put : PutRequest}
    (looked : Looked calm request 0 server) :
    (putUpload settings.toBlobLibraries vault uploadId put).run.Meets
      (tidyContract settings calm request) (PutTidy calm request vault uploadId) server := by
  have ends : ∀ {result : BlobHandler Response} (outcome : Except ServerError Response) {server},
      result.run = .done outcome → LeavesTidy calm request server →
      (∀ next, outcome ≠ .ok (.segmentAccepted next)) →
      result.run.Meets (tidyContract settings calm request)
        (PutTidy calm request vault uploadId) server := by
    intro result outcome server done leaves refuses
    rw [done]
    exact fun later tolerated =>
      .refused (fun known => (leaves known).tolerates tolerated) refuses
  unfold putUpload
  split
  · exact ends _ rfl looked.leaves fun _ => nofun
  · split
    · exact ends _ rfl looked.leaves fun _ => nofun
    · split
      · exact ends _ rfl looked.leaves fun _ => nofun
      · exact ends _ rfl looked.leaves fun _ => nofun
      · split_ifs
        · exact ends _ rfl looked.leaves fun _ => nofun
        · exact ends _ rfl looked.leaves fun _ => nofun
        · have stable : (tidyTerms settings.toBlobLibraries calm request).Stable
              (Looked calm request 0) := fun _ _ looked tolerated => looked.tolerates tolerated
          have aliveStable : ∀ view : UploadView,
              (tidyTerms settings.toBlobLibraries calm request).Stable fun server =>
                Looked calm request 1 server ∧
                  server.Uploads uploadId ⟨vault, view.hashClaimed⟩ view.sizeClaimed :=
            fun _ _ _ holds tolerated =>
              ⟨holds.1.tolerates tolerated, tolerated.registered _ _ holds.2⟩
          refine Program.Meets.bind_fallible _
            (liveUpload_tidy stable aliveStable (fun _ looked => looked.leaves)
              (fun _ _ leaves => .refused leaves fun _ => nofun) ?_ looked) ?_
          · intro server now row looked facts found _
            obtain ⟨stored, rfl⟩ := BlobDb.upload_eq_some_iff.mp found
            refine ⟨⟨?_, fun known => (looked.leaves known).commit trivial (.read rfl)⟩,
              facts.uploadRows uploadId row stored⟩
            rw [BlobServer.entriesOf_commit_self, List.length_append, looked.calls]
            rfl
          intro row server found
          cases row with
          | none => exact ends _ rfl found fun _ => nofun
          | some preview =>
              obtain ⟨looked, upload⟩ : Looked calm request 1 server ∧
                server.Uploads uploadId ⟨vault, preview.hashClaimed⟩ preview.sizeClaimed := found
              refine calm_meets_attempt (aliveStable preview) ⟨looked, upload⟩
                (fun _ _ => trivial) ?_
              rintro server reply server' ⟨looked, upload⟩ - executes
              have tidies : BlobCall.Tidies (.lock (uploadLockKey vault preview.hashClaimed)) :=
                trivial
              have tidy := LeavesBut.tidying.keeps tidies looked.leaves executes
              obtain ⟨circumstance, -, executed⟩ := executes
              simp only [BlobServer.exec] at executed
              split at executed
              · obtain ⟨-, rfl⟩ := Prod.mk.inj (Option.some.inj executed)
                exact receiveSegment_tidy ⟨looked.calls, tidy⟩
                  ⟨upload, Function.update_self ..⟩
              · cases executed

end Counting

/-! ## Requests -/

section Requests

variable {settings : BlobSettings} {calm : Prop} {request : Nat} {server : BlobServer}
variable {task : BlobTask}

/-- A segment that was accepted has been counted in the row of its upload. -/
def CountedOutcome (request : Nat) (outcome : BlobOutcome) (server : BlobServer) : Prop :=
  ∀ vault uploadId put, ∀ next : Nat,
    server.requests[request]? = some (.putUpload vault uploadId put) →
    outcome = .response (.ok (.segmentAccepted next)) →
    ∃ entry ∈ server.entriesOf request, entry.CountsTo vault uploadId next

/-- What has come of a request. -/
structure TidyOutcome
    (calm : Prop)
    (request : Nat)
    (outcome : BlobOutcome)
    (server : BlobServer) : Prop where
  accounted : CountedOutcome request outcome server
  leaves : LeavesTidy calm request server

/-- Every request keeps to the terms. -/
theorem blobProgram_tidy
    (made : server.requests[request]? = some task)
    (looked : Looked calm request 0 server) :
    (blobProgram settings task).Meets (tidyContract settings calm request)
      (TidyOutcome calm request) server := by
  have keeps : ∀ {α : Type} {program : Program blobSignature α}
      {post : α → BlobServer → Prop},
      program.Meets (tidyContract settings calm request) post server →
      program.Meets (tidyContract settings calm request)
        (fun value server => post value server ∧ server.requests[request]? = some task)
        server := by
    intro α program post meets
    refine meets.keeps (fun server => server.requests[request]? = some task) ?_ ?_ made
    · exact fun server server' made tolerated => made_of_prefix tolerated.requests made
    · rintro call server reply server' made ⟨-, circumstance, -, executed⟩
      rw [(BlobServer.exec_records executed).1, made]
  have known : ∀ {program : Program blobSignature BlobOutcome},
      (∀ vault uploadId put, task ≠ .putUpload vault uploadId put) →
      program.Meets (tidyContract settings calm request) (fun _ => LeavesTidy calm request)
        server →
      program.Meets (tidyContract settings calm request) (TidyOutcome calm request) server := by
    intro program other meets
    refine (keeps meets).weaken ?_
    rintro outcome server ⟨leaves, made⟩
    refine { accounted := ?_, leaves := leaves }
    intro vault uploadId put next same
    exact absurd (Option.some.inj (made.symm.trans same)) (other vault uploadId put)
  have ends : ∀ {α : Type} {handler : BlobHandler α}
      {outcome : Except ServerError α → BlobOutcome},
      handler.run.Meets (tidyContract settings calm request)
        (fun _ => LeavesTidy calm request) server →
      (handler.run.bind fun result => .done (outcome result)).Meets
        (tidyContract settings calm request) (fun _ => LeavesTidy calm request) server :=
    fun meets => Program.Meets.bind _ meets fun _ _ ended => ended
  have quietly : ∀ {program : Program blobSignature BlobOutcome},
      program.Only BlobCall.Tidies →
      program.Meets (tidyContract settings calm request) (fun _ => LeavesTidy calm request)
        server :=
    fun only => tidies_meets only looked.leaves
  have keepsUploads : ∀ {α : Type} {handler : BlobHandler α}
      {outcome : Except ServerError α → BlobOutcome},
      handler.run.Only BlobCall.KeepsUploads →
      (handler.run.bind fun result => .done (outcome result)).Only BlobCall.Tidies :=
    fun only => (only.mono fun _ => BlobCall.KeepsUploads.tidies).bind fun _ => trivial
  cases task with
  | putUpload vault uploadId put =>
      refine Program.Meets.bind _ (keeps (putUpload_tidy looked)) ?_
      intro result server ended later tolerated
      obtain ⟨ended, made⟩ := ended later tolerated
      refine { accounted := ?_, leaves := ended.leaves }
      intro vault' uploadId' put' next same accepts
      obtain ⟨rfl, rfl, rfl⟩ := BlobTask.putUpload.inj
        (Option.some.inj (made.symm.trans same))
      exact ended.accepted next (BlobOutcome.response.inj accepts)
  | createUpload vault hash size => exact known nofun (ends (createUpload_tidy looked.leaves))
  | getUpload vault uploadId => exact known nofun (ends (getUpload_tidy looked.leaves))
  | sweep => exact known nofun (ends (sweepExpiredUploads_tidy looked.leaves))
  | getBlob vault hash range =>
      refine known nofun (quietly (keepsUploads (getBlob_only vault hash range ?_ ?_ ?_ ?_ ?_)))
      all_goals (intros; rfl)
  | postBlobPath vault body =>
      exact known nofun (quietly (keepsUploads (postBlobPath_keepsUploads _ vault body)))
  | listBlobPaths vault sinceSeq limit =>
      exact known nofun (quietly (keepsUploads (only_db.mpr ⟨rfl, fun _ => trivial⟩)))
  | holdLock key => exact known nofun (quietly ⟨trivial, fun _ => trivial⟩)

end Requests

end VaultCrdtServer
