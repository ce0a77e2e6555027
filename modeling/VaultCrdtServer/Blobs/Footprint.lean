import VaultCrdtServer.Blobs.Contract

/-!
# The calls of the handlers

Which handlers change or announce paths, and which change uploads, blobs or
files.  A handler that keeps away from what a contract is about satisfies it by
the calls it makes alone.
-/

namespace VaultCrdtServer

open Interleaving

namespace BlobCall

/-- The call changes or announces a path. -/
def touchesPaths : BlobCall → Bool
  | .db (.upsertPath _ _) => true
  | .publish _ => true
  | _ => false

/-- The call changes uploads, blobs or files. -/
def touchesUploads : BlobCall → Bool
  | .db (.admitUpload ..) | .db (.insertUpload ..) | .db (.deleteUpload ..)
  | .db (.updateReceived ..) | .db (.insertBlob ..) => true
  | .db _ => false
  | .file (.open _ create) => create
  | .file (.create _) | .file (.writeAll ..) | .file (.removeFile _) | .file (.rename ..) => true
  | .file _ => false
  | _ => false

/-- The call is one of those by which uploads are received and discarded. -/
def receives : BlobCall → Bool
  | .db (.blobExists ..) | .db (.readUpload ..) | .db (.deleteUpload ..) | .db .expiredUploads
  | .db (.uploadStillThere ..) | .db (.updateReceived ..) | .db (.insertBlob ..) => true
  | .db _ | .publish _ => false
  | .file _ | .lock _ => true

/-- The call leaves paths alone. -/
def KeepsPaths (call : BlobCall) : Prop := call.touchesPaths = false

/-- The call leaves uploads, blobs and files alone. -/
def KeepsUploads (call : BlobCall) : Prop := call.touchesUploads = false

/-- The call receives or discards uploads. -/
def Receives (call : BlobCall) : Prop := call.receives = true

/-- The call is one of those by which an upload is discarded or finished.  It
leaves the counters of uploads and the contents of files alone. -/
def Settles (uploadId : String) : BlobCall → Prop
  | .db (.blobExists ..) | .db (.readUpload ..) | .db (.insertBlob ..) => True
  | .db (.deleteUpload _ uploadId') => uploadId' = uploadId
  | .db _ | .publish _ | .lock _ => False
  | .file (.open _ create) => create = false
  | .file (.create _) | .file (.writeAll ..) => False
  | .file (.removeFile path) =>
      path = tmpFilePath uploadId ∨ ∀ other, path ≠ tmpFilePath other
  | .file (.rename source target) =>
      source = tmpFilePath uploadId ∧ ∀ other, target ≠ tmpFilePath other
  | .file _ => True

theorem Receives.keepsPaths {call : BlobCall} (receives : call.Receives) : call.KeepsPaths := by
  unfold KeepsPaths touchesPaths
  split <;> first | rfl | cases receives

theorem Settles.receives
    {uploadId : String}
    {call : BlobCall}
    (settles : call.Settles uploadId) :
    call.Receives := by
  cases call with
  | db call => cases call <;> first | rfl | cases settles
  | file call => rfl
  | lock key => rfl
  | publish event => cases settles

end BlobCall

section Rules

variable {permitted : BlobCall → Prop} {α : Type}

@[simp] theorem only_pure (value : α) :
    (pure value : BlobHandler α).run.Only permitted ↔ True := Iff.rfl

@[simp] theorem only_throw (error : ServerError) :
    (throw error : BlobHandler α).run.Only permitted ↔ True := Iff.rfl

@[simp] theorem only_attempt
    {call : BlobCall}
    {continuation : blobSignature.Reply call → BlobHandler α} :
    (BlobHandler.attempt call >>= continuation).run.Only permitted ↔
      permitted call ∧ ∀ reply, (continuation reply).run.Only permitted := Iff.rfl

@[simp] theorem only_db
    {call : BlobDbCall}
    {continuation : call.Reply → BlobHandler α} :
    (BlobHandler.db call >>= continuation).run.Only permitted ↔
      permitted (.db call) ∧ ∀ reply, (continuation reply).run.Only permitted := by
  constructor
  · exact fun only => ⟨only.1, fun reply => only.2 (.ok reply)⟩
  · rintro ⟨here, continues⟩
    refine ⟨here, ?_⟩
    intro reply
    cases reply with
    | ok value => exact continues value
    | error error => trivial

@[simp] theorem only_file
    {call : FileCall}
    {continuation : call.Reply → BlobHandler α} :
    (BlobHandler.file call >>= continuation).run.Only permitted ↔
      permitted (.file call) ∧ ∀ reply, (continuation reply).run.Only permitted := by
  constructor
  · exact fun only => ⟨only.1, fun reply => only.2 (.ok reply)⟩
  · rintro ⟨here, continues⟩
    refine ⟨here, ?_⟩
    intro reply
    cases reply with
    | ok value => exact continues value
    | error error => trivial

theorem run_attempt
    {call : BlobCall}
    {continuation : blobSignature.Reply call → BlobHandler α} :
    (BlobHandler.attempt call >>= continuation).run =
      .call call fun reply => (continuation reply).run := rfl

theorem finally_attempt
    {final : Except ServerError α → Prop}
    {call : BlobCall}
    {continuation : blobSignature.Reply call → BlobHandler α} :
    (BlobHandler.attempt call >>= continuation).run.Finally final ↔
      ∀ reply, (continuation reply).run.Finally final := Iff.rfl

/-- A single file operation. -/
theorem file_only
    {call : FileCall}
    (here : permitted (.file call)) :
    (BlobHandler.file call).run.Only permitted := by
  refine ⟨here, ?_⟩
  intro reply
  trivial

end Rules

/-! ## File operations -/

section Files

variable {settings : BlobSettings} {request : Nat} {terms : BlobTerms} {α : Type}
variable {server : BlobServer} {assertion : BlobServer → Prop}
variable {final : α → BlobServer → Prop}

theorem FileCall.Effect.looks
    {call : FileCall}
    {disk disk' : Disk FilePath UInt8}
    (effect : call.Effect disk disk')
    (looks : (BlobCall.file call).KeepsUploads) :
    disk' = disk := by
  cases effect with
  | unchanged => rfl
  | _ => cases looks

/-- A file operation that looks at files leaves the server as it was. -/
theorem BlobServer.operate_looks
    {call : FileCall}
    {circumstance : BlobCircumstance}
    {reply : Except IoError call.Reply}
    {server' : BlobServer}
    (looks : (BlobCall.file call).KeepsUploads)
    (operated : server.operate call circumstance = (reply, server')) :
    server' = server := by
  rw [operate_eq operated, (operate_effect operated).looks looks]

/-- A file operation that changes files. -/
theorem yields_file
    {call : FileCall}
    {continuation : call.Reply → BlobHandler α}
    (stable : terms.Stable assertion)
    (holds : assertion server)
    (pre : ∀ server, assertion server → terms.pre (.file call) server)
    (continues : ∀ server reply disk, assertion server → terms.facts server →
      BlobServer.fileEffect server.disk call = (.ok reply, disk) →
      (continuation reply).run.Meets (blobContract settings request terms) (Yields final)
        { server with disk := disk }) :
    (BlobHandler.file call >>= continuation).run.Meets (blobContract settings request terms)
      (Yields final) server := by
  refine blob_meets_file stable holds pre (fun _ _ _ _ _ _ _ _ _ => trivial) ?_
  intro server circumstance reply server' holds facts operated
  rw [BlobServer.operate_eq operated]
  exact continues server reply server'.disk holds facts (BlobServer.operate_eq_ok operated)

/-- A file operation that looks at files. -/
theorem yields_look
    {call : FileCall}
    {continuation : call.Reply → BlobHandler α}
    (looks : (BlobCall.file call).KeepsUploads)
    (stable : terms.Stable assertion)
    (holds : assertion server)
    (pre : ∀ server, assertion server → terms.pre (.file call) server)
    (continues : ∀ server reply, assertion server → terms.facts server →
      BlobServer.fileEffect server.disk call = (.ok reply, server.disk) →
      (continuation reply).run.Meets (blobContract settings request terms) (Yields final)
        server) :
    (BlobHandler.file call >>= continuation).run.Meets (blobContract settings request terms)
      (Yields final) server := by
  refine blob_meets_file stable holds pre (fun _ _ _ _ _ _ _ _ _ => trivial) ?_
  intro server circumstance reply server' holds facts operated
  obtain rfl := BlobServer.operate_looks looks operated
  exact continues server' reply holds facts (BlobServer.operate_eq_ok operated)

/-- A handler that ends with a look at files. -/
theorem yields_last_look
    {call : FileCall}
    (looks : (BlobCall.file call).KeepsUploads)
    (stable : terms.Stable assertion)
    (holds : assertion server)
    (pre : ∀ server, assertion server → terms.pre (.file call) server) :
    (BlobHandler.file call).run.Meets (blobContract settings request terms)
      (Yields fun _ => assertion) server := by
  rw [← bind_pure (BlobHandler.file call)]
  exact yields_look looks stable holds pre
    fun server _ holds _ _ => blob_meets_pure stable holds fun _ holds => holds

end Files

/-! ## Handlers that discard uploads -/

section Discarding

variable {permitted : BlobCall → Prop} (vault : VaultId) (uploadId : String)

theorem discardUpload_only
    (deletes : permitted (.db (.deleteUpload vault uploadId)))
    (removes : permitted (.file (.removeFile (tmpFilePath uploadId)))) :
    (discardUpload vault uploadId).run.Only permitted :=
  only_attempt.mpr ⟨deletes, fun _ => only_attempt.mpr ⟨removes, fun _ => trivial⟩⟩

theorem liveUpload_only
    (reads : permitted (.db (.readUpload vault uploadId)))
    (deletes : permitted (.db (.deleteUpload vault uploadId)))
    (removes : permitted (.file (.removeFile (tmpFilePath uploadId)))) :
    (liveUpload vault uploadId).run.Only permitted := by
  unfold liveUpload
  refine only_db.mpr ⟨reads, ?_⟩
  intro row
  cases row with
  | none => trivial
  | some row =>
      simp only
      split
      · exact (discardUpload_only vault uploadId deletes removes).bind_fallible
          fun _ => trivial
      · trivial

theorem getUpload_only
    (reads : permitted (.db (.readUpload vault uploadId)))
    (deletes : permitted (.db (.deleteUpload vault uploadId)))
    (removes : permitted (.file (.removeFile (tmpFilePath uploadId)))) :
    (getUpload vault uploadId).run.Only permitted := by
  refine (liveUpload_only vault uploadId reads deletes removes).bind_fallible ?_
  intro row
  cases row <;> trivial

theorem sweepUploads_only
    (deletes : ∀ vault uploadId, permitted (.db (.deleteUpload vault uploadId)))
    (removes : ∀ uploadId, permitted (.file (.removeFile (tmpFilePath uploadId))))
    (looks : ∀ vault uploadId, permitted (.db (.uploadStillThere vault uploadId)))
    (expired : List (VaultId × String))
    (attempted : Nat) :
    (sweepUploads expired attempted).run.Only permitted := by
  induction expired generalizing attempted with
  | nil => trivial
  | cons upload rest inductionHypothesis =>
      have discards : (discardUpload upload.1 upload.2).run.Only permitted :=
        discardUpload_only upload.1 upload.2 (deletes _ _) (removes _)
      refine discards.bind_fallible fun _ => ?_
      exact only_db.mpr ⟨looks _ _, fun _ => inductionHypothesis (attempted + 1)⟩

variable (permitted) in
/-- `put_upload` inserts the row of a blob first of all when its file is in
place. -/
theorem recordBlob_inserts
    (row : UploadView)
    (destExisted : Bool)
    (looks : permitted (.db (.blobExists ⟨vault, row.hashClaimed⟩)))
    (deletes : permitted (.db (.deleteUpload vault uploadId)))
    (removes : permitted (.file (.removeFile (tmpFilePath uploadId))))
    (withdraws : permitted (.file (.removeFile (blobFilePath vault row.hashClaimed)))) :
    ∃ next, (recordBlob vault uploadId row destExisted).run =
        .call (.db (.insertBlob ⟨vault, row.hashClaimed⟩ row.sizeClaimed)) next ∧
      ∀ reply, (next reply).Only permitted := by
  have discards : ∀ error : ServerError,
      (do discardUpload vault uploadId
          throw error : BlobHandler Response).run.Only permitted :=
    fun error => (discardUpload_only vault uploadId deletes removes).bind_fallible
      fun _ => trivial
  have finishes : (do BlobHandler.db (.deleteUpload vault uploadId)
                      return .blobStored row.hashClaimed : BlobHandler Response).run.Only
      permitted :=
    only_db.mpr ⟨deletes, fun _ => trivial⟩
  unfold recordBlob
  refine ⟨_, run_attempt, ?_⟩
  intro inserted
  cases inserted with
  | error error =>
      cases destExisted with
      | true => exact discards error
      | false => exact only_attempt.mpr ⟨withdraws, fun _ => discards error⟩
  | ok inserted =>
      dsimp only
      split
      · refine only_db.mpr ⟨looks, ?_⟩
        intro hasRow
        cases hasRow with
        | true => exact finishes
        | false => exact only_attempt.mpr ⟨withdraws, fun _ => discards _⟩
      · exact finishes

end Discarding

/-! ## Handlers that receive and discard uploads -/

section Settling

variable (libraries : BlobLibraries) (vault : VaultId) (uploadId : String)

theorem discardUpload_settles :
    (discardUpload vault uploadId).run.Only (BlobCall.Settles uploadId) :=
  discardUpload_only vault uploadId rfl (Or.inl rfl)

theorem liveUpload_settles :
    (liveUpload vault uploadId).run.Only (BlobCall.Settles uploadId) :=
  liveUpload_only vault uploadId trivial rfl (Or.inl rfl)

theorem getUpload_settles :
    (getUpload vault uploadId).run.Only (BlobCall.Settles uploadId) :=
  getUpload_only vault uploadId trivial rfl (Or.inl rfl)

theorem placeBlob_settles (hash : Hash) :
    (placeBlob vault uploadId hash).run.Only (BlobCall.Settles uploadId) := by
  refine only_file.mpr ⟨trivial, fun _ => only_file.mpr ⟨trivial, fun destExisted => ?_⟩⟩
  cases destExisted with
  | true => exact only_attempt.mpr ⟨Or.inl rfl, fun _ => trivial⟩
  | false =>
      refine only_file.mpr ⟨rfl, fun _ => only_file.mpr ⟨trivial, fun _ => ?_⟩⟩
      refine only_file.mpr ⟨⟨rfl, ?_⟩, fun _ => trivial⟩
      exact fun other => by simp

theorem recordBlob_settles (row : UploadView) (destExisted : Bool) :
    (recordBlob vault uploadId row destExisted).run.Only (BlobCall.Settles uploadId) := by
  have elsewhere : ∀ other, blobFilePath vault row.hashClaimed ≠ tmpFilePath other :=
    fun other => by simp
  obtain ⟨next, same, rest⟩ :=
    recordBlob_inserts (BlobCall.Settles uploadId) vault uploadId row destExisted trivial rfl
      (Or.inl rfl) (Or.inr elsewhere)
  rw [same]
  exact ⟨trivial, rest⟩

theorem finishUpload_settles (row : UploadView) (next : Nat) :
    (finishUpload libraries vault uploadId row next).run.Only
      (BlobCall.Settles uploadId) := by
  have discards : ∀ response : Response,
      (do discardUpload vault uploadId
          return response : BlobHandler Response).run.Only (BlobCall.Settles uploadId) :=
    fun error => (discardUpload_settles vault uploadId).bind_fallible fun _ => trivial
  unfold finishUpload
  split
  · exact discards _
  · refine only_file.mpr ⟨trivial, ?_⟩
    intro bytes
    split
    · exact discards _
    · split
      · exact discards _
      · exact (placeBlob_settles vault uploadId row.hashClaimed).bind_fallible fun _ =>
          recordBlob_settles vault uploadId row _

end Settling

theorem getUpload_receives (vault : VaultId) (uploadId : String) :
    (getUpload vault uploadId).run.Only BlobCall.Receives :=
  (getUpload_settles vault uploadId).mono fun _ => BlobCall.Settles.receives

theorem sweepUploads_receives (expired : List (VaultId × String)) (attempted : Nat) :
    (sweepUploads expired attempted).run.Only BlobCall.Receives :=
  sweepUploads_only (fun _ _ => rfl) (fun _ => rfl) (fun _ _ => rfl) expired attempted

theorem stageSegment_receives (uploadId : String) (offset : Nat) (segment : Bytes) :
    (stageSegment uploadId offset segment).run.Only BlobCall.Receives := by
  refine only_file.mpr ⟨rfl, fun _ => only_file.mpr ⟨rfl, fun _ => ?_⟩⟩
  exact only_file.mpr ⟨rfl, fun _ => file_only rfl⟩

theorem receiveSegment_receives
    (libraries : BlobLibraries)
    (vault : VaultId)
    (uploadId : String)
    (range : ContentRange)
    (segment : Bytes) :
    (receiveSegment libraries vault uploadId range segment).run.Only BlobCall.Receives := by
  have settles : ∀ {α : Type} {handler : BlobHandler α},
      handler.run.Only (BlobCall.Settles uploadId) → handler.run.Only BlobCall.Receives :=
    fun only => only.mono fun _ => BlobCall.Settles.receives
  refine (settles (liveUpload_settles vault uploadId)).bind_fallible ?_
  intro row
  cases row with
  | none => trivial
  | some row =>
      dsimp only
      split
      · trivial
      · split
        · trivial
        · split
          · trivial
          · refine (stageSegment_receives uploadId _ segment).bind_fallible fun _ => ?_
            refine only_db.mpr ⟨rfl, fun _ => ?_⟩
            split
            · trivial
            · exact settles (finishUpload_settles libraries vault uploadId row _)

theorem putUpload_receives
    (libraries : BlobLibraries)
    (vault : VaultId)
    (uploadId : String)
    (request : PutRequest) :
    (putUpload libraries vault uploadId request).run.Only BlobCall.Receives := by
  unfold putUpload
  split
  · trivial
  · split
    · trivial
    · split
      · trivial
      · trivial
      · split_ifs
        · trivial
        · trivial
        · have live : (liveUpload vault uploadId).run.Only BlobCall.Receives :=
            (liveUpload_settles vault uploadId).mono fun _ => BlobCall.Settles.receives
          refine live.bind_fallible ?_
          intro preview
          cases preview with
          | none => trivial
          | some preview =>
              refine only_attempt.mpr ⟨rfl, fun _ => ?_⟩
              exact receiveSegment_receives libraries vault uploadId _ _

/-! ## Creating an upload -/

/-- A size that `create_upload` lets pass. -/
theorem claimed_within
    {size : Int64}
    (positive : 0 < size.toInt)
    (within : ¬ absoluteMax < asU64 size.toInt) :
    size.toInt ≤ absoluteMax := by
  have small : size.toInt ≤ i64Max := Int.le_of_lt_add_one size.toInt_lt
  have exact := asU64_of_nonneg positive.le small
  omega

/-- `create_upload` inserts an upload of the size it was asked for, if that is
within the limit. -/
theorem createUpload_only
    {permitted : BlobCall → Prop}
    (vault : VaultId)
    (hash : String)
    (size : Int64)
    (looks : ∀ key, permitted (.db (.blobExists key)))
    (admits : ∀ size, permitted (.db (.admitUpload vault size)))
    (files : ∀ call, permitted (.file call))
    (inserts : ∀ uploadId hash, 0 < size.toInt → size.toInt ≤ absoluteMax →
      permitted (.db (.insertUpload vault uploadId hash size.toInt))) :
    (createUpload vault hash size).run.Only permitted := by
  unfold createUpload
  dsimp only
  split
  · rename_i valid
    refine only_db.mpr ⟨looks _, ?_⟩
    intro found
    split
    · trivial
    · split
      · trivial
      · rename_i within
        refine only_db.mpr ⟨admits _, ?_⟩
        intro admission
        cases admission with
        | admitted uploadId =>
            refine only_file.mpr ⟨files _, fun _ => only_file.mpr ⟨files _, fun _ => ?_⟩⟩
            refine only_attempt.mpr ⟨?_, ?_⟩
            · exact inserts uploadId _ valid.2 (claimed_within valid.2 within)
            · intro inserted
              cases inserted with
              | ok _ => trivial
              | error error => exact only_attempt.mpr ⟨files _, fun _ => trivial⟩
        | _ => trivial
  · trivial

theorem createUpload_keepsPaths (vault : VaultId) (hash : String) (size : Int64) :
    (createUpload vault hash size).run.Only BlobCall.KeepsPaths :=
  createUpload_only vault hash size (fun _ => rfl) (fun _ => rfl) (fun _ => rfl)
    fun _ _ _ _ => rfl

/-! ## Handlers that read -/

theorem readBlob_only
    {permitted : BlobCall → Prop}
    (path : FilePath)
    (first length : Nat)
    (opens : permitted (.file (.open path false)))
    (seeks : ∀ file position, permitted (.file (.seek file position)))
    (reads : ∀ file length, permitted (.file (.readExact file length))) :
    (readBlob path first length).run.Only permitted := by
  refine only_file.mpr ⟨opens, fun _ => only_file.mpr ⟨seeks _ _, fun _ => ?_⟩⟩
  split
  · exact file_only (reads _ _)
  · trivial

/-- `get_blob` reads. -/
theorem getBlob_only
    {permitted : BlobCall → Prop}
    (vault : VaultId)
    (hash : String)
    (range : Option String)
    (sizes : ∀ key, permitted (.db (.blobSize key)))
    (lengths : ∀ path, permitted (.file (.length path)))
    (opens : ∀ path, permitted (.file (.open path false)))
    (seeks : ∀ file position, permitted (.file (.seek file position)))
    (reads : ∀ file length, permitted (.file (.readExact file length))) :
    (getBlob vault hash range).run.Only permitted := by
  unfold getBlob
  split
  · refine only_db.mpr ⟨sizes _, ?_⟩
    intro size
    cases size with
    | none => trivial
    | some size =>
        refine only_attempt.mpr ⟨lengths _, ?_⟩
        intro length
        split
        · trivial
        · trivial
        · dsimp only
          split
          · trivial
          · split
            · exact (readBlob_only _ _ _ (opens _) seeks reads).bind_fallible fun _ => trivial
            · trivial
            · exact (readBlob_only _ _ _ (opens _) seeks reads).bind_fallible fun _ => trivial
  · trivial

/-! ## Handlers that leave uploads, blobs and files alone -/

theorem postBlobPath_keepsUploads
    (libraries : BlobLibraries)
    (vault : VaultId)
    (body : BlobPathBody) :
    (postBlobPath libraries vault body).run.Only BlobCall.KeepsUploads := by
  have accepts : ∀ key change,
      (acceptPath key change).run.Only BlobCall.KeepsUploads :=
    fun key change => only_db.mpr ⟨rfl, fun _ => only_attempt.mpr ⟨rfl, fun _ => trivial⟩⟩
  have present : ∀ vault change,
      (missingBlob vault change).run.Only BlobCall.KeepsUploads := by
    intro vault change
    unfold missingBlob
    split
    · trivial
    · refine only_db.mpr ⟨rfl, ?_⟩
      intro there
      split <;> trivial
  have passes : ∀ key change,
      (refusedSvg libraries key change).run.Only BlobCall.KeepsUploads := by
    intro key change
    unfold refusedSvg
    split
    · trivial
    · split
      · refine only_attempt.mpr ⟨rfl, ?_⟩
        intro reply
        split <;> trivial
      · trivial
  have takes : ∀ key change,
      (takePath libraries key change).run.Only BlobCall.KeepsUploads := by
    intro key change
    refine (present key.vault change).bind_fallible ?_
    intro missing
    split
    · trivial
    · refine (passes key change).bind_fallible ?_
      intro refused
      split
      · trivial
      · exact accepts key change
  unfold postBlobPath
  split
  · trivial
  · rename_i change _
    refine only_attempt.mpr ⟨rfl, fun _ => only_db.mpr ⟨rfl, ?_⟩⟩
    intro current
    split
    · exact takes _ change
    · split_ifs
      · trivial
      · exact takes _ change
      · trivial

end VaultCrdtServer
