import VaultCrdtServer.Blobs.Calm

/-!
# Staged files and their rows

`sweep_expired_uploads` and `get_upload` discard an upload without its lock.  A
PUT that has looked at the row once more under the lock is let in: it creates the
staged file if it is missing and counts its segment, whether or not the row is
still there.  As long as nobody deletes the row in between, every request leaves
the staging directory as tidy as it has found it.
-/

namespace VaultCrdtServer

open Interleaving

/-! ## What the requests have done -/

namespace BlobEntry

/-- The upload that has been found alive. -/
def alive (entry : BlobEntry) : Option (VaultId × String) :=
  match entry.call, entry.reply with
  | .readUpload vault uploadId, some view => if view.expired then none else some (vault, uploadId)
  | _, _ => none

/-- The upload whose row has been deleted. -/
def deleted (entry : BlobEntry) : Option String :=
  match entry.call with
  | .deleteUpload vault uploadId =>
      if (entry.before.upload vault uploadId).isSome then some uploadId else none
  | _ => none

/-- The counter of a row that is there is moved. -/
structure CountsTo
    (vault : VaultId)
    (uploadId : String)
    (next : Int)
    (entry : BlobEntry) : Prop where
  call : entry.call = .updateReceived vault uploadId next
  row : ∃ row, entry.before.upload vault uploadId = some row ∧
    entry.after.upload vault uploadId = some { row with receivedBytes := next }

end BlobEntry

namespace BlobServer

variable (request : Nat) (vault : VaultId) (uploadId : String) (server : BlobServer)

/-- A PUT has found the upload alive for the second time, and done nothing to it
yet. -/
def LetIn : Prop :=
  (server.entriesOf request).length = 2 ∧
    (server.entriesOf request).getLast?.bind BlobEntry.alive = some (vault, uploadId)

instance : Decidable (LetIn request vault uploadId server) :=
  inferInstanceAs (Decidable (_ ∧ _))

/-- A request has deleted the row of an upload. -/
def Deleted : Prop := ∃ entry ∈ server.entriesOf request, entry.deleted = some uploadId

/-- The upload was there, but its row is not any more. -/
structure Gone : Prop where
  registered : server.uploads.registered uploadId ≠ none
  row : server.db.blobUploads.lookup uploadId = none

/-- The uploads a request has drawn but not inserted, and those it has deleted,
have no staged files, except those that are spared. -/
structure TidyBut (spared : String → Prop) : Prop where
  drawn : ∀ uploadId, server.Drawn request uploadId →
    spared uploadId ∨ server.disk.entry (tmpFilePath uploadId) = none
  gone : ∀ uploadId, server.Deleted request uploadId → server.Gone uploadId
  deleted : ∀ uploadId, server.Deleted request uploadId →
    spared uploadId ∨ server.disk.entry (tmpFilePath uploadId) = none

/-- A request has left no staged files without rows behind. -/
abbrev Tidy : Prop := server.TidyBut request fun _ => False

end BlobServer

/-! ## Terms -/

/-- What the others may do while a request waits. -/
structure TidyRely (request : Nat) (server server' : BlobServer) : Prop
    extends StagingRely request server server' where
  requests : server.requests <+: server'.requests
  entries : server'.entriesOf request = server.entriesOf request
  undrawn : ∀ uploadId, server'.Drawn request uploadId → server.Drawn request uploadId
  gone : ∀ uploadId, server.Gone uploadId → server'.Gone uploadId
  bare : ∀ uploadId, server.Drawn request uploadId ∨ server.Gone uploadId →
    server.disk.entry (tmpFilePath uploadId) = none →
      server'.disk.entry (tmpFilePath uploadId) = none

theorem TidyRely.refl (request : Nat) (server : BlobServer) :
    TidyRely request server server where
  toStagingRely := .refl request server
  requests := List.prefix_rfl
  entries := rfl
  undrawn := fun _ drawn => drawn
  gone := fun _ gone => gone
  bare := fun _ _ none => none

theorem TidyRely.trans
    {request : Nat}
    {first second third : BlobServer}
    (before : TidyRely request first second)
    (after : TidyRely request second third) :
    TidyRely request first third where
  toStagingRely := before.toStagingRely.trans after.toStagingRely
  requests := before.requests.trans after.requests
  entries := after.entries.trans before.entries
  undrawn := fun uploadId drawn => before.undrawn uploadId (after.undrawn uploadId drawn)
  gone := fun uploadId gone => after.gone uploadId (before.gone uploadId gone)
  bare := by
    intro uploadId unused none
    refine after.bare uploadId ?_ (before.bare uploadId unused none)
    exact unused.imp (before.drawn uploadId) (before.gone uploadId)

/-- What holds whenever a request makes a call: a staged file is opened for
writing by a PUT that has been let in. -/
def tidyPre (request : Nat) : BlobCall → BlobServer → Prop
  | .file (.open path true), server =>
      ∃ vault uploadId, path = tmpFilePath uploadId ∧ server.LetIn request vault uploadId
  | _, _ => True

/-- What is known of the server when a request makes a call: the row of the
upload it has been let in for is there. -/
structure TidyFacts (libraries : BlobLibraries) (request : Nat) (server : BlobServer) : Prop
    extends StoreSound libraries server where
  letIn : ∀ vault uploadId, server.LetIn request vault uploadId →
    server.db.upload vault uploadId ≠ none

/-- The terms of a request, whose calls may be known not to fail. -/
def tidyTerms (libraries : BlobLibraries) (calm : Prop) (request : Nat) : CalmTerms where
  rely := TidyRely request
  pre := tidyPre request
  facts := TidyFacts libraries request
  calm := fun _ _ => calm
  rely_refl := TidyRely.refl request
  rely_trans := TidyRely.trans

/-- The contract of a request. -/
abbrev tidyContract
    (settings : BlobSettings)
    (calm : Prop)
    (request : Nat) : Contract blobSignature BlobServer :=
  calmContract settings request (tidyTerms settings.toBlobLibraries calm request)

/-! ## Assertions that interference keeps -/

section Stable

variable {request : Nat} {spared : String → Prop} {server server' : BlobServer}

theorem BlobServer.Deleted.of_tolerates
    {uploadId : String}
    (tolerated : TidyRely request server server') :
    server'.Deleted request uploadId ↔ server.Deleted request uploadId := by
  unfold Deleted
  rw [tolerated.entries]

theorem BlobServer.TidyBut.tolerates
    (tidy : server.TidyBut request spared)
    (tolerated : TidyRely request server server') :
    server'.TidyBut request spared where
  drawn := by
    intro uploadId drawn'
    have drawn := tolerated.undrawn uploadId drawn'
    exact (tidy.drawn uploadId drawn).imp_right (tolerated.bare uploadId (Or.inl drawn))
  gone := fun uploadId deleted' =>
    tolerated.gone uploadId (tidy.gone uploadId ((Deleted.of_tolerates tolerated).mp deleted'))
  deleted := by
    intro uploadId deleted'
    have deleted := (Deleted.of_tolerates tolerated).mp deleted'
    exact (tidy.deleted uploadId deleted).imp_right
      (tolerated.bare uploadId (Or.inr (tidy.gone uploadId deleted)))

theorem BlobServer.LetIn.of_tolerates
    {vault : VaultId}
    {uploadId : String}
    (tolerated : TidyRely request server server') :
    server'.LetIn request vault uploadId ↔ server.LetIn request vault uploadId := by
  unfold LetIn
  rw [tolerated.entries]

end Stable

end VaultCrdtServer
