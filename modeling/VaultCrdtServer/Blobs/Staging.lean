import VaultCrdtServer.Blobs.Contract

/-!
# Staged uploads and stored blobs

Bytes are staged under an upload id and moved to the file of their hash once
they have been verified.  The lock of a hash protects that file, the row of
the blob and the staged files of all uploads that claim the hash, but for one
thing: the file of an upload that has expired is removed without a lock.
-/

namespace VaultCrdtServer

open Interleaving

/-- The file of a blob. -/
def BlobKey.file (key : BlobKey) : FilePath := blobFilePath key.vault key.hash

@[simp] theorem BlobKey.file_inj {first second : BlobKey} :
    first.file = second.file ↔ first = second := by
  cases first
  cases second
  simp [BlobKey.file, blobFilePath_inj]

@[simp] theorem BlobKey.file_ne_tmpFilePath (key : BlobKey) (uploadId : String) :
    key.file ≠ tmpFilePath uploadId := by
  simp [BlobKey.file]

@[simp] theorem tmpFilePath_ne_file (key : BlobKey) (uploadId : String) :
    tmpFilePath uploadId ≠ key.file := by
  simp [BlobKey.file]

/-- Bytes that may be stored under a hash. -/
structure BlobLibraries.Verified
    (libraries : BlobLibraries)
    (hash : Hash)
    (bytes : Bytes) : Prop where
  digest : libraries.blake3Hex bytes = hash.1
  nonempty : 0 < bytes.length
  within : bytes.length ≤ absoluteMax
  sanitized : looksLikeSvg bytes = true → libraries.Sanitized bytes

/-- The bytes of a stored blob have the size of its row, if digests have no
collisions. -/
def BlobLibraries.Sized (libraries : BlobLibraries) (bytes : Bytes) (size : Int) : Prop :=
  Function.Injective libraries.blake3Hex → (bytes.length : Int) = size

/-- The size an upload id was inserted with, zero before. -/
def UploadLedger.claimed (uploadId : String) (ledger : UploadLedger) : Int :=
  ((ledger.registered uploadId).map UploadClaim.size).getD 0

namespace BlobServer

/-- The request holds the lock of a hash. -/
def LocksBlob (request : Nat) (key : BlobKey) (server : BlobServer) : Prop :=
  server.docLocks (uploadLockKey key.vault key.hash) = some request

/-- The upload id stands for an upload of a blob. -/
def Uploads (uploadId : String) (key : BlobKey) (size : Int) (server : BlobServer) : Prop :=
  server.uploads.registered uploadId = some ⟨key.vault, key.hash, size⟩

/-- The id has been drawn for the request and not been used yet. -/
structure Drawn (request : Nat) (uploadId : String) (server : BlobServer) : Prop where
  issued : server.uploads.issued uploadId = some request
  unused : server.uploads.registered uploadId = none

/-- The request receives an upload under the lock of its hash. -/
structure Receiving
    (request : Nat)
    (uploadId : String)
    (key : BlobKey)
    (size : Int)
    (server : BlobServer) : Prop where
  upload : server.Uploads uploadId key size
  lock : server.LocksBlob request key

variable {request other : Nat} {server : BlobServer}

/-- Two requests do not hold one lock. -/
theorem LocksBlob.ne
    {key key' : BlobKey}
    (lock : server.LocksBlob request key)
    (lock' : server.LocksBlob other key')
    (different : other ≠ request) :
    key' ≠ key := by
  rintro rfl
  exact different (Option.some.inj (lock'.symm.trans lock))

/-- An upload id stands for one upload. -/
theorem Uploads.unique
    {uploadId : String}
    {key key' : BlobKey}
    {size size' : Int}
    (upload : server.Uploads uploadId key size)
    (upload' : server.Uploads uploadId key' size') :
    key = key' ∧ size = size' := by
  have same := Option.some.inj (upload.symm.trans upload')
  rw [UploadClaim.mk.injEq] at same
  obtain ⟨vault, hash, size⟩ := same
  exact ⟨by cases key; cases key'; simp_all, size⟩

theorem Uploads.claimed
    {uploadId : String}
    {key : BlobKey}
    {size : Int}
    (upload : server.Uploads uploadId key size) :
    server.uploads.claimed uploadId = size := by
  unfold UploadLedger.claimed
  rw [upload]
  rfl

/-- Different uploads of one id are not both protected. -/
theorem Receiving.ne
    {uploadId uploadId' : String}
    {key key' : BlobKey}
    {size size' : Int}
    (receiving : server.Receiving request uploadId key size)
    (receiving' : server.Receiving other uploadId' key' size')
    (different : other ≠ request) :
    uploadId' ≠ uploadId := by
  rintro rfl
  exact (receiving.lock.ne receiving'.lock different)
    (receiving'.upload.unique receiving.upload).1

end BlobServer

/-- What holds of the store between any two steps. -/
structure StoreSound (libraries : BlobLibraries) (server : BlobServer) : Prop where
  /-- A file at its destination was staged for it and has been verified. -/
  published : ∀ key inode, server.disk.entry key.file = some inode →
    (∃ uploadId size, server.disk.birth inode = some (tmpFilePath uploadId) ∧
      server.Uploads uploadId key size) ∧
      libraries.Verified key.hash (server.disk.contents inode)
  staged : ∀ uploadId inode, server.disk.entry (tmpFilePath uploadId) = some inode →
    server.disk.birth inode = some (tmpFilePath uploadId)
  /-- A row has its file, of the row's size. -/
  rows : ∀ key size, server.db.blobs.lookup key = some size →
    ∃ inode, server.disk.entry key.file = some inode ∧
      libraries.Sized (server.disk.contents inode) size
  uploadRows : ∀ uploadId row, server.db.blobUploads.lookup uploadId = some row →
    server.Uploads uploadId ⟨row.vaultId, row.hashClaimed⟩ row.sizeClaimed
  sizes : ∀ uploadId key size, server.Uploads uploadId key size →
    0 < size ∧ size ≤ absoluteMax
  /-- No more has been staged than the upload claims. -/
  bounded : ∀ inode uploadId, server.disk.birth inode = some (tmpFilePath uploadId) →
    ((server.disk.contents inode).length : Int) ≤ server.uploads.claimed uploadId
  undrawn : ∀ uploadId, server.uploads.issued uploadId = none →
    server.uploads.registered uploadId = none

/-! ## Terms -/

/-- What the lock of a hash protects. -/
structure Undisturbed (key : BlobKey) (server server' : BlobServer) : Prop where
  row : server'.db.blobs.lookup key = server.db.blobs.lookup key
  file : Disk.Same key.file server.disk server'.disk
  staged : ∀ uploadId size, server.Uploads uploadId key size →
    Disk.Survives (tmpFilePath uploadId) server.disk server'.disk

/-- What the others may do while a request waits. -/
structure StagingRely (request : Nat) (server server' : BlobServer) : Prop where
  locks : ∀ key, server'.docLocks key = some request ↔ server.docLocks key = some request
  births : ∀ inode name, server.disk.birth inode = some name →
    server'.disk.birth inode = some name
  registered : ∀ uploadId claim, server.uploads.registered uploadId = some claim →
    server'.uploads.registered uploadId = some claim
  drawn : ∀ uploadId, server.Drawn request uploadId → server'.Drawn request uploadId
  held : ∀ key, server.LocksBlob request key → Undisturbed key server server'

theorem StagingRely.refl (request : Nat) (server : BlobServer) :
    StagingRely request server server where
  locks := fun _ => Iff.rfl
  births := fun _ _ born => born
  registered := fun _ _ registered => registered
  drawn := fun _ drawn => drawn
  held := fun _ _ => ⟨rfl, .refl _ _, fun _ _ _ => (Disk.Same.refl _ _).survives⟩

theorem StagingRely.trans
    {request : Nat}
    {first second third : BlobServer}
    (before : StagingRely request first second)
    (after : StagingRely request second third) :
    StagingRely request first third where
  locks := fun key => (after.locks key).trans (before.locks key)
  births := fun inode name born => after.births inode name (before.births inode name born)
  registered := fun uploadId claim registered =>
    after.registered uploadId claim (before.registered uploadId claim registered)
  drawn := fun uploadId drawn => after.drawn uploadId (before.drawn uploadId drawn)
  held := by
    intro key lock
    have earlier := before.held key lock
    have later := after.held key ((before.locks _).mpr lock)
    refine ⟨later.row.trans earlier.row, earlier.file.trans later.file, ?_⟩
    intro uploadId size upload
    exact (earlier.staged uploadId size upload).trans
      (later.staged uploadId size (before.registered _ _ upload))

/-- What holds whenever a request makes a call. -/
def stagingPre (libraries : BlobLibraries) (request : Nat) : BlobCall → BlobServer → Prop
  | .db (.insertUpload _ uploadId _ size), server =>
      server.Drawn request uploadId ∧ 0 < size ∧ size ≤ absoluteMax
  | .db (.insertBlob key size), server =>
      server.LocksBlob request key ∧
        ∃ inode, server.disk.entry key.file = some inode ∧
          libraries.Sized (server.disk.contents inode) size
  | .file (.create path), server =>
      ∃ uploadId, path = tmpFilePath uploadId ∧ server.Drawn request uploadId
  | .file (.open path true), server =>
      ∃ uploadId key size, path = tmpFilePath uploadId ∧
        server.Receiving request uploadId key size
  | .file (.writeAll file bytes), server =>
      ∃ uploadId key size, server.Receiving request uploadId key size ∧
        server.disk.birth file.inode = some (tmpFilePath uploadId) ∧
        server.disk.entry key.file ≠ some file.inode ∧
        (file.position + bytes.length : Int) ≤ size
  | .file (.removeFile path), server =>
      (∃ uploadId, path = tmpFilePath uploadId) ∨
        ∃ key, path = key.file ∧ server.LocksBlob request key ∧
          server.db.blobs.lookup key = none
  | .file (.rename source target), server =>
      ∃ uploadId key size, source = tmpFilePath uploadId ∧ target = key.file ∧
        server.Receiving request uploadId key size ∧ server.disk.entry target = none ∧
        ∀ inode, server.disk.entry source = some inode →
          libraries.Verified key.hash (server.disk.contents inode)
  | _, _ => True

/-- The terms of the requests, as far as uploads and blobs are concerned. -/
def stagingTerms (libraries : BlobLibraries) (request : Nat) : BlobTerms where
  rely := StagingRely request
  pre := stagingPre libraries request
  facts := StoreSound libraries
  rely_refl := StagingRely.refl request
  rely_trans := StagingRely.trans

/-! ## Assertions that interference keeps -/

section Stable

variable {libraries : BlobLibraries} {request : Nat} {uploadId : String}
variable {key : BlobKey} {size : Int}

theorem BlobServer.Drawn.stable :
    (stagingTerms libraries request).Stable (BlobServer.Drawn request uploadId) :=
  fun _ _ drawn tolerated => tolerated.drawn uploadId drawn

theorem BlobServer.Receiving.stable :
    (stagingTerms libraries request).Stable
      (BlobServer.Receiving request uploadId key size) :=
  fun _ _ receiving tolerated =>
    { upload := tolerated.registered _ _ receiving.upload
      lock := (tolerated.locks _).mpr receiving.lock }

/-- The request has the staged file open. -/
structure Opened
    (request : Nat)
    (uploadId : String)
    (key : BlobKey)
    (size : Int)
    (inode : Nat)
    (server : BlobServer) : Prop extends server.Receiving request uploadId key size where
  born : server.disk.birth inode = some (tmpFilePath uploadId)
  /-- If the file has not been removed, it is the one that is open. -/
  current : ∀ inode', server.disk.entry (tmpFilePath uploadId) = some inode' → inode' = inode
  unpublished : server.disk.entry key.file ≠ some inode

theorem Opened.stable {inode : Nat} :
    (stagingTerms libraries request).Stable (Opened request uploadId key size inode) := by
  intro server server' opened tolerated
  have held := tolerated.held key opened.lock
  refine
    { toReceiving := BlobServer.Receiving.stable _ _ opened.toReceiving tolerated
      born := tolerated.births _ _ opened.born
      current := ?_
      unpublished := ?_ }
  · intro inode' found
    exact opened.current inode' (held.staged uploadId size opened.upload inode' found).1
  · rw [held.file.entry]
    exact opened.unpublished

/-- If the staged file has not been removed, its contents are as described. -/
structure Staged
    (described : Bytes → Prop)
    (request : Nat)
    (uploadId : String)
    (key : BlobKey)
    (size : Int)
    (server : BlobServer) : Prop extends server.Receiving request uploadId key size where
  contents : ∀ inode, server.disk.entry (tmpFilePath uploadId) = some inode →
    described (server.disk.contents inode)

theorem Staged.stable {described : Bytes → Prop} :
    (stagingTerms libraries request).Stable (Staged described request uploadId key size) := by
  intro server server' staged tolerated
  have held := tolerated.held key staged.lock
  refine ⟨BlobServer.Receiving.stable _ _ staged.toReceiving tolerated, ?_⟩
  intro inode found
  obtain ⟨found, same⟩ := held.staged uploadId size staged.upload inode found
  rw [same]
  exact staged.contents inode found

/-- The blob has neither file nor row. -/
structure Vacant
    (described : Bytes → Prop)
    (request : Nat)
    (uploadId : String)
    (key : BlobKey)
    (size : Int)
    (server : BlobServer) : Prop extends Staged described request uploadId key size server where
  noFile : server.disk.entry key.file = none
  noRow : server.db.blobs.lookup key = none

theorem Vacant.stable {described : Bytes → Prop} :
    (stagingTerms libraries request).Stable (Vacant described request uploadId key size) := by
  intro server server' vacant tolerated
  have held := tolerated.held key vacant.lock
  exact
    { toStaged := Staged.stable _ _ vacant.toStaged tolerated
      noFile := held.file.entry.trans vacant.noFile
      noRow := held.row.trans vacant.noRow }

/-- The blob's file is in place.  If the request has placed it, there is no row
yet. -/
structure Placed
    (libraries : BlobLibraries)
    (request : Nat)
    (uploadId : String)
    (key : BlobKey)
    (size : Int)
    (destExisted : Bool)
    (server : BlobServer) : Prop extends server.Receiving request uploadId key size where
  file : ∃ inode, server.disk.entry key.file = some inode ∧
    libraries.Sized (server.disk.contents inode) size
  noRow : destExisted = false → server.db.blobs.lookup key = none

theorem Placed.stable {destExisted : Bool} :
    (stagingTerms libraries request).Stable
      (Placed libraries request uploadId key size destExisted) := by
  intro server server' placed tolerated
  have held := tolerated.held key placed.lock
  obtain ⟨inode, found, sized⟩ := placed.file
  exact
    { toReceiving := BlobServer.Receiving.stable _ _ placed.toReceiving tolerated
      file := ⟨inode, held.file.entry.trans found, by rwa [held.file.contents inode found]⟩
      noRow := fun new => held.row.trans (placed.noRow new) }

end Stable

end VaultCrdtServer
