import VaultCrdtServer.Blobs.UploadRuns
import VaultCrdtServer.Blobs.Reference

/-!
# The blob store

A blob that has a row has its file, with verified bytes of the row's size, and
keeps row and file, whatever the requests do and wherever they are cut short.
-/

namespace VaultCrdtServer

open Interleaving

/-- The file of a blob has its size and hash, within the limit, and a blob that
looks like an SVG is sanitized. -/
structure BlobServer.Stores
    (libraries : BlobLibraries)
    (key : BlobKey)
    (size : Int)
    (bytes : Bytes)
    (server : BlobServer) : Prop where
  row : server.db.blobs.lookup key = some size
  file : server.disk.read (blobFilePath key.vault key.hash) = some bytes
  length : (bytes.length : Int) = size
  positive : 0 < size
  within : size ≤ 25 * 1024 * 1024
  digest : libraries.blake3Hex bytes = key.hash.1
  sanitized : looksLikeSvg bytes = true → libraries.Sanitized bytes

/-- In every reachable state every row of a blob has its file, and row and file
stay as they are ever after. -/
theorem stored_blobs_intact
    {settings : BlobSettings}
    {quotaBytes : Table String (Option Int)}
    {config : (blobMachine settings).Config}
    {key : BlobKey}
    {size : Int}
    (collisionFree : Function.Injective settings.blake3Hex)
    (reachable : BlobReachable settings quotaBytes config)
    (stored : config.shared.db.blobs.lookup key = some size) :
    ∃ bytes, config.shared.Stores settings.toBlobLibraries key size bytes ∧
      ∀ labels config', (blobMachine settings).run labels config = some config' →
        config'.shared.Stores settings.toBlobLibraries key size bytes := by
  obtain ⟨labels, runs⟩ := reachable
  obtain ⟨holds, -⟩ := staging_run (stagingDiscipline_initial quotaBytes) runs
  have sound : StoreSound settings.toBlobLibraries config.shared := holds.invariant
  obtain ⟨inode, found, sized⟩ := sound.rows key size stored
  have verified := (sound.published key inode found).2
  have stores : config.shared.Stores settings.toBlobLibraries key size
      (config.shared.disk.contents inode) :=
    { row := stored
      file := Option.map_eq_some_iff.mpr ⟨inode, found, rfl⟩
      length := sized collisionFree
      positive := by
        have := verified.nonempty
        have := sized collisionFree
        omega
      within := by
        have within := verified.within
        have := sized collisionFree
        unfold absoluteMax audioCap at within
        omega
      digest := verified.digest
      sanitized := verified.sanitized }
  refine ⟨_, stores, ?_⟩
  intro labels' config' continues
  obtain ⟨-, kept⟩ := staging_run holds continues
  exact
    { stores with
      row := kept.rows key size stored
      file := (kept.files key size stored).trans stores.file }

/-- A blob is uploaded. -/
def BlobSchedule.uploaded : BlobSchedule := uploads 0 "u" Hash.ofA 0x61

theorem BlobSchedule.uploaded_enabled : BlobSchedule.uploaded.Enabled := by
  decide +kernel

theorem stored_blobs_intact_uploaded :
    ∃ bytes,
      (BlobSchedule.uploaded.config BlobSchedule.uploaded_enabled).shared.Stores
        BlobSettings.reference.toBlobLibraries ⟨VaultId.v, Hash.ofA⟩ 1 bytes ∧
      ∀ labels config', (blobMachine BlobSettings.reference).run labels
          (BlobSchedule.uploaded.config BlobSchedule.uploaded_enabled) = some config' →
        config'.shared.Stores BlobSettings.reference.toBlobLibraries ⟨VaultId.v, Hash.ofA⟩ 1
          bytes :=
  stored_blobs_intact referenceDigest_injective
    (BlobSchedule.reachable BlobSchedule.uploaded_enabled) (by decide +kernel)

end VaultCrdtServer
