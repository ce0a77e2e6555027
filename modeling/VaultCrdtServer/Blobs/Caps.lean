import VaultCrdtServer.Blobs.PathRuns
import VaultCrdtServer.Blobs.Reference

/-!
# Published attachments and their caps

`post_blob_path` checks the size a request claims against the cap of the path
key, and that the blob is stored, but not that the claim is the blob's size.
Live rows respect the caps as long as no such claim is committed.
-/

namespace VaultCrdtServer

open Interleaving

/-- As long as no live change is committed whose claimed size is not that of its
blob, every live row names a stored blob of its size, within the cap of its
key. -/
theorem live_rows_within_caps
    {settings : BlobSettings}
    {quotaBytes : Table String (Option Int)}
    {labels : List (blobMachine settings).Label}
    {config : (blobMachine settings).Config}
    (honest : Machine.Admits (HonestStep settings) labels
      (blobConfig settings (.fresh quotaBytes) .empty))
    (runs : (blobMachine settings).run labels
      (blobConfig settings (.fresh quotaBytes) .empty) = some config) :
    config.shared.LiveStored := by
  have admitted : Machine.Admits (pathDiscipline settings True).allowed labels
      (blobConfig settings (.fresh quotaBytes) .empty) :=
    honest.mono fun _ _ here _ => here
  have holds := pathDiscipline_sound.run (pathDiscipline_initial quotaBytes .empty) admitted runs
  exact holds.invariant.live trivial

/-- A blob of one byte is published with its size. -/
def BlobSchedule.published : BlobSchedule :=
  uploads 0 "u" Hash.ofA 0x61 ++
    serves 2 (.postBlobPath VaultId.v (.attachment 1 Hash.ofA 1 "a")) 5

theorem BlobSchedule.published_enabled : BlobSchedule.published.Enabled := by
  decide +kernel

theorem BlobSchedule.published_honest :
    Machine.Admits (HonestStep BlobSettings.reference) BlobSchedule.published
      (blobConfig BlobSettings.reference (.fresh ∅) .empty) := by
  decide +kernel

theorem live_rows_within_caps_published :
    (BlobSchedule.published.config BlobSchedule.published_enabled).shared.LiveStored :=
  live_rows_within_caps BlobSchedule.published_honest
    (BlobSchedule.run_eq_config BlobSchedule.published_enabled)

/-- A blob of one byte is published with another size. -/
def BlobSchedule.mispublished : BlobSchedule :=
  uploads 0 "u" Hash.ofA 0x61 ++
    serves 2 (.postBlobPath VaultId.v (.attachment 1 Hash.ofA 2 "a")) 5

theorem BlobSchedule.mispublished_enabled : BlobSchedule.mispublished.Enabled := by
  decide +kernel

/-- The row claims two bytes, the blob has one. -/
theorem live_rows_misstate_sizes :
    ¬ ∀ config, BlobReachable BlobSettings.reference ∅ config → config.shared.LiveStored := by
  intro always
  have live := always _ (BlobSchedule.reachable BlobSchedule.mispublished_enabled)
  have stored :
      ((BlobSchedule.mispublished.config
        BlobSchedule.mispublished_enabled).shared.db.blobPathStates.lookup
          ⟨VaultId.v, "a.png"⟩).map (fun row => (row.state, row.contentHash, row.size)) =
        some (.live, some Hash.ofA, some 2) := by
    decide +kernel
  have blob :
      (BlobSchedule.mispublished.config
        BlobSchedule.mispublished_enabled).shared.db.blobs.lookup
          ⟨VaultId.v, Hash.ofA⟩ = some 1 := by
    decide +kernel
  obtain ⟨row, found, columns⟩ := Option.map_eq_some_iff.mp stored
  simp only [Prod.mk.injEq] at columns
  obtain ⟨hash, size, cap, named, sized, -, -, there⟩ := live _ row found columns.1
  obtain rfl := Option.some.inj (named.symm.trans columns.2.1)
  obtain rfl := Option.some.inj (sized.symm.trans columns.2.2)
  rw [show VaultId.v = (PathKey.mk VaultId.v "a.png").vault from rfl, there] at blob
  exact absurd (Option.some.inj blob) (by decide)

end VaultCrdtServer
