import VaultCrdtServer.Blobs.TidyRuns
import VaultCrdtServer.Blobs.Reference

/-!
# Torn uploads

A PUT that has been let in neither notices that its upload is discarded before it
stages the segment, nor that its update has found no row.
-/

namespace VaultCrdtServer

open Interleaving

/-- Every segment that was accepted has been counted in a row that was there. -/
def BlobServer.SegmentsCounted (server : BlobServer) : Prop :=
  ∀ request vault uploadId put, ∀ next : Nat,
    server.requests[request]? = some (.putUpload vault uploadId put) →
    (request, BlobOutcome.response (.ok (.segmentAccepted next))) ∈ server.answers →
    ∃ entry ∈ server.entriesOf request, entry.CountsTo vault uploadId next

/-- Every file in the staging directory belongs to an upload. -/
def BlobServer.FilesOwned (server : BlobServer) : Prop :=
  ∀ name, server.disk.entry ["tmp", name] ≠ none →
    ∃ row, server.db.blobUploads.lookup name = some row

/-- Every request that has been made has ended. -/
def AllEnded {settings : BlobSettings} (config : (blobMachine settings).Config) : Prop :=
  ∀ request < config.shared.requests.length, config.thread request = none

instance {settings : BlobSettings} (config : (blobMachine settings).Config) :
    Decidable (AllEnded config) :=
  inferInstanceAs (Decidable (∀ request < config.shared.requests.length,
    config.thread request = none))

variable {settings : BlobSettings} {config : (blobMachine settings).Config}

/-- Before the first request there is nothing to answer for. -/
theorem tidyDiscipline_initial (calm : Prop) (quotaBytes : Table String (Option Int)) :
    ((tidyDiscipline settings calm).given (stagingDiscipline settings)).Holds
      (blobConfig settings (.fresh quotaBytes) .empty) where
  invariant :=
    ⟨stagingDiscipline_initial quotaBytes,
      { records := .initial _ _
        issued := fun _ _ issued => nomatch issued
        letIn := fun _ _ _ calling => absurd rfl calling.active
        owned := fun _ _ there => absurd rfl there }⟩
  threads := fun _ => trivial

/-- What holds after a run in which no upload is torn. -/
theorem tidy_run
    (calm : Prop)
    {quotaBytes : Table String (Option Int)}
    {labels : List (blobMachine settings).Label}
    (untorn : Machine.Admits Untorn labels (blobConfig settings (.fresh quotaBytes) .empty))
    (smooth : calm → ∀ label ∈ labels, Smooth label)
    (runs : (blobMachine settings).run labels (blobConfig settings (.fresh quotaBytes) .empty) =
      some config) :
    TidyKept calm config := by
  have allowed : Machine.Admits ((tidyDiscipline settings calm).given
      (stagingDiscipline settings)).allowed labels
      (blobConfig settings (.fresh quotaBytes) .empty) := by
    have always : Machine.Admits (fun label _ => calm → Smooth label) labels
        (blobConfig settings (.fresh quotaBytes) .empty) :=
      .of_labels _ fun label member _ known => smooth known label member
    exact (untorn.and always).mono fun _ _ both => ⟨trivial, both⟩
  exact ((tidyDiscipline_sound.sound stagingDiscipline_sound).run
    (tidyDiscipline_initial calm quotaBytes) allowed runs).invariant.2

/-- As long as no row is deleted between a PUT's second look at it and its update,
every segment is accepted with the counter moved in the row.  If moreover no call
fails and no request is dropped, every staged file has its row whenever all
requests have ended. -/
theorem uploads_not_torn
    {quotaBytes : Table String (Option Int)}
    {labels : List (blobMachine settings).Label}
    (untorn : Machine.Admits Untorn labels (blobConfig settings (.fresh quotaBytes) .empty))
    (runs : (blobMachine settings).run labels (blobConfig settings (.fresh quotaBytes) .empty) =
      some config) :
    config.shared.SegmentsCounted ∧
      ((∀ label ∈ labels, Smooth label) → AllEnded config → config.shared.FilesOwned) := by
  constructor
  · intro request vault uploadId put next made answered
    have kept := tidy_run False untorn False.elim runs
    exact (kept.records.answered _ answered).2.2 vault uploadId put next made rfl
  · intro smooth ended name there
    have kept := tidy_run True untorn (fun _ => smooth) runs
    rcases kept.owned trivial name there with row | ⟨request, active, -⟩
    · exact row
    · exact absurd (ended request (kept.records.running request active)) active

deriving instance DecidableEq for PutRequest, BlobPathBody, BlobTask, Response, BlobOutcome

/-- An upload of two bytes is begun, and half of it is received. -/
def BlobSchedule.begun : BlobSchedule :=
  [.start 0 (.createUpload VaultId.v Hash.ofA.1 2)] ++ calls 0 "u" 2 ++ calls 0 "spare" 3 ++
    [.finish 0] ++ serves 1 (.putUpload VaultId.v "u" ⟨some "bytes 0-0/2", [.ok [0x61]]⟩) 8

theorem BlobSchedule.begun_enabled : BlobSchedule.begun.Enabled := by
  decide +kernel

theorem uploads_not_torn_begun :
    (BlobSchedule.begun.config BlobSchedule.begun_enabled).shared.SegmentsCounted ∧
      (BlobSchedule.begun.config BlobSchedule.begun_enabled).shared.FilesOwned := by
  obtain ⟨counted, owned⟩ := uploads_not_torn (by decide +kernel)
    (BlobSchedule.run_eq_config BlobSchedule.begun_enabled)
  exact ⟨counted, owned (by decide +kernel) (by decide +kernel)⟩

/-- A number of calls at a time at which the upload has expired. -/
def BlobSchedule.late (request count : Nat) : BlobSchedule :=
  List.replicate count (.act request ⟨uploadLifetime + 1, none, none, 0, "spare"⟩)

/-- The cleanup falls between the second look of a PUT and its segment. -/
def BlobSchedule.torn : BlobSchedule :=
  [.start 0 (.createUpload VaultId.v Hash.ofA.1 2)] ++ calls 0 "u" 2 ++ calls 0 "spare" 3 ++
    [.finish 0] ++
    receives 1 (.putUpload VaultId.v "u" ⟨some "bytes 0-0/2", [.ok [0x61]]⟩) 3 ++
    [.start 2 .sweep] ++ late 2 4 ++ [.finish 2] ++ late 1 5 ++ [.finish 1]

theorem BlobSchedule.torn_enabled : BlobSchedule.torn.Enabled := by
  decide +kernel

/-- Then a segment is accepted that no row has counted, and its file stays behind
without a row, though no call has failed and no request is in flight. -/
theorem uploads_torn :
    (∀ label ∈ BlobSchedule.torn, Smooth label) ∧
      AllEnded (BlobSchedule.torn.config BlobSchedule.torn_enabled) ∧
      ¬ (BlobSchedule.torn.config BlobSchedule.torn_enabled).shared.SegmentsCounted ∧
      ¬ (BlobSchedule.torn.config BlobSchedule.torn_enabled).shared.FilesOwned := by
  refine ⟨by decide +kernel, by decide +kernel, ?_, ?_⟩
  · intro counted
    have uncounted : ∀ entry ∈
        (BlobSchedule.torn.config BlobSchedule.torn_enabled).shared.journal,
        (entry.after.upload VaultId.v "u").map UploadRow.receivedBytes ≠ some 1 := by
      decide +kernel
    obtain ⟨entry, member, counts⟩ := counted 1 VaultId.v "u"
      ⟨some "bytes 0-0/2", [.ok [0x61]]⟩ 1
      (by decide +kernel) (by decide +kernel)
    obtain ⟨row, -, after⟩ := counts.row
    refine uncounted entry (List.mem_filter.mp member).1 ?_
    rw [after]
    rfl
  · intro owned
    obtain ⟨row, stored⟩ := owned "u" (by decide +kernel)
    have none : (BlobSchedule.torn.config
        BlobSchedule.torn_enabled).shared.db.blobUploads.lookup "u" = none := by
      decide +kernel
    exact absurd (stored.symm.trans none) nofun

end VaultCrdtServer
