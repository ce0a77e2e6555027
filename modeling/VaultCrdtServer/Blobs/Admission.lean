import VaultCrdtServer.Blobs.Reference
import VaultCrdtServer.Blobs.Room
import VaultCrdtServer.Foundation.Clock

/-!
# Admission of uploads

`create_upload` checks the number of open uploads and the quota in one
acquisition of the database and inserts its row in a later one.  As long as no
other `create_upload` of the vault is in between when one makes its check, there
is room for the row that is going to be inserted, and a vault has at most four
open uploads.  If every blob is inserted before its upload expires, the vault
exceeds its quota by at most what these claim.
-/

namespace VaultCrdtServer

open Interleaving

variable {settings : BlobSettings} {quotaBytes : Table String (Option Int)}

/-! ## Conditions on the calls of a run -/

section Conditions

variable (settings)

/-- The time a step is taken at, if it sees one. -/
def blobTimeOf : (blobMachine settings).Label → Option Time
  | .act _ circumstance => some circumstance.now
  | _ => none

/-- A condition on a database call of a request, at a time. -/
abbrev CallCondition : Type :=
  (blobMachine settings).Config → Nat → Time → BlobDbCall → Prop

variable {settings}

/-- Database calls are made only where a condition holds. -/
def CallStep
    (condition : CallCondition settings)
    (label : (blobMachine settings).Label)
    (config : (blobMachine settings).Config) : Prop :=
  match label with
  | .act request circumstance =>
      match config.thread request with
      | some (.call (.db call) _) => condition config request circumstance.now call
      | _ => True
  | _ => True

instance
    (condition : CallCondition settings)
    [∀ config request now call, Decidable (condition config request now call)]
    (label : (blobMachine settings).Label)
    (config : (blobMachine settings).Config) :
    Decidable (CallStep condition label config) := by
  induction label using Machine.Label.casesOn with
  | act request circumstance =>
      change Decidable (match config.thread request with
        | some (.call (.db call) _) => condition config request circumstance.now call
        | _ => True)
      generalize config.thread request = thread
      induction thread using Option.casesOn with
      | none => exact isTrue trivial
      | some program =>
          induction program using Program.casesOn with
          | done => exact isTrue trivial
          | call call next =>
              induction call using BlobCall.casesOn with
              | db call =>
                  exact (inferInstance :
                    Decidable (condition config request circumstance.now call))
              | _ => exact isTrue trivial
  | _ => exact isTrue trivial

end Conditions

/-- The vault's effective quota has a value. -/
def QuotaIs
    (settings : BlobSettings)
    (vault : VaultId)
    (quota : Nat)
    (_ : (blobMachine settings).Label)
    (config : (blobMachine settings).Config) : Prop :=
  config.shared.db.effectiveQuota vault settings.defaultQuotaBytes = quota

instance
    (vault : VaultId)
    (quota : Nat)
    (label : (blobMachine settings).Label)
    (config : (blobMachine settings).Config) :
    Decidable (QuotaIs settings vault quota label config) :=
  inferInstanceAs (Decidable (_ = _))

/-- A check for a vault is made while no other `create_upload` of the vault is
between its check and its insertion. -/
def ChecksAlone (vault : VaultId) : CallCondition settings
  | config, request, _, .admitUpload vault' _ =>
      vault' = vault → ∀ other < config.shared.requests.length, other ≠ request →
        admittedSize vault config other = none
  | _, _, _, _ => True

instance
    (vault : VaultId)
    (config : (blobMachine settings).Config)
    (request : Nat)
    (now : Time)
    (call : BlobDbCall) :
    Decidable (ChecksAlone vault config request now call) := by
  induction call using BlobDbCall.casesOn with
  | admitUpload => exact inferInstanceAs (Decidable (_ → ∀ other < _, _ → _ = _))
  | _ => exact isTrue trivial

/-- The upload whose counter an entry has moved. -/
def BlobEntry.counted (entry : BlobEntry) : Option (VaultId × String) :=
  match entry.call with
  | .updateReceived vault uploadId _ => some (vault, uploadId)
  | _ => none

/-- The upload is there and has not expired. -/
def BlobDb.isOpen (now : Time) (db : BlobDb) (upload : VaultId × String) : Bool :=
  (db.upload upload.1 upload.2).any fun row => !row.expired now

/-- A blob of a vault is inserted while the upload whose last segment its request
has just counted is there and has not expired. -/
def InsertsInTime (vault : VaultId) : CallCondition settings
  | config, request, now, .insertBlob key _ =>
      key.vault = vault →
        ((config.shared.entriesOf request).getLast?.bind BlobEntry.counted).all
          (config.shared.db.isOpen now) = true
  | _, _, _, _ => True

instance
    (vault : VaultId)
    (config : (blobMachine settings).Config)
    (request : Nat)
    (now : Time)
    (call : BlobDbCall) :
    Decidable (InsertsInTime vault config request now call) := by
  induction call using BlobDbCall.casesOn with
  | insertBlob => exact inferInstanceAs (Decidable (_ → _ = _))
  | _ => exact isTrue trivial

/-! ## Uploads within their limits -/

section Limits

variable {vault : VaultId} {config config' : (blobMachine settings).Config}
variable {label : (blobMachine settings).Label}

/-- The uploads of a vault claim sizes within the limit. -/
theorem BlobReachable.claimsWithin
    (reachable : BlobReachable settings quotaBytes config) :
    config.shared.db.ClaimsWithin := by
  have sound : StoreSound settings.toBlobLibraries config.shared := reachable.staging.invariant
  exact fun uploadId row found => sound.sizes _ _ _ (sound.uploadRows uploadId row found)

/-- The blob a request inserts in time is that of an open upload. -/
theorem BlobReachable.backed
    (reachable : BlobReachable settings quotaBytes config)
    {request : Nat}
    {now : Time}
    {call : BlobDbCall}
    {next}
    (current : config.thread request = some (.call (.db call) next))
    (inTime : InsertsInTime vault config request now call) :
    config.shared.db.Backed vault now call := by
  cases call with
  | insertBlob key size =>
      intro own _
      obtain ⟨uploadId, view, counted, heard, named, sized⟩ := reachable.call_goesBy current
      have sound : StoreSound settings.toBlobLibraries config.shared :=
        reachable.staging.invariant
      obtain ⟨entry, member, query⟩ :=
        BlobServer.mem_journal_of_queriesOf (heard.subset (List.mem_cons_self ..))
      have claimed := reachable.accurate.read entry member _ _ view query
      obtain ⟨last, found, query⟩ :=
        BlobServer.getLast_entriesOf ((List.suffix_cons _ _).trans heard)
      obtain ⟨origin, time, call, reply, before, after⟩ := last
      obtain ⟨rfl, -⟩ := Sigma.mk.inj query
      have standing := inTime own
      rw [found] at standing
      obtain ⟨row, upload, unexpired⟩ := (Option.any_eq_true ..).mp standing
      obtain ⟨stored, home⟩ := BlobDb.upload_eq_some_iff.mp upload
      obtain ⟨same, size'⟩ := (sound.uploadRows uploadId row stored).unique claimed
      refine ⟨row, BlobDb.mem_openUploads_iff.mpr ⟨?_, uploadId, stored⟩, ?_, size'.trans sized⟩
      · simpa [UploadRow.isOpen, home, own] using unexpired
      · exact (BlobKey.mk.inj same).2.trans named
  | _ => trivial

/-- A check that is made alone finds nothing admitted by others. -/
theorem BlobReachable.admittedSize_eq_none
    (reachable : BlobReachable settings quotaBytes config)
    {request size : Nat}
    {circumstance : BlobCircumstance}
    {next}
    (current : config.thread request = some (.call (.db (.admitUpload vault size)) next))
    (alone : CallStep (ChecksAlone vault) (.act request circumstance) config)
    (other : Nat)
    (different : other ≠ request) :
    admittedSize vault config other = none := by
  unfold admittedSize
  split_ifs with running
  · have made := reachable.goesBy.records.running other (Option.isSome_iff_ne_none.mp running)
    simp only [CallStep, current] at alone
    have nothing := alone rfl other made different
    rwa [admittedSize, if_pos running] at nothing
  · rfl

/-- Nothing has been admitted at first. -/
theorem Covers.initial
    {measure : BlobDb → Int}
    {bound : Int}
    {charge : Nat → Int}
    (within : measure (.fresh quotaBytes) ≤ bound) :
    Covers vault measure bound charge (blobConfig settings (.fresh quotaBytes) .empty) where
  within := within
  room := fun _ _ held => by cases held
  alone := fun _ _ _ _ held _ => by cases held

/-- The open uploads of a vault, as an account. -/
abbrev Few (vault : VaultId) (now : Time) : (blobMachine settings).Config → Prop :=
  Covers vault (fun db => (db.openUploads vault now).length) maxOpenUploads fun _ => 1

/-- What a vault has reserved, as an account: every upload is taken to claim as
much as it may. -/
abbrev Affords
    (vault : VaultId)
    (quota : Nat)
    (now : Time) : (blobMachine settings).Config → Prop :=
  Covers vault (BlobDb.reservedBytes vault now) (quota + maxOpenUploads * absoluteMax)
    fun _ => absoluteMax

/-- Checks that are made alone keep room for the upload that is inserted after
them. -/
theorem few_timed (vault : VaultId) :
    Machine.Timed (blobTimeOf settings) (CallStep (ChecksAlone vault)) fun now config =>
      BlobReachable settings quotaBytes config ∧ Few vault now config where
  passes := fun ⟨reached, few⟩ passed =>
    ⟨reached, few.weaken (mod_cast BlobDb.openUploads_length_le passed)⟩
  step := by
    rintro now label config config' ⟨reached, few⟩ stamps alone stepped
    refine ⟨reached.step stepped, few.step (reached.uploadStep vault stepped) ?_ ?_ ?_⟩
    · rintro request circumstance size call next reply row rfl - inserted - - effect
      obtain rfl := stamps circumstance.now rfl
      have grown : (config'.shared.db.openUploads vault circumstance.now).length ≤ _ :=
        effect.openUploads_length_le
      simp only [inserted, Option.map_some, Option.getD_some] at grown
      split_ifs at grown <;> omega
    · rintro request circumstance size uploadId next rfl current admission
      obtain rfl := stamps circumstance.now rfl
      obtain ⟨-, fewer, -⟩ := BlobDb.admitUpload_eq_admitted admission
      exact ⟨mod_cast fewer, reached.admittedSize_eq_none current alone⟩
    · rintro (quotas | ⟨request, circumstance, call, next, reply, rfl, -, effect, elsewhere⟩)
      · rw [quotas]
        exact le_rfl
      · obtain rfl := stamps circumstance.now rfl
        have grown : (config'.shared.db.openUploads vault circumstance.now).length ≤ _ :=
          effect.openUploads_length_le
        have nothing : ((call.inserted circumstance.now).map fun row =>
            if row.isOpen vault circumstance.now then 1 else 0).getD 0 = 0 :=
          getD_inserted_eq_zero elsewhere
            fun row (closed : row.isOpen vault circumstance.now = false) => by simp [closed]
        rw [nothing, zero_add] at grown
        exact mod_cast grown

/-- A vault with few open uploads whose blobs are within the quota has not
reserved too much. -/
theorem Few.affords
    {now : Time}
    {quota : Nat}
    (few : Few vault now config)
    (claims : config.shared.db.ClaimsWithin)
    (stored : config.shared.db.storedBytes vault ≤ quota) :
    Affords vault quota now config := by
  have pending : config.shared.db.pendingBytes vault now ≤
      (config.shared.db.openUploads vault now).length * absoluteMax := claims.pendingBytes_le
  have limit := few.within
  refine ⟨?_, ?_, few.alone⟩
  · have := mul_le_mul_of_nonneg_right limit (Int.natCast_nonneg absoluteMax)
    unfold BlobDb.reservedBytes
    omega
  · intro request size admitted
    have room := few.room request size admitted
    have := mul_le_mul_of_nonneg_right room (Int.natCast_nonneg absoluteMax)
    rw [add_mul, one_mul] at this
    unfold BlobDb.reservedBytes
    omega

/-- Uploads are inserted within the room that was kept for them, and blobs that are
inserted in time use up what their uploads have reserved. -/
theorem affords_timed (vault : VaultId) {quota : Nat} (limited : 0 < quota) :
    Machine.Timed (blobTimeOf settings)
      (fun label config =>
        CallStep (ChecksAlone vault) label config ∧
          QuotaIs settings vault quota label config ∧
            CallStep (InsertsInTime vault) label config)
      fun now config =>
        BlobReachable settings quotaBytes config ∧ Affords vault quota now config where
  passes := fun ⟨reached, affords⟩ passed =>
    ⟨reached, affords.weaken (reached.claimsWithin.reservedBytes_le passed)⟩
  step := by
    rintro now label config config' ⟨reached, affords⟩ stamps ⟨alone, constant, inTime⟩ stepped
    have claims := reached.claimsWithin
    refine ⟨reached.step stepped, affords.step (reached.uploadStep vault stepped) ?_ ?_ ?_⟩
    · rintro request circumstance size call next reply row rfl - inserted claimed small effect
      obtain rfl := stamps circumstance.now rfl
      have grown : config'.shared.db.reservedBytes vault circumstance.now ≤ _ :=
        effect.reservedBytes_inserted_le claims inserted claimed
      omega
    · rintro request circumstance size uploadId next rfl current admission
      obtain rfl := stamps circumstance.now rfl
      refine ⟨?_, reached.admittedSize_eq_none current alone⟩
      have sound : StoreSound settings.toBlobLibraries config.shared := reached.staging.invariant
      have effective : config.shared.db.effectiveQuota vault settings.defaultQuotaBytes =
        quota := constant
      have nonneg : 0 ≤ config.shared.db.inflightBytes vault circumstance.now :=
        reached.accurate.inflightBytes_nonneg sound
      have room := reached.accurate.room_of_admitUpload sound admission
        (effective.symm ▸ limited) (reached.call_goesBy current)
      obtain ⟨-, fewer, -⟩ := BlobDb.admitUpload_eq_admitted admission
      have pending : config.shared.db.pendingBytes vault circumstance.now ≤
          (config.shared.db.openUploads vault circumstance.now).length * absoluteMax :=
        claims.pendingBytes_le
      have four : (((config.shared.db.openUploads vault circumstance.now).length + 1 : Nat) :
          Int) * absoluteMax ≤ maxOpenUploads * absoluteMax :=
        mod_cast Nat.mul_le_mul_right absoluteMax fewer
      push_cast [add_mul, one_mul] at four
      rw [effective] at room
      unfold BlobDb.reservedBytes
      omega
    · rintro (quotas | ⟨request, circumstance, call, next, reply, rfl, current, effect,
        elsewhere⟩)
      · rw [quotas]
        exact le_rfl
      · obtain rfl := stamps circumstance.now rfl
        simp only [CallStep, current] at inTime
        exact effect.reservedBytes_elsewhere_le claims (reached.backed current inTime)
          elsewhere

end Limits

/-! ## Runs -/

/-- Checks for a vault are made while no other `create_upload` of the vault is
between its check and its insertion: then the vault never has more open uploads
than allowed.  And once its blobs are within a quota that does not change, they
exceed it by at most what four uploads may claim, if they are inserted in time. -/
theorem uploads_within_limits
    {vault : VaultId}
    {before after : List (blobMachine settings).Label}
    {start config : (blobMachine settings).Config}
    {now : Time}
    (chronological : Machine.Chronological (blobTimeOf settings) (before ++ after))
    (past : ∀ stamped ∈ (before ++ after).filterMap (blobTimeOf settings), stamped ≤ now)
    (alone : Machine.Admits (CallStep (ChecksAlone vault)) (before ++ after)
      (blobConfig settings (.fresh quotaBytes) .empty))
    (starts : (blobMachine settings).run before
      (blobConfig settings (.fresh quotaBytes) .empty) = some start)
    (runs : (blobMachine settings).run after start = some config) :
    (config.shared.db.openUploads vault now).length ≤ maxOpenUploads ∧
      ∀ quota : Nat, 0 < quota → start.shared.db.storedBytes vault ≤ quota →
        Machine.Admits (QuotaIs settings vault quota) after start →
        Machine.Admits (CallStep (InsertsInTime vault)) after start →
          config.shared.db.storedBytes vault ≤ quota + 4 * (25 * 1024 * 1024) := by
  have initially : ∀ time,
      BlobReachable settings quotaBytes (blobConfig settings (.fresh quotaBytes) .empty) ∧
        Few vault time (blobConfig settings (.fresh quotaBytes) .empty) :=
    fun time => ⟨⟨[], rfl⟩, .initial (Int.natCast_nonneg _)⟩
  have few := (few_timed vault).run initially chronological alone
    ((Machine.run_append ..).trans (by rw [starts]; exact runs)) past
  refine ⟨mod_cast few.2.within, ?_⟩
  intro quota limited stored constant inTime
  have affordable : ∀ time, (∀ stamped ∈ before.filterMap (blobTimeOf settings), stamped ≤ time) →
      BlobReachable settings quotaBytes start ∧ Affords vault quota time start := by
    intro time earlier
    have few := (few_timed vault).run initially chronological.first alone.first starts earlier
    exact ⟨few.1, few.2.affords few.1.claimsWithin stored⟩
  have affords := (affords_timed vault limited).run_after affordable chronological
    ((alone.second starts).and (constant.and inTime)) runs past
  have pending : 0 ≤ config.shared.db.pendingBytes vault now :=
    affords.1.claimsWithin.pendingBytes_nonneg
  have bound := affords.2.within
  unfold BlobDb.reservedBytes maxOpenUploads absoluteMax audioCap at bound
  omega

/-- Two blobs are uploaded one after the other. -/
def BlobSchedule.uploadedTwice : BlobSchedule :=
  uploads 0 "u" Hash.ofA 0x61 ++ uploads 2 "w" Hash.ofB 0x62

theorem BlobSchedule.uploadedTwice_enabled : BlobSchedule.uploadedTwice.Enabled := by
  decide +kernel

theorem BlobSchedule.uploadedTwice_first :
    (BlobSchedule.uploads 0 "u" Hash.ofA 0x61).Enabled := by
  decide +kernel

theorem uploads_within_limits_uploadedTwice :
    let db := (BlobSchedule.uploadedTwice.config
      BlobSchedule.uploadedTwice_enabled).shared.db
    (db.openUploads VaultId.v 0).length ≤ maxOpenUploads ∧
      db.storedBytes VaultId.v ≤ (5 * 1024 * 1024 * 1024 : Nat) + 4 * (25 * 1024 * 1024) := by
  have alone : Machine.Admits (CallStep (ChecksAlone VaultId.v))
      (BlobSchedule.uploads 0 "u" Hash.ofA 0x61 ++ BlobSchedule.uploads 2 "w" Hash.ofB 0x62)
      (blobConfig BlobSettings.reference (.fresh ∅) .empty) := by
    decide +kernel
  have past : ∀ stamped ∈ List.filterMap (blobTimeOf BlobSettings.reference)
      (BlobSchedule.uploads 0 "u" Hash.ofA 0x61 ++ BlobSchedule.uploads 2 "w" Hash.ofB 0x62),
      stamped ≤ (0 : Time) := by
    decide +kernel
  have limits := uploads_within_limits (by decide +kernel) past alone
    (BlobSchedule.run_eq_config BlobSchedule.uploadedTwice_first)
    (BlobSchedule.run_second BlobSchedule.uploadedTwice_enabled
      BlobSchedule.uploadedTwice_first)
  exact ⟨limits.1, limits.2 _ (by decide +kernel) (by decide +kernel) (by decide +kernel)
    (by decide +kernel)⟩

/-- Five requests check the number of open uploads before the first of them
inserts its row. -/
def BlobSchedule.rushed : BlobSchedule :=
  [(0, "a"), (1, "b"), (2, "c"), (3, "d"), (4, "e")].flatMap (fun create =>
    .start create.1 (.createUpload VaultId.v Hash.ofA.1 1) :: calls create.1 create.2 2) ++
  [0, 1, 2, 3, 4].flatMap fun request => calls request "spare" 3

theorem BlobSchedule.rushed_enabled : BlobSchedule.rushed.Enabled := by
  decide +kernel

/-- They all insert it. -/
theorem uploads_exceed_limit :
    ¬ ∀ (labels : BlobSchedule) (config : (blobMachine BlobSettings.reference).Config)
        (now : Time),
      Machine.Chronological (blobTimeOf BlobSettings.reference) labels →
      (∀ stamped ∈ labels.filterMap (blobTimeOf BlobSettings.reference), stamped ≤ now) →
      (blobMachine BlobSettings.reference).run labels
        (blobConfig BlobSettings.reference (.fresh ∅) .empty) = some config →
        (config.shared.db.openUploads VaultId.v now).length ≤ maxOpenUploads := by
  intro always
  have few := always BlobSchedule.rushed _ 0 (by decide +kernel) (by decide +kernel)
    (BlobSchedule.run_eq_config BlobSchedule.rushed_enabled)
  exact absurd few (by decide +kernel)

end VaultCrdtServer
