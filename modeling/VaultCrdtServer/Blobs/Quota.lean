import VaultCrdtServer.Blobs.Effects
import VaultCrdtServer.Blobs.Footprint
import VaultCrdtServer.Foundation.Totals
import Mathlib.Algebra.Order.Ring.Int

/-!
# Accounting of uploads and blobs

What a vault has stored, and what its open uploads are going to store.  Together
they are the space the vault has reserved.  An insertion into `blob_uploads`
reserves the size it claims, and a blob that is stored uses up what its upload
has reserved.
-/

namespace VaultCrdtServer

/-- The upload belongs to a vault and has not expired. -/
def UploadRow.isOpen (vault : VaultId) (now : Time) (row : UploadRow) : Bool :=
  decide (row.vaultId = vault) && !row.expired now

/-- An upload that has expired stays so. -/
theorem UploadRow.isOpen_of_le
    {vault : VaultId}
    {now later : Time}
    {row : UploadRow}
    (stillOpen : row.isOpen vault later = true)
    (passed : now ≤ later) :
    row.isOpen vault now = true := by
  simp only [isOpen, expired, Bool.and_eq_true, decide_eq_true_eq, Bool.not_eq_true',
    decide_eq_false_iff_not] at stillOpen ⊢
  refine ⟨stillOpen.1, ?_⟩
  intro expired
  exact stillOpen.2 (lt_of_lt_of_le expired (Int.sub_le_sub_right passed _))

/-- The row a call inserts into `blob_uploads`. -/
def BlobDbCall.inserted (now : Time) : BlobDbCall → Option UploadRow
  | .insertUpload vault _ hash size =>
      some
        { vaultId := vault
          hashClaimed := hash
          sizeClaimed := size
          receivedBytes := 0
          createdAt := now }
  | _ => none

theorem BlobDbCall.inserted_of_isRead
    {now : Time}
    {call : BlobDbCall}
    (reads : call.isRead = true) :
    call.inserted now = none := by
  cases call <;> first | rfl | cases reads

/-! ## Uploads -/

section Uploads

variable {α : Type} [AddCommMonoid α] [PartialOrder α] [IsOrderedAddMonoid α]
variable {now : Time} {call : BlobDbCall} {reply : call.Reply} {db db' : BlobDb}

/-- Uploads add their weight when they are inserted, and at no other time. -/
theorem BlobDbCall.Effect.total_uploads_le
    (effect : Effect now call reply db db')
    (weight : UploadRow → α)
    (nonneg : ∀ uploadId row, db.blobUploads.lookup uploadId = some row → 0 ≤ weight row)
    (ignores : ∀ row received, weight { row with receivedBytes := received } = weight row) :
    Table.total (fun _ => weight) db'.blobUploads ≤
      ((call.inserted now).map weight).getD 0 +
        Table.total (fun _ => weight) db.blobUploads := by
  cases effect with
  | read reads =>
      rw [BlobDbCall.inserted_of_isRead reads]
      exact (zero_add _).ge
  | insertUpload absent =>
      exact (Table.total_insert_of_lookup_eq_none _ _ absent).le
  | deleteUpload found owned =>
      refine (Table.total_erase_le nonneg _).trans ?_
      exact (zero_add _).ge
  | updateReceived found owned =>
      refine (Table.total_insert_of_weight_eq _ found (ignores _ _)).le.trans ?_
      exact (zero_add _).ge
  | _ => exact (zero_add _).ge

end Uploads

namespace BlobDb

/-- Every upload claims a size within the limit. -/
def ClaimsWithin (db : BlobDb) : Prop :=
  ∀ uploadId row, db.blobUploads.lookup uploadId = some row →
    0 < row.sizeClaimed ∧ row.sizeClaimed ≤ absoluteMax

/-- Bytes of the blobs of a vault. -/
def storedBytes (vault : VaultId) (db : BlobDb) : Int := (db.blobSizes vault).sum

/-- What an upload is going to add to the blobs of a vault. -/
def pendingWeight (vault : VaultId) (now : Time) (db : BlobDb) (row : UploadRow) : Int :=
  if row.isOpen vault now ∧ db.blobs.lookup ⟨vault, row.hashClaimed⟩ = none then
    row.sizeClaimed
  else
    0

/-- What the open uploads of a vault are going to add to its blobs. -/
def pendingBytes (vault : VaultId) (now : Time) (db : BlobDb) : Int :=
  Table.total (fun _ => db.pendingWeight vault now) db.blobUploads

/-- What a vault has stored or is going to. -/
def reservedBytes (vault : VaultId) (now : Time) (db : BlobDb) : Int :=
  db.storedBytes vault + db.pendingBytes vault now

variable {vault : VaultId} {now : Time} {db : BlobDb}

theorem mem_openUploads_iff {row : UploadRow} :
    row ∈ db.openUploads vault now ↔
      row.isOpen vault now = true ∧
        ∃ uploadId, db.blobUploads.lookup uploadId = some row := by
  simp only [openUploads, List.mem_filter, List.mem_map, UploadRow.isOpen]
  constructor
  · rintro ⟨⟨entry, member, rfl⟩, isOpen⟩
    exact ⟨isOpen, entry.1, AList.mem_lookup_iff.mpr member⟩
  · rintro ⟨isOpen, uploadId, found⟩
    exact ⟨⟨⟨uploadId, row⟩, AList.mem_lookup_iff.mp found, rfl⟩, isOpen⟩

section Weights

variable {α : Type} [AddCommMonoid α]

/-- The open uploads of a vault, each counted with its weight. -/
theorem total_openUploads (weight : UploadRow → α) :
    Table.total (fun _ row => if row.isOpen vault now then weight row else 0) db.blobUploads =
      ((db.openUploads vault now).map weight).sum := by
  refine (Table.total_ite (fun _ (row : UploadRow) => row.isOpen vault now)
    (fun _ row => weight row) _).trans ?_
  rw [openUploads, List.filter_map, List.map_map]
  rfl

/-- The open uploads of a vault, all counted with the same weight. -/
theorem total_openUploads_const (weight : α) :
    Table.total (fun _ row => if row.isOpen vault now then weight else 0) db.blobUploads =
      (db.openUploads vault now).length • weight := by
  rw [total_openUploads fun _ => weight, List.map_const', List.sum_replicate]

end Weights

theorem storedBytes_eq_total :
    db.storedBytes vault =
      Table.total (fun key size => if decide (key.vault = vault) then size else 0) db.blobs :=
  (Table.total_ite (fun (key : BlobKey) _ => decide (key.vault = vault))
    (fun _ size => size) _).symm

theorem ClaimsWithin.pendingWeight_nonneg
    (claims : db.ClaimsWithin)
    (uploadId : String)
    (row : UploadRow)
    (found : db.blobUploads.lookup uploadId = some row) :
    0 ≤ db.pendingWeight vault now row := by
  unfold pendingWeight
  split_ifs
  · exact (claims uploadId row found).1.le
  · exact le_rfl

theorem ClaimsWithin.pendingBytes_nonneg (claims : db.ClaimsWithin) :
    0 ≤ db.pendingBytes vault now :=
  Table.total_nonneg claims.pendingWeight_nonneg

/-- The open uploads of a vault are going to add at most the limit each. -/
theorem ClaimsWithin.pendingBytes_le (claims : db.ClaimsWithin) :
    db.pendingBytes vault now ≤ (db.openUploads vault now).length * absoluteMax := by
  rw [← nsmul_eq_mul, ← total_openUploads_const]
  refine Table.total_le_total ?_
  intro uploadId row found
  have within := (claims uploadId row found).2
  unfold pendingWeight
  split_ifs with pending counted counted
  · exact within
  · exact absurd pending.1 counted
  · exact Int.natCast_nonneg _
  · exact le_rfl

/-! ## The passing of time -/

section Passes

variable {later : Time}

theorem openUploads_length_le (passed : now ≤ later) :
    (db.openUploads vault later).length ≤ (db.openUploads vault now).length := by
  have counted : ∀ time,
      Table.total (fun _ row => if row.isOpen vault time then 1 else 0) db.blobUploads =
        (db.openUploads vault time).length := by
    intro time
    rw [total_openUploads_const, Nat.nsmul_eq_mul, mul_one]
  rw [← counted, ← counted]
  refine Table.total_le_total ?_
  intro uploadId row _
  split_ifs with stillOpen wasOpen
  · exact le_rfl
  · exact absurd (UploadRow.isOpen_of_le stillOpen passed) wasOpen
  · exact Nat.zero_le _
  · exact le_rfl

theorem ClaimsWithin.reservedBytes_le
    (claims : db.ClaimsWithin)
    (passed : now ≤ later) :
    db.reservedBytes vault later ≤ db.reservedBytes vault now := by
  refine Int.add_le_add_left (Table.total_le_total ?_) _
  intro uploadId row found
  have positive := (claims uploadId row found).1
  unfold pendingWeight
  split_ifs with pending stillPending stillPending
  · exact le_rfl
  · exact absurd ⟨UploadRow.isOpen_of_le pending.1 passed, pending.2⟩ stillPending
  · exact positive.le
  · exact le_rfl

end Passes

/-! ## What calls do to the accounts -/

/-- The blob a call stores is one that an open upload of the vault claims. -/
def Backed (vault : VaultId) (now : Time) (db : BlobDb) : BlobDbCall → Prop
  | .insertBlob key size =>
      key.vault = vault → db.blobs.lookup key = none →
        ∃ row ∈ db.openUploads vault now, row.hashClaimed = key.hash ∧ row.sizeClaimed = size
  | _ => True

instance (call : BlobDbCall) : Decidable (db.Backed vault now call) := by
  induction call using BlobDbCall.casesOn with
  | insertBlob => exact inferInstanceAs (Decidable (_ → _ → ∃ row ∈ _, _ ∧ _))
  | _ => exact isTrue trivial

theorem pendingWeight_congr
    {db' : BlobDb}
    (same : db'.blobs = db.blobs) :
    db'.pendingWeight vault now = db.pendingWeight vault now := by
  funext row
  unfold pendingWeight
  rw [same]

theorem pendingWeight_le
    {row : UploadRow}
    (nonneg : 0 ≤ row.sizeClaimed) :
    db.pendingWeight vault now row ≤ row.sizeClaimed := by
  unfold pendingWeight
  split_ifs
  · exact le_rfl
  · exact nonneg

/-- The uploads whose blob is stored are not pending any more. -/
theorem pendingWeight_insertBlob
    (key : BlobKey)
    (size : Int)
    (row : UploadRow) :
    BlobDb.pendingWeight vault now { db with blobs := db.blobs.insert key size } row =
      if ⟨vault, row.hashClaimed⟩ = key then 0 else db.pendingWeight vault now row := by
  unfold pendingWeight
  rw [Table.lookup_insert_eq_ite]
  by_cases claimed : ⟨vault, row.hashClaimed⟩ = key <;> simp [claimed]

/-- A blob that is stored takes the place of the uploads that claim it. -/
theorem ClaimsWithin.reservedBytes_insertBlob
    {key : BlobKey}
    {size : Int}
    (claims : db.ClaimsWithin)
    (absent : db.blobs.lookup key = none)
    (backed : db.Backed vault now (.insertBlob key size)) :
    BlobDb.reservedBytes vault now { db with blobs := db.blobs.insert key size } ≤
      db.reservedBytes vault now := by
  have smaller : ∀ uploadId row, db.blobUploads.lookup uploadId = some row →
      BlobDb.pendingWeight vault now { db with blobs := db.blobs.insert key size } row ≤
        db.pendingWeight vault now row := by
    intro uploadId row found
    rw [pendingWeight_insertBlob]
    split_ifs
    · exact claims.pendingWeight_nonneg uploadId row found
    · exact le_rfl
  unfold reservedBytes pendingBytes
  rw [storedBytes_eq_total, storedBytes_eq_total,
    Table.total_insert_of_lookup_eq_none _ _ absent]
  by_cases own : key.vault = vault
  · obtain ⟨row, member, named, sized⟩ := backed own absent
    obtain ⟨isOpen, uploadId, found⟩ := mem_openUploads_iff.mp member
    have same : (⟨vault, row.hashClaimed⟩ : BlobKey) = key := by rw [named, ← own]
    -- The upload's own weight turns into the size of the blob.
    have before : db.pendingWeight vault now row = size := by
      unfold pendingWeight
      rw [same, if_pos ⟨isOpen, absent⟩, sized]
    have others :
        Table.total
            (fun _ => BlobDb.pendingWeight vault now
              { db with blobs := db.blobs.insert key size })
            (db.blobUploads.erase uploadId) ≤
          Table.total (fun _ => db.pendingWeight vault now) (db.blobUploads.erase uploadId) := by
      refine Table.total_le_total ?_
      intro other row' found'
      rw [Table.lookup_erase_eq_ite] at found'
      split_ifs at found'
      exact smaller other row' found'
    rw [Table.total_of_lookup _ found, Table.total_of_lookup _ found]
    rw [pendingWeight_insertBlob, if_pos same, before]
    simp only [own, decide_true, if_true]
    omega
  · have others := Table.total_le_total smaller
    simp only [own, decide_false, Bool.false_eq_true, if_false, zero_add]
    exact Int.add_le_add_left others _

end BlobDb

namespace BlobDbCall.Effect

variable {vault : VaultId} {now : Time} {call : BlobDbCall} {reply : call.Reply}
variable {db db' : BlobDb}

/-- The open uploads of a vault become more by an insertion only. -/
theorem openUploads_length_le (effect : Effect now call reply db db') :
    (db'.openUploads vault now).length ≤
      ((call.inserted now).map fun row => if row.isOpen vault now then 1 else 0).getD 0 +
        (db.openUploads vault now).length := by
  have total := effect.total_uploads_le (fun row => if row.isOpen vault now then 1 else 0)
    (fun _ _ _ => Nat.zero_le _) fun _ _ => rfl
  rw [BlobDb.total_openUploads_const, BlobDb.total_openUploads_const] at total
  simpa using total

/-- What a vault has reserved, seen from any time, becomes more by the insertion
of an upload only, as long as blobs are stored for uploads open then. -/
theorem reservedBytes_le
    {since : Time}
    (effect : Effect now call reply db db')
    (claims : db.ClaimsWithin)
    (backed : db.Backed vault since call) :
    db'.reservedBytes vault since ≤
      ((call.inserted now).map (db.pendingWeight vault since)).getD 0 +
        db.reservedBytes vault since := by
  have grows : db'.blobs = db.blobs →
      db'.reservedBytes vault since ≤
        ((call.inserted now).map (db.pendingWeight vault since)).getD 0 +
          db.reservedBytes vault since := by
    intro same
    have stored : db'.storedBytes vault = db.storedBytes vault := by
      unfold BlobDb.storedBytes BlobDb.blobSizes
      rw [same]
    have pending := effect.total_uploads_le (db.pendingWeight vault since)
      claims.pendingWeight_nonneg fun _ _ => rfl
    unfold BlobDb.reservedBytes BlobDb.pendingBytes
    rw [stored, BlobDb.pendingWeight_congr same]
    omega
  cases effect with
  | insertBlob absent =>
      refine (claims.reservedBytes_insertBlob absent backed).trans ?_
      exact (zero_add _).ge
  | _ => exact grows rfl

end BlobDbCall.Effect

end VaultCrdtServer
