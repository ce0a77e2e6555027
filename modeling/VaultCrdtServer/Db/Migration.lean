import VaultCrdtServer.Db.Effects

/-!
# Migration 006

`src/migrations/006_incarnation.sql` gives every row the incarnation 1 and
every vault with a document or a tombstone the counter 2.
-/

namespace VaultCrdtServer

variable {Blob : Type}

/-- A row of `documents` before the migration. -/
structure PreIncarnationDocument (Blob : Type) where
  snapshotBlob : Blob
  vvBlob : Blob
  updatedAt : Time

/-- A row of `tombstones` before the migration. -/
structure PreIncarnationTombstone where
  deletedBy : String
  deletedAt : Time
  contentHash : Option String

/-- The tables of the document lane before the migration. -/
structure PreIncarnationDb (Blob : Type) where
  documents : Table DocPath (PreIncarnationDocument Blob)
  tombstones : Table DocPath PreIncarnationTombstone
  peers : Table PeerKey PeerRow

/-- The vaults of a table's rows. -/
def vaultsOf {ρ : Type} (table : Table DocPath ρ) : List String :=
  table.entries.map fun entry => entry.1.vault

/-- `INSERT INTO vault_incarnation SELECT vault_id, 2 …` -/
def seedIncarnations (vaults : List String) : Table String Int :=
  vaults.foldr (fun vault table => table.insert vault 2) ∅

/-- `006_incarnation.sql` -/
def migrate006 (db : PreIncarnationDb Blob) : Db Blob where
  documents := db.documents.mapRows fun row =>
    { snapshotBlob := row.snapshotBlob
      vvBlob := row.vvBlob
      updatedAt := row.updatedAt
      incarnation := 1 }
  tombstones := db.tombstones.mapRows fun row =>
    { deletedBy := row.deletedBy
      deletedAt := row.deletedAt
      contentHash := row.contentHash
      incarnation := 1 }
  vaultIncarnation :=
    seedIncarnations (vaultsOf db.documents ++ vaultsOf db.tombstones)
  peers := db.peers

/-- The databases a server starts on. -/
inductive Starts : Db Blob → Prop
  | empty : Starts Db.empty
  | migrated (db : PreIncarnationDb Blob) : Starts (migrate006 db)

theorem lookup_seedIncarnations (vaults : List String) (vault : String) :
    (seedIncarnations vaults).lookup vault =
      if vault ∈ vaults then some 2 else none := by
  induction vaults with
  | nil => rfl
  | cons first vaults inductionHypothesis =>
      change ((seedIncarnations vaults).insert first 2).lookup vault = _
      rw [Table.lookup_insert_eq_ite, inductionHypothesis]
      by_cases same : vault = first
      · simp [same]
      · simp [same]

/-- A row's vault is among the vaults. -/
theorem mem_vaultsOf
    {ρ : Type}
    {table : Table DocPath ρ}
    {path : DocPath}
    {row : ρ}
    (found : table.lookup path = some row) :
    path.vault ∈ vaultsOf table := by
  rw [← Option.mem_def, AList.mem_lookup_iff] at found
  exact List.mem_map_of_mem (f := fun entry => entry.1.vault) found

/-- The counters after the migration. -/
theorem nextIncarnation_migrate006 (db : PreIncarnationDb Blob) (vault : String) :
    (migrate006 db).nextIncarnation vault =
      if vault ∈ vaultsOf db.documents ++ vaultsOf db.tombstones then 2 else 1 := by
  simp only [Db.nextIncarnation, migrate006, lookup_seedIncarnations]
  split_ifs <;> rfl

end VaultCrdtServer
