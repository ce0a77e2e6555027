import VaultCrdtServer.Db.Effects
import VaultCrdtServer.Listing

/-!
# The rows of a vault

Two databases agree on a vault when they have the same rows for it.  A call for
the vault does the same in both, and a call for another vault leaves the rows
alone.
-/

namespace VaultCrdtServer

variable {Blob : Type}

/-- Two databases have the same rows for a vault. -/
structure Db.AgreeOn (vault : String) (db db' : Db Blob) : Prop where
  documents : ∀ doc, db.documents.lookup ⟨vault, doc⟩ = db'.documents.lookup ⟨vault, doc⟩
  tombstones : ∀ doc, db.tombstones.lookup ⟨vault, doc⟩ = db'.tombstones.lookup ⟨vault, doc⟩
  vaultIncarnation : db.vaultIncarnation.lookup vault = db'.vaultIncarnation.lookup vault
  peers : ∀ peer, db.peers.lookup ⟨vault, peer⟩ = db'.peers.lookup ⟨vault, peer⟩

/-- The vault a call is for; the cleanup is for all of them. -/
def DbCall.vault? : DbCall Blob → Option String
  | .getSnapshotWithVv path | .getSnapshotWithIncarnation path | .isTombstoned path
  | .storeSnapshotWithVv path .. | .storeSnapshotReplacingTombstone path ..
  | .deleteDocGuarded path .. => some path.vault
  | .listDocsWithVv vault | .listTombstones vault | .listTombstonesWithHash vault => some vault
  | .upsertPeer key _ => some key.vault
  | .expireTombstones _ | .expireStalePeers _ => none

namespace Db.AgreeOn

variable {vault : String} {db db' : Db Blob} {now : Time}

theorem refl (vault : String) (db : Db Blob) : db.AgreeOn vault db :=
  ⟨fun _ => rfl, fun _ => rfl, rfl, fun _ => rfl⟩

theorem symm (agree : db.AgreeOn vault db') : db'.AgreeOn vault db :=
  ⟨fun doc => (agree.documents doc).symm, fun doc => (agree.tombstones doc).symm,
    agree.vaultIncarnation.symm, fun peer => (agree.peers peer).symm⟩

theorem trans
    {db'' : Db Blob}
    (first : db.AgreeOn vault db')
    (second : db'.AgreeOn vault db'') :
    db.AgreeOn vault db'' :=
  ⟨fun doc => (first.documents doc).trans (second.documents doc),
    fun doc => (first.tombstones doc).trans (second.tombstones doc),
    first.vaultIncarnation.trans second.vaultIncarnation,
    fun peer => (first.peers peer).trans (second.peers peer)⟩

/-! ## Writes for the vault -/

theorem putDocument
    (agree : db.AgreeOn vault db')
    (doc : String)
    (row : DocumentRow Blob) :
    (db.putDocument ⟨vault, doc⟩ row).AgreeOn vault (db'.putDocument ⟨vault, doc⟩ row) where
  documents := by
    intro other
    simp only [Db.putDocument, Table.lookup_insert_eq_ite]
    rw [agree.documents other]
  tombstones := agree.tombstones
  vaultIncarnation := agree.vaultIncarnation
  peers := agree.peers

theorem nextIncarnation (agree : db.AgreeOn vault db') :
    db.nextIncarnation vault = db'.nextIncarnation vault := by
  unfold Db.nextIncarnation
  rw [agree.vaultIncarnation]

theorem advanceIncarnation (agree : db.AgreeOn vault db') :
    (db.advanceIncarnation vault).AgreeOn vault (db'.advanceIncarnation vault) where
  documents := agree.documents
  tombstones := agree.tombstones
  vaultIncarnation := by
    simp only [Db.advanceIncarnation, AList.lookup_insert]
    rw [agree.nextIncarnation]
  peers := agree.peers

theorem eraseTombstone (agree : db.AgreeOn vault db') (doc : String) :
    { db with tombstones := db.tombstones.erase ⟨vault, doc⟩ }.AgreeOn vault
      { db' with tombstones := db'.tombstones.erase ⟨vault, doc⟩ } where
  documents := agree.documents
  tombstones := by
    intro other
    simp only [Table.lookup_erase_eq_ite]
    rw [agree.tombstones other]
  vaultIncarnation := agree.vaultIncarnation
  peers := agree.peers

theorem bury
    (agree : db.AgreeOn vault db')
    (doc : String)
    (row : TombstoneRow) :
    { db with
        documents := db.documents.erase ⟨vault, doc⟩
        tombstones := db.tombstones.insert ⟨vault, doc⟩ row }.AgreeOn vault
      { db' with
        documents := db'.documents.erase ⟨vault, doc⟩
        tombstones := db'.tombstones.insert ⟨vault, doc⟩ row } where
  documents := by
    intro other
    simp only [Table.lookup_erase_eq_ite]
    rw [agree.documents other]
  tombstones := by
    intro other
    simp only [Table.lookup_insert_eq_ite]
    rw [agree.tombstones other]
  vaultIncarnation := agree.vaultIncarnation
  peers := agree.peers

/-- A delete has the same outcome. -/
theorem deleteDocGuarded
    (agree : db.AgreeOn vault db')
    (loro : Loro Blob)
    (now : Time)
    (doc deletedBy : String)
    (expected : Option Int) :
    (db.deleteDocGuarded loro now ⟨vault, doc⟩ deletedBy expected).1 =
        (db'.deleteDocGuarded loro now ⟨vault, doc⟩ deletedBy expected).1 ∧
      (db.deleteDocGuarded loro now ⟨vault, doc⟩ deletedBy expected).2.AgreeOn vault
        (db'.deleteDocGuarded loro now ⟨vault, doc⟩ deletedBy expected).2 := by
  unfold Db.deleteDocGuarded
  rw [agree.documents doc, agree.tombstones doc]
  dsimp only
  split_ifs with rejects
  · exact ⟨rfl, agree⟩
  · cases db'.documents.lookup ⟨vault, doc⟩ with
    | none => exact ⟨rfl, agree.bury doc _⟩
    | some row => exact ⟨rfl, agree.bury doc _⟩

theorem upsertPeer
    (agree : db.AgreeOn vault db')
    (peer deviceName : String) :
    (db.upsertPeer now ⟨vault, peer⟩ deviceName).AgreeOn vault
      (db'.upsertPeer now ⟨vault, peer⟩ deviceName) where
  documents := agree.documents
  tombstones := agree.tombstones
  vaultIncarnation := agree.vaultIncarnation
  peers := by
    intro other
    simp only [Db.upsertPeer, Table.lookup_insert_eq_ite]
    rw [agree.peers other]

end Db.AgreeOn

/-! ## The cleanup -/

section Cleanup

variable {vault : String} {db db' : Db Blob} {now : Time}

/-- A tombstone is waited for by the peers of its vault. -/
theorem Db.awaited_iff {path : DocPath} {row : TombstoneRow} :
    db.awaited path row = true ↔
      ∃ peer peerRow, db.peers.lookup ⟨path.vault, peer⟩ = some peerRow ∧
        peerRow.lastSeenAt ≤ row.deletedAt := by
  simp only [Db.awaited, List.any_eq_true, Bool.and_eq_true, decide_eq_true_eq]
  constructor
  · rintro ⟨⟨⟨peerVault, peer⟩, peerRow⟩, member, rfl, old⟩
    exact ⟨peer, peerRow, AList.mem_lookup_iff.mpr member, old⟩
  · rintro ⟨peer, peerRow, found, old⟩
    exact ⟨⟨⟨path.vault, peer⟩, peerRow⟩, AList.mem_lookup_iff.mp found, rfl, old⟩

theorem Db.AgreeOn.awaited
    (agree : db.AgreeOn vault db')
    (doc : String)
    (row : TombstoneRow) :
    db.awaited ⟨vault, doc⟩ row = db'.awaited ⟨vault, doc⟩ row := by
  rw [Bool.eq_iff_iff, Db.awaited_iff, Db.awaited_iff]
  constructor
  · rintro ⟨peer, peerRow, found, old⟩
    exact ⟨peer, peerRow, (agree.peers peer).symm.trans found, old⟩
  · rintro ⟨peer, peerRow, found, old⟩
    exact ⟨peer, peerRow, (agree.peers peer).trans found, old⟩

theorem Db.AgreeOn.expireTombstones
    (agree : db.AgreeOn vault db')
    (maxAgeDays : Int) :
    (db.expireTombstones now maxAgeDays).2.AgreeOn vault
      (db'.expireTombstones now maxAgeDays).2 where
  documents := agree.documents
  tombstones := by
    intro doc
    simp only [Db.expireTombstones, Table.lookup_deleteWhere]
    rw [agree.tombstones doc]
    congr 1
    funext row
    rw [agree.awaited doc row]
  vaultIncarnation := agree.vaultIncarnation
  peers := agree.peers

theorem Db.AgreeOn.expireStalePeers
    (agree : db.AgreeOn vault db')
    (maxAgeDays : Int) :
    (db.expireStalePeers now maxAgeDays).2.AgreeOn vault
      (db'.expireStalePeers now maxAgeDays).2 where
  documents := agree.documents
  tombstones := agree.tombstones
  vaultIncarnation := agree.vaultIncarnation
  peers := by
    intro peer
    simp only [Db.expireStalePeers, Table.lookup_deleteWhere]
    rw [agree.peers peer]

end Cleanup

/-! ## Calls -/

section Calls

variable {libraries : Libraries Blob} {vault : String} {db db' first : Db Blob} {now : Time}

/-- A call for the vault fails in both databases, or in none. -/
theorem DbCall.exec_error
    {call : DbCall Blob}
    {error : ServerError}
    (within : call.vault? = some vault)
    (agree : db.AgreeOn vault db')
    (executed : call.exec libraries now db = .error error) :
    call.exec libraries now db' = .error error := by
  cases call with
  | storeSnapshotWithVv path snapshot vvBlob =>
      obtain ⟨home, doc⟩ := path
      obtain rfl := Option.some.inj within
      simp only [DbCall.exec, Db.storeSnapshotWithVv, Db.allocateIncarnation_eq] at executed ⊢
      rw [← agree.documents doc, ← agree.nextIncarnation]
      cases live : db.documents.lookup ⟨home, doc⟩ with
      | some row =>
          rw [live] at executed
          cases executed
      | none =>
          rw [live] at executed
          dsimp only at executed ⊢
          split_ifs at executed ⊢ with room
          · cases executed
          · exact executed
  | storeSnapshotReplacingTombstone path snapshot vvBlob =>
      obtain ⟨home, doc⟩ := path
      obtain rfl := Option.some.inj within
      simp only [DbCall.exec, Db.storeSnapshotReplacingTombstone,
        Db.allocateIncarnation_eq] at executed ⊢
      rw [← agree.nextIncarnation]
      split_ifs at executed ⊢ with room
      · cases executed
      · exact executed
  | _ => cases executed

/-- A call for the vault has the same reply in both, and they agree again. -/
theorem DbCall.exec_within
    {call : DbCall Blob}
    {reply : call.Reply}
    (within : call.vault? = some vault)
    (agree : db.AgreeOn vault db')
    (executed : call.exec libraries now db = .ok (reply, first)) :
    ∃ second, call.exec libraries now db' = .ok (reply, second) ∧
      first.AgreeOn vault second := by
  cases call with
  | getSnapshotWithVv path =>
      obtain ⟨home, doc⟩ := path
      obtain rfl := Option.some.inj within
      cases executed
      refine ⟨db', ?_, agree⟩
      simp only [DbCall.exec, Db.getSnapshotWithVv, agree.documents doc]
  | getSnapshotWithIncarnation path =>
      obtain ⟨home, doc⟩ := path
      obtain rfl := Option.some.inj within
      cases executed
      refine ⟨db', ?_, agree⟩
      simp only [DbCall.exec, Db.getSnapshotWithIncarnation, agree.documents doc]
  | isTombstoned path =>
      obtain ⟨home, doc⟩ := path
      obtain rfl := Option.some.inj within
      cases executed
      refine ⟨db', ?_, agree⟩
      simp only [DbCall.exec, Db.isTombstoned, agree.tombstones doc]
  | listDocsWithVv listed =>
      obtain rfl := Option.some.inj within
      cases executed
      refine ⟨db', ?_, agree⟩
      rw [DbCall.exec, listDocsWithVv_congr fun doc => by rw [agree.documents doc]]
  | listTombstones listed =>
      obtain rfl := Option.some.inj within
      cases executed
      refine ⟨db', ?_, agree⟩
      rw [DbCall.exec, listTombstones_congr fun doc => by rw [agree.tombstones doc]]
  | listTombstonesWithHash listed =>
      obtain rfl := Option.some.inj within
      cases executed
      refine ⟨db', ?_, agree⟩
      rw [DbCall.exec, listTombstonesWithHash_congr fun doc => by rw [agree.tombstones doc]]
  | storeSnapshotWithVv path snapshot vvBlob =>
      obtain ⟨home, doc⟩ := path
      obtain rfl := Option.some.inj within
      cases effect_of_exec executed with
      | read isRead => cases isRead
      | @kept _ _ _ row live =>
          refine ⟨_, ?_, agree.putDocument doc _⟩
          rw [agree.documents doc] at live
          simp only [DbCall.exec, Db.storeSnapshotWithVv, live]
          rfl
      | established absent room =>
          refine ⟨_, ?_, agree.advanceIncarnation.putDocument doc _⟩
          rw [agree.documents doc] at absent
          rw [agree.nextIncarnation] at room ⊢
          simp only [DbCall.exec, Db.storeSnapshotWithVv, absent, Db.allocateIncarnation_eq,
            if_pos room]
          rfl
  | storeSnapshotReplacingTombstone path snapshot vvBlob =>
      obtain ⟨home, doc⟩ := path
      obtain rfl := Option.some.inj within
      cases effect_of_exec executed with
      | read isRead => cases isRead
      | replaced room =>
          refine ⟨_, ?_, (agree.advanceIncarnation.putDocument doc _).eraseTombstone doc⟩
          rw [agree.nextIncarnation] at room ⊢
          simp only [DbCall.exec, Db.storeSnapshotReplacingTombstone,
            Db.allocateIncarnation_eq, if_pos room]
          rfl
  | deleteDocGuarded path deletedBy expected =>
      obtain ⟨home, doc⟩ := path
      obtain rfl := Option.some.inj within
      have result : db.deleteDocGuarded libraries.loro now ⟨home, doc⟩ deletedBy expected =
          (reply, first) := Except.ok.inj executed
      have both := agree.deleteDocGuarded libraries.loro now doc deletedBy expected
      rw [result] at both
      exact ⟨(db'.deleteDocGuarded libraries.loro now ⟨home, doc⟩ deletedBy expected).2,
        congrArg Except.ok (Prod.ext both.1.symm rfl), both.2⟩
  | upsertPeer key deviceName =>
      obtain ⟨home, peer⟩ := key
      obtain rfl := Option.some.inj within
      cases executed
      exact ⟨_, rfl, agree.upsertPeer peer deviceName⟩
  | expireTombstones | expireStalePeers => cases within

/-- A call for another vault leaves the rows alone. -/
theorem DbCall.exec_elsewhere
    {other : String}
    {call : DbCall Blob}
    {reply : call.Reply}
    (within : call.vault? = some other)
    (different : other ≠ vault)
    (executed : call.exec libraries now db = .ok (reply, db')) :
    db'.AgreeOn vault db := by
  have apart : ∀ {path : DocPath} {doc : String}, path.vault = other →
      (⟨vault, doc⟩ : DocPath) ≠ path := by
    rintro path doc rfl rfl
    exact different rfl
  have named : ∀ {path : DocPath}, some path.vault = some other → path.vault = other :=
    Option.some.inj
  cases effect_of_exec executed with
  | read | rejected => exact .refl vault db
  | kept live =>
      exact
        { Db.AgreeOn.refl vault db with
          documents := fun _ => AList.lookup_insert_ne (apart (named within)) }
  | established absent room =>
      refine
        { Db.AgreeOn.refl vault db with
          documents := fun _ => AList.lookup_insert_ne (apart (named within))
          vaultIncarnation := AList.lookup_insert_ne ?_ }
      rintro rfl
      exact different (named within).symm
  | replaced room =>
      refine
        { documents := fun _ => AList.lookup_insert_ne (apart (named within))
          tombstones := fun _ => AList.lookup_erase_ne (apart (named within))
          vaultIncarnation := AList.lookup_insert_ne ?_
          peers := fun _ => rfl }
      rintro rfl
      exact different (named within).symm
  | removed | absent =>
      exact
        { Db.AgreeOn.refl vault db with
          documents := fun _ => AList.lookup_erase_ne (apart (named within))
          tombstones := fun _ => AList.lookup_insert_ne (apart (named within)) }
  | @peerUpserted key =>
      refine
        { Db.AgreeOn.refl vault db with
          peers := fun _ => AList.lookup_insert_ne ?_ }
      rintro rfl
      exact different (Option.some.inj within).symm
  | tombstonesExpired | peersExpired => cases within

end Calls

end VaultCrdtServer
