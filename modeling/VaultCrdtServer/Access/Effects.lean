import VaultCrdtServer.Access.Db

/-!
# Effects of the calls of this lane

`AccessDbCall.Effect` lists what a call that succeeds has replied and done, with
what it has checked.  From the list follow the frame facts: which calls write
which table.
-/

namespace VaultCrdtServer

variable {Blob : Type}

/-- Columns that pass their check. -/
theorem checkLengths_eq_ok
    {columns : List String}
    {value : Unit}
    (passed : checkLengths columns = .ok value) :
    ∀ column ∈ columns, 0 < sqlLength column := by
  unfold checkLengths at passed
  split at passed
  · rename_i long
    intro column member
    exact of_decide_eq_true (List.all_eq_true.mp long column member)
  · cases passed

/-- A column of positive length is not empty. -/
theorem ne_empty_of_sqlLength_pos
    {text : String}
    (long : 0 < sqlLength text) :
    text ≠ "" := by
  rintro rfl
  simp [sqlLength] at long

namespace AccessDb

/-- What minting an invite writes. -/
structure Mints
    (now : Time)
    (vaultId tokenHash : String)
    (inviterPeerId : String)
    (deviceName : Option String)
    (db db' : AccessDb Blob) : Prop where
  columns : 0 < sqlLength vaultId ∧ 0 < sqlLength tokenHash ∧ 0 < sqlLength inviterPeerId
  written : db' =
    { db with
      inviteSeq := db.inviteSeq + 1
      invites := db.invites.insert (db.inviteSeq + 1)
        { vaultId := vaultId
          tokenHash := tokenHash
          inviterPeerId := inviterPeerId
          deviceName := deviceName
          createdAt := now
          expiresAt := now + 900
          usedAt := none } }

/-- What redeeming an invite checks and writes. -/
structure Consumes
    (now : Time)
    (id : Int)
    (key : PeerKey)
    (keyHash deviceName : String)
    (row : InviteRow)
    (db db' : AccessDb Blob) : Prop where
  found : db.invites.lookup id = some row
  unused : row.usedAt = none
  intime : now < row.expiresAt
  fresh : db.deviceKeys.lookup key = none
  columns : 0 < sqlLength key.vault ∧ 0 < sqlLength key.peer ∧ 0 < sqlLength keyHash
  written : db' =
    { db with
      invites := db.invites.insert id { row with usedAt := some now }
      deviceKeys := db.deviceKeys.insert key
        { keyHash := keyHash
          deviceName := some deviceName
          createdAt := now
          revokedAt := none } }

section Written

variable {now : Time} {vaultId tokenHash inviterPeerId keyHash : String}
variable {deviceName : Option String} {name : String} {id : Int} {key : PeerKey}
variable {row : InviteRow} {db db' : AccessDb Blob}

theorem Mints.inviteSeq_eq
    (mints : Mints now vaultId tokenHash inviterPeerId deviceName db db') :
    db'.inviteSeq = db.inviteSeq + 1 := by
  rw [mints.written]

theorem Mints.deviceKeys_eq
    (mints : Mints now vaultId tokenHash inviterPeerId deviceName db db') :
    db'.deviceKeys = db.deviceKeys := by
  rw [mints.written]

/-- The new row, and the others. -/
theorem Mints.lookup_invites
    (mints : Mints now vaultId tokenHash inviterPeerId deviceName db db')
    (id : Int) :
    db'.invites.lookup id =
      if id = db.inviteSeq + 1 then
        some ⟨vaultId, tokenHash, inviterPeerId, deviceName, now, now + 900, none⟩
      else
        db.invites.lookup id := by
  rw [mints.written, Table.lookup_insert_eq_ite]

theorem Consumes.inviteSeq_eq
    (consumes : Consumes now id key keyHash name row db db') :
    db'.inviteSeq = db.inviteSeq := by
  rw [consumes.written]

/-- The row that was used, and the others. -/
theorem Consumes.lookup_invites
    (consumes : Consumes now id key keyHash name row db db')
    (other : Int) :
    db'.invites.lookup other =
      if other = id then some { row with usedAt := some now } else db.invites.lookup other := by
  rw [consumes.written, Table.lookup_insert_eq_ite]

/-- The new key, and the others. -/
theorem Consumes.lookup_deviceKeys
    (consumes : Consumes now id key keyHash name row db db')
    (other : PeerKey) :
    db'.deviceKeys.lookup other =
      if other = key then
        some ⟨keyHash, some name, now, none⟩
      else
        db.deviceKeys.lookup other := by
  rw [consumes.written, Table.lookup_insert_eq_ite]

end Written

theorem insertInvite_eq_ok
    {now expiresAt : Time}
    {vaultId tokenHash inviterPeerId : String}
    {deviceName : Option String}
    {db db' : AccessDb Blob}
    (inserted : db.insertInvite now vaultId tokenHash inviterPeerId deviceName =
      .ok (expiresAt, db')) :
    expiresAt = now + 900 ∧ Mints now vaultId tokenHash inviterPeerId deviceName db db' := by
  unfold insertInvite at inserted
  cases checked : checkLengths [vaultId, tokenHash, inviterPeerId] with
  | error error => simp [checked, bind, Except.bind] at inserted
  | ok value =>
      have long := checkLengths_eq_ok checked
      simp only [checked, bind, Except.bind] at inserted
      split at inserted
      · obtain ⟨rfl, rfl⟩ := Prod.mk.inj (Except.ok.inj inserted)
        refine ⟨rfl, ⟨long _ ?_, long _ ?_, long _ ?_⟩, rfl⟩ <;> simp
      · cases inserted

theorem insertDeviceKey_eq_ok
    {now : Time}
    {key : PeerKey}
    {keyHash deviceName : String}
    {db db' : AccessDb Blob}
    (inserted : db.insertDeviceKey now key keyHash deviceName = .ok db') :
    (0 < sqlLength key.vault ∧ 0 < sqlLength key.peer ∧ 0 < sqlLength keyHash) ∧
      db.deviceKeys.lookup key = none ∧
      db' =
        { db with
          deviceKeys := db.deviceKeys.insert key
            { keyHash := keyHash
              deviceName := some deviceName
              createdAt := now
              revokedAt := none } } := by
  unfold insertDeviceKey at inserted
  cases checked : checkLengths [key.vault, key.peer, keyHash] with
  | error error => simp [checked, bind, Except.bind] at inserted
  | ok value =>
      have long := checkLengths_eq_ok checked
      simp only [checked, bind, Except.bind] at inserted
      split at inserted
      · cases inserted
      · rename_i absent
        refine ⟨⟨long _ ?_, long _ ?_, long _ ?_⟩, absent, (Except.ok.inj inserted).symm⟩ <;>
          simp

/-- The transaction of `redeem` consumes the invite, or leaves everything as it
was. -/
theorem redeemInvite_eq_ok
    {now : Time}
    {id : Int}
    {key : PeerKey}
    {keyHash deviceName : String}
    {outcome : RedeemOutcome}
    {db db' : AccessDb Blob}
    (redeemed : db.redeemInvite now id key keyHash deviceName = .ok (outcome, db')) :
    (outcome = .consumed ∧ ∃ row, Consumes now id key keyHash deviceName row db db') ∨
      outcome ≠ .consumed ∧ db' = db := by
  unfold redeemInvite at redeemed
  cases found : db.invites.lookup id with
  | none => simp [found] at redeemed
  | some row =>
      simp only [found] at redeemed
      split at redeemed
      · rename_i usable
        simp only [bind, Except.bind] at redeemed
        split at redeemed
        · cases redeemed
        · rename_i inserted
          obtain ⟨rfl, rfl⟩ := Prod.mk.inj (Except.ok.inj redeemed)
          obtain ⟨columns, fresh, rfl⟩ := insertDeviceKey_eq_ok inserted
          exact Or.inl ⟨rfl, row, found, usable.1, usable.2, fresh, columns, rfl⟩
      · split at redeemed
        · obtain ⟨rfl, rfl⟩ := Prod.mk.inj (Except.ok.inj redeemed)
          exact Or.inr ⟨by simp, rfl⟩
        · obtain ⟨rfl, rfl⟩ := Prod.mk.inj (Except.ok.inj redeemed)
          exact Or.inr ⟨by simp, rfl⟩

/-- The key of a retired peer, and the others. -/
theorem lookup_retirePeer (now : Time) (key other : PeerKey) (db : AccessDb Blob) :
    (db.retirePeer now key).deviceKeys.lookup other =
      if other = key then
        (db.deviceKeys.lookup key).map fun row => { row with revokedAt := some now }
      else
        db.deviceKeys.lookup other := by
  unfold retirePeer
  cases found : db.deviceKeys.lookup key with
  | none =>
      split_ifs with same
      · rw [same, Option.map_none]
        exact found
      · rfl
  | some row =>
      dsimp only
      rw [Table.lookup_insert_eq_ite, Option.map_some]

end AccessDb

namespace AccessDbCall

variable {libraries : AccessLibraries Blob} {now : Time} {db db' : AccessDb Blob}

/-- What a call that succeeds has replied and done. -/
inductive Effect (libraries : AccessLibraries Blob) (now : Time) (db : AccessDb Blob) :
    (call : AccessDbCall Blob) → call.Reply → AccessDb Blob → Prop
  | vaultExists {vaultId} :
      Effect libraries now db (.vaultExists vaultId) (db.vaultExists vaultId) db
  | insertVault {vaultId apiKey} (absent : db.vaults.lookup vaultId = none) :
      Effect libraries now db (.insertVault vaultId apiKey) true
        { db with vaults := db.vaults.insert vaultId apiKey }
  | ignoreVault {vaultId apiKey} (present : db.vaults.lookup vaultId ≠ none) :
      Effect libraries now db (.insertVault vaultId apiKey) false db
  | getApiKey {vaultId} :
      Effect libraries now db (.getApiKey vaultId) (db.vaults.lookup vaultId) db
  | updateApiKey {vaultId apiKey} (present : db.vaults.lookup vaultId ≠ none) :
      Effect libraries now db (.updateApiKey vaultId apiKey) ()
        { db with vaults := db.vaults.insert vaultId apiKey }
  | updateNothing {vaultId apiKey} (absent : db.vaults.lookup vaultId = none) :
      Effect libraries now db (.updateApiKey vaultId apiKey) () db
  | clearInvites : Effect libraries now db .clearInvites () (db.clearInvites now)
  | insertInvite {vaultId invite inviterPeerId deviceName db'}
      (mints : db.Mints now vaultId (libraries.sha256Hex invite) inviterPeerId deviceName db') :
      Effect libraries now db (.insertInvite vaultId invite inviterPeerId deviceName)
        (now + 900) db'
  | listInvites : Effect libraries now db .listInvites (db.listInvites now) db
  | redeemInvite {id key keyHash deviceName row db'}
      (consumes : db.Consumes now id key keyHash deviceName row db') :
      Effect libraries now db (.redeemInvite id key keyHash deviceName) .consumed db'
  | redeemNothing {id key keyHash deviceName outcome} (refused : outcome ≠ .consumed) :
      Effect libraries now db (.redeemInvite id key keyHash deviceName) outcome db
  | getKeyHash {key} : Effect libraries now db (.getKeyHash key) (db.keyHash key) db
  | ensureNotRevoked {key} :
      Effect libraries now db (.ensureNotRevoked key) (db.ensureNotRevoked key) db
  | getPeer {key} : Effect libraries now db (.getPeer key) (db.peers.lookup key) db
  | countPeerBlockedTombstones {vaultId lastSeenAt} :
      Effect libraries now db (.countPeerBlockedTombstones vaultId lastSeenAt)
        (db.countPeerBlockedTombstones vaultId lastSeenAt) db
  | retirePeer {key} : Effect libraries now db (.retirePeer key) () (db.retirePeer now key)
  | upsertPeer {key deviceName} :
      Effect libraries now db (.upsertPeer key deviceName) ()
        { db with toDb := db.toDb.upsertPeer now key deviceName }

theorem effect_of_exec
    {call : AccessDbCall Blob}
    {reply : call.Reply}
    (executed : call.exec libraries now db = .ok (reply, db')) :
    call.Effect libraries now db reply db' := by
  cases call with
  | insertVault vaultId apiKey =>
      simp only [exec, AccessDb.insertVault, Except.ok.injEq] at executed
      split at executed
      · rename_i found
        obtain ⟨rfl, rfl⟩ := Prod.mk.inj executed
        exact .ignoreVault (by simp [found])
      · rename_i absent
        obtain ⟨rfl, rfl⟩ := Prod.mk.inj executed
        exact .insertVault absent
  | updateApiKey vaultId apiKey =>
      simp only [exec, AccessDb.updateApiKey, Except.ok.injEq] at executed
      obtain ⟨rfl, rfl⟩ := Prod.mk.inj executed
      split
      · rename_i found
        exact .updateApiKey (by simp [found])
      · rename_i absent
        exact .updateNothing absent
  | insertInvite vaultId invite inviterPeerId deviceName =>
      obtain ⟨rfl, mints⟩ := AccessDb.insertInvite_eq_ok executed
      exact .insertInvite mints
  | redeemInvite id key keyHash deviceName =>
      rcases AccessDb.redeemInvite_eq_ok executed with ⟨rfl, row, consumes⟩ | ⟨refused, rfl⟩
      · exact .redeemInvite consumes
      · exact .redeemNothing refused
  | vaultExists | getApiKey | clearInvites | listInvites | getKeyHash | ensureNotRevoked
  | getPeer | countPeerBlockedTombstones | retirePeer | upsertPeer =>
      obtain ⟨rfl, rfl⟩ := Prod.mk.inj (Except.ok.inj executed)
      constructor

variable {call : AccessDbCall Blob} {reply : call.Reply}

/-- A vault that was not there was inserted. -/
theorem Effect.vault_inserted
    {vaultId : String}
    (effect : call.Effect libraries now db reply db')
    (absent : db.vaults.lookup vaultId = none)
    (present : db'.vaults.lookup vaultId ≠ none) :
    ∃ apiKey, call = .insertVault vaultId apiKey := by
  cases effect with
  | @insertVault inserted apiKey _ =>
      by_cases same : vaultId = inserted
      · exact ⟨apiKey, by rw [same]⟩
      · rw [AList.lookup_insert_ne same] at present
        exact absurd absent present
  | @updateApiKey updated apiKey there =>
      by_cases same : vaultId = updated
      · exact absurd (same ▸ absent) there
      · rw [AList.lookup_insert_ne same] at present
        exact absurd absent present
  | insertInvite mints =>
      rw [mints.written] at present
      exact absurd absent present
  | redeemInvite consumes =>
      rw [consumes.written] at present
      exact absurd absent present
  | _ => exact absurd absent present

/-- The device keys change where an invite is redeemed or a peer retired. -/
theorem Effect.deviceKeys_eq
    (effect : call.Effect libraries now db reply db')
    (redeemed : ∀ id key keyHash deviceName,
      call ≠ .redeemInvite id key keyHash deviceName)
    (retired : ∀ key, call ≠ .retirePeer key) :
    db'.deviceKeys = db.deviceKeys := by
  cases effect with
  | insertInvite mints => rw [mints.written]
  | redeemInvite => exact absurd rfl (redeemed _ _ _ _)
  | retirePeer => exact absurd rfl (retired _)
  | _ => rfl

end AccessDbCall

end VaultCrdtServer
