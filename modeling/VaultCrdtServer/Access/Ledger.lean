import VaultCrdtServer.Access.Footprint

/-!
# The ledger of invites

Every row of `invites` belongs to an invite that was minted, and no two invites
share an id or a secret.  A redemption marks the row of its invite and inserts a
key in one transaction, so no invite and no key takes part in two of them; this
holds through housekeeping, since ids are not used again.
-/

namespace VaultCrdtServer

open Interleaving

variable {Blob : Type}

/-- An invite was consumed for a key. -/
structure Redemption where
  /-- The request that redeemed it. -/
  origin : Nat
  now : Time
  id : Int
  key : PeerKey
  deriving DecidableEq

/-- The redemption a call was. -/
def AccessEntry.redemption (entry : AccessEntry Blob) : Option Redemption :=
  match entry.call, entry.result with
  | .redeemInvite id key _ _, .ok .consumed => some ⟨entry.origin, entry.now, id, key⟩
  | _, _ => none

/-- The call left invites and device keys alone. -/
def AccessEntry.Inert (entry : AccessEntry Blob) : Prop :=
  entry.after.invites = entry.before.invites ∧ entry.after.deviceKeys = entry.before.deviceKeys

namespace AccessServer

/-- Every invite that was consumed, oldest first. -/
def redemptions (server : AccessServer Blob) : List Redemption :=
  server.journal.filterMap AccessEntry.redemption

/-- No call of the request has changed an invite or a device key. -/
def Untouched (request : Nat) (server : AccessServer Blob) : Prop :=
  ∀ entry ∈ server.entriesOf request, entry.Inert

/-- The secret was drawn for the request, and no invite was minted with it. -/
def Owns (request : Nat) (secret : String) (server : AccessServer Blob) : Prop :=
  server.drawn secret = some request ∧ ∀ minted ∈ server.minted, minted.invite ≠ secret

section Record

variable {server : AccessServer Blob} {request other : Nat} {now : Time}
variable {call : AccessDbCall Blob} {result : Except ServerError call.Reply}
variable {db : AccessDb Blob}

theorem redemptions_record :
    (server.record request now call result db).redemptions =
      server.redemptions ++
        (AccessEntry.redemption ⟨request, now, call, result, server.db, db⟩).toList := by
  rw [redemptions, record_journal, List.filterMap_append, List.filterMap_cons,
    List.filterMap_nil]
  cases AccessEntry.redemption ⟨request, now, call, result, server.db, db⟩ <;> rfl

theorem redemptions_record_of_eq_none
    (other : AccessEntry.redemption ⟨request, now, call, result, server.db, db⟩ = none) :
    (server.record request now call result db).redemptions = server.redemptions := by
  rw [redemptions_record, other, Option.toList_none, List.append_nil]

theorem Untouched.record
    (untouched : server.Untouched request)
    (inert : AccessEntry.Inert ⟨request, now, call, result, server.db, db⟩) :
    (server.record request now call result db).Untouched request := by
  intro entry member
  rw [entriesOf_record_self, List.mem_append, List.mem_singleton] at member
  rcases member with older | rfl
  · exact untouched entry older
  · exact inert

/-- A call that left the database as it was. -/
theorem Untouched.read
    (untouched : server.Untouched request)
    (now : Time)
    (call : AccessDbCall Blob)
    (result : Except ServerError call.Reply) :
    (server.record request now call result server.db).Untouched request :=
  untouched.record ⟨rfl, rfl⟩

end Record

/-- A redemption of the request is one of all. -/
theorem mem_redemptions
    {server : AccessServer Blob}
    {request : Nat}
    {redemption : Redemption}
    (member : redemption ∈ (server.entriesOf request).filterMap AccessEntry.redemption) :
    redemption ∈ server.redemptions ∧ redemption.origin = request := by
  rw [List.mem_filterMap] at member
  obtain ⟨entry, made, redeemed⟩ := member
  rw [entriesOf, List.mem_filter, decide_eq_true_eq] at made
  refine ⟨List.mem_filterMap.mpr ⟨entry, made.1, redeemed⟩, ?_⟩
  unfold AccessEntry.redemption at redeemed
  split at redeemed
  · rw [← Option.some.inj redeemed]
    exact made.2
  · cases redeemed

end AccessServer

/-! ## Invariants -/

/-- Ids and secrets of the minted invites are their own, and every row of
`invites` belongs to one of them. -/
structure Ledger (libraries : AccessLibraries Blob) (server : AccessServer Blob) : Prop where
  ids : (server.minted.map MintedInvite.id).Nodup
  secrets : (server.minted.map MintedInvite.invite).Nodup
  numbered : ∀ minted ∈ server.minted, minted.id ≤ server.db.inviteSeq
  rows : ∀ id row, server.db.invites.lookup id = some row →
    ∃ minted ∈ server.minted, minted.id = id ∧ minted.vaultId = row.vaultId ∧
      minted.expiresAt = row.expiresAt ∧
      libraries.sha256Hex minted.invite = row.tokenHash

/-- No invite and no key takes part in two redemptions.  `start` is the database
the server was started with. -/
structure SingleUse (start : AccessDb Blob) (server : AccessServer Blob) : Prop where
  ids : (server.redemptions.map Redemption.id).Nodup
  keys : (server.redemptions.map Redemption.key).Nodup
  own : ∀ redemption ∈ server.redemptions, ∃ minted ∈ server.minted,
    minted.id = redemption.id ∧ minted.vaultId = redemption.key.vault ∧
      redemption.now < minted.expiresAt
  used : ∀ redemption ∈ server.redemptions, ∀ row,
    server.db.invites.lookup redemption.id = some row → row.usedAt ≠ none
  stored : ∀ redemption ∈ server.redemptions,
    server.db.deviceKeys.lookup redemption.key ≠ none
  redeemed : ∀ key, server.db.deviceKeys.lookup key ≠ none →
    start.deviceKeys.lookup key ≠ none ∨ key ∈ server.redemptions.map Redemption.key
  marked : ∀ id row, server.db.invites.lookup id = some row → row.usedAt ≠ none →
    (∃ row', start.invites.lookup id = some row' ∧ row'.usedAt ≠ none) ∨
      id ∈ server.redemptions.map Redemption.id

/-- Nothing was minted or redeemed; rows of invites may have been deleted, and
keys revoked. -/
structure Shrinks (server server' : AccessServer Blob) : Prop where
  minted : server'.minted = server.minted
  redemptions : server'.redemptions = server.redemptions
  inviteSeq : server'.db.inviteSeq = server.db.inviteSeq
  invites : ∀ id row, server'.db.invites.lookup id = some row →
    server.db.invites.lookup id = some row
  deviceKeys : ∀ key, server'.db.deviceKeys.lookup key = none ↔
    server.db.deviceKeys.lookup key = none

section Invariants

variable {libraries : AccessLibraries Blob} {start : AccessDb Blob}
variable {server server' : AccessServer Blob}

theorem Ledger.shrink
    (ledger : Ledger libraries server)
    (shrinks : Shrinks server server') :
    Ledger libraries server' where
  ids := by
    rw [shrinks.minted]
    exact ledger.ids
  secrets := by
    rw [shrinks.minted]
    exact ledger.secrets
  numbered := by
    rw [shrinks.minted, shrinks.inviteSeq]
    exact ledger.numbered
  rows := by
    intro id row found
    rw [shrinks.minted]
    exact ledger.rows id row (shrinks.invites id row found)

theorem SingleUse.shrink
    (single : SingleUse start server)
    (shrinks : Shrinks server server') :
    SingleUse start server' where
  ids := by
    rw [shrinks.redemptions]
    exact single.ids
  keys := by
    rw [shrinks.redemptions]
    exact single.keys
  own := by
    rw [shrinks.redemptions, shrinks.minted]
    exact single.own
  used := by
    intro redemption member row found
    rw [shrinks.redemptions] at member
    exact single.used redemption member row (shrinks.invites _ row found)
  stored := by
    intro redemption member
    rw [shrinks.redemptions] at member
    rw [Ne, shrinks.deviceKeys]
    exact single.stored redemption member
  redeemed := by
    intro key present
    rw [Ne, shrinks.deviceKeys] at present
    rw [shrinks.redemptions]
    exact single.redeemed key present
  marked := by
    intro id row found used
    rw [shrinks.redemptions]
    exact single.marked id row (shrinks.invites id row found) used

/-- A minted invite is known by its id. -/
theorem Ledger.eq_of_id
    (ledger : Ledger libraries server)
    {first second : MintedInvite}
    (member : first ∈ server.minted)
    (member' : second ∈ server.minted)
    (same : first.id = second.id) :
    first = second :=
  List.inj_on_of_nodup_map ledger.ids member member' same

/-- A minted invite is known by its secret. -/
theorem Ledger.eq_of_invite
    (ledger : Ledger libraries server)
    {first second : MintedInvite}
    (member : first ∈ server.minted)
    (member' : second ∈ server.minted)
    (same : first.invite = second.invite) :
    first = second :=
  List.inj_on_of_nodup_map ledger.secrets member member' same

/-- An invite that is found by the hash of a secret was minted with a secret of
that hash. -/
theorem Ledger.of_find
    {now : Time}
    {secret vaultId hash : String}
    {id : Int}
    (ledger : Ledger libraries server)
    (found : ((server.db.listInvites now).find? fun candidate =>
      candidate.2.2 = libraries.sha256Hex secret) = some (id, vaultId, hash)) :
    ∃ minted ∈ server.minted, minted.id = id ∧ minted.vaultId = vaultId ∧
      libraries.sha256Hex minted.invite = libraries.sha256Hex secret := by
  have matched : hash = libraries.sha256Hex secret := by
    simpa using List.find?_some found
  have listed := List.mem_of_find?_eq_some found
  rw [AccessDb.listInvites, List.mem_map] at listed
  obtain ⟨⟨number, row⟩, selected, same⟩ := listed
  simp only [Prod.mk.injEq] at same
  obtain ⟨rfl, rfl, rfl⟩ := same
  obtain ⟨minted, member, same, vault, _, hashed⟩ :=
    ledger.rows number row (Table.mem_select_iff.mp selected).1
  exact ⟨minted, member, same, vault, hashed.trans matched⟩

/-! ## Steps -/

variable {request : Nat} {now : Time} {call : AccessDbCall Blob}

/-- A call that failed. -/
theorem shrinks_of_error {error : ServerError} :
    Shrinks server (server.record request now call (.error error) server.db) where
  minted := by
    cases call <;> rfl
  redemptions := by
    refine AccessServer.redemptions_record_of_eq_none ?_
    unfold AccessEntry.redemption
    cases call <;> rfl
  inviteSeq := rfl
  invites := fun _ _ found => found
  deviceKeys := fun _ => Iff.rfl

/-- A call that neither mints nor redeems. -/
theorem shrinks_of_effect
    {reply : call.Reply}
    {db : AccessDb Blob}
    (effect : call.Effect libraries now server.db reply db)
    (minted : ∀ vaultId invite inviterPeerId deviceName,
      call ≠ .insertInvite vaultId invite inviterPeerId deviceName)
    (redeemed : AccessEntry.redemption
      ⟨request, now, call, .ok reply, server.db, db⟩ = none) :
    Shrinks server (server.record request now call (.ok reply) db) where
  minted := AccessServer.mintedBy_eq server.minted minted
  redemptions := AccessServer.redemptions_record_of_eq_none redeemed
  inviteSeq := by
    cases effect with
    | insertInvite => exact absurd rfl (minted _ _ _ _)
    | redeemInvite consumes => rw [AccessServer.record_db, consumes.written]
    | _ => rfl
  invites := by
    cases effect with
    | insertInvite => exact absurd rfl (minted _ _ _ _)
    | redeemInvite => cases redeemed
    | clearInvites =>
        intro id row found
        rw [AccessServer.record_db, AccessDb.clearInvites, Table.lookup_deleteWhere,
          Option.filter_eq_some_iff] at found
        exact found.1
    | _ => exact fun _ _ found => found
  deviceKeys := by
    cases effect with
    | insertInvite => exact absurd rfl (minted _ _ _ _)
    | redeemInvite => cases redeemed
    | @retirePeer retired =>
        intro key
        rw [AccessServer.record_db, AccessDb.lookup_retirePeer]
        split_ifs with same
        · rw [same, Option.map_eq_none_iff]
        · rfl
    | _ => exact fun _ => Iff.rfl

section Insertion

variable {vaultId invite inviterPeerId : String} {deviceName : Option String}
variable {db : AccessDb Blob}

/-- An invite was minted with a secret of its own. -/
theorem Ledger.insertInvite
    (ledger : Ledger libraries server)
    (mints : server.db.Mints now vaultId (libraries.sha256Hex invite) inviterPeerId
      deviceName db)
    (fresh : ∀ minted ∈ server.minted, minted.invite ≠ invite) :
    Ledger libraries (server.record request now
      (.insertInvite vaultId invite inviterPeerId deviceName) (.ok (now + 900)) db) := by
  have minted : (server.record request now
      (.insertInvite vaultId invite inviterPeerId deviceName) (.ok (now + 900)) db).minted =
        server.minted ++ [⟨db.inviteSeq, invite, vaultId, now + 900⟩] := rfl
  constructor
  · rw [minted, List.map_append, List.nodup_append]
    refine ⟨ledger.ids, List.nodup_singleton _, ?_⟩
    rintro id member _ last rfl
    obtain ⟨older, member, same⟩ := List.mem_map.mp member
    have below := ledger.numbered older member
    have newest : id = db.inviteSeq := List.mem_singleton.mp last
    rw [mints.inviteSeq_eq] at newest
    omega
  · rw [minted, List.map_append, List.nodup_append]
    refine ⟨ledger.secrets, List.nodup_singleton _, ?_⟩
    rintro secret member _ last rfl
    obtain ⟨older, member, same⟩ := List.mem_map.mp member
    exact fresh older member (same.trans (List.mem_singleton.mp last))
  · intro invited member
    rw [minted, List.mem_append, List.mem_singleton] at member
    rw [AccessServer.record_db]
    rcases member with older | rfl
    · have below := ledger.numbered invited older
      rw [mints.inviteSeq_eq]
      omega
    · exact Int.le_refl _
  · intro id row found
    rw [AccessServer.record_db, mints.lookup_invites] at found
    rw [minted]
    split_ifs at found with same
    · rw [← Option.some.inj found, same, ← mints.inviteSeq_eq]
      exact ⟨_, List.mem_append_right _ (List.mem_singleton_self _), rfl, rfl, rfl, rfl⟩
    · obtain ⟨older, member, belongs⟩ := ledger.rows id row found
      exact ⟨older, List.mem_append_left _ member, belongs⟩

/-- A new invite is nobody's redemption. -/
theorem SingleUse.insertInvite
    (single : SingleUse start server)
    (ledger : Ledger libraries server)
    (mints : server.db.Mints now vaultId (libraries.sha256Hex invite) inviterPeerId
      deviceName db) :
    SingleUse start (server.record request now
      (.insertInvite vaultId invite inviterPeerId deviceName) (.ok (now + 900)) db) := by
  have same : (server.record request now
      (.insertInvite vaultId invite inviterPeerId deviceName) (.ok (now + 900))
      db).redemptions = server.redemptions :=
    AccessServer.redemptions_record_of_eq_none rfl
  constructor
  · rw [same]
    exact single.ids
  · rw [same]
    exact single.keys
  · intro redemption member
    rw [same] at member
    obtain ⟨minted, older, owned⟩ := single.own redemption member
    exact ⟨minted, List.mem_append_left _ older, owned⟩
  · intro redemption member row found
    rw [same] at member
    rw [AccessServer.record_db, mints.lookup_invites] at found
    split_ifs at found with newest
    · -- the new row has an id above those of all redemptions
      obtain ⟨minted, older, number, _⟩ := single.own redemption member
      have below := ledger.numbered minted older
      omega
    · exact single.used redemption member row found
  · intro redemption member
    rw [same] at member
    rw [AccessServer.record_db, mints.deviceKeys_eq]
    exact single.stored redemption member
  · rw [same, AccessServer.record_db, mints.deviceKeys_eq]
    exact single.redeemed
  · intro id row found used
    rw [same]
    rw [AccessServer.record_db, mints.lookup_invites] at found
    split_ifs at found with newest
    · rw [← Option.some.inj found] at used
      exact absurd rfl used
    · exact single.marked id row found used

end Insertion

section Consumption

variable {id : Int} {key : PeerKey} {keyHash deviceName : String} {row : InviteRow}
variable {db : AccessDb Blob}

/-- A redemption leaves the minted invites as they are. -/
theorem Ledger.redeemInvite
    (ledger : Ledger libraries server)
    (consumes : server.db.Consumes now id key keyHash deviceName row db) :
    Ledger libraries (server.record request now (.redeemInvite id key keyHash deviceName)
      (.ok .consumed) db) := by
  refine ⟨ledger.ids, ledger.secrets, ?_, ?_⟩
  · rw [AccessServer.record_db, consumes.inviteSeq_eq]
    exact ledger.numbered
  · intro other row' found
    rw [AccessServer.record_db, consumes.lookup_invites] at found
    split_ifs at found with same
    · rw [← Option.some.inj found, same]
      exact ledger.rows id row consumes.found
    · exact ledger.rows other row' found

/-- An unused invite is redeemed for a key that was not there. -/
theorem SingleUse.redeemInvite
    (single : SingleUse start server)
    (ledger : Ledger libraries server)
    (consumes : server.db.Consumes now id key keyHash deviceName row db)
    (own : ∃ minted ∈ server.minted, minted.id = id ∧ minted.vaultId = key.vault) :
    SingleUse start (server.record request now (.redeemInvite id key keyHash deviceName)
      (.ok .consumed) db) := by
  have redemptions : (server.record request now
      (.redeemInvite id key keyHash deviceName) (.ok .consumed) db).redemptions =
        server.redemptions ++ [⟨request, now, id, key⟩] :=
    AccessServer.redemptions_record
  have newId : ∀ redemption ∈ server.redemptions, redemption.id ≠ id := by
    rintro redemption member rfl
    exact single.used redemption member row consumes.found consumes.unused
  have newKey : ∀ redemption ∈ server.redemptions, redemption.key ≠ key := by
    rintro redemption member rfl
    exact single.stored redemption member consumes.fresh
  constructor
  · rw [redemptions, List.map_append, List.nodup_append]
    refine ⟨single.ids, List.nodup_singleton _, ?_⟩
    rintro _ member _ last rfl
    obtain ⟨redemption, member, same⟩ := List.mem_map.mp member
    exact newId redemption member (same.trans (List.mem_singleton.mp last))
  · rw [redemptions, List.map_append, List.nodup_append]
    refine ⟨single.keys, List.nodup_singleton _, ?_⟩
    rintro _ member _ last rfl
    obtain ⟨redemption, member, same⟩ := List.mem_map.mp member
    exact newKey redemption member (same.trans (List.mem_singleton.mp last))
  · intro redemption member
    rw [redemptions, List.mem_append, List.mem_singleton] at member
    rcases member with older | rfl
    · exact single.own redemption older
    · obtain ⟨minted, member, rfl, vault⟩ := own
      obtain ⟨minted', member', same, _, expires, _⟩ :=
        ledger.rows minted.id row consumes.found
      obtain rfl := ledger.eq_of_id member' member same
      exact ⟨minted', member, rfl, vault, expires ▸ consumes.intime⟩
  · intro redemption member row' found
    rw [AccessServer.record_db, consumes.lookup_invites] at found
    split_ifs at found with same
    · rw [← Option.some.inj found]
      exact Option.some_ne_none now
    · rw [redemptions, List.mem_append, List.mem_singleton] at member
      rcases member with older | rfl
      · exact single.used redemption older row' found
      · exact absurd rfl same
  · intro redemption member
    rw [AccessServer.record_db, consumes.lookup_deviceKeys]
    split_ifs with same
    · exact Option.some_ne_none _
    · rw [redemptions, List.mem_append, List.mem_singleton] at member
      rcases member with older | rfl
      · exact single.stored redemption older
      · exact absurd rfl same
  · intro other present
    rw [redemptions, List.map_append, List.mem_append]
    rw [AccessServer.record_db, consumes.lookup_deviceKeys] at present
    split_ifs at present with same
    · exact Or.inr (Or.inr (by simp [same]))
    · exact (single.redeemed other present).imp_right Or.inl
  · intro other row' found used
    rw [redemptions, List.map_append, List.mem_append]
    rw [AccessServer.record_db, consumes.lookup_invites] at found
    split_ifs at found with same
    · exact Or.inr (Or.inr (by simp [same]))
    · exact (single.marked other row' found used).imp_right Or.inl

end Consumption

end Invariants

end VaultCrdtServer
