import VaultCrdtServer.Access.Footprint
import VaultCrdtServer.Access.Reference
import VaultCrdtServer.Access.Secrets
import VaultCrdtServer.Db.Effects

/-!
# Which devices can be retired

Retirement looks a peer up by its name, so it is for devices that have connected
under one.  Vaults and peers are never empty where they are stored, hence every
row of `peers` with a name can be given in the parameters of a request.  A
device key alone is not enough: without a row of `peers` every request is
refused, and the key stays as it is.
-/

namespace VaultCrdtServer

open Interleaving

variable {Blob : Type}

/-! ## Retirement alone -/

/-- A call while no other request is served, which does not fail of itself. -/
def AccessCall.alone (libraries : AccessLibraries Blob) (now : Time) :
    (call : AccessCall Blob) → AccessDb Blob →
      (accessSignature Blob).Reply call × AccessDb Blob
  | .db call, tables => call.perform libraries now none tables
  | .hashSecret plaintext, tables => (VaultCrdtServer.hashSecret libraries "" plaintext, tables)
  | .randomSecret .., tables => ("", tables)
  | .jwtSign vaultId, tables => (.ok ⟨vaultId, now + jwtExpirySecs⟩, tables)

/-- `retire_peer_handler` while no other request is served. -/
def retireAlone
    (settings : AccessSettings Blob)
    (now : Time)
    (peerId : String)
    (query : RetirePeerQuery)
    (bearer : Option String)
    (db : AccessDb Blob) : Except ServerError AccessResponse × AccessDb Blob :=
  (retirePeerHandler settings.adminToken peerId query bearer).run.run
    (AccessCall.alone settings.toAccessLibraries now) db

/-- Status code of what `retire_peer_handler` returns. -/
def retirementStatus : Except ServerError AccessResponse → Nat
  | .ok response => response.status
  | .error error => error.status

/-- Status code of a request for a peer that is not stored: 401 without the admin's
token, 400 without a parameter, and else 404. -/
def refusalStatus
    (adminToken : String)
    (query : RetirePeerQuery)
    (bearer : Option String) : Nat :=
  if bearer ≠ some adminToken then 401
  else if nonEmpty query.vaultId = none ∨ nonEmpty query.deviceName = none then 400
  else 404

/-- Some request of the admin is answered with 200, and leaves neither a peer nor
a valid key. -/
def AccessDb.Retirable
    (settings : AccessSettings Blob)
    (now : Time)
    (key : PeerKey)
    (db : AccessDb Blob) : Prop :=
  key.peer ≠ "" ∧ ∃ query response db',
    retireAlone settings now key.peer query (some settings.adminToken) db =
        (.ok response, db') ∧
      response.status = 200 ∧ db'.peers.lookup key = none ∧
      ∀ row, db'.deviceKeys.lookup key = some row → row.revokedAt ≠ none

section Alone

variable {settings : AccessSettings Blob} {now : Time} {key : PeerKey} {db : AccessDb Blob}

/-- A call that takes effect, and the rest of the handler. -/
theorem alone_db
    {α : Type}
    {call : AccessDbCall Blob}
    {reply : call.Reply}
    {db' : AccessDb Blob}
    {continuation : call.Reply → AccessHandler Blob α}
    (executed : call.exec settings.toAccessLibraries now db = .ok (reply, db')) :
    (AccessHandler.db call >>= continuation).run.run
        (AccessCall.alone settings.toAccessLibraries now) db =
      (continuation reply).run.run (AccessCall.alone settings.toAccessLibraries now) db' := by
  have performed : (AccessHandler.db call).run.run
      (AccessCall.alone settings.toAccessLibraries now) db = (.ok reply, db') := by
    change call.perform settings.toAccessLibraries now none db = (.ok reply, db')
    simp only [AccessDbCall.perform, executed]
  rw [Program.run_bind_fallible, Program.run_bind, performed]

theorem nonEmpty_eq_some {value : String} (given : value ≠ "") :
    nonEmpty (some value) = some value := by
  have full : value.isEmpty = false := by simpa using given
  simp [nonEmpty, full]

/-- A confirmed retirement, as a whole. -/
theorem retireConfirmed_alone (deviceName : String) :
    (retireConfirmed key deviceName : AccessHandler Blob AccessResponse).run.run
        (AccessCall.alone settings.toAccessLibraries now) db =
      match db.peers.lookup key with
      | none => (.ok (.error 404 "no such peer in this vault"), db)
      | some row =>
          if row.deviceName ≠ deviceName then
            (.ok (.nameMismatch
              "device_name does not match the stored peer; repeat with the exact stored name to confirm"
              key.peer row.deviceName row.lastSeenAt), db)
          else
            (.ok (.retired key.peer row.deviceName row.lastSeenAt
              (db.countPeerBlockedTombstones key.vault row.lastSeenAt)),
              db.retirePeer now key) := by
  have found : (AccessDbCall.getPeer key).exec settings.toAccessLibraries now db =
      .ok (db.peers.lookup key, db) := rfl
  unfold retireConfirmed
  rw [alone_db found]
  cases db.peers.lookup key with
  | none => rfl
  | some row =>
      dsimp only
      split
      · rfl
      · rw [alone_db rfl, alone_db rfl]
        rfl

/-- The admin's own token is accepted. -/
theorem admin_accepted :
    (some settings.adminToken).any
      (fun token => constantTimeEq token settings.adminToken) = true :=
  constantTimeEq_iff.mpr rfl

/-- A peer with a name can be retired under it. -/
theorem retirable_of_named
    {row : PeerRow}
    (vault : key.vault ≠ "")
    (peer : key.peer ≠ "")
    (present : db.peers.lookup key = some row)
    (named : row.deviceName ≠ "") :
    db.Retirable settings now key := by
  refine ⟨peer, ⟨some key.vault, some row.deviceName⟩,
    .retired key.peer row.deviceName row.lastSeenAt
      (db.countPeerBlockedTombstones key.vault row.lastSeenAt),
    db.retirePeer now key, ?_, rfl, ?_, ?_⟩
  · unfold retireAlone retirePeerHandler
    rw [if_pos admin_accepted]
    dsimp only
    rw [nonEmpty_eq_some vault]
    dsimp only
    rw [nonEmpty_eq_some named]
    dsimp only
    rw [retireConfirmed_alone, present]
    exact if_neg fun different => different rfl
  · exact AList.lookup_erase key db.peers
  · intro row found
    rw [AccessDb.lookup_retirePeer, if_pos rfl, Option.map_eq_some_iff] at found
    obtain ⟨_, _, rfl⟩ := found
    exact Option.some_ne_none now

/-- Only the admin's own token is accepted. -/
theorem admin_accepted_iff {adminToken : String} {bearer : Option String} :
    (bearer.any fun token => constantTimeEq token adminToken) = true ↔
      bearer = some adminToken := by
  cases bearer with
  | none => simp
  | some token =>
      rw [Option.any_some, constantTimeEq_iff, Option.some.injEq]

/-- Without a row of `peers` a request is refused, and nothing changes. -/
theorem retireAlone_of_none
    {peerId : String}
    {query : RetirePeerQuery}
    (absent : ∀ vaultId, nonEmpty query.vaultId = some vaultId →
      db.peers.lookup ⟨vaultId, peerId⟩ = none)
    (bearer : Option String) :
    ∃ result, retireAlone settings now peerId query bearer db = (result, db) ∧
      retirementStatus result = refusalStatus settings.adminToken query bearer := by
  unfold retireAlone retirePeerHandler refusalStatus
  by_cases accepted : bearer = some settings.adminToken
  · rw [if_pos (admin_accepted_iff.mpr accepted), if_neg (not_not_intro accepted)]
    cases vault : nonEmpty query.vaultId with
    | none => exact ⟨_, rfl, rfl⟩
    | some vaultId =>
        cases name : nonEmpty query.deviceName with
        | none => exact ⟨_, rfl, rfl⟩
        | some deviceName =>
            dsimp only
            rw [retireConfirmed_alone, absent vaultId vault]
            exact ⟨_, rfl, rfl⟩
  · rw [if_neg (mt admin_accepted_iff.mp accepted), if_pos accepted]
    exact ⟨_, rfl, rfl⟩

/-- A request that is refused is not answered with 200. -/
theorem refusalStatus_ne_ok
    (adminToken : String)
    (query : RetirePeerQuery)
    (bearer : Option String) :
    refusalStatus adminToken query bearer ≠ 200 := by
  unfold refusalStatus
  split_ifs
  · decide
  · decide
  · decide

/-- A request changes the key of the peer it names and no other. -/
theorem retireAlone_elsewhere
    {peerId : String}
    {query : RetirePeerQuery}
    (other : ∀ vaultId, query.vaultId = some vaultId → key ≠ ⟨vaultId, peerId⟩)
    (bearer : Option String) :
    (retireAlone settings now peerId query bearer db).2.deviceKeys.lookup key =
      db.deviceKeys.lookup key := by
  unfold retireAlone retirePeerHandler
  split
  · split
    · rfl
    · rename_i vaultId given
      rw [nonEmpty, Option.filter_eq_some_iff] at given
      split
      · rfl
      · rw [retireConfirmed_alone]
        split
        · rfl
        · split
          · rfl
          · rw [AccessDb.lookup_retirePeer, if_neg (other vaultId given.1)]
  · rfl

end Alone

/-! ## What can be named -/

/-- Vaults and peers that are stored are not empty. -/
structure Nameable (server : AccessServer Blob) : Prop where
  peers : ∀ key row, server.db.peers.lookup key = some row → key.vault ≠ "" ∧ key.peer ≠ ""
  deviceKeys : ∀ key row, server.db.deviceKeys.lookup key = some row → key.vault ≠ ""
  invites : ∀ id row, server.db.invites.lookup id = some row → row.vaultId ≠ ""
  issued : ∀ vaultId ∈ server.issued, vaultId ≠ ""

/-- The call names a vault, and a peer. -/
def AccessCall.Names : AccessCall Blob → Prop
  | .db (.upsertPeer key _) => key.vault ≠ "" ∧ key.peer ≠ ""
  | .jwtSign vaultId => vaultId ≠ ""
  | _ => True

/-- What requests promise of the names they store. -/
def nameTerms (settings : AccessSettings Blob) : (accessService settings).Terms where
  rely := fun _ _ _ => True
  pre := fun _ _ call _ => call.Names
  post := fun _ _ _ _ => True
  fresh := fun _ _ => True
  invariant := Nameable
  rely_refl := fun _ _ => trivial
  rely_trans := fun _ _ => trivial

section Names

variable {settings : AccessSettings Blob} {request : Nat} {server server' : AccessServer Blob}

/-- Every call keeps the names. -/
theorem names_step
    {call : AccessCall Blob}
    {choice : AccessChoice}
    {reply : (accessSignature Blob).Reply call}
    (nameable : Nameable server)
    (names : call.Names)
    (executed : AccessServer.exec settings.toAccessLibraries request call choice server =
      some (reply, server')) :
    Nameable server' := by
  cases call with
  | db call =>
      obtain ⟨db, rfl, ⟨error, rfl, rfl⟩ | ⟨value, rfl, effect⟩⟩ := AccessServer.exec_db executed
      · exact ⟨nameable.peers, nameable.deviceKeys, nameable.invites, nameable.issued⟩
      · cases effect with
        | insertInvite mints =>
            refine ⟨?_, ?_, ?_, nameable.issued⟩
            · rw [AccessServer.record_db, mints.written]
              exact nameable.peers
            · rw [AccessServer.record_db, mints.deviceKeys_eq]
              exact nameable.deviceKeys
            · intro id row found
              rw [AccessServer.record_db, mints.lookup_invites] at found
              split_ifs at found with newest
              · rw [← Option.some.inj found]
                exact ne_empty_of_sqlLength_pos mints.columns.1
              · exact nameable.invites id row found
        | @redeemInvite id key keyHash deviceName row _ consumes =>
            refine ⟨?_, ?_, ?_, nameable.issued⟩
            · rw [AccessServer.record_db, consumes.written]
              exact nameable.peers
            · intro other row' found
              rw [AccessServer.record_db, consumes.lookup_deviceKeys] at found
              split_ifs at found with same
              · rw [same]
                exact ne_empty_of_sqlLength_pos consumes.columns.1
              · exact nameable.deviceKeys other row' found
            · intro other row' found
              rw [AccessServer.record_db, consumes.lookup_invites] at found
              split_ifs at found with same
              · rw [← Option.some.inj found]
                exact nameable.invites id row consumes.found
              · exact nameable.invites other row' found
        | clearInvites =>
            refine ⟨nameable.peers, nameable.deviceKeys, ?_, nameable.issued⟩
            intro id row found
            rw [AccessServer.record_db, AccessDb.clearInvites, Table.lookup_deleteWhere,
              Option.filter_eq_some_iff] at found
            exact nameable.invites id row found.1
        | @retirePeer key =>
            refine ⟨?_, ?_, nameable.invites, nameable.issued⟩
            · intro other row found
              change (server.db.peers.erase key).lookup other = some row at found
              rw [Table.lookup_erase_eq_ite] at found
              split_ifs at found with same
              exact nameable.peers other row found
            · intro other row found
              rw [AccessServer.record_db, AccessDb.lookup_retirePeer] at found
              split_ifs at found with same
              · rw [Option.map_eq_some_iff] at found
                obtain ⟨row', found, _⟩ := found
                rw [same]
                exact nameable.deviceKeys key row' found
              · exact nameable.deviceKeys other row found
        | @upsertPeer key deviceName =>
            refine ⟨?_, nameable.deviceKeys, nameable.invites, nameable.issued⟩
            intro other row found
            change (server.db.peers.insert key _).lookup other = some row at found
            rw [Table.lookup_insert_eq_ite] at found
            split_ifs at found with same
            · rw [same]
              exact names
            · exact nameable.peers other row found
        | _ => exact ⟨nameable.peers, nameable.deviceKeys, nameable.invites, nameable.issued⟩
  | hashSecret plaintext =>
      simp only [AccessServer.exec] at executed
      split at executed <;>
        rw [← (Prod.mk.inj (Option.some.inj executed)).2] <;> exact nameable
  | randomSecret length alphabet =>
      simp only [AccessServer.exec, Option.ite_none_right_eq_some] at executed
      rw [← (Prod.mk.inj (Option.some.inj executed.2)).2]
      exact ⟨nameable.peers, nameable.deviceKeys, nameable.invites, nameable.issued⟩
  | jwtSign vaultId =>
      simp only [AccessServer.exec] at executed
      split at executed
      · rw [← (Prod.mk.inj (Option.some.inj executed)).2]
        exact nameable
      · rw [← (Prod.mk.inj (Option.some.inj executed)).2]
        refine ⟨nameable.peers, nameable.deviceKeys, nameable.invites, ?_⟩
        intro other member
        rcases List.mem_cons.mp member with rfl | older
        · exact names
        · exact nameable.issued other older

/-- The document lane inserts no peer. -/
theorem names_environment
    {event : LaneEvent Blob}
    (nameable : Nameable server)
    (happened : AccessServer.environment settings.toAccessLibraries event server =
      some server') :
    Nameable server' := by
  obtain ⟨reply, db, executed, rfl, other⟩ := AccessServer.environment_eq_some happened
  refine ⟨?_, nameable.deviceKeys, nameable.invites, nameable.issued⟩
  intro key row found
  rcases peers_of_effect (DbCall.effect_of_exec executed) found with before | ⟨_, name, same⟩
  · exact nameable.peers key row before
  · exact absurd same (other key name)

theorem validVaultId_ne_empty {vaultId : String} (valid : validVaultId vaultId = true) :
    vaultId ≠ "" := by
  rintro rfl
  revert valid
  decide

theorem stable_always : Stable (nameTerms settings) request fun _ => True :=
  fun _ _ _ _ => trivial

/-- A redemption signs for the vault of an invite. -/
theorem redeem_names (body : RedeemRequest) :
    (redeem settings.toAccessLibraries body).run.Meets
      ((nameTerms settings).contract request (.redeem body)) (fun _ _ => True) server := by
  unfold redeem
  split
  · exact fun _ _ => trivial
  · split
    · exact fun _ _ => trivial
    · split
      · exact fun _ _ => trivial
      · refine access_meets_db stable_always trivial (fun _ _ => trivial)
          (fun _ _ _ _ _ _ _ => trivial) ?_
        intro listed now candidates db _ nameable effect
        cases effect
        split
        · exact fun _ _ => trivial
        · rename_i id vaultId hash found
          have named : vaultId ≠ "" := by
            have member := List.mem_of_find?_eq_some found
            rw [AccessDb.listInvites, List.mem_map] at member
            obtain ⟨⟨number, row⟩, selected, same⟩ := member
            simp only [Prod.mk.injEq] at same
            rw [← same.2.1]
            exact nameable.invites number row (Table.mem_select_iff.mp selected).1
          refine access_meets_random stable_always trivial (fun _ _ => trivial) ?_
          intro _ deviceKey _ _ _
          refine access_meets_hash stable_always trivial (fun _ _ => trivial)
            (fun _ _ _ => trivial) ?_
          intro _ salt stored _ _
          refine access_meets_sign stable_always trivial (fun _ _ => named)
            (fun _ _ _ => trivial) ?_
          intro _ token _ _
          refine access_meets_db stable_always trivial (fun _ _ => trivial)
            (fun _ _ _ _ _ _ _ => trivial) ?_
          intro _ _ outcome _ _ _ _
          cases outcome <;> exact fun _ _ => trivial

/-- An authentication signs for the vault of a key. -/
theorem deviceAuth_names (body : DeviceRequest) :
    (deviceAuth settings.toAccessLibraries body).run.Meets
      ((nameTerms settings).contract request (.deviceAuth body)) (fun _ _ => True) server := by
  unfold deviceAuth
  split
  · exact fun _ _ => trivial
  · refine access_meets_db stable_always trivial (fun _ _ => trivial)
      (fun _ _ _ _ _ _ _ => trivial) ?_
    intro reading now hash db _ nameable effect
    cases effect
    split
    · rename_i verified
      have named : body.vaultId ≠ "" := by
        rw [AccessDb.keyHash, Option.any_map, Option.any_eq_true] at verified
        obtain ⟨row, valid, _⟩ := verified
        rw [Option.filter_eq_some_iff] at valid
        exact nameable.deviceKeys _ row valid.1
      refine access_meets_db stable_always trivial (fun _ _ => trivial)
        (fun _ _ _ _ _ _ _ => trivial) ?_
      intro _ _ unrevoked _ _ _ _
      cases unrevoked with
      | false => exact fun _ _ => trivial
      | true =>
          refine access_meets_sign stable_always trivial (fun _ _ => named)
            (fun _ _ _ => trivial) ?_
          exact fun _ _ _ _ _ _ => trivial
    · exact fun _ _ => trivial

/-- The terms fit together. -/
theorem nameTerms_sound : (nameTerms settings).Sound where
  step := fun nameable names executed =>
    ⟨names_step nameable names executed, fun _ _ => trivial⟩
  environment := names_environment
  environment_rely := fun _ => trivial
  program := by
    intro request task server nameable _ accepted
    have others : (∀ call, task.Makes settings call → call.Names) →
        (accessProgram settings task).Meets ((nameTerms settings).contract request task)
          (fun _ _ => True) server := by
      intro permitted
      refine (accessProgram_makes task).meets (fun _ => True) (fun _ _ _ _ => trivial) ?_
        (fun _ _ _ _ _ _ _ => trivial) trivial
      exact fun call state makes _ => permitted call makes
    cases task with
    | redeem body =>
        exact Program.Meets.bind _ (redeem_names body) fun _ _ _ _ _ => trivial
    | deviceAuth body =>
        exact Program.Meets.bind _ (deviceAuth_names body) fun _ _ _ _ _ => trivial
    | authVerify body =>
        refine others ?_
        intro call makes
        unfold AccessCall.Names
        split
        · cases makes
        · cases body with
          | error status => cases makes
          | ok body => exact validVaultId_ne_empty makes.2
        · trivial
    | connect vaultId device peerId =>
        have named : vaultId ≠ "" :=
          nameable.issued vaultId (List.contains_iff_mem.mp accepted)
        refine others ?_
        intro call makes
        unfold AccessCall.Names
        split
        · obtain ⟨rfl, peer⟩ := makes
          exact ⟨named, peer⟩
        · cases makes
        · trivial
    | _ =>
        refine others ?_
        intro call makes
        unfold AccessCall.Names
        split
        · cases makes
        · cases makes
        · trivial
  post_stable := fun _ _ => trivial
  fresh_stable := fun _ _ => trivial

/-- Every device can be retired: every peer, and every valid key. -/
def EveryDeviceRetirable
    (settings : AccessSettings Blob)
    (config : (accessService settings).machine.Config) : Prop :=
  ∀ now key,
    (∀ row, config.shared.shared.db.peers.lookup key = some row →
      config.shared.shared.db.Retirable settings now key) ∧
    ∀ row, config.shared.shared.db.deviceKeys.lookup key = some row → row.revokedAt = none →
      config.shared.shared.db.Retirable settings now key

/-- A peer with a name can be retired.  A key without a peer is refused, and no
request changes it. -/
structure PeersRetirable
    (settings : AccessSettings Blob)
    (config : (accessService settings).machine.Config) : Prop where
  named : ∀ now key row, config.shared.shared.db.peers.lookup key = some row →
    row.deviceName ≠ "" → config.shared.shared.db.Retirable settings now key
  refused : ∀ now key, config.shared.shared.db.peers.lookup key = none →
    ∀ query bearer, (∀ vaultId, nonEmpty query.vaultId = some vaultId → vaultId = key.vault) →
      ∃ result, retireAlone settings now key.peer query bearer config.shared.shared.db =
          (result, config.shared.shared.db) ∧
        retirementStatus result = refusalStatus settings.adminToken query bearer
  kept : ∀ now key, config.shared.shared.db.peers.lookup key = none →
    ∀ query bearer,
      (retireAlone settings now key.peer query bearer
          config.shared.shared.db).2.deviceKeys.lookup key =
        config.shared.shared.db.deviceKeys.lookup key

/-- Whatever the requests and the order of their calls, a peer with a name can be
retired, and a key without a peer stays as it is. -/
theorem peers_can_be_retired
    {db : AccessDb Blob}
    {minted : List MintedInvite}
    {issued : List String}
    {config : (accessService settings).machine.Config}
    (nameable : Nameable (.started db minted issued))
    (reachable : (accessService settings).Reachable (.started db minted issued) config) :
    PeersRetirable settings config := by
  obtain ⟨labels, runs⟩ := reachable
  have initial : (nameTerms settings).discipline.Holds
      ((accessService settings).initial (.started db minted issued)) :=
    Service.Terms.holds_initial nameable fun _ => trivial
  have orderly : (nameTerms settings).Orderly config :=
    (nameTerms_sound.run initial runs).invariant
  have names : Nameable config.shared.shared := orderly.shared
  have refused : ∀ now key, config.shared.shared.db.peers.lookup key = none →
      ∀ query bearer,
        (∀ vaultId, nonEmpty query.vaultId = some vaultId → vaultId = key.vault) →
          ∃ result, retireAlone settings now key.peer query bearer config.shared.shared.db =
              (result, config.shared.shared.db) ∧
            retirementStatus result = refusalStatus settings.adminToken query bearer := by
    intro now key absent query bearer own
    refine retireAlone_of_none ?_ bearer
    intro vaultId given
    rw [own vaultId given]
    exact absent
  refine ⟨?_, refused, ?_⟩
  · intro now key row present named
    obtain ⟨vault, peer⟩ := names.peers key row present
    exact retirable_of_named vault peer present named
  · intro now key absent query bearer
    by_cases same : query.vaultId = some key.vault
    · have own : ∀ vaultId, nonEmpty query.vaultId = some vaultId → vaultId = key.vault := by
        intro vaultId given
        rw [nonEmpty, Option.filter_eq_some_iff, same, Option.some.injEq] at given
        exact given.1.symm
      obtain ⟨result, unchanged, _⟩ := refused now key absent query bearer own
      rw [unchanged]
    · refine retireAlone_elsewhere ?_ bearer
      intro vaultId given named
      have vault : key.vault = vaultId := congrArg PeerKey.vault named
      exact same (by rw [given, vault])

open AccessSchedule in
/-- The operator mints an invite, and a device redeems it. -/
def onboarding : AccessSchedule :=
  serves 0 (.inviteMint "old" none false) 0 "abcdefghijklmnopqrstuv" 4 ++
    serves 1 (.redeem ⟨"abcdefghijklmnopqrstuv", "phone", "My phone"⟩) 10
      "ABCDEFGHIJKLMNOPQRSTUVWXYZabcdef" 5

theorem onboarding_enabled : onboarding.EnabledFrom .legacy := by
  decide +kernel

theorem onboarding_peers :
    (onboarding.config onboarding_enabled).shared.shared.db.peers = ∅ := by
  have none : (onboarding.config onboarding_enabled).shared.shared.db.peers.entries.isEmpty =
      true := by decide +kernel
  exact AList.ext (List.isEmpty_iff.mp none)

theorem onboarding_key :
    (onboarding.config onboarding_enabled).shared.shared.db.deviceKeys.lookup ⟨"old", "phone"⟩ =
      some ⟨"$argon2id$ABCDEFGHIJKLMNOPQRSTUVWXYZabcdef", some "My phone", 10, none⟩ := by
  decide +kernel

/-- A device that was onboarded and has never connected cannot be retired. -/
theorem onboarded_device_not_retirable :
    ¬ ∀ config, (accessService AccessSettings.reference).Reachable
        (.started .legacy [] []) config →
      EveryDeviceRetirable AccessSettings.reference config := by
  intro every
  have retirable := every _ (AccessSchedule.reachable onboarding_enabled) 0 ⟨"old", "phone"⟩
  obtain ⟨_, query, response, _, answered, ok, _⟩ := retirable.2 _ onboarding_key rfl
  have absent : ∀ vaultId, nonEmpty query.vaultId = some vaultId →
      (onboarding.config onboarding_enabled).shared.shared.db.peers.lookup
        ⟨vaultId, "phone"⟩ = none := by
    intro vaultId _
    rw [onboarding_peers]
    rfl
  obtain ⟨result, same, refused⟩ := retireAlone_of_none absent
    (some AccessSettings.reference.adminToken)
  rw [same] at answered
  rw [(Prod.mk.inj answered).1, retirementStatus, ok] at refused
  exact refusalStatus_ne_ok _ _ _ refused.symm

open AccessSchedule in
/-- The device connects under its name. -/
def connection : AccessSchedule :=
  onboarding ++ serves 2 (.connect "old" (some "My phone") (some "phone")) 20 "" 1

theorem connection_enabled : connection.EnabledFrom .legacy := by
  decide +kernel

theorem AccessServer.legacy_nameable : Nameable (.started .legacy [] []) where
  peers := fun _ _ found => nomatch found
  deviceKeys := fun _ _ found => nomatch found
  invites := fun _ _ found => nomatch found
  issued := fun _ member => nomatch member

theorem peers_can_be_retired_connected :
    ((connection.config connection_enabled).shared.shared.db.peers.lookup
        ⟨"old", "phone"⟩).map PeerRow.deviceName = some "My phone" ∧
      PeersRetirable AccessSettings.reference (connection.config connection_enabled) :=
  ⟨by decide +kernel, peers_can_be_retired AccessServer.legacy_nameable
    (AccessSchedule.reachable connection_enabled)⟩

end Names

end VaultCrdtServer
