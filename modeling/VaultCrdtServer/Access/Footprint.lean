import VaultCrdtServer.Access.Contract

/-!
# The calls of the requests

Which requests may create a vault, replace its secret, mint an invite, redeem
one, retire a peer or remember one, and for whom.  All of this can be read off
the programs, whatever their calls reply.
-/

namespace VaultCrdtServer

open Interleaving

namespace AccessTask

variable {Blob : Type} (settings : AccessSettings Blob)

/-- The task may create the vault: a verification that carries the admin token,
or the operator's command. -/
def Creates (vaultId : String) : AccessTask → Prop
  | .authVerify (.ok body) =>
      body.vaultId = vaultId ∧
        constantTimeEq (body.adminToken.getD "") settings.adminToken = true
  | .vaultCreate name _ _ => name = vaultId
  | _ => False

/-- The task may replace the stored secret of the vault. -/
def Upgrades (vaultId : String) : AccessTask → Prop
  | .authVerify (.ok body) => body.vaultId = vaultId
  | _ => False

/-- The task may have a token signed for the vault. -/
def Signs (vaultId : String) : AccessTask → Prop
  | .authVerify (.ok body) => body.vaultId = vaultId ∧ validVaultId vaultId = true
  | .redeem _ | .deviceAuth _ => True
  | _ => False

/-- The task may mint an invite into the vault. -/
def Mints (vaultId inviterPeerId : String) : AccessTask → Prop
  | .createInvite vault body => vault = vaultId ∧ body.peerId = inviterPeerId
  | .inviteMint vault _ _ => vault = vaultId ∧ inviterPeerId = "operator-cli"
  | _ => False

/-- The task may redeem an invite for the key. -/
def Redeems (key : PeerKey) : AccessTask → Prop
  | .redeem body => body.peerId = key.peer ∧ body.peerId ≠ ""
  | _ => False

/-- The task may ask whether the key is revoked. -/
def Rechecks (key : PeerKey) : AccessTask → Prop
  | .deviceAuth body => key = ⟨body.vaultId, body.peerId⟩
  | _ => False

/-- The task may retire the peer. -/
def Retires (key : PeerKey) : AccessTask → Prop
  | .retirePeer peerId query bearer =>
      peerId = key.peer ∧ nonEmpty query.vaultId = some key.vault ∧
        bearer.any (fun token => constantTimeEq token settings.adminToken) = true
  | _ => False

/-- The task may remember the peer. -/
def Connects (key : PeerKey) : AccessTask → Prop
  | .connect vaultId _ peerId => key = ⟨vaultId, peerId.getD ""⟩ ∧ key.peer ≠ ""
  | _ => False

/-- The calls a task may make. -/
def Makes (task : AccessTask) : AccessCall Blob → Prop
  | .db (.insertVault vaultId _) => task.Creates settings vaultId
  | .db (.updateApiKey vaultId _) => task.Upgrades vaultId
  | .db (.insertInvite vaultId _ inviterPeerId _) => task.Mints vaultId inviterPeerId
  | .db (.redeemInvite _ key _ _) => task.Redeems key
  | .db (.ensureNotRevoked key) => task.Rechecks key
  | .db (.retirePeer key) => task.Retires settings key
  | .db (.upsertPeer key _) => task.Connects key
  | .jwtSign vaultId => task.Signs vaultId
  | _ => True

end AccessTask

/-! ## Rules -/

section Rules

variable {Blob α : Type} {permitted : AccessCall Blob → Prop}

@[simp] theorem access_only_pure (value : α) :
    (pure value : AccessHandler Blob α).run.Only permitted ↔ True := Iff.rfl

@[simp] theorem access_only_throw (error : ServerError) :
    (throw error : AccessHandler Blob α).run.Only permitted ↔ True := Iff.rfl

@[simp] theorem access_only_db
    {call : AccessDbCall Blob}
    {continuation : call.Reply → AccessHandler Blob α} :
    (AccessHandler.db call >>= continuation).run.Only permitted ↔
      permitted (.db call) ∧ ∀ reply, (continuation reply).run.Only permitted := by
  constructor
  · exact fun only => ⟨only.1, fun reply => only.2 (.ok reply)⟩
  · rintro ⟨here, continues⟩
    refine ⟨here, ?_⟩
    intro reply
    cases reply with
    | ok value => exact continues value
    | error error => trivial

@[simp] theorem access_only_hash
    {plaintext : String}
    {continuation : String → AccessHandler Blob α} :
    (AccessHandler.hashSecret plaintext >>= continuation).run.Only permitted ↔
      permitted (.hashSecret plaintext) ∧
        ∀ stored, (continuation stored).run.Only permitted := by
  constructor
  · exact fun only => ⟨only.1, fun stored => only.2 (.ok stored)⟩
  · rintro ⟨here, continues⟩
    refine ⟨here, ?_⟩
    intro reply
    cases reply with
    | ok stored => exact continues stored
    | error error => trivial

@[simp] theorem access_only_sign
    {vaultId : String}
    {continuation : Token → AccessHandler Blob α} :
    (AccessHandler.jwtSign vaultId >>= continuation).run.Only permitted ↔
      permitted (.jwtSign vaultId) ∧
        ∀ token, (continuation token).run.Only permitted := by
  constructor
  · exact fun only => ⟨only.1, fun token => only.2 (.ok token)⟩
  · rintro ⟨here, continues⟩
    refine ⟨here, ?_⟩
    intro reply
    cases reply with
    | ok token => exact continues token
    | error error => trivial

@[simp] theorem access_only_random
    {length : Nat}
    {alphabet : String}
    {continuation : String → AccessHandler Blob α} :
    (AccessHandler.randomSecret length alphabet >>= continuation).run.Only permitted ↔
      permitted (.randomSecret length alphabet) ∧
        ∀ secret, (continuation secret).run.Only permitted := Iff.rfl

/-- A call at the end of a handler. -/
theorem access_only_last
    {call : AccessDbCall Blob}
    (here : permitted (.db call)) :
    (AccessHandler.db call).run.Only permitted :=
  ⟨here, fun _ => trivial⟩

end Rules

/-! ## Handlers -/

section Handlers

variable {Blob : Type} {settings : AccessSettings Blob} {task : AccessTask}

theorem verifyVault_makes
    {vaultId apiKey : String}
    (upgrades : task.Upgrades vaultId) :
    (verifyVault settings.toAccessLibraries vaultId apiKey).run.Only
      (task.Makes settings) := by
  unfold verifyVault
  refine access_only_db.mpr ⟨trivial, ?_⟩
  intro stored
  cases stored with
  | none => trivial
  | some stored =>
      dsimp only
      split
      · split
        · trivial
        · refine access_only_hash.mpr ⟨trivial, ?_⟩
          intro hashed
          exact access_only_db.mpr ⟨upgrades, fun _ => trivial⟩
      · trivial

theorem createVault_makes
    {vaultId apiKey : String}
    (creates : task.Creates settings vaultId) :
    (createVault vaultId apiKey : AccessHandler Blob Bool).run.Only
      (task.Makes settings) := by
  unfold createVault
  refine access_only_hash.mpr ⟨trivial, ?_⟩
  intro hashed
  exact access_only_last creates

theorem authVerifyBody_makes (body : Except Nat AuthRequest) :
    (authVerifyBody settings.toAccessLibraries settings.adminToken body).run.Only
      ((AccessTask.authVerify body).Makes settings) := by
  unfold authVerifyBody
  cases body with
  | error status => trivial
  | ok body =>
      dsimp only
      split
      · rename_i valid
        refine access_only_db.mpr ⟨trivial, ?_⟩
        intro present
        refine Program.Only.bind_fallible ?_ ?_
        · split
          · exact verifyVault_makes rfl
          · split
            next admin =>
              refine Program.Only.bind_fallible (createVault_makes ⟨rfl, admin⟩) ?_
              intro created
              cases created with
              | true => trivial
              | false => exact verifyVault_makes rfl
            next => trivial
        · intro verified
          cases verified with
          | true => exact access_only_sign.mpr ⟨⟨rfl, valid⟩, fun _ => trivial⟩
          | false => trivial
      · trivial

theorem mintInvite_makes
    {vaultId inviterPeerId : String}
    (mints : task.Mints vaultId inviterPeerId)
    (deviceName : Option String) :
    (mintInvite vaultId inviterPeerId deviceName : AccessHandler Blob (String × Time)).run.Only
      (task.Makes settings) := by
  unfold mintInvite
  refine access_only_random.mpr ⟨trivial, ?_⟩
  intro invite
  refine access_only_db.mpr ⟨trivial, fun _ => ?_⟩
  exact access_only_db.mpr ⟨mints, fun _ => trivial⟩

theorem createInvite_makes (vaultId : String) (body : InviteRequest) :
    (createInvite vaultId body : AccessHandler Blob AccessResponse).run.Only
      ((AccessTask.createInvite vaultId body).Makes settings) := by
  unfold createInvite
  split
  · trivial
  · split
    · trivial
    · have mints : (AccessTask.createInvite vaultId body).Mints vaultId body.peerId :=
        ⟨rfl, rfl⟩
      refine Program.Only.bind_fallible (mintInvite_makes mints body.deviceName) ?_
      intro minted
      trivial

theorem redeem_makes (body : RedeemRequest) :
    (redeem settings.toAccessLibraries body).run.Only
      ((AccessTask.redeem body).Makes settings) := by
  unfold redeem
  split
  · trivial
  · split
    · trivial
    next nonempty =>
      split
      · trivial
      · refine access_only_db.mpr ⟨trivial, ?_⟩
        intro candidates
        split
        · trivial
        · refine access_only_random.mpr ⟨trivial, fun deviceKey => ?_⟩
          refine access_only_hash.mpr ⟨trivial, fun hash => ?_⟩
          refine access_only_sign.mpr ⟨trivial, fun token => ?_⟩
          refine access_only_db.mpr ⟨⟨rfl, ?_⟩, ?_⟩
          · rintro empty
            exact nonempty (by simp [empty])
          · intro outcome
            cases outcome <;> trivial

theorem deviceAuth_makes (body : DeviceRequest) :
    (deviceAuth settings.toAccessLibraries body).run.Only
      ((AccessTask.deviceAuth body).Makes settings) := by
  unfold deviceAuth
  split
  · trivial
  · refine access_only_db.mpr ⟨trivial, fun hash => ?_⟩
    split
    · refine access_only_db.mpr ⟨rfl, fun unrevoked => ?_⟩
      cases unrevoked with
      | true => exact access_only_sign.mpr ⟨trivial, fun _ => trivial⟩
      | false => trivial
    · trivial

theorem retirePeerHandler_makes
    (peerId : String)
    (query : RetirePeerQuery)
    (bearer : Option String) :
    (retirePeerHandler settings.adminToken peerId query bearer :
      AccessHandler Blob AccessResponse).run.Only
      ((AccessTask.retirePeer peerId query bearer).Makes settings) := by
  unfold retirePeerHandler
  split
  next admin =>
    split
    · trivial
    next vaultId named =>
      split
      · trivial
      · unfold retireConfirmed
        refine access_only_db.mpr ⟨trivial, fun peer => ?_⟩
        cases peer with
        | none => trivial
        | some peer =>
            dsimp only
            split
            · trivial
            · refine access_only_db.mpr ⟨trivial, fun freed => ?_⟩
              exact access_only_db.mpr ⟨⟨rfl, named, admin⟩, fun _ => trivial⟩
  next => trivial

theorem vaultCreate_makes
    (name : String)
    (serverUrl : Option String)
    (json : Bool) :
    (vaultCreate name serverUrl json : Program (accessSignature Blob) AccessOutcome).Only
      ((AccessTask.vaultCreate name serverUrl json).Makes settings) := by
  have creates : (AccessTask.vaultCreate name serverUrl json).Creates settings name := rfl
  unfold vaultCreate
  split
  · refine ⟨trivial, ?_⟩
    rintro (error | _ | _)
    · trivial
    · refine ⟨trivial, fun secret => ?_⟩
      change ((createVault name secret).run.bind _).Only _
      refine Program.Only.bind (createVault_makes creates) ?_
      rintro (error | _ | _) <;> trivial
    · trivial
  · trivial

theorem inviteMint_makes
    (vaultId : String)
    (serverUrl : Option String)
    (json : Bool) :
    (inviteMint vaultId serverUrl json : Program (accessSignature Blob) AccessOutcome).Only
      ((AccessTask.inviteMint vaultId serverUrl json).Makes settings) := by
  have mints : (AccessTask.inviteMint vaultId serverUrl json).Mints vaultId
      "operator-cli" := ⟨rfl, rfl⟩
  unfold inviteMint
  split
  · refine ⟨trivial, ?_⟩
    rintro (error | _ | _)
    · trivial
    · trivial
    · change ((mintInvite vaultId "operator-cli" none).run.bind _).Only _
      refine Program.Only.bind (mintInvite_makes mints none) ?_
      rintro (error | _) <;> trivial
  · trivial

theorem wsConnect_makes
    (vaultId : String)
    (device peerId : Option String) :
    (wsConnect vaultId device peerId : Program (accessSignature Blob) AccessOutcome).Only
      ((AccessTask.connect vaultId device peerId).Makes settings) := by
  unfold wsConnect
  dsimp only
  split
  · trivial
  · split
    · trivial
    next nonempty =>
      refine ⟨⟨rfl, ?_⟩, fun _ => trivial⟩
      rintro empty
      exact nonempty (by simpa using empty)

/-- Every request makes the calls of its task only. -/
theorem accessProgram_makes (task : AccessTask) :
    (accessProgram settings task).Only (task.Makes settings) := by
  cases task with
  | authVerify body => exact (authVerifyBody_makes body).bind fun _ => trivial
  | createInvite vaultId body => exact (createInvite_makes vaultId body).bind fun _ => trivial
  | redeem body => exact (redeem_makes body).bind fun _ => trivial
  | deviceAuth body => exact (deviceAuth_makes body).bind fun _ => trivial
  | retirePeer peerId query bearer =>
      exact (retirePeerHandler_makes peerId query bearer).bind fun _ => trivial
  | connect vaultId device peerId => exact wsConnect_makes vaultId device peerId
  | vaultCreate name serverUrl json => exact vaultCreate_makes name serverUrl json
  | inviteMint vaultId serverUrl json => exact inviteMint_makes vaultId serverUrl json

end Handlers

end VaultCrdtServer
