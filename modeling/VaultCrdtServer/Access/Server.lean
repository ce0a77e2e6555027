import VaultCrdtServer.Access.Handlers
import VaultCrdtServer.Foundation.Requests

/-!
# The authentication server

The requests of this lane as programs over one database, with the commands of
the operator and the connections among them.  The document lane goes on beside
them: it may make any of its calls at any time, except that peers come from
connections only.

Random secrets are never drawn twice.  A connection or an invitation needs a
token, so it names a vault for which one was signed.

`drawn`, `minted`, `issued` and `journal` record what has happened.  No program
reads them.
-/

namespace VaultCrdtServer

open Interleaving

/-- An invite that has been minted. -/
structure MintedInvite where
  id : Int
  invite : String
  vaultId : String
  expiresAt : Time
  deriving DecidableEq

/-- A database call that was made. -/
structure AccessEntry (Blob : Type) where
  /-- The request it was made for. -/
  origin : Nat
  now : Time
  call : AccessDbCall Blob
  result : Except ServerError call.Reply
  before : AccessDb Blob
  after : AccessDb Blob

/-- What the requests share. -/
structure AccessServer (Blob : Type) where
  db : AccessDb Blob
  /-- The request a secret was drawn for. -/
  drawn : String → Option Nat
  /-- Every invite that was minted, oldest first. -/
  minted : List MintedInvite
  /-- The vaults for which tokens were signed. -/
  issued : List String
  /-- Every database call, oldest first. -/
  journal : List (AccessEntry Blob)

/-- The libraries and settings the server runs with. -/
structure AccessSettings (Blob : Type) extends AccessLibraries Blob where
  /-- `VAULTCRDT_ADMIN_TOKEN` -/
  adminToken : String
  /-- `require_non_empty` -/
  adminToken_nonempty : adminToken ≠ ""

/-- What is left open when a call is executed. -/
structure AccessChoice where
  now : Time
  /-- The call fails. -/
  fault : Option ServerError
  salt : String
  random : String

/-- What a request is for. -/
inductive AccessTask
  /-- The decoded body, or the status with which it was rejected. -/
  | authVerify (body : Except Nat AuthRequest)
  | createInvite (vaultId : String) (body : InviteRequest)
  | redeem (body : RedeemRequest)
  | deviceAuth (body : DeviceRequest)
  | retirePeer (peerId : String) (query : RetirePeerQuery) (bearer : Option String)
  | connect (vaultId : String) (device peerId : Option String)
  /-- `vault create` -/
  | vaultCreate (name : String) (serverUrl : Option String) (json : Bool)
  /-- `invite mint` -/
  | inviteMint (vaultId : String) (serverUrl : Option String) (json : Bool)

/-- A call of the document lane. -/
structure LaneEvent (Blob : Type) where
  call : DbCall Blob
  now : Time

/-- `JWT_EXPIRY_SECS` -/
def jwtExpirySecs : Time := 3600

namespace AccessServer

variable {Blob : Type}

/-- A server that has just been started. -/
def started
    (db : AccessDb Blob)
    (minted : List MintedInvite)
    (issued : List String) : AccessServer Blob where
  db := db
  drawn := fun _ => none
  minted := minted
  issued := issued
  journal := []

/-- The invites after a call. -/
def mintedBy (call : AccessDbCall Blob) (result : Except ServerError call.Reply)
    (db : AccessDb Blob) (minted : List MintedInvite) : List MintedInvite :=
  match call, result with
  | .insertInvite vaultId invite _ _, .ok expiresAt =>
      minted ++ [⟨db.inviteSeq, invite, vaultId, expiresAt⟩]
  | _, _ => minted

/-- A database call was made. -/
def record
    (request : Nat)
    (now : Time)
    (call : AccessDbCall Blob)
    (result : Except ServerError call.Reply)
    (db : AccessDb Blob)
    (server : AccessServer Blob) : AccessServer Blob :=
  { server with
    db := db
    minted := mintedBy call result db server.minted
    journal := server.journal ++ [⟨request, now, call, result, server.db, db⟩] }

/-- The secret was not drawn before, and is one of its kind. -/
def Drawable
    (length : Nat)
    (alphabet secret : String)
    (server : AccessServer Blob) : Prop :=
  secret.toList.length = length ∧ (∀ char ∈ secret.toList, char ∈ alphabet.toList) ∧
    server.drawn secret = none ∧ ∀ minted ∈ server.minted, minted.invite ≠ secret

instance (length : Nat) (alphabet secret : String) (server : AccessServer Blob) :
    Decidable (server.Drawable length alphabet secret) :=
  letI : Decidable (∀ char ∈ secret.toList, char ∈ alphabet.toList) := List.decidableBAll _ _
  inferInstanceAs (Decidable (_ ∧ _ ∧ _ ∧ _))

/-- One call of a request, or `none` where it cannot be made. -/
def exec
    (libraries : AccessLibraries Blob)
    (request : Nat) :
    (call : AccessCall Blob) → AccessChoice → AccessServer Blob →
      Option ((accessSignature Blob).Reply call × AccessServer Blob)
  | .db call, choice, server =>
      let result := call.perform libraries choice.now choice.fault server.db
      some (result.1, server.record request choice.now call result.1 result.2)
  | .hashSecret plaintext, choice, server =>
      match choice.fault with
      | some error => some (.error error, server)
      | none => some (hashSecret libraries choice.salt plaintext, server)
  | .randomSecret length alphabet, choice, server =>
      if server.Drawable length alphabet choice.random then
        some (choice.random,
          { server with drawn := Function.update server.drawn choice.random (some request) })
      else
        none
  | .jwtSign vaultId, choice, server =>
      match choice.fault with
      | some error => some (.error error, server)
      | none =>
          some (.ok ⟨vaultId, choice.now + jwtExpirySecs⟩,
            { server with issued := vaultId :: server.issued })

/-- The document lane makes a call. -/
def environment
    (libraries : AccessLibraries Blob)
    (event : LaneEvent Blob)
    (server : AccessServer Blob) : Option (AccessServer Blob) :=
  match event.call with
  | .upsertPeer .. => none
  | call =>
      match call.exec libraries.toLibraries event.now server.db.toDb with
      | .ok (_, db) => some { server with db := { server.db with toDb := db } }
      | .error _ => none

/-- A token for a vault was signed, and the router passes no empty peer id. -/
def accepts : AccessTask → AccessServer Blob → Bool
  | .createInvite vaultId _, server => server.issued.contains vaultId
  | .connect vaultId _ _, server => server.issued.contains vaultId
  | .retirePeer peerId _ _, _ => !peerId.isEmpty
  | _, _ => true

end AccessServer

section Service

variable {Blob : Type} (settings : AccessSettings Blob)

/-- The program of a request. -/
def accessProgram : AccessTask → Program (accessSignature Blob) AccessOutcome
  | .authVerify body =>
      (authVerifyBody settings.toAccessLibraries settings.adminToken body).run.bind
        fun result => .done (.response result)
  | .createInvite vaultId body =>
      (createInvite vaultId body).run.bind fun result => .done (.response result)
  | .redeem body =>
      (redeem settings.toAccessLibraries body).run.bind
        fun result => .done (.response result)
  | .deviceAuth body =>
      (deviceAuth settings.toAccessLibraries body).run.bind
        fun result => .done (.response result)
  | .retirePeer peerId query bearer =>
      (retirePeerHandler settings.adminToken peerId query bearer).run.bind
        fun result => .done (.response result)
  | .connect vaultId device peerId => wsConnect vaultId device peerId
  | .vaultCreate name serverUrl json => vaultCreate name serverUrl json
  | .inviteMint vaultId serverUrl json => inviteMint vaultId serverUrl json

/-- The server as a service. -/
def accessService : Service (accessSignature Blob) (AccessServer Blob) where
  Choice := AccessChoice
  exec := AccessServer.exec settings.toAccessLibraries
  Event := LaneEvent Blob
  environment := AccessServer.environment settings.toAccessLibraries
  Task := AccessTask
  Outcome := AccessOutcome
  accepts := AccessServer.accepts
  program := accessProgram settings

end Service

end VaultCrdtServer
