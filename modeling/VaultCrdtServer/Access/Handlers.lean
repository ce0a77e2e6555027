import VaultCrdtServer.Access.Db
import VaultCrdtServer.Blobs.Naming
import VaultCrdtServer.Handlers

/-!
# Authentication and onboarding

`/auth/verify` and the retirement of peers (`src/lib.rs`), invites and device
keys (`src/invites.rs`), the operator's commands (`src/cli.rs`) and the peer
that a WebSocket connection leaves behind (`src/ws.rs`), as programs.  Between
two acquisitions of the database a program may hash or draw a secret, or sign a
token; these are calls too.
-/

namespace VaultCrdtServer

open Interleaving

variable {Blob : Type}

/-! ## Calls -/

/-- `Claims` of a signed token. -/
structure Token where
  sub : String
  exp : Time
  deriving DecidableEq

/-- The calls of the handlers. -/
inductive AccessCall (Blob : Type)
  | db (call : AccessDbCall Blob)
  | hashSecret (plaintext : String)
  /-- `random_secret` -/
  | randomSecret (length : Nat) (alphabet : String)
  /-- `jwt_sign` -/
  | jwtSign (vaultId : String)

/-- The calls and their replies. -/
abbrev accessSignature (Blob : Type) : Signature where
  Call := AccessCall Blob
  Reply := fun
    | .db call => Except ServerError call.Reply
    | .hashSecret _ => Except ServerError String
    | .randomSecret _ _ => String
    | .jwtSign _ => Except ServerError Token

/-- An asynchronous function that may fail. -/
abbrev AccessHandler (Blob α : Type) :=
  ExceptT ServerError (Program (accessSignature Blob)) α

namespace AccessHandler

/-- One acquisition of the database. -/
def db (call : AccessDbCall Blob) : AccessHandler Blob call.Reply :=
  ExceptT.mk (Program.perform (S := accessSignature Blob) (.db call))

/-- `hash_secret` -/
def hashSecret (plaintext : String) : AccessHandler Blob String :=
  ExceptT.mk (Program.perform (S := accessSignature Blob) (.hashSecret plaintext))

/-- `random_secret` -/
def randomSecret (length : Nat) (alphabet : String) : AccessHandler Blob String :=
  ExceptT.lift
    (Program.perform (S := accessSignature Blob) (.randomSecret length alphabet))

/-- `jwt_sign` -/
def jwtSign (vaultId : String) : AccessHandler Blob Token :=
  ExceptT.mk (Program.perform (S := accessSignature Blob) (.jwtSign vaultId))

end AccessHandler

/-- The alphabet of vault secrets and device keys. -/
def alphanumeric : String :=
  "ABCDEFGHIJKLMNOPQRSTUVWXYZabcdefghijklmnopqrstuvwxyz0123456789"

/-- The alphabet of invites. -/
def inviteAlphabet : String :=
  "ABCDEFGHIJKLMNOPQRSTUVWXYZabcdefghijklmnopqrstuvwxyz0123456789_-"

/-! ## Answers -/

/-- The responses, with what their bodies carry. -/
inductive AccessResponse
  /-- A plain text. -/
  | text (status : Nat) (body : String)
  /-- A body of the form `{"error": …}`. -/
  | error (status : Nat) (error : String)
  | verified (token : Token) (vaultId : String)
  | invited (invite vaultId : String) (expiresAt : Time)
  | redeemed (deviceKey : String) (token : Token) (vaultId : String)
  | authenticated (token : Token)
  | nameMismatch (error peerId deviceName : String) (lastSeenAt : Time)
  | retired
      (peerId deviceName : String)
      (lastSeenAt : Time)
      (tombstonesPossiblyFreed : Nat)

/-- Status code of a response. -/
def AccessResponse.status : AccessResponse → Nat
  | .text status _ => status
  | .error status _ => status
  | .nameMismatch .. => 409
  | _ => 200

/-- What a request ends with. -/
inductive AccessOutcome
  | response (result : Except ServerError AccessResponse)
  /-- Exit code of a command, and what it prints to `out`. -/
  | exited (code : Nat) (printed : List (String × String))
  /-- A connection is past its handshake. -/
  | connected

/-- The request was answered with 200. -/
def AccessOutcome.isOk : AccessOutcome → Bool
  | .response (.ok answer) => answer.status = 200
  | _ => false

/-! ## Checks -/

/-- The bytes of a text. -/
def utf8Bytes (text : String) : List UInt8 := text.toUTF8.data.toList

/-- `constant_time_eq` -/
def constantTimeEq (a b : String) : Bool :=
  let a := utf8Bytes a
  let b := utf8Bytes b
  (List.range (max a.length b.length)).foldl
    (fun diff i => diff ||| ((a[i]?).getD 0 ^^^ (b[i]?).getD 0).toNat)
    (a.length ^^^ b.length) == 0

/-- The form of an invite: 22 characters of its alphabet. -/
def wellFormedInvite (invite : String) : Bool :=
  invite.utf8ByteSize = 22 &&
    invite.toList.all fun char => char.isAlphanum || char = '_' || char = '-'

/-! ## `/auth/verify` -/

/-- `verify_vault`: a legacy entry is hashed once its secret was given. -/
def verifyVault
    (libraries : AccessLibraries Blob)
    (vaultId apiKey : String) : AccessHandler Blob Bool := do
  let stored ← AccessHandler.db (.getApiKey vaultId)
  match stored with
  | none => return false
  | some stored =>
      if verifySecret libraries apiKey stored then
        if startsWithArgon2 stored then
          return true
        else
          let hashed ← AccessHandler.hashSecret apiKey
          AccessHandler.db (.updateApiKey vaultId hashed)
          return true
      else
        return false

/-- `create_vault` -/
def createVault (vaultId apiKey : String) : AccessHandler Blob Bool := do
  let hashed ← AccessHandler.hashSecret apiKey
  AccessHandler.db (.insertVault vaultId hashed)

/-- `AuthRequest` -/
structure AuthRequest where
  vaultId : String
  apiKey : String
  adminToken : Option String
  deriving DecidableEq

/-- The refusal of `/auth/verify`. -/
def authenticationFailed : ServerError := .auth "Authentication failed"

/-- `auth_verify_body`, from the decoded body on, or the status with which the
body was rejected. -/
def authVerifyBody
    (libraries : AccessLibraries Blob)
    (adminToken : String)
    (body : Except Nat AuthRequest) : AccessHandler Blob AccessResponse :=
  match body with
  | .error status => return .text status "invalid JSON body"
  | .ok body =>
      if validVaultId body.vaultId then do
        let present ← AccessHandler.db (.vaultExists body.vaultId)
        let verified ←
          (if present then
            verifyVault libraries body.vaultId body.apiKey
          else if constantTimeEq (body.adminToken.getD "") adminToken then do
            let created ← createVault body.vaultId body.apiKey
            if created then
              return true
            else
              verifyVault libraries body.vaultId body.apiKey
          else
            return false)
        if verified then
          let token ← AccessHandler.jwtSign body.vaultId
          return .verified token body.vaultId
        else
          throw authenticationFailed
      else
        throw (.auth
          "Invalid vault name (lowercase letters, numbers, hyphens, underscores; must start with a letter or number)")

/-! ## Invites -/

/-- `mint_invite` -/
def mintInvite
    (vaultId inviterPeerId : String)
    (deviceName : Option String) : AccessHandler Blob (String × Time) := do
  let invite ← AccessHandler.randomSecret 22 inviteAlphabet
  AccessHandler.db .clearInvites
  let expiresAt ← AccessHandler.db (.insertInvite vaultId invite inviterPeerId deviceName)
  return (invite, expiresAt)

/-- `InviteRequest` -/
structure InviteRequest where
  peerId : String
  deviceName : Option String
  deriving DecidableEq

/-- `create` -/
def createInvite
    (vaultId : String)
    (body : InviteRequest) : AccessHandler Blob AccessResponse :=
  if body.peerId.isEmpty then
    return .error 400 "peer_id must not be empty"
  else if maxPeerIdBytes < body.peerId.utf8ByteSize ||
      body.deviceName.any fun name => maxPeerIdBytes < name.utf8ByteSize then
    return .error 400 "identifier too long"
  else do
    let (invite, expiresAt) ← mintInvite vaultId body.peerId body.deviceName
    return .invited invite vaultId expiresAt

/-- `RedeemRequest` -/
structure RedeemRequest where
  invite : String
  peerId : String
  deviceName : String
  deriving DecidableEq

/-- `redeem` -/
def redeem
    (libraries : AccessLibraries Blob)
    (body : RedeemRequest) : AccessHandler Blob AccessResponse :=
  if !wellFormedInvite body.invite then
    return .error 401 "invalid invite"
  else if body.peerId.isEmpty then
    return .error 400 "peer_id must not be empty"
  else if maxPeerIdBytes < body.peerId.utf8ByteSize ||
      maxPeerIdBytes < body.deviceName.utf8ByteSize then
    return .error 400 "identifier too long"
  else do
    let candidates ← AccessHandler.db .listInvites
    match candidates.find? fun candidate =>
        candidate.2.2 = libraries.sha256Hex body.invite with
    | none => return .error 401 "invalid invite"
    | some (id, vaultId, _) =>
        let deviceKey ← AccessHandler.randomSecret 32 alphanumeric
        let hash ← AccessHandler.hashSecret deviceKey
        let token ← AccessHandler.jwtSign vaultId
        let outcome ← AccessHandler.db
          (.redeemInvite id ⟨vaultId, body.peerId⟩ hash body.deviceName)
        match outcome with
        | .consumed => return .redeemed deviceKey token vaultId
        | .alreadyUsed => return .error 409 "invite already used"
        | .expired => return .error 410 "invite expired"

/-! ## Device keys -/

/-- `DeviceRequest` -/
structure DeviceRequest where
  vaultId : String
  peerId : String
  deviceKey : String
  deriving DecidableEq

/-- `device_auth`: the key is read, verified, and looked up once more before a
token is signed. -/
def deviceAuth
    (libraries : AccessLibraries Blob)
    (body : DeviceRequest) : AccessHandler Blob AccessResponse :=
  if maxPeerIdBytes < body.peerId.utf8ByteSize then
    return .error 401 "authentication failed"
  else do
    let hash ← AccessHandler.db (.getKeyHash ⟨body.vaultId, body.peerId⟩)
    if hash.any (verifySecret libraries body.deviceKey) then
      let unrevoked ← AccessHandler.db (.ensureNotRevoked ⟨body.vaultId, body.peerId⟩)
      if unrevoked then
        let token ← AccessHandler.jwtSign body.vaultId
        return .authenticated token
      else
        return .error 401 "authentication failed"
    else
      return .error 401 "authentication failed"

/-- `RetirePeerQuery` -/
structure RetirePeerQuery where
  vaultId : Option String
  deviceName : Option String
  deriving DecidableEq

/-- A parameter that is given and not empty. -/
def nonEmpty (parameter : Option String) : Option String :=
  parameter.filter fun value => !value.isEmpty

/-- The retirement of a peer whose name was confirmed. -/
def retireConfirmed
    (key : PeerKey)
    (deviceName : String) : AccessHandler Blob AccessResponse := do
  let peer ← AccessHandler.db (.getPeer key)
  match peer with
  | none => return .error 404 "no such peer in this vault"
  | some peer =>
      if peer.deviceName ≠ deviceName then
        return .nameMismatch
          "device_name does not match the stored peer; repeat with the exact stored name to confirm"
          key.peer peer.deviceName peer.lastSeenAt
      else
        let freed ← AccessHandler.db
          (.countPeerBlockedTombstones key.vault peer.lastSeenAt)
        AccessHandler.db (.retirePeer key)
        return .retired key.peer peer.deviceName peer.lastSeenAt freed

/-- `retire_peer_handler` -/
def retirePeerHandler
    (adminToken peerId : String)
    (query : RetirePeerQuery)
    (bearer : Option String) : AccessHandler Blob AccessResponse :=
  if bearer.any fun token => constantTimeEq token adminToken then
    match nonEmpty query.vaultId with
    | none => return .error 400 "missing required query parameter: vault_id"
    | some vaultId =>
        match nonEmpty query.deviceName with
        | none =>
            return .error 400
              "missing required query parameter: device_name (confirmation)"
        | some deviceName => retireConfirmed ⟨vaultId, peerId⟩ deviceName
  else
    throw (.auth "Admin token required")

/-! ## Commands -/

/-- The unreserved characters of a URI. -/
def isUnreserved (byte : UInt8) : Bool :=
  (Char.ofNat byte.toNat).isAlphanum ||
    ['-', '.', '_', '~'].contains (Char.ofNat byte.toNat)

/-- `percent_encode` -/
def percentEncode (value : String) : String :=
  String.join ((utf8Bytes value).map fun byte =>
    if isUnreserved byte then
      String.singleton (Char.ofNat byte.toNat)
    else
      "%" ++ String.ofList
        [(Nat.digitChar (byte.toNat / 16)).toUpper, (Nat.digitChar (byte.toNat % 16)).toUpper])

/-- `setup_uri` -/
def setupUri (serverUrl vaultId : String) (invite : Option String) : String :=
  "obsidian://vaultcrdt/setup?v=1&server=" ++ percentEncode serverUrl ++
    "&vaultId=" ++ vaultId ++
    match invite with
    | some invite => "&invite=" ++ invite
    | none => ""

/-- What is printed with `--server-url`. -/
def printedUrl
    (json : Bool)
    (vaultId : String)
    (invite : Option String) : Option String → List (String × String)
  | none => []
  | some url =>
      [(if json then "server_url" else "server", url),
        (if json then "setup_uri" else "setup", setupUri url vaultId invite)]

/-- `vault_create` -/
def vaultCreate
    (name : String)
    (serverUrl : Option String)
    (json : Bool) : Program (accessSignature Blob) AccessOutcome := do
  if validVaultId name then
    match ← (AccessHandler.db (.vaultExists name)).run with
    | .ok true => return .exited 3 []
    | .error _ => return .exited 1 []
    | .ok false =>
        let secret ← Program.perform (S := accessSignature Blob)
          (.randomSecret 32 alphanumeric)
        match ← (createVault name secret).run with
        | .ok true =>
            return .exited 0
              ([(if json then "vault_id" else "vault", name), ("secret", secret)] ++
                printedUrl json name none serverUrl)
        | .ok false => return .exited 3 []
        | .error _ => return .exited 1 []
  else
    return .exited 2 []

/-- `invite_mint` -/
def inviteMint
    (vaultId : String)
    (serverUrl : Option String)
    (json : Bool) : Program (accessSignature Blob) AccessOutcome := do
  if validVaultId vaultId then
    match ← (AccessHandler.db (.vaultExists vaultId)).run with
    | .ok false => return .exited 3 []
    | .error _ => return .exited 1 []
    | .ok true =>
        match ← (mintInvite vaultId "operator-cli" none).run with
        | .ok (invite, expiresAt) =>
            return .exited 0
              ([(if json then "vault_id" else "vault", vaultId), ("invite", invite),
                (if json then "expires_at" else "expires", toString expiresAt)] ++
                printedUrl json vaultId (some invite) serverUrl)
        | .error _ => return .exited 1 []
  else
    return .exited 2 []

/-! ## Connections -/

/-- The identifiers of a WebSocket connection: they are capped, and a peer that
has an id is remembered once the connection is authenticated. -/
def wsConnect
    (vaultId : String)
    (device peerId : Option String) : Program (accessSignature Blob) AccessOutcome := do
  let deviceName := device.getD ""
  let peerId := peerId.getD ""
  if maxPeerIdBytes < peerId.utf8ByteSize || maxPeerIdBytes < deviceName.utf8ByteSize then
    return .response (.ok (.text 400 "identifier too long"))
  else if peerId.isEmpty then
    return .connected
  else
    let _ ← (AccessHandler.db (.upsertPeer ⟨vaultId, peerId⟩ deviceName)).run
    return .connected

end VaultCrdtServer
