import Mathlib.Data.Nat.Bitwise
import VaultCrdtServer.Access.Footprint
import VaultCrdtServer.Access.Reference

/-!
# One secret per vault

A vault keeps the secret it was created with.  Whoever loses the race for a new
name stores nothing, and a legacy entry is replaced only by a hash of the secret
it was opened with, so the value that is stored may change but not the secret
that opens it.
-/

namespace VaultCrdtServer

open Interleaving

variable {Blob : Type}

/-! ## Comparing tokens -/

/-- A disjunction of bits is zero where all of them are. -/
theorem foldl_or_eq_zero_iff {α : Type} (bits : α → Nat) (items : List α) (start : Nat) :
    items.foldl (fun diff item => diff ||| bits item) start = 0 ↔
      start = 0 ∧ ∀ item ∈ items, bits item = 0 := by
  induction items generalizing start with
  | nil => simp
  | cons item items inductionHypothesis =>
      rw [List.foldl_cons, inductionHypothesis, Nat.or_eq_zero_iff, List.forall_mem_cons,
        and_assoc]

/-- `constant_time_eq` compares its arguments. -/
theorem constantTimeEq_iff {first second : String} :
    constantTimeEq first second = true ↔ first = second := by
  have bytes : utf8Bytes first = utf8Bytes second ↔ first = second := by
    rw [utf8Bytes, utf8Bytes, ← String.toByteArray_inj, ByteArray.ext_iff, ← Array.toList_inj]
    rfl
  rw [← bytes]
  unfold constantTimeEq
  dsimp only
  rw [beq_iff_eq, foldl_or_eq_zero_iff, Nat.xor_eq_zero_iff]
  constructor
  · rintro ⟨sameLength, sameBytes⟩
    apply List.ext_getElem sameLength
    intro i bound bound'
    have same := sameBytes i (by simp [bound])
    rw [UInt8.toNat_xor, Nat.xor_eq_zero_iff, UInt8.toNat_inj] at same
    simpa [bound, bound'] using same
  · intro same
    simp [same]

/-! ## What a stored value accepts -/

/-- The stored value is opened by this secret and no other. -/
def Opens (libraries : AccessLibraries Blob) (stored secret : String) : Prop :=
  ∀ plaintext, verifySecret libraries plaintext stored = true ↔ plaintext = secret

/-- The vault exists, and this secret opens it. -/
def AccessDb.Accepts
    (libraries : AccessLibraries Blob)
    (vaultId plaintext : String)
    (db : AccessDb Blob) : Prop :=
  ∃ stored, db.vaults.lookup vaultId = some stored ∧
    verifySecret libraries plaintext stored = true

/-- The vault exists, and this secret and no other opens it. -/
def AccessDb.GuardedBy
    (libraries : AccessLibraries Blob)
    (vaultId secret : String)
    (db : AccessDb Blob) : Prop :=
  ∃ stored, db.vaults.lookup vaultId = some stored ∧ Opens libraries stored secret

section Accepts

variable {libraries : AccessLibraries Blob} {vaultId secret stored : String}
variable {db db' : AccessDb Blob}

/-- A legacy entry is opened by itself. -/
theorem opens_legacy (legacy : startsWithArgon2 stored = false) :
    Opens libraries stored stored := by
  intro plaintext
  rw [verifySecret, legacy, if_neg Bool.false_ne_true, beq_iff_eq]
  exact eq_comm

theorem AccessDb.GuardedBy.accepts_iff
    (guarded : db.GuardedBy libraries vaultId secret)
    (plaintext : String) :
    db.Accepts libraries vaultId plaintext ↔ plaintext = secret := by
  obtain ⟨stored, found, opens⟩ := guarded
  rw [← opens plaintext, AccessDb.Accepts]
  constructor
  · rintro ⟨other, found', accepted⟩
    rw [found, Option.some.injEq] at found'
    rwa [found']
  · exact fun accepted => ⟨stored, found, accepted⟩

theorem AccessDb.GuardedBy.of_vaults_eq
    (guarded : db.GuardedBy libraries vaultId secret)
    (same : db'.vaults = db.vaults) :
    db'.GuardedBy libraries vaultId secret := by
  unfold AccessDb.GuardedBy
  rwa [same]

end Accepts

/-! ## Terms -/

section Terms

variable (settings : AccessSettings Blob)

/-- Every vault has its secret. -/
def Guarded (server : AccessServer Blob) : Prop :=
  ∀ vaultId, server.db.vaults.lookup vaultId ≠ none →
    ∃ secret, server.db.GuardedBy settings.toAccessLibraries vaultId secret

/-- The secrets of the vaults stay what they are. -/
def KeepsSecrets (server server' : AccessServer Blob) : Prop :=
  ∀ vaultId secret, server.db.GuardedBy settings.toAccessLibraries vaultId secret →
    server'.db.GuardedBy settings.toAccessLibraries vaultId secret

/-- A stored value has a secret, and it replaces another of the same secret. -/
def StoresSecret : AccessCall Blob → AccessServer Blob → Prop
  | .db (.insertVault _ stored), _ =>
      ∃ secret, Opens settings.toAccessLibraries stored secret
  | .db (.updateApiKey vaultId stored), server =>
      ∃ secret, Opens settings.toAccessLibraries stored secret ∧
        server.db.GuardedBy settings.toAccessLibraries vaultId secret
  | _, _ => True

/-- The token a response carries. -/
def AccessResponse.token : AccessResponse → Option Token
  | .verified token _ | .redeemed _ token _ | .authenticated token => some token
  | _ => none

/-- A token was returned for the vault's secret only, and what was printed is
the vault's secret. -/
def AnswersSecret : AccessTask → AccessOutcome → AccessServer Blob → Prop
  | .authVerify body, .response result, server =>
      ∀ response token, result = .ok response → response.token = some token →
        ∃ request, body = .ok request ∧ token.sub = request.vaultId ∧
          server.db.GuardedBy settings.toAccessLibraries request.vaultId request.apiKey
  | .vaultCreate name _ _, .exited code printed, server =>
      ∀ secret, ("secret", secret) ∈ printed → code = 0 ∧
        server.db.GuardedBy settings.toAccessLibraries name secret
  | _, _, _ => True

/-- What requests assume and promise of secrets. -/
def secretTerms : (accessService settings).Terms where
  rely := fun _ => KeepsSecrets settings
  pre := fun _ task call server => task.Makes settings call ∧ StoresSecret settings call server
  post := fun _ => AnswersSecret settings
  fresh := fun _ _ => True
  invariant := Guarded settings
  rely_refl := fun _ _ _ _ guarded => guarded
  rely_trans := fun earlier later vaultId secret guarded =>
    later vaultId secret (earlier vaultId secret guarded)

variable {settings} {server server' : AccessServer Blob}

/-- A call that leaves the vaults alone. -/
theorem keepsSecrets_of_vaults_eq
    (same : server'.db.vaults = server.db.vaults) :
    KeepsSecrets settings server server' :=
  fun _ _ guarded => guarded.of_vaults_eq same

theorem Guarded.of_vaults_eq
    (guarded : Guarded settings server)
    (same : server'.db.vaults = server.db.vaults) :
    Guarded settings server' := by
  intro vaultId present
  rw [same] at present
  obtain ⟨secret, here⟩ := guarded vaultId present
  exact ⟨secret, here.of_vaults_eq same⟩

/-- A value with a secret was stored for a vault. -/
theorem guarded_insert
    {vaultId stored secret : String}
    (opens : Opens settings.toAccessLibraries stored secret)
    (vaults : server'.db.vaults = server.db.vaults.insert vaultId stored)
    (replaces : ∀ before, server.db.GuardedBy settings.toAccessLibraries vaultId before →
      before = secret) :
    (Guarded settings server → Guarded settings server') ∧
      KeepsSecrets settings server server' := by
  have written : server'.db.GuardedBy settings.toAccessLibraries vaultId secret :=
    ⟨stored, by rw [vaults, AList.lookup_insert], opens⟩
  have elsewhere : ∀ other secret, other ≠ vaultId →
      server.db.GuardedBy settings.toAccessLibraries other secret →
        server'.db.GuardedBy settings.toAccessLibraries other secret := by
    rintro other secret different ⟨stored, found, opens⟩
    exact ⟨stored, by rw [vaults, AList.lookup_insert_ne different, found], opens⟩
  constructor
  · intro guarded other present
    by_cases same : other = vaultId
    · rw [same]
      exact ⟨secret, written⟩
    · rw [vaults, AList.lookup_insert_ne same] at present
      obtain ⟨secret, here⟩ := guarded other present
      exact ⟨secret, elsewhere other secret same here⟩
  · intro other before here
    by_cases same : other = vaultId
    · rw [same] at here ⊢
      rw [replaces before here]
      exact written
    · exact elsewhere other before same here

/-- A vault has one secret. -/
theorem AccessDb.GuardedBy.unique
    {libraries : AccessLibraries Blob}
    {vaultId first second : String}
    {db : AccessDb Blob}
    (guarded : db.GuardedBy libraries vaultId first)
    (guarded' : db.GuardedBy libraries vaultId second) :
    first = second :=
  (guarded'.accepts_iff first).mp ((guarded.accepts_iff first).mpr rfl)

/-- No call changes the secret of a vault. -/
theorem secrets_step
    {request : Nat}
    {call : AccessCall Blob}
    {choice : AccessChoice}
    {reply : (accessSignature Blob).Reply call}
    (stores : StoresSecret settings call server)
    (executed : AccessServer.exec settings.toAccessLibraries request call choice server =
      some (reply, server')) :
    (Guarded settings server → Guarded settings server') ∧
      KeepsSecrets settings server server' := by
  have unchanged : server'.db.vaults = server.db.vaults →
      (Guarded settings server → Guarded settings server') ∧
        KeepsSecrets settings server server' :=
    fun same => ⟨fun guarded => guarded.of_vaults_eq same, keepsSecrets_of_vaults_eq same⟩
  by_cases database : ∃ dbCall, call = .db dbCall
  · obtain ⟨dbCall, rfl⟩ := database
    obtain ⟨db, rfl, ⟨_, _, rfl⟩ | ⟨value, rfl, effect⟩⟩ := AccessServer.exec_db executed
    · exact unchanged rfl
    · cases effect with
      | insertVault absent =>
          obtain ⟨secret, opens⟩ := stores
          refine guarded_insert opens rfl ?_
          rintro before ⟨stored, found, _⟩
          rw [absent] at found
          cases found
      | updateApiKey present =>
          obtain ⟨secret, opens, guarded⟩ := stores
          exact guarded_insert opens rfl fun before here => here.unique guarded
      | insertInvite mints =>
          refine unchanged ?_
          rw [AccessServer.record_db, mints.written]
      | redeemInvite consumes =>
          refine unchanged ?_
          rw [AccessServer.record_db, consumes.written]
      | _ => exact unchanged rfl
  · refine unchanged ?_
    rw [(AccessServer.exec_other executed fun dbCall same => database ⟨dbCall, same⟩).1]

/-- The document lane leaves the vaults alone. -/
theorem environment_vaults
    {event : LaneEvent Blob}
    (happened : AccessServer.environment settings.toAccessLibraries event server =
      some server') :
    server'.db.vaults = server.db.vaults := by
  obtain ⟨_, _, _, rfl, _⟩ := AccessServer.environment_eq_some happened
  rfl

end Terms

/-! ## Requests -/

section Requests

variable {settings : AccessSettings Blob} {request : Nat} {task : AccessTask}
variable {server : AccessServer Blob} {vaultId apiKey : String}

/-- The secret of a vault is not disturbed. -/
theorem stable_guarded
    (settings : AccessSettings Blob)
    (request : Nat)
    (vaultId secret : String) :
    Stable (secretTerms settings) request fun server =>
      server.db.GuardedBy settings.toAccessLibraries vaultId secret :=
  fun _ _ guarded tolerated => tolerated vaultId secret guarded

theorem stable_anything :
    Stable (secretTerms settings) request fun _ => True :=
  fun _ _ _ _ => trivial

/-- What hashing yields is opened by the secret that was hashed. -/
def HashesOpen (settings : AccessSettings Blob) : Prop :=
  ∀ salt plaintext stored,
    hashSecret settings.toAccessLibraries salt plaintext = .ok stored →
      Opens settings.toAccessLibraries stored plaintext

/-- Where the verification succeeds, the vault has the given secret. -/
def Verified
    (settings : AccessSettings Blob)
    (vaultId apiKey : String)
    (result : Except ServerError Bool)
    (server : AccessServer Blob) : Prop :=
  result = .ok true →
    server.db.GuardedBy settings.toAccessLibraries vaultId apiKey

/-- A request that is answered with an error, or with a response without a
token, promises nothing. -/
theorem answersSecret_of_token_eq_none
    {body : Except Nat AuthRequest}
    {result : Except ServerError AccessResponse}
    (silent : ∀ response, result = .ok response → response.token = none) :
    AnswersSecret settings (.authVerify body) (.response result) server := by
  intro response token answered carried
  rw [silent response answered] at carried
  cases carried

variable (hashes : HashesOpen settings)
include hashes

/-- A vault that was verified has the given secret. -/
theorem verifyVault_verified (upgrades : task.Upgrades vaultId) :
    (verifyVault settings.toAccessLibraries vaultId apiKey).run.Meets
      ((secretTerms settings).contract request task) (Verified settings vaultId apiKey)
      server := by
  unfold verifyVault
  refine access_meets_db stable_anything trivial (fun _ _ => ⟨trivial, trivial⟩)
    (fun _ _ _ _ _ _ _ failed => nomatch failed) ?_
  intro server now reply db _ guarded effect
  cases effect
  split
  · exact access_meets_pure stable_anything trivial fun _ _ failed => nomatch failed
  · rename_i stored found
    split
    · rename_i accepted
      -- the vault was there, so the secret that opened it is its only one
      have here : server.db.GuardedBy settings.toAccessLibraries vaultId apiKey := by
        obtain ⟨secret, guard⟩ := guarded vaultId (by simp [found])
        rwa [(guard.accepts_iff apiKey).mp ⟨stored, found, accepted⟩]
      have stable := stable_guarded settings request vaultId apiKey
      split
      · exact access_meets_pure stable here fun _ guard _ => guard
      · refine access_meets_hash stable here (fun _ _ => ⟨trivial, trivial⟩)
          (fun _ _ _ failed => nomatch failed) ?_
        intro server' salt hashed guard hash
        have opens := hashes salt apiKey hashed hash
        refine access_meets_db stable guard (fun _ guard => ⟨upgrades, apiKey, opens, guard⟩)
          (fun _ _ _ _ _ _ _ failed => nomatch failed) ?_
        intro server'' now' reply' db' guard _ effect
        refine access_meets_pure stable ?_ fun _ guard _ => guard
        cases effect with
        | updateApiKey present => exact ⟨hashed, AList.lookup_insert _, opens⟩
        | updateNothing absent => exact guard
    · exact access_meets_pure stable_anything trivial fun _ _ failed => nomatch failed

/-- A vault that was created has the given secret. -/
theorem createVault_verified (creates : task.Creates settings vaultId) :
    (createVault vaultId apiKey : AccessHandler Blob Bool).run.Meets
      ((secretTerms settings).contract request task) (Verified settings vaultId apiKey)
      server := by
  unfold createVault
  refine access_meets_hash stable_anything trivial (fun _ _ => ⟨trivial, trivial⟩)
    (fun _ _ _ failed => nomatch failed) ?_
  intro server' salt hashed _ hash
  have opens := hashes salt apiKey hashed hash
  rw [← bind_pure (AccessHandler.db (AccessDbCall.insertVault vaultId hashed))]
  refine access_meets_db stable_anything trivial (fun _ _ => ⟨creates, apiKey, opens⟩)
    (fun _ _ _ _ _ _ _ failed => nomatch failed) ?_
  intro server'' now reply db _ _ effect
  cases effect with
  | insertVault absent =>
      exact access_meets_pure (stable_guarded settings request vaultId apiKey)
        ⟨hashed, AList.lookup_insert _, opens⟩ fun _ guard _ => guard
  | ignoreVault present =>
      exact access_meets_pure stable_anything trivial fun _ _ failed => nomatch failed

/-- Whoever loses the race for a new vault is verified against the winner's
secret. -/
theorem registration_verified (creates : task.Creates settings vaultId)
    (upgrades : task.Upgrades vaultId) :
    (do
      let created ← createVault vaultId apiKey
      if created then
        return true
      else
        verifyVault settings.toAccessLibraries vaultId apiKey).run.Meets
      ((secretTerms settings).contract request task) (Verified settings vaultId apiKey)
      server := by
  refine Program.Meets.bind_fallible
    (fun created => Verified settings vaultId apiKey (.ok created)) ?_ ?_
  · refine (createVault_verified hashes creates).weaken ?_
    rintro (error | created) server' verified
    · exact fun failed => nomatch failed
    · exact verified
  · rintro (_ | _) server' verified
    · exact verifyVault_verified hashes upgrades
    · exact access_meets_pure (stable_guarded settings request vaultId apiKey) (verified rfl)
        fun _ guard _ => guard

/-- A request is verified against the vault that is there, or the one it has
created. -/
theorem verification_verified (body : AuthRequest) (present : Bool) :
    (if present then
        verifyVault settings.toAccessLibraries body.vaultId body.apiKey
      else if constantTimeEq (body.adminToken.getD "") settings.adminToken then do
        let created ← createVault body.vaultId body.apiKey
        if created then
          return true
        else
          verifyVault settings.toAccessLibraries body.vaultId body.apiKey
      else
        return false : AccessHandler Blob Bool).run.Meets
      ((secretTerms settings).contract request (.authVerify (.ok body)))
      (Verified settings body.vaultId body.apiKey) server := by
  split
  · exact verifyVault_verified hashes rfl
  · split
    · rename_i admin
      have creates : (AccessTask.authVerify (.ok body)).Creates settings body.vaultId :=
        ⟨rfl, admin⟩
      exact registration_verified hashes creates rfl
    · exact access_meets_pure stable_anything trivial fun _ _ failed => nomatch failed

/-- A token is returned for the secret of the vault. -/
theorem authVerifyBody_answers (body : Except Nat AuthRequest) :
    (authVerifyBody settings.toAccessLibraries settings.adminToken body).run.Meets
      ((secretTerms settings).contract request (.authVerify body))
      (fun result => AnswersSecret settings (.authVerify body) (.response result)) server := by
  have fails : ∀ {server : AccessServer Blob} {error : ServerError},
      AnswersSecret settings (.authVerify body) (.response (.error error)) server :=
    answersSecret_of_token_eq_none fun _ failed => nomatch failed
  unfold authVerifyBody
  cases body with
  | error status =>
      refine access_meets_pure stable_anything trivial fun _ _ =>
        answersSecret_of_token_eq_none ?_
      rintro response answered
      obtain rfl := Except.ok.inj answered
      rfl
  | ok body =>
      dsimp only
      split
      · rename_i valid
        refine access_meets_db stable_anything trivial (fun _ _ => ⟨trivial, trivial⟩)
          (fun _ _ _ _ _ _ _ => fails) ?_
        intro server' now present db _ _ _
        refine Program.Meets.bind_fallible
          (fun verified => Verified settings body.vaultId body.apiKey (.ok verified)) ?_ ?_
        · refine (verification_verified hashes body present).weaken ?_
          rintro (error | verified) server'' guard
          · exact fails
          · exact guard
        · rintro (_ | _) server'' guard
          · exact access_meets_throw stable_anything trivial fun _ _ => fails
          · have stable := stable_guarded settings request body.vaultId body.apiKey
            refine access_meets_sign stable (guard rfl) (fun _ _ => ⟨⟨rfl, valid⟩, trivial⟩)
              (fun _ _ _ => fails) ?_
            intro signed token guard subject
            refine access_meets_pure stable guard ?_
            intro ended guard response carried answered returned
            obtain rfl := Except.ok.inj answered
            obtain rfl := Option.some.inj returned
            exact ⟨body, rfl, subject, guard⟩
      · exact access_meets_throw stable_anything trivial fun _ _ => fails

omit hashes in
/-- The only secret a new vault's output shows is the one that was drawn. -/
theorem secret_printed
    {json : Bool}
    {name secret shown : String}
    {invite serverUrl : Option String}
    (member : ("secret", shown) ∈
      [(if json then "vault_id" else "vault", name), ("secret", secret)] ++
        printedUrl json name invite serverUrl) :
    shown = secret := by
  cases serverUrl <;> cases json <;> simpa [printedUrl] using member

/-- What is printed is the secret of the vault. -/
theorem vaultCreate_answers
    (name : String)
    (serverUrl : Option String)
    (json : Bool) :
    (vaultCreate name serverUrl json).Meets
      ((secretTerms settings).contract request (.vaultCreate name serverUrl json))
      (AnswersSecret settings (.vaultCreate name serverUrl json)) server := by
  have silent : ∀ (code : Nat) (server : AccessServer Blob),
      (Program.done (.exited code []) : Program (accessSignature Blob) AccessOutcome).Meets
        ((secretTerms settings).contract request (.vaultCreate name serverUrl json))
        (AnswersSecret settings (.vaultCreate name serverUrl json)) server :=
    fun code server later _ shown printed => nomatch printed
  have creates : (AccessTask.vaultCreate name serverUrl json).Creates settings name := rfl
  unfold vaultCreate
  split
  · refine access_meets_call (.db (.vaultExists name)) stable_anything trivial
      (fun _ _ => ⟨trivial, trivial⟩) ?_
    rintro server' choice (error | _ | _) server'' _ _ _
    · exact silent 1 server''
    · refine access_meets_random stable_anything trivial (fun _ _ => ⟨trivial, trivial⟩) ?_
      intro drawn secret _ _ _
      change ((createVault name secret).run.bind _).Meets _ _ _
      refine Program.Meets.bind _ (createVault_verified hashes creates) ?_
      rintro (error | _ | _) created ended
      · exact silent 1 created
      · exact silent 3 created
      · intro later tolerated shown printed
        rw [secret_printed printed]
        exact ⟨rfl, ended later tolerated rfl⟩
    · exact silent 3 server''
  · exact silent 2 server

end Requests

section Runs

variable {settings : AccessSettings Blob}

/-- The terms fit together. -/
theorem secretTerms_sound (hashes : HashesOpen settings) :
    (secretTerms settings).Sound where
  step := by
    intro request task call choice server reply server' guarded pre executed
    obtain ⟨keeps, persists⟩ := secrets_step pre.2 executed
    exact ⟨keeps guarded, fun _ _ => persists⟩
  environment := by
    intro event server server' guarded happened
    exact guarded.of_vaults_eq (environment_vaults happened)
  environment_rely := by
    intro request event server server' happened
    exact keepsSecrets_of_vaults_eq (environment_vaults happened)
  program := by
    intro request task server guarded _ _
    have others : (∀ call, task.Makes settings call → ∀ server,
          StoresSecret settings call server) →
        (∀ outcome server, AnswersSecret settings task outcome server) →
          (accessProgram settings task).Meets
            ((secretTerms settings).contract request task)
            (AnswersSecret settings task) server := by
      intro permitted silent
      refine ((accessProgram_makes task).meets (fun _ => True) (fun _ _ _ _ => trivial)
        ?_ (fun _ _ _ _ _ _ _ => trivial) trivial).weaken fun _ _ _ => silent _ _
      intro call state makes _
      exact ⟨makes, permitted call makes state⟩
    cases task with
    | authVerify body =>
        refine Program.Meets.bind _ (authVerifyBody_answers hashes body) ?_
        intro result server' ended
        exact ended
    | vaultCreate name serverUrl json => exact vaultCreate_answers hashes name serverUrl json
    | _ =>
        refine others ?_ fun _ _ => trivial
        intro call makes server
        unfold StoresSecret
        split
        · cases makes
        · cases makes
        · trivial
  post_stable := by
    intro request task outcome server server' answers tolerated
    cases task with
    | authVerify body =>
        cases outcome with
        | response result =>
            intro response token answered returned
            obtain ⟨body', decoded, subject, guard⟩ :=
              answers response token answered returned
            exact ⟨body', decoded, subject, tolerated _ _ guard⟩
        | _ => trivial
    | vaultCreate name serverUrl json =>
        cases outcome with
        | exited code printed =>
            intro secret member
            obtain ⟨succeeded, guard⟩ := answers secret member
            exact ⟨succeeded, tolerated _ _ guard⟩
        | _ => trivial
    | _ => trivial
  fresh_stable := fun _ _ => trivial

/-- Every vault has one secret from now on, a token was returned for it alone, a
vault is created by an admin request or the operator's command alone, and what
the command has printed is the vault's secret. -/
structure OneSecret
    (settings : AccessSettings Blob)
    (config : (accessService settings).machine.Config) : Prop where
  accepts : ∀ vaultId, config.shared.shared.db.vaults.lookup vaultId ≠ none →
    ∃ secret, ∀ labels later, (accessService settings).machine.run labels config = some later →
      ∀ plaintext, later.shared.shared.db.Accepts settings.toAccessLibraries vaultId plaintext ↔
        plaintext = secret
  verified : ∀ request body response token,
    (request, AccessOutcome.response (.ok response)) ∈ config.shared.answers →
    config.shared.requests[request]? = some (.authVerify body) →
    response.token = some token →
      ∃ decoded, body = .ok decoded ∧ token.sub = decoded.vaultId ∧
        config.shared.shared.db.Accepts settings.toAccessLibraries decoded.vaultId
          decoded.apiKey
  created : ∀ label later vaultId,
    (accessService settings).machine.step label config = some later →
    config.shared.shared.db.vaults.lookup vaultId = none →
    later.shared.shared.db.vaults.lookup vaultId ≠ none →
      ∃ request choice task, label = .act request choice ∧
        config.shared.requests[request]? = some task ∧
        ((∃ body, task = .authVerify (.ok body) ∧ body.vaultId = vaultId ∧
            body.adminToken = some settings.adminToken) ∨
          ∃ serverUrl json, task = .vaultCreate vaultId serverUrl json)
  printed : ∀ request name serverUrl json code lines secret,
    (request, AccessOutcome.exited code lines) ∈ config.shared.answers →
    config.shared.requests[request]? = some (.vaultCreate name serverUrl json) →
    ("secret", secret) ∈ lines →
      code = 0 ∧ config.shared.shared.db.Accepts settings.toAccessLibraries name secret

/-- Who may create a vault. -/
theorem AccessTask.creates_iff
    {task : AccessTask}
    {vaultId : String} :
    task.Creates settings vaultId ↔
      (∃ body, task = .authVerify (.ok body) ∧ body.vaultId = vaultId ∧
          body.adminToken = some settings.adminToken) ∨
        ∃ serverUrl json, task = .vaultCreate vaultId serverUrl json := by
  have given : ∀ token : Option String,
      constantTimeEq (token.getD "") settings.adminToken = true ↔
        token = some settings.adminToken := by
    intro token
    rw [constantTimeEq_iff]
    cases token with
    | none => simp [settings.adminToken_nonempty.symm]
    | some token => simp
  cases task with
  | authVerify body => cases body <;> simp [Creates, given]
  | _ => simp [Creates]

/-- A step by which a vault comes to be. -/
theorem creates_of_step
    {label : (accessService settings).machine.Label}
    {config config' : (accessService settings).machine.Config}
    {vaultId : String}
    (holds : (secretTerms settings).discipline.Holds config)
    (stepped : Machine.Steps _ label config config')
    (absent : config.shared.shared.db.vaults.lookup vaultId = none)
    (present : config'.shared.shared.db.vaults.lookup vaultId ≠ none) :
    ∃ request choice task, label = .act request choice ∧
      config.shared.requests[request]? = some task ∧ task.Creates settings vaultId := by
  have unchanged : config'.shared.shared.db.vaults ≠ config.shared.shared.db.vaults := by
    intro same
    rw [same] at present
    exact present absent
  cases stepped with
  | @act _ request choice call next reply state current executed =>
      obtain ⟨task, made, makes, _⟩ := holds.pre current
      obtain ⟨executed, _, _⟩ := Service.Terms.machine_exec_eq_some executed
      refine ⟨request, choice, task, rfl, made, ?_⟩
      rw [Machine.Config.advance_shared] at present unchanged
      by_cases database : ∃ dbCall, call = .db dbCall
      · obtain ⟨dbCall, rfl⟩ := database
        obtain ⟨db, record, ⟨_, _, rfl⟩ | ⟨value, _, effect⟩⟩ := AccessServer.exec_db executed
        · exact absurd (by rw [record, AccessServer.record_db]) unchanged
        · rw [record, AccessServer.record_db] at present
          obtain ⟨apiKey, rfl⟩ := effect.vault_inserted absent present
          exact makes
      · have same := (AccessServer.exec_other executed
          fun dbCall same => database ⟨dbCall, same⟩).1
        exact absurd (by rw [same]) unchanged
  | environment happened =>
      obtain ⟨happened, _, _⟩ := Service.Terms.machine_environment_eq_some happened
      exact absurd (environment_vaults happened) unchanged
  | start current started =>
      obtain ⟨begins, _⟩ := Service.Terms.machine_start_eq_some started
      exact absurd (by rw [Machine.Config.advance_shared, begins.shared]) unchanged
  | finish | abandon => exact absurd rfl unchanged

/-- Whatever the requests, the order of their calls and their failures, a vault
has one secret. -/
theorem one_secret_per_vault
    {db : AccessDb Blob}
    {minted : List MintedInvite}
    {issued : List String}
    {config : (accessService settings).machine.Config}
    (hashes : HashesOpen settings)
    (phc : ∀ vaultId stored, db.vaults.lookup vaultId = some stored →
      startsWithArgon2 stored = true →
        ∃ secret, Opens settings.toAccessLibraries stored secret)
    (reachable : (accessService settings).Reachable (.started db minted issued) config) :
    OneSecret settings config := by
  have guarded : Guarded settings (.started db minted issued) := by
    intro vaultId present
    obtain ⟨stored, found⟩ := Option.ne_none_iff_exists'.mp present
    cases encoded : startsWithArgon2 stored with
    | true =>
        obtain ⟨secret, opens⟩ := phc vaultId stored found encoded
        exact ⟨secret, stored, found, opens⟩
    | false => exact ⟨stored, stored, found, opens_legacy encoded⟩
  have sound := secretTerms_sound hashes
  obtain ⟨labels, runs⟩ := reachable
  have holds := sound.run (Service.Terms.holds_initial guarded fun _ => trivial) runs
  have orderly : (secretTerms settings).Orderly config := holds.invariant
  refine ⟨?_, ?_, ?_, ?_⟩
  · intro vaultId present
    obtain ⟨secret, guard⟩ := orderly.shared vaultId present
    refine ⟨secret, ?_⟩
    intro labels later runs
    have kept : KeepsSecrets settings config.shared.shared later.shared.shared := by
      refine sound.run_related (KeepsSecrets settings) (fun _ _ _ guard => guard)
        (fun earlier later vaultId secret guard =>
          later vaultId secret (earlier vaultId secret guard))
        ?_ (fun happened => keepsSecrets_of_vaults_eq (environment_vaults happened)) holds runs
      intro request task call choice state reply state' _ pre executed
      exact (secrets_step pre.2 executed).2
    exact (kept vaultId secret guard).accepts_iff
  · intro request body response token answered made returned
    obtain ⟨_, task, made', answers⟩ := orderly.answered _ answered
    obtain rfl := Option.some.inj (made'.symm.trans made)
    obtain ⟨decoded, same, subject, guard⟩ := answers response token rfl returned
    exact ⟨decoded, same, subject, (guard.accepts_iff _).mpr rfl⟩
  · intro label later vaultId stepped absent present
    obtain ⟨request, choice, task, acts, made, creates⟩ :=
      creates_of_step holds (Machine.step_eq_some_iff.mp stepped) absent present
    exact ⟨request, choice, task, acts, made, AccessTask.creates_iff.mp creates⟩
  · intro request name serverUrl json code lines secret answered made printed
    obtain ⟨_, task, made', answers⟩ := orderly.answered _ answered
    obtain rfl := Option.some.inj (made'.symm.trans made)
    obtain ⟨succeeded, guard⟩ := answers secret printed
    exact ⟨succeeded, (guard.accepts_iff _).mpr rfl⟩

open AccessSchedule in
/-- Two requests register the vault "new" with different keys; the first of them
inserts it, and the second is refused.  A legacy vault is opened besides. -/
def registrationRace : AccessSchedule :=
  receives 0 (.authVerify (.ok ⟨"new", "one", some "admin"⟩)) 0 "" 1 ++
    receives 1 (.authVerify (.ok ⟨"new", "two", some "admin"⟩)) 0 "" 1 ++
    calls 0 0 "" 3 ++ [.finish 0] ++ calls 1 0 "" 3 ++ [.finish 1] ++
    serves 2 (.authVerify (.ok ⟨"old", "plain", none⟩)) 0 "" 5

theorem registrationRace_enabled : registrationRace.EnabledFrom .legacy := by
  decide +kernel

theorem AccessSettings.reference_hashesOpen : HashesOpen AccessSettings.reference := by
  rintro salt plaintext stored hashed other
  have written : stored = "$argon2id$" ++ plaintext := (Except.ok.inj hashed).symm
  have encoded : startsWithArgon2 stored = true := by
    rw [written, startsWithArgon2, String.toList_append, List.isPrefixOf_iff_prefix]
    exact (by decide +kernel : "$argon2".toList <+: "$argon2id$".toList).trans
      (List.prefix_append _ _)
  rw [verifySecret, if_pos encoded, written]
  change ("$argon2id$" ++ plaintext == "$argon2id$" ++ other) = true ↔ _
  rw [beq_iff_eq, String.append_right_inj]
  exact eq_comm

theorem one_secret_per_vault_raced :
    (registrationRace.config registrationRace_enabled).shared.shared.db.vaults.lookup "new" =
        some "$argon2id$one" ∧
      (registrationRace.config registrationRace_enabled).shared.shared.db.vaults.lookup "old" =
        some "$argon2id$plain" ∧
      OneSecret AccessSettings.reference (registrationRace.config registrationRace_enabled) := by
  refine ⟨by decide +kernel, by decide +kernel, ?_⟩
  refine one_secret_per_vault AccessSettings.reference_hashesOpen ?_
    (AccessSchedule.reachable registrationRace_enabled)
  intro vaultId stored found encoded
  exact ⟨"plain", by
    rw [AccessDb.legacy, Table.lookup_insert_eq_ite] at found
    split_ifs at found
    · obtain rfl := Option.some.inj found
      exact absurd encoded (by decide +kernel)
    · cases found⟩

end Runs

end VaultCrdtServer
