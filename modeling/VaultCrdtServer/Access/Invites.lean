import VaultCrdtServer.Access.Ledger
import VaultCrdtServer.Access.Reference

/-!
# Invites are single use

A request draws its secret before it mints an invite with it, and finds an
invite before it redeems it.  Neither is undone by what the others do, so every
insertion is one of a new secret and every redemption is one of a minted invite
into its own vault; the ledger does the rest.
-/

namespace VaultCrdtServer

open Interleaving

variable {Blob : Type}

/-! ## Terms -/

section Terms

variable (settings : AccessSettings Blob) (start : AccessDb Blob)

/-- What was minted stays so, and what was drawn for the request or done for it
is left alone. -/
structure KeepsInvites (request : Nat) (server server' : AccessServer Blob) : Prop where
  minted : server.minted ⊆ server'.minted
  entries : server'.entriesOf request = server.entriesOf request
  owns : ∀ secret, server.Owns request secret → server'.Owns request secret

/-- An invite is inserted with a secret that was drawn for it, and redeemed
where it was minted with the given secret's hash. -/
def Presents (request : Nat) (task : AccessTask) : AccessCall Blob → AccessServer Blob → Prop
  | .db (.insertInvite _ invite _ _), server => server.Owns request invite
  | .db (.redeemInvite id key _ _), server => ∃ body, task = .redeem body ∧
      ∃ minted ∈ server.minted, minted.id = id ∧ minted.vaultId = key.vault ∧
        settings.sha256Hex minted.invite = settings.sha256Hex body.invite
  | _, _ => True

/-- The request has not redeemed anything. -/
def Unredeemed (request : Nat) (task : AccessTask) (server : AccessServer Blob) : Prop :=
  ∀ body, task = .redeem body → server.Untouched request

/-- A redemption was answered: the invite of the given secret was consumed for a
key in its own vault, and the token is for this vault. -/
def Redeems
    (request : Nat)
    (body : RedeemRequest)
    (outcome : AccessOutcome)
    (server : AccessServer Blob) : Prop :=
  ∃ deviceKey token, ∃ minted ∈ server.minted,
    ∃ redemption ∈ (server.entriesOf request).filterMap AccessEntry.redemption,
      outcome = .response (.ok (.redeemed deviceKey token minted.vaultId)) ∧
        token.sub = minted.vaultId ∧
        settings.sha256Hex minted.invite = settings.sha256Hex body.invite ∧
        redemption.id = minted.id ∧ redemption.key = ⟨minted.vaultId, body.peerId⟩

/-- A redemption that was answered otherwise has changed nothing. -/
def AnswersInvite (request : Nat) :
    AccessTask → AccessOutcome → AccessServer Blob → Prop
  | .redeem body, outcome, server =>
      (outcome.isOk = false ∧ server.Untouched request) ∨
        Redeems settings request body outcome server
  | _, _, _ => True

/-- What requests assume and promise of invites. -/
def inviteTerms : (accessService settings).Terms where
  rely := KeepsInvites
  pre := fun request task call server =>
    Presents settings request task call server ∧ Unredeemed request task server
  post := AnswersInvite settings
  fresh := fun request server => server.entriesOf request = []
  invariant := fun server =>
    Ledger settings.toAccessLibraries server ∧ SingleUse start server
  rely_refl := fun _ _ => ⟨List.Subset.refl _, rfl, fun _ owns => owns⟩
  rely_trans := fun earlier later =>
    ⟨List.Subset.trans earlier.minted later.minted, later.entries.trans earlier.entries,
      fun secret owns => later.owns secret (earlier.owns secret owns)⟩

end Terms

section Stable

variable {settings : AccessSettings Blob} {start : AccessDb Blob}
variable {request other : Nat} {server server' : AccessServer Blob}

theorem KeepsInvites.untouched
    (keeps : KeepsInvites request server server')
    (untouched : server.Untouched request) :
    server'.Untouched request := by
  unfold AccessServer.Untouched
  rw [keeps.entries]
  exact untouched

theorem KeepsInvites.redeems
    {body : RedeemRequest}
    {outcome : AccessOutcome}
    (keeps : KeepsInvites request server server')
    (redeems : Redeems settings request body outcome server) :
    Redeems settings request body outcome server' := by
  obtain ⟨deviceKey, token, minted, member, redemption, redeemed, meaning⟩ := redeems
  refine ⟨deviceKey, token, minted, keeps.minted member, redemption, ?_, meaning⟩
  rw [keeps.entries]
  exact redeemed

/-- A database call of another request that does not insert an invite. -/
theorem keepsInvites_record
    {now : Time}
    {call : AccessDbCall Blob}
    {result : Except ServerError call.Reply}
    {db : AccessDb Blob}
    (different : other ≠ request)
    (minted : (server.record request now call result db).minted = server.minted) :
    KeepsInvites other server (server.record request now call result db) where
  minted := by
    rw [minted]
    exact List.Subset.refl _
  entries := AccessServer.entriesOf_record_of_ne different
  owns := by
    intro secret owns
    refine ⟨owns.1, ?_⟩
    rw [minted]
    exact owns.2

/-- Another request inserts an invite with its own secret. -/
theorem keepsInvites_insert
    {now expiresAt : Time}
    {vaultId invite inviterPeerId : String}
    {deviceName : Option String}
    {db : AccessDb Blob}
    (different : other ≠ request)
    (owned : server.Owns request invite) :
    KeepsInvites other server (server.record request now
      (.insertInvite vaultId invite inviterPeerId deviceName) (.ok expiresAt) db) where
  minted := List.subset_append_left _ _
  entries := AccessServer.entriesOf_record_of_ne different
  owns := by
    intro secret owns
    refine ⟨owns.1, ?_⟩
    intro minted member
    rcases List.mem_append.mp member with older | newest
    · exact owns.2 minted older
    · rw [List.mem_singleton.mp newest]
      rintro rfl
      exact different (Option.some.inj (owns.1.symm.trans owned.1))

/-- A call besides the database's leaves the ledger alone. -/
theorem shrinks_of_journal_eq
    (database : server'.db = server.db)
    (minted : server'.minted = server.minted)
    (journal : server'.journal = server.journal) :
    Shrinks server server' where
  minted := minted
  redemptions := by rw [AccessServer.redemptions, journal, AccessServer.redemptions]
  inviteSeq := by rw [database]
  invites := by
    rw [database]
    exact fun _ _ found => found
  deviceKeys := by
    rw [database]
    exact fun _ => Iff.rfl

/-- A secret is drawn once, so what others own is not drawn again. -/
theorem keepsInvites_exec
    {call : AccessCall Blob}
    {choice : AccessChoice}
    {reply : (accessSignature Blob).Reply call}
    (executed : AccessServer.exec settings.toAccessLibraries request call choice server =
      some (reply, server'))
    (besides : ∀ dbCall, call ≠ .db dbCall)
    (other : Nat) :
    KeepsInvites other server server' := by
  obtain ⟨_, minted, journal⟩ := AccessServer.exec_other executed besides
  refine ⟨minted ▸ List.Subset.refl _, ?_, ?_⟩
  · rw [AccessServer.entriesOf, journal, AccessServer.entriesOf]
  · intro secret owns
    refine ⟨?_, minted ▸ owns.2⟩
    cases call with
    | db call => exact absurd rfl (besides call)
    | hashSecret plaintext =>
        simp only [AccessServer.exec] at executed
        split at executed <;>
          rw [← (Prod.mk.inj (Option.some.inj executed)).2] <;> exact owns.1
    | jwtSign vaultId =>
        simp only [AccessServer.exec] at executed
        split at executed <;>
          rw [← (Prod.mk.inj (Option.some.inj executed)).2] <;> exact owns.1
    | randomSecret length alphabet =>
        simp only [AccessServer.exec, Option.ite_none_right_eq_some] at executed
        obtain ⟨⟨_, _, undrawn, _⟩, executed⟩ := executed
        rw [← (Prod.mk.inj (Option.some.inj executed)).2]
        have different : secret ≠ choice.random := by
          rintro rfl
          exact absurd (undrawn.symm.trans owns.1) (Option.some_ne_none other).symm
        exact (Function.update_of_ne different _ _).trans owns.1

/-- The ledger is kept by every call, and so is what the others rely on. -/
theorem invites_step
    {task : AccessTask}
    {call : AccessCall Blob}
    {choice : AccessChoice}
    {reply : (accessSignature Blob).Reply call}
    (ledger : Ledger settings.toAccessLibraries server)
    (single : SingleUse start server)
    (presents : Presents settings request task call server)
    (executed : AccessServer.exec settings.toAccessLibraries request call choice server =
      some (reply, server')) :
    (Ledger settings.toAccessLibraries server' ∧ SingleUse start server') ∧
      ∀ other, other ≠ request → KeepsInvites other server server' := by
  by_cases database : ∃ dbCall, call = .db dbCall
  · obtain ⟨dbCall, rfl⟩ := database
    obtain ⟨db, rfl, made⟩ := AccessServer.exec_db executed
    have unchanged : Shrinks server (server.record request choice.now dbCall reply db) →
        (Ledger settings.toAccessLibraries
            (server.record request choice.now dbCall reply db) ∧
          SingleUse start (server.record request choice.now dbCall reply db)) ∧
            ∀ other, other ≠ request →
              KeepsInvites other server (server.record request choice.now dbCall reply db) :=
      fun shrinks => ⟨⟨ledger.shrink shrinks, single.shrink shrinks⟩,
        fun _ different => keepsInvites_record different shrinks.minted⟩
    obtain ⟨error, rfl, rfl⟩ | ⟨value, rfl, effect⟩ := made
    · exact unchanged shrinks_of_error
    · have apart := fun minted redeemed =>
        unchanged (shrinks_of_effect effect minted redeemed)
      cases effect with
      | insertInvite mints =>
          exact ⟨⟨ledger.insertInvite mints presents.2, single.insertInvite ledger mints⟩,
            fun other different => keepsInvites_insert different presents⟩
      | redeemInvite consumes =>
          obtain ⟨_, _, minted, member, same, vault, _⟩ := presents
          exact ⟨⟨ledger.redeemInvite consumes,
              single.redeemInvite ledger consumes ⟨minted, member, same, vault⟩⟩,
            fun other different => keepsInvites_record different rfl⟩
      | @redeemNothing _ _ _ _ outcome refused =>
          refine apart (fun _ _ _ _ same => nomatch same) ?_
          cases outcome with
          | consumed => exact absurd rfl refused
          | _ => rfl
      | _ => exact apart (fun _ _ _ _ same => nomatch same) rfl
  · have besides : ∀ dbCall, call ≠ .db dbCall := fun dbCall same => database ⟨dbCall, same⟩
    obtain ⟨same, minted, journal⟩ := AccessServer.exec_other executed besides
    have shrinks := shrinks_of_journal_eq same minted journal
    exact ⟨⟨ledger.shrink shrinks, single.shrink shrinks⟩,
      fun other _ => keepsInvites_exec executed besides other⟩

end Stable

/-! ## Requests -/

section Requests

variable {settings : AccessSettings Blob} {start : AccessDb Blob} {request : Nat}
variable {task : AccessTask} {server : AccessServer Blob}

theorem stable_owns
    (settings : AccessSettings Blob)
    (start : AccessDb Blob)
    (request : Nat)
    (secret : String) :
    Stable (inviteTerms settings start) request (AccessServer.Owns request secret) :=
  fun _ _ owns keeps => keeps.owns secret owns

theorem stable_untouched :
    Stable (inviteTerms settings start) request (AccessServer.Untouched request) :=
  fun _ _ untouched keeps => keeps.untouched untouched

/-- A secret is minted by the request it was drawn for. -/
theorem mintInvite_presents
    (other : ∀ body, task ≠ .redeem body)
    (vaultId inviterPeerId : String)
    (deviceName : Option String) :
    (mintInvite vaultId inviterPeerId deviceName : AccessHandler Blob (String × Time)).run.Meets
      ((inviteTerms settings start).contract request task) (fun _ _ => True) server := by
  have unredeemed : ∀ server : AccessServer Blob, Unredeemed request task server :=
    fun _ body same => absurd same (other body)
  unfold mintInvite
  refine access_meets_random (fun _ _ _ _ => trivial) trivial
    (fun server _ => ⟨trivial, unredeemed server⟩) ?_
  intro drawn invite _ _ drawable
  have stable := stable_owns settings start request invite
  refine access_meets_db stable ⟨Function.update_self _ _ _, drawable.2.2.2⟩
    (fun server _ => ⟨trivial, unredeemed server⟩) (fun _ _ _ _ _ _ _ => trivial) ?_
  intro cleared now reply db owns _ effect
  cases effect
  refine access_meets_db stable ⟨owns.1, owns.2⟩
    (fun server owns => ⟨owns, unredeemed server⟩) (fun _ _ _ _ _ _ _ => trivial) ?_
  intro inserted now' reply' db' _ _ _
  exact access_meets_pure (fun _ _ _ _ => trivial) trivial fun _ _ => trivial

/-- The invite that was found. -/
def Found
    (settings : AccessSettings Blob)
    (id : Int)
    (vaultId secret : String)
    (server : AccessServer Blob) : Prop :=
  ∃ minted ∈ server.minted, minted.id = id ∧ minted.vaultId = vaultId ∧
    settings.sha256Hex minted.invite = settings.sha256Hex secret

theorem stable_found
    (settings : AccessSettings Blob)
    (start : AccessDb Blob)
    (request : Nat)
    (id : Int)
    (vaultId secret : String) :
    Stable (inviteTerms settings start) request fun server =>
      Found settings id vaultId secret server ∧ server.Untouched request := by
  rintro server server' ⟨⟨minted, member, meaning⟩, untouched⟩ keeps
  exact ⟨⟨minted, keeps.minted member, meaning⟩, keeps.untouched untouched⟩

/-- A response besides 200 after calls that have changed nothing. -/
theorem answersInvite_of_untouched
    {body : RedeemRequest}
    {result : Except ServerError AccessResponse}
    (untouched : server.Untouched request)
    (refused : (AccessOutcome.response result).isOk = false) :
    AnswersInvite settings request (.redeem body) (.response result) server :=
  Or.inl ⟨refused, untouched⟩

/-- A request that refuses. -/
theorem refuses_meets
    {body : RedeemRequest}
    {status : Nat}
    {reason : String}
    (other : status ≠ 200)
    (untouched : server.Untouched request) :
    (pure (.error status reason) : AccessHandler Blob AccessResponse).run.Meets
      ((inviteTerms settings start).contract request (.redeem body))
      (fun result => AnswersInvite settings request (.redeem body) (.response result))
      server := by
  refine access_meets_pure stable_untouched untouched fun _ untouched =>
    answersInvite_of_untouched untouched ?_
  exact decide_eq_false other

/-- The transaction of a redemption, and what is answered for its outcome. -/
theorem redeemInvite_answers
    {body : RedeemRequest}
    {id : Int}
    {vaultId deviceKey hash : String}
    {token : Token}
    (subject : token.sub = vaultId)
    (found : Found settings id vaultId body.invite server)
    (untouched : server.Untouched request) :
    (do
      let outcome ← AccessHandler.db
        (.redeemInvite id ⟨vaultId, body.peerId⟩ hash body.deviceName)
      match outcome with
      | .consumed => return .redeemed deviceKey token vaultId
      | .alreadyUsed => return .error 409 "invite already used"
      | .expired => return .error 410 "invite expired" :
      AccessHandler Blob AccessResponse).run.Meets
      ((inviteTerms settings start).contract request (.redeem body))
      (fun result => AnswersInvite settings request (.redeem body) (.response result))
      server := by
  refine access_meets_db (stable_found settings start request id vaultId body.invite)
    ⟨found, untouched⟩ ?_ ?_ ?_
  · rintro server ⟨⟨minted, member, same, vault, hashed⟩, untouched⟩
    exact ⟨⟨body, rfl, minted, member, same, vault, hashed⟩, fun _ _ => untouched⟩
  · rintro server now error later ⟨_, untouched⟩ _ keeps
    exact answersInvite_of_untouched (keeps.untouched (untouched.read now _ _)) rfl
  · rintro server now outcome db ⟨⟨minted, member, same, vault, hashed⟩, untouched⟩ _ effect
    cases effect with
    | redeemInvite consumes =>
        have redeems : Redeems settings request body
            (.response (.ok (.redeemed deviceKey token vaultId)))
            (server.record request now
              (.redeemInvite id ⟨vaultId, body.peerId⟩ hash body.deviceName)
              (.ok .consumed) db) := by
          refine ⟨deviceKey, token, minted, member, ⟨request, now, id, ⟨vaultId, body.peerId⟩⟩,
            ?_, by rw [vault], subject.trans vault.symm, hashed, same.symm, by rw [vault]⟩
          rw [AccessServer.entriesOf_record_self, List.filterMap_append]
          exact List.mem_append_right _ (List.mem_singleton_self _)
        exact access_meets_pure (fun _ _ redeems keeps => keeps.redeems redeems) redeems
          fun _ redeems => Or.inr redeems
    | redeemNothing refused =>
        cases outcome with
        | consumed => exact absurd rfl refused
        | alreadyUsed => exact refuses_meets (by decide) (untouched.read now _ _)
        | expired => exact refuses_meets (by decide) (untouched.read now _ _)

/-- A redemption is answered with 200 where an invite was consumed, and changes
nothing otherwise. -/
theorem redeem_answers (body : RedeemRequest) (fresh : server.entriesOf request = []) :
    (redeem settings.toAccessLibraries body).run.Meets
      ((inviteTerms settings start).contract request (.redeem body))
      (fun result => AnswersInvite settings request (.redeem body) (.response result))
      server := by
  have untouched : server.Untouched request := by
    intro entry member
    rw [fresh] at member
    cases member
  unfold redeem
  split
  · exact refuses_meets (by decide) untouched
  · split
    · exact refuses_meets (by decide) untouched
    · split
      · exact refuses_meets (by decide) untouched
      · refine access_meets_db stable_untouched untouched
          (fun _ untouched => ⟨trivial, fun _ _ => untouched⟩) ?_ ?_
        · intro _ now _ later untouched _ keeps
          exact answersInvite_of_untouched (keeps.untouched (untouched.read now _ _)) rfl
        · intro listed now candidates db untouched ledgers effect
          cases effect
          have untouched := untouched.read now .listInvites (.ok (listed.db.listInvites now))
          split
          · exact refuses_meets (by decide) untouched
          · rename_i id vaultId hash found
            have here : Found settings id vaultId body.invite _ := ledgers.1.of_find found
            have stable := stable_found settings start request id vaultId body.invite
            refine access_meets_random stable ⟨here, untouched⟩
              (fun _ holds => ⟨trivial, fun _ _ => holds.2⟩) ?_
            rintro drawn deviceKey ⟨here, untouched⟩ _ _
            refine access_meets_hash stable ⟨here, untouched⟩
              (fun _ holds => ⟨trivial, fun _ _ => holds.2⟩)
              (fun _ _ holds => answersInvite_of_untouched holds.2 rfl) ?_
            rintro hashing salt stored ⟨here, untouched⟩ _
            refine access_meets_sign stable ⟨here, untouched⟩
              (fun _ holds => ⟨trivial, fun _ _ => holds.2⟩)
              (fun _ _ holds => answersInvite_of_untouched holds.2 rfl) ?_
            rintro signing token ⟨here, untouched⟩ subject
            exact redeemInvite_answers subject here untouched

/-- `create` mints with a secret of its own. -/
theorem createInvite_presents (vaultId : String) (body : InviteRequest) :
    (createInvite vaultId body : AccessHandler Blob AccessResponse).run.Meets
      ((inviteTerms settings start).contract request (.createInvite vaultId body))
      (fun _ _ => True) server := by
  have other : ∀ redeemed, AccessTask.createInvite vaultId body ≠ .redeem redeemed :=
    fun _ same => nomatch same
  unfold createInvite
  split
  · exact fun _ _ => trivial
  · split
    · exact fun _ _ => trivial
    · refine Program.Meets.bind_fallible (fun _ _ => True) ?_ fun _ _ _ _ _ => trivial
      refine (mintInvite_presents other vaultId body.peerId body.deviceName).weaken ?_
      rintro (error | minted) _ _ <;> trivial

/-- `invite_mint` mints with a secret of its own. -/
theorem inviteMint_presents
    (vaultId : String)
    (serverUrl : Option String)
    (json : Bool) :
    (inviteMint vaultId serverUrl json).Meets
      ((inviteTerms settings start).contract request (.inviteMint vaultId serverUrl json))
      (fun _ _ => True) server := by
  have other : ∀ redeemed, AccessTask.inviteMint vaultId serverUrl json ≠ .redeem redeemed :=
    fun _ same => nomatch same
  unfold inviteMint
  split
  · refine access_meets_call (.db (.vaultExists vaultId)) (fun _ _ _ _ => trivial) trivial
      (fun _ _ => ⟨trivial, fun _ same => nomatch same⟩) ?_
    rintro server' choice (error | _ | _) server'' _ _ _
    · exact fun _ _ => trivial
    · exact fun _ _ => trivial
    · change ((mintInvite vaultId "operator-cli" none).run.bind _).Meets _ _ _
      refine Program.Meets.bind _
        (mintInvite_presents other vaultId "operator-cli" none) ?_
      rintro (error | minted) _ _ _ _ <;> trivial
  · exact fun _ _ => trivial

end Requests

section Runs

variable {settings : AccessSettings Blob} {start : AccessDb Blob}

/-- The terms fit together. -/
theorem inviteTerms_sound : (inviteTerms settings start).Sound where
  step := by
    intro request task call choice server reply server' invariant pre executed
    exact invites_step invariant.1 invariant.2 pre.1 executed
  environment := by
    intro event server server' invariant happened
    obtain ⟨_, db, _, same, _⟩ := AccessServer.environment_eq_some happened
    have shrinks : Shrinks server server' := by
      rw [same]
      exact ⟨rfl, rfl, rfl, fun _ _ found => found, fun _ => Iff.rfl⟩
    exact ⟨invariant.1.shrink shrinks, invariant.2.shrink shrinks⟩
  environment_rely := by
    intro request event server server' happened
    obtain ⟨_, _, _, rfl, _⟩ := AccessServer.environment_eq_some happened
    exact ⟨List.Subset.refl _, rfl, fun _ owns => owns⟩
  program := by
    intro request task server _ fresh _
    have others : (∀ call, task.Makes settings call → ∀ server,
          Presents settings request task call server ∧ Unredeemed request task server) →
        (accessProgram settings task).Meets ((inviteTerms settings start).contract request task)
          (fun _ _ => True) server := by
      intro permitted
      refine (accessProgram_makes task).meets (fun _ => True) (fun _ _ _ _ => trivial) ?_
        (fun _ _ _ _ _ _ _ => trivial) trivial
      exact fun call state makes _ => permitted call makes state
    cases task with
    | createInvite vaultId body =>
        refine Program.Meets.bind _ (createInvite_presents vaultId body) ?_
        exact fun _ _ _ _ _ => trivial
    | inviteMint vaultId serverUrl json => exact inviteMint_presents vaultId serverUrl json
    | redeem body =>
        refine Program.Meets.bind _ (redeem_answers body fresh) ?_
        exact fun _ _ ended => ended
    | _ =>
        refine others ?_
        intro call makes server
        refine ⟨?_, fun _ same => nomatch same⟩
        unfold Presents
        split
        · cases makes
        · cases makes
        · trivial
  post_stable := by
    intro request task outcome server server' answers keeps
    cases task with
    | redeem body =>
        rcases answers with ⟨refused, untouched⟩ | redeems
        · exact Or.inl ⟨refused, keeps.untouched untouched⟩
        · exact Or.inr (keeps.redeems redeems)
    | _ => trivial
  fresh_stable := fun fresh keeps => keeps.entries.trans fresh

/-- The request redeemed the secret of its body with success. -/
def Succeeds
    (config : (accessService settings).machine.Config)
    (request : Nat)
    (body : RedeemRequest)
    (outcome : AccessOutcome) : Prop :=
  config.shared.requests[request]? = some (.redeem body) ∧
    (request, outcome) ∈ config.shared.answers ∧ outcome.isOk = true

/-- Invites are single use, in a configuration to which a schedule has led from
a server that was just started. -/
structure InvitesSingleUse
    (settings : AccessSettings Blob)
    (started : AccessServer Blob)
    (labels : List (accessService settings).machine.Label)
    (config : (accessService settings).machine.Config) : Prop where
  /-- A minted secret is redeemed by one request at most. -/
  once : ∀ minted ∈ config.shared.shared.minted, ∀ first second body body' outcome outcome',
    Succeeds config first body outcome → body.invite = minted.invite →
    Succeeds config second body' outcome' → body'.invite = minted.invite → first = second
  /-- Neither an invite nor a key takes part in two redemptions. -/
  ids : (config.shared.shared.redemptions.map Redemption.id).Nodup
  keys : (config.shared.shared.redemptions.map Redemption.key).Nodup
  /-- An invite is redeemed in time and into its own vault. -/
  own : ∀ redemption ∈ config.shared.shared.redemptions,
    ∃ minted ∈ config.shared.shared.minted, minted.id = redemption.id ∧
      minted.vaultId = redemption.key.vault ∧ redemption.now < minted.expiresAt
  /-- A success has consumed an invite of the secret's hash; key and token are for
  the vault of the invite. -/
  success : ∀ request body outcome, Succeeds config request body outcome →
    ∃ deviceKey token, ∃ minted ∈ config.shared.shared.minted,
      ∃ redemption ∈ config.shared.shared.redemptions,
        outcome = .response (.ok (.redeemed deviceKey token minted.vaultId)) ∧
          token.sub = minted.vaultId ∧
          settings.sha256Hex minted.invite = settings.sha256Hex body.invite ∧
          redemption.origin = request ∧ redemption.id = minted.id ∧
          redemption.now < minted.expiresAt ∧
          redemption.key = ⟨minted.vaultId, body.peerId⟩ ∧
          config.shared.shared.db.deviceKeys.lookup redemption.key ≠ none
  /-- A request that has ended otherwise, or was dropped at one of its calls, has
  changed neither invites nor keys. -/
  refused : Machine.Admits Service.Terms.EndsAnswered labels
      ((accessService settings).initial started) →
    ∀ request body, config.shared.requests[request]? = some (.redeem body) →
      config.thread request = none →
      (∀ outcome, (request, outcome) ∈ config.shared.answers → outcome.isOk = false) →
        config.shared.shared.Untouched request
  /-- From no keys on, the keys are those of the redemptions. -/
  matched : started.db.deviceKeys = ∅ → ∀ key,
    config.shared.shared.db.deviceKeys.lookup key ≠ none ↔
      ∃ redemption ∈ config.shared.shared.redemptions, redemption.key = key
  /-- From no used invites on, the used ones are those of the redemptions. -/
  marked : (∀ id row, started.db.invites.lookup id = some row → row.usedAt = none) →
    ∀ id row, config.shared.shared.db.invites.lookup id = some row →
      (row.usedAt ≠ none ↔ ∃ redemption ∈ config.shared.shared.redemptions, redemption.id = id)

/-- Whatever the requests, the order of their calls and their failures, invites
are single use, where SHA-256 does not collide on the minted ones. -/
theorem invites_single_use
    {db : AccessDb Blob}
    {minted : List MintedInvite}
    {issued : List String}
    {labels : List (accessService settings).machine.Label}
    {config : (accessService settings).machine.Config}
    (ledger : Ledger settings.toAccessLibraries (.started db minted issued))
    (runs : (accessService settings).machine.run labels
      ((accessService settings).initial (.started db minted issued)) = some config)
    (collisionFree : ∀ first ∈ config.shared.shared.minted,
      ∀ second ∈ config.shared.shared.minted,
        settings.sha256Hex first.invite = settings.sha256Hex second.invite →
          first.invite = second.invite) :
    InvitesSingleUse settings (.started db minted issued) labels config := by
  have single : SingleUse db (.started db minted issued) :=
    { ids := List.nodup_nil
      keys := List.nodup_nil
      own := fun _ member => nomatch member
      used := fun _ member => nomatch member
      stored := fun _ member => nomatch member
      redeemed := fun _ present => Or.inl present
      marked := fun _ row found used => Or.inl ⟨row, found, used⟩ }
  have sound : (inviteTerms settings db).Sound := inviteTerms_sound
  have initial : (inviteTerms settings db).discipline.Holds
      ((accessService settings).initial (.started db minted issued)) :=
    Service.Terms.holds_initial ⟨ledger, single⟩ fun _ => rfl
  have holds := sound.run initial runs
  have orderly : (inviteTerms settings db).Orderly config := holds.invariant
  obtain ⟨ledger', single'⟩ := orderly.shared
  have succeeded : ∀ request body outcome, Succeeds config request body outcome →
      Redeems settings request body outcome config.shared.shared := by
    rintro request body outcome ⟨made, answered, ok⟩
    obtain ⟨_, task, made', answers⟩ := orderly.answered _ answered
    obtain rfl := Option.some.inj (made'.symm.trans made)
    rcases answers with ⟨refused, _⟩ | redeems
    · rw [ok] at refused
      cases refused
    · exact redeems
  constructor
  · intro invite member first second body body' outcome outcome' success given success' given'
    obtain ⟨_, _, minted, minted_mem, redemption, redeemed, _, _, hashed, same, _⟩ :=
      succeeded first body outcome success
    obtain ⟨_, _, minted', minted_mem', redemption', redeemed', _, _, hashed', same', _⟩ :=
      succeeded second body' outcome' success'
    -- the hash tells the invite, the invite its redemption, and the latter its request
    have invited : minted = invite := by
      rw [given] at hashed
      exact ledger'.eq_of_invite minted_mem member
        (collisionFree minted minted_mem invite member hashed)
    have invited' : minted' = invite := by
      rw [given'] at hashed'
      exact ledger'.eq_of_invite minted_mem' member
        (collisionFree minted' minted_mem' invite member hashed')
    obtain ⟨listed, origin⟩ := AccessServer.mem_redemptions redeemed
    obtain ⟨listed', origin'⟩ := AccessServer.mem_redemptions redeemed'
    have one : redemption = redemption' := by
      refine List.inj_on_of_nodup_map single'.ids listed listed' ?_
      rw [same, same', invited, invited']
    rw [← origin, ← origin', one]
  · exact single'.ids
  · exact single'.keys
  · exact single'.own
  · intro request body outcome success
    obtain ⟨deviceKey, token, minted, member, redemption, redeemed, answered, subject,
      hashed, same, key⟩ := succeeded request body outcome success
    obtain ⟨listed, origin⟩ := AccessServer.mem_redemptions redeemed
    obtain ⟨minted', member', same', _, intime⟩ := single'.own redemption listed
    obtain rfl := ledger'.eq_of_id member' member (same'.trans same)
    exact ⟨deviceKey, token, minted', member, redemption, listed, answered, subject, hashed,
      origin, same, intime, key, single'.stored redemption listed⟩
  · intro ends request body made ended refused
    have unfinished := sound.run_unfinished (@Unredeemed Blob)
      (fun fresh _ _ entry member => by
        rw [fresh] at member
        cases member)
      (fun pre => pre.2) (fun kept keeps body same => keeps.untouched (kept body same))
      initial ends runs
    rcases unfinished request _ made with kept | ⟨outcome, running⟩ | ⟨outcome, answered⟩
    · exact kept body rfl
    · rw [ended] at running
      cases running
    · obtain ⟨_, task, made', answers⟩ := orderly.answered _ answered
      obtain rfl := Option.some.inj (made'.symm.trans made)
      rcases answers with ⟨_, untouched⟩ | ⟨_, _, _, _, _, _, succeeded, _⟩
      · exact untouched
      · have answer : outcome = _ := succeeded
        have failed := refused outcome answered
        rw [answer] at failed
        cases failed
  · intro none key
    have absent : db.deviceKeys.lookup key = Option.none := by
      change db.deviceKeys = ∅ at none
      rw [none]
      rfl
    constructor
    · intro present
      rcases single'.redeemed key present with before | during
      · exact absurd absent before
      · exact List.mem_map.mp during
    · rintro ⟨redemption, member, rfl⟩
      exact single'.stored redemption member
  · intro unused id row found
    constructor
    · intro used
      rcases single'.marked id row found used with ⟨row', before, used'⟩ | during
      · exact absurd (unused id row' before) used'
      · exact List.mem_map.mp during
    · rintro ⟨redemption, member, rfl⟩
      exact single'.used redemption member row found

open AccessSchedule in
/-- An invite is minted by the operator, found by two requests, and redeemed by
the second of them. -/
def redemptionRace : AccessSchedule :=
  serves 0 (.inviteMint "old" none false) 0 "abcdefghijklmnopqrstuv" 4 ++
    receives 1 (.redeem ⟨"abcdefghijklmnopqrstuv", "phone", "My phone"⟩) 10
      "ABCDEFGHIJKLMNOPQRSTUVWXYZabcdef" 4 ++
    serves 2 (.redeem ⟨"abcdefghijklmnopqrstuv", "tablet", "My tablet"⟩) 20
      "abcdefghijklmnopqrstuvwxyzABCDEF" 5 ++
    calls 1 30 "" 1 ++ [.finish 1]

theorem redemptionRace_enabled : redemptionRace.EnabledFrom .legacy := by
  decide +kernel

theorem invites_single_use_raced :
    (redemptionRace.config redemptionRace_enabled).shared.shared.redemptions =
        [⟨2, 20, 1, ⟨"old", "tablet"⟩⟩] ∧
      InvitesSingleUse AccessSettings.reference (.started .legacy [] []) redemptionRace
        (redemptionRace.config redemptionRace_enabled) := by
  have minted : (redemptionRace.config redemptionRace_enabled).shared.shared.minted =
      [⟨1, "abcdefghijklmnopqrstuv", "old", 900⟩] := by decide +kernel
  refine ⟨by decide +kernel, ?_⟩
  refine invites_single_use ?_ (AccessSchedule.run_eq_config redemptionRace_enabled) ?_
  · exact ⟨List.nodup_nil, List.nodup_nil, fun _ member => (nomatch member),
      fun id row found => by cases found⟩
  · rw [minted]
    rintro first member second member' _
    rw [List.mem_singleton.mp member, List.mem_singleton.mp member']

end Runs

end VaultCrdtServer
