import VaultCrdtServer.Access.Ledger
import VaultCrdtServer.Access.Reference
import VaultCrdtServer.Access.Secrets

/-!
# Retirement is permanent

The row of a device key is never deleted and its `revoked_at` never cleared.  A
revoked row fails the recheck of every authentication, and its primary key is in
the way of every further redemption for the same peer.
-/

namespace VaultCrdtServer

open Interleaving

variable {Blob : Type}

/-! ## Revoked keys -/

/-- The key is there, and it is revoked. -/
def AccessDb.Revoked (key : PeerKey) (db : AccessDb Blob) : Prop :=
  ∃ row, db.deviceKeys.lookup key = some row ∧ row.revokedAt ≠ none

namespace AccessEntry

/-- The peer that a call has retired. -/
def retirement (entry : AccessEntry Blob) : Option PeerKey :=
  match entry.call, entry.result with
  | .retirePeer key, .ok () => some key
  | _, _ => none

/-- What a call has told about the revocation of a key. -/
def recheck (entry : AccessEntry Blob) : Option (PeerKey × Bool) :=
  match entry.call, entry.result with
  | .ensureNotRevoked key, .ok unrevoked => some (key, unrevoked)
  | _, _ => none

/-- The call has retired a peer and found its device key. -/
def Retired (key : PeerKey) (entry : AccessEntry Blob) : Prop :=
  entry.retirement = some key ∧ entry.before.deviceKeys.lookup key ≠ none

instance (key : PeerKey) (entry : AccessEntry Blob) : Decidable (entry.Retired key) :=
  inferInstanceAs (Decidable (_ ∧ _))

/-- A retirement is no redemption. -/
theorem redemption_of_retirement
    {key : PeerKey}
    {entry : AccessEntry Blob}
    (retired : entry.retirement = some key) :
    entry.redemption = none := by
  obtain ⟨origin, now, call, result, before, after⟩ := entry
  cases call with
  | retirePeer => rfl
  | _ => cases retired

/-- A retirement is no recheck. -/
theorem recheck_of_retirement
    {key : PeerKey}
    {entry : AccessEntry Blob}
    (retired : entry.retirement = some key) :
    entry.recheck = none := by
  obtain ⟨origin, now, call, result, before, after⟩ := entry
  cases call with
  | retirePeer => rfl
  | _ => cases retired

/-- The call has not taken the key for a valid one, and not replaced it. -/
structure Respects (key : PeerKey) (entry : AccessEntry Blob) : Prop where
  recheck : entry.recheck ≠ some (key, true)
  redemption : ∀ redemption, entry.redemption = some redemption → redemption.key ≠ key
  revoked : entry.after.Revoked key

end AccessEntry

section Effects

variable {libraries : AccessLibraries Blob} {now : Time} {db db' : AccessDb Blob}
variable {request : Nat} {key : PeerKey} {call : AccessDbCall Blob}

/-- A call that fails respects a revoked key. -/
theorem respects_of_error {error : ServerError} (revoked : db.Revoked key) :
    AccessEntry.Respects key ⟨request, now, call, .error error, db, db⟩ where
  recheck := by cases call <;> exact fun same => nomatch same
  redemption := by cases call <;> exact fun _ same => nomatch same
  revoked := revoked

/-- So does a call that takes effect. -/
theorem respects_of_effect
    {reply : call.Reply}
    (effect : call.Effect libraries now db reply db')
    (revoked : db.Revoked key) :
    AccessEntry.Respects key ⟨request, now, call, .ok reply, db, db'⟩ := by
  obtain ⟨row, found, marked⟩ := revoked
  cases effect with
  | @ensureNotRevoked asked =>
      refine ⟨?_, fun _ same => (nomatch same), row, found, marked⟩
      intro same
      have told := Option.some.inj same
      rw [Prod.mk.injEq] at told
      obtain ⟨rfl, unrevoked⟩ := told
      rw [AccessDb.ensureNotRevoked, found, Option.any_some] at unrevoked
      exact marked (Option.isNone_iff_eq_none.mp unrevoked)
  | @redeemInvite id taken keyHash deviceName invite _ consumes =>
      have other : key ≠ taken := by
        rintro rfl
        rw [consumes.fresh] at found
        cases found
      refine ⟨fun same => (nomatch same), ?_, row, ?_, marked⟩
      · intro redemption same
        rw [← Option.some.inj same]
        exact other.symm
      · rw [consumes.lookup_deviceKeys, if_neg other]
        exact found
  | @redeemNothing _ _ _ _ outcome refused =>
      refine ⟨fun same => (nomatch same), ?_, row, found, marked⟩
      cases outcome with
      | consumed => exact absurd rfl refused
      | _ => exact fun _ same => nomatch same
  | @retirePeer retired =>
      refine ⟨fun same => (nomatch same), fun _ same => (nomatch same), ?_⟩
      by_cases same : key = retired
      · refine ⟨{ row with revokedAt := some now }, ?_, Option.some_ne_none now⟩
        rw [AccessDb.lookup_retirePeer, if_pos same, ← same, found, Option.map_some]
      · refine ⟨row, ?_, marked⟩
        rw [AccessDb.lookup_retirePeer, if_neg same, found]
  | insertInvite mints =>
      refine ⟨fun same => (nomatch same), fun _ same => (nomatch same), row, ?_, marked⟩
      rw [mints.deviceKeys_eq]
      exact found
  | _ => exact ⟨fun same => (nomatch same), fun _ same => (nomatch same), row, found, marked⟩

/-- A retirement that finds the key revokes it. -/
theorem revoked_of_retired
    {reply : call.Reply}
    (effect : call.Effect libraries now db reply db')
    (retired : AccessEntry.Retired key ⟨request, now, call, .ok reply, db, db'⟩) :
    db'.Revoked key := by
  obtain ⟨named, present⟩ := retired
  cases effect with
  | retirePeer =>
      obtain rfl := Option.some.inj named
      obtain ⟨row, found⟩ := Option.ne_none_iff_exists'.mp present
      change db.deviceKeys.lookup _ = some row at found
      refine ⟨{ row with revokedAt := some now }, ?_, Option.some_ne_none now⟩
      rw [AccessDb.lookup_retirePeer, if_pos rfl, found, Option.map_some]
  | _ => cases named

end Effects

/-! ## Terms -/

/-- After a retirement every call respects the key, and the key stays revoked. -/
structure RetiredForGood (server : AccessServer Blob) : Prop where
  order : server.journal.Pairwise fun earlier later =>
    ∀ key, earlier.Retired key → later.Respects key
  revoked : ∀ entry ∈ server.journal, ∀ key, entry.Retired key → server.db.Revoked key

/-- Every recheck of the request has told that the key is valid. -/
def Confirmed (request : Nat) (server : AccessServer Blob) : Prop :=
  ∀ entry ∈ server.entriesOf request, ∀ key, entry.call = .ensureNotRevoked key →
    entry.recheck = some (key, true)

/-- A recheck of the request has told that a key is valid. -/
def KeyRechecked (request : Nat) (key : PeerKey) (server : AccessServer Blob) : Prop :=
  ∃ entry ∈ server.entriesOf request, entry.recheck = some (key, true)

/-- The token that is returned. -/
def AccessOutcome.token : AccessOutcome → Option Token
  | .response (.ok answer) => answer.token
  | _ => none

/-- A token is returned for a key after a recheck, and rechecks that have all told
it is valid, and a redemption succeeds for a peer by a call that has consumed an
invite. -/
def AnswersKey (request : Nat) : AccessTask → AccessOutcome → AccessServer Blob → Prop
  | .deviceAuth body, outcome, server => outcome.token ≠ none →
      Confirmed request server ∧ KeyRechecked request ⟨body.vaultId, body.peerId⟩ server
  | .redeem body, outcome, server => outcome.isOk = true →
      ∃ deviceKey token vaultId,
        outcome = .response (.ok (.redeemed deviceKey token vaultId)) ∧
          ∃ redemption ∈ (server.entriesOf request).filterMap AccessEntry.redemption,
            redemption.key = ⟨vaultId, body.peerId⟩
  | _, _, _ => True

/-- What requests promise of retired peers. -/
def retirementTerms (settings : AccessSettings Blob) : (accessService settings).Terms where
  rely := fun request server server' => server'.entriesOf request = server.entriesOf request
  pre := fun _ _ _ _ => True
  post := AnswersKey
  fresh := fun request server => server.entriesOf request = []
  invariant := RetiredForGood
  rely_refl := fun _ _ => rfl
  rely_trans := fun earlier later => later.trans earlier

section Terms

variable {settings : AccessSettings Blob} {request : Nat} {server server' : AccessServer Blob}

/-- A call keeps the order of the journal. -/
theorem RetiredForGood.record
    {now : Time}
    {call : AccessDbCall Blob}
    {result : Except ServerError call.Reply}
    {db : AccessDb Blob}
    (retired : RetiredForGood server)
    (respects : ∀ key, server.db.Revoked key →
      AccessEntry.Respects key ⟨request, now, call, result, server.db, db⟩)
    (revokes : ∀ key, AccessEntry.Retired key ⟨request, now, call, result, server.db, db⟩ →
      db.Revoked key) :
    RetiredForGood (server.record request now call result db) where
  order := by
    rw [AccessServer.record_journal, List.pairwise_append]
    refine ⟨retired.order, List.pairwise_singleton _ _, ?_⟩
    intro earlier member later newest key found
    rw [List.mem_singleton.mp newest]
    exact respects key (retired.revoked earlier member key found)
  revoked := by
    intro entry member key found
    rw [AccessServer.record_journal, List.mem_append, List.mem_singleton] at member
    rcases member with older | rfl
    · exact (respects key (retired.revoked entry older key found)).revoked
    · exact revokes key found

/-- Every call keeps the order of the journal, and the entries of the others. -/
theorem retirement_step
    {call : AccessCall Blob}
    {choice : AccessChoice}
    {reply : (accessSignature Blob).Reply call}
    (retired : RetiredForGood server)
    (executed : AccessServer.exec settings.toAccessLibraries request call choice server =
      some (reply, server')) :
    RetiredForGood server' ∧
      ∀ other, other ≠ request → server'.entriesOf other = server.entriesOf other := by
  by_cases database : ∃ dbCall, call = .db dbCall
  · obtain ⟨dbCall, rfl⟩ := database
    obtain ⟨db, rfl, ⟨error, rfl, rfl⟩ | ⟨value, rfl, effect⟩⟩ := AccessServer.exec_db executed
    · refine ⟨retired.record (fun _ => respects_of_error) ?_,
        fun _ => AccessServer.entriesOf_record_of_ne⟩
      rintro key ⟨named, _⟩
      cases dbCall <;> cases named
    · exact ⟨retired.record (fun _ => respects_of_effect effect)
          (fun _ => revoked_of_retired effect),
        fun _ => AccessServer.entriesOf_record_of_ne⟩
  · obtain ⟨same, _, journal⟩ := AccessServer.exec_other executed
      fun dbCall same => database ⟨dbCall, same⟩
    refine ⟨⟨?_, ?_⟩, ?_⟩
    · rw [journal]
      exact retired.order
    · rw [journal, same]
      exact retired.revoked
    · intro other _
      rw [AccessServer.entriesOf, journal, AccessServer.entriesOf]

theorem stable_confirmed :
    Stable (retirementTerms settings) request (Confirmed request) := by
  intro server server' confirmed same
  unfold Confirmed
  rw [same]
  exact confirmed

theorem stable_keyRechecked {key : PeerKey} :
    Stable (retirementTerms settings) request (KeyRechecked request key) := by
  intro server server' rechecked same
  unfold KeyRechecked
  rw [same]
  exact rechecked

/-- A call besides a recheck leaves the rechecks as they are. -/
theorem Confirmed.record
    (confirmed : Confirmed request server)
    (now : Time)
    (call : AccessDbCall Blob)
    (result : Except ServerError call.Reply)
    (db : AccessDb Blob)
    (told : ∀ key, call = .ensureNotRevoked key →
      AccessEntry.recheck ⟨request, now, call, result, server.db, db⟩ = some (key, true)) :
    Confirmed request (server.record request now call result db) := by
  intro entry member
  rw [AccessServer.entriesOf_record_self, List.mem_append, List.mem_singleton] at member
  rcases member with older | rfl
  · exact confirmed entry older
  · exact told

/-- `device_auth` returns a token after a recheck that has told the key is
valid. -/
theorem deviceAuth_answers
    (body : DeviceRequest)
    (fresh : server.entriesOf request = []) :
    (deviceAuth settings.toAccessLibraries body).run.Meets
      ((retirementTerms settings).contract request (.deviceAuth body))
      (fun result => AnswersKey request (.deviceAuth body) (.response result)) server := by
  have silent : ∀ {result : Except ServerError AccessResponse} {server : AccessServer Blob},
      (AccessOutcome.response result).token = none →
        AnswersKey request (.deviceAuth body) (.response result) server :=
    fun none carried => absurd none carried
  have anything : Stable (retirementTerms settings) request fun _ => True :=
    fun _ _ _ _ => trivial
  have confirmed : Confirmed request server := by
    intro entry member
    rw [fresh] at member
    cases member
  unfold deviceAuth
  split
  · exact access_meets_pure anything trivial fun _ _ => silent rfl
  · refine access_meets_db stable_confirmed confirmed (fun _ _ => trivial)
      (fun _ _ _ _ _ _ _ => silent rfl) ?_
    intro reading now hash db confirmed _ effect
    have confirmed := confirmed.record now (.getKeyHash ⟨body.vaultId, body.peerId⟩)
      (.ok hash) db fun _ same => nomatch same
    split
    · refine access_meets_db stable_confirmed confirmed (fun _ _ => trivial)
        (fun _ _ _ _ _ _ _ => silent rfl) ?_
      intro rechecking now' unrevoked db' confirmed _ _
      cases unrevoked with
      | false => exact access_meets_pure anything trivial fun _ _ => silent rfl
      | true =>
          have told : ∀ key,
              (.ensureNotRevoked ⟨body.vaultId, body.peerId⟩ : AccessDbCall Blob) =
                  .ensureNotRevoked key →
                AccessEntry.recheck ⟨request, now',
                  .ensureNotRevoked ⟨body.vaultId, body.peerId⟩, .ok true,
                  rechecking.db, db'⟩ = some (key, true) := by
            rintro key same
            rw [AccessDbCall.ensureNotRevoked.inj same]
            rfl
          have confirmed := confirmed.record now' _ _ db' told
          have rechecked : KeyRechecked request ⟨body.vaultId, body.peerId⟩
              (rechecking.record request now' (.ensureNotRevoked ⟨body.vaultId, body.peerId⟩)
                (.ok true) db') := by
            refine ⟨_, ?_, told _ rfl⟩
            rw [AccessServer.entriesOf_record_self]
            exact List.mem_append_right _ (List.mem_singleton_self _)
          have stable : Stable (retirementTerms settings) request fun server =>
              Confirmed request server ∧
                KeyRechecked request ⟨body.vaultId, body.peerId⟩ server :=
            stable_confirmed.and stable_keyRechecked
          refine access_meets_sign stable ⟨confirmed, rechecked⟩ (fun _ _ => trivial)
            (fun _ _ _ => silent rfl) ?_
          intro signing token both _
          exact access_meets_pure stable both fun _ both _ => both
    · exact access_meets_pure anything trivial fun _ _ => silent rfl

/-- `redeem` succeeds by a call that has consumed an invite for the key. -/
theorem redeem_consumes (body : RedeemRequest) :
    (redeem settings.toAccessLibraries body).run.Meets
      ((retirementTerms settings).contract request (.redeem body))
      (fun result => AnswersKey request (.redeem body) (.response result)) server := by
  have anything : Stable (retirementTerms settings) request fun _ => True :=
    fun _ _ _ _ => trivial
  have refuses : ∀ {result : Except ServerError AccessResponse} {server : AccessServer Blob},
      (AccessOutcome.response result).isOk = false →
        AnswersKey request (.redeem body) (.response result) server := by
    intro result server refused succeeded
    rw [refused] at succeeded
    cases succeeded
  have answers : ∀ {status : Nat} {reason : String} {server : AccessServer Blob}, status ≠ 200 →
      (pure (.error status reason) : AccessHandler Blob AccessResponse).run.Meets
        ((retirementTerms settings).contract request (.redeem body))
        (fun result => AnswersKey request (.redeem body) (.response result)) server :=
    fun other => access_meets_pure anything trivial fun _ _ =>
      refuses (decide_eq_false other)
  unfold redeem
  split
  · exact answers (by decide)
  · split
    · exact answers (by decide)
    · split
      · exact answers (by decide)
      · refine access_meets_db anything trivial (fun _ _ => trivial)
          (fun _ _ _ _ _ _ _ => refuses rfl) ?_
        intro listed now candidates db _ _ _
        split
        · exact answers (by decide)
        · rename_i id vaultId hash found
          refine access_meets_random anything trivial (fun _ _ => trivial) ?_
          intro _ deviceKey _ _ _
          refine access_meets_hash anything trivial (fun _ _ => trivial)
            (fun _ _ _ => refuses rfl) ?_
          intro _ salt stored _ _
          refine access_meets_sign anything trivial (fun _ _ => trivial)
            (fun _ _ _ => refuses rfl) ?_
          intro _ token _ _
          refine access_meets_db anything trivial (fun _ _ => trivial)
            (fun _ _ _ _ _ _ _ => refuses rfl) ?_
          intro redeeming now' outcome db' _ _ _
          cases outcome with
          | alreadyUsed => exact answers (by decide)
          | expired => exact answers (by decide)
          | consumed =>
              intro later same _
              refine ⟨deviceKey, token, vaultId, rfl,
                ⟨request, now', id, ⟨vaultId, body.peerId⟩⟩, ?_, rfl⟩
              rw [same, AccessServer.entriesOf_record_self, List.filterMap_append]
              exact List.mem_append_right _ (List.mem_singleton_self _)

/-- The terms fit together. -/
theorem retirementTerms_sound : (retirementTerms settings).Sound where
  step := fun retired _ executed => retirement_step retired executed
  environment := by
    intro event server server' retired happened
    obtain ⟨_, db, _, same, _⟩ := AccessServer.environment_eq_some happened
    rw [same]
    exact ⟨retired.order, retired.revoked⟩
  environment_rely := by
    intro request event server server' happened
    obtain ⟨_, db, _, same, _⟩ := AccessServer.environment_eq_some happened
    rw [same]
    rfl
  program := by
    intro request task server _ fresh _
    have others : (accessProgram settings task).Meets
        ((retirementTerms settings).contract request task) (fun _ _ => True) server := by
      refine (accessProgram_makes task).meets (fun _ => True) (fun _ _ _ _ => trivial) ?_
        (fun _ _ _ _ _ _ _ => trivial) trivial
      exact fun _ _ _ _ => trivial
    cases task with
    | deviceAuth body =>
        exact Program.Meets.bind _ (deviceAuth_answers body fresh) fun _ _ ended => ended
    | redeem body =>
        exact Program.Meets.bind _ (redeem_consumes body) fun _ _ ended => ended
    | _ => exact others
  post_stable := by
    intro request task outcome server server' answers same
    change server'.entriesOf request = server.entriesOf request at same
    cases task with
    | deviceAuth body =>
        intro carried
        unfold Confirmed KeyRechecked
        rw [same]
        exact answers carried
    | redeem body =>
        intro succeeded
        rw [same]
        exact answers succeeded
    | _ => trivial
  fresh_stable := fun fresh same => same.trans fresh

/-- After a retirement that found its key: whoever rechecks the key gets no
token, whoever has got one has rechecked the key before, whoever has redeemed an
invite for the peer has done so before, and the key stays revoked. -/
structure PermanentlyRetired
    (config : (accessService settings).machine.Config)
    (key : PeerKey)
    (earlier later : List (AccessEntry Blob)) : Prop where
  authentication : ∀ entry ∈ later, entry.call = .ensureNotRevoked key →
    ∀ body outcome,
      config.shared.requests[entry.origin]? = some (.deviceAuth body) →
      (entry.origin, outcome) ∈ config.shared.answers →
        AccessOutcome.token outcome = none
  authenticated : ∀ request body outcome,
    config.shared.requests[request]? = some (.deviceAuth body) →
    (⟨body.vaultId, body.peerId⟩ : PeerKey) = key →
    (request, outcome) ∈ config.shared.answers → AccessOutcome.token outcome ≠ none →
      ∃ entry ∈ earlier, entry.origin = request ∧ entry.recheck = some (key, true)
  redemption : ∀ entry ∈ later, ∀ redemption,
    entry.redemption = some redemption → redemption.key ≠ key
  redeemed : ∀ request body outcome,
    config.shared.requests[request]? = some (.redeem body) →
    body.peerId = key.peer →
    (request, outcome) ∈ config.shared.answers → AccessOutcome.isOk outcome = true →
      ∃ deviceKey token vaultId,
        outcome = .response (.ok (.redeemed deviceKey token vaultId)) ∧
          (vaultId = key.vault → ∃ entry ∈ earlier, entry.origin = request ∧
            ∃ redemption, entry.redemption = some redemption ∧ redemption.key = key)
  revoked : ∀ entry ∈ later, entry.after.Revoked key
  now : config.shared.shared.db.Revoked key

/-- Whatever the requests, the order of their calls and their failures, a
retirement that found the device key is permanent. -/
theorem retirement_is_permanent
    {db : AccessDb Blob}
    {minted : List MintedInvite}
    {issued : List String}
    {config : (accessService settings).machine.Config}
    {earlier later : List (AccessEntry Blob)}
    {retirement : AccessEntry Blob}
    {key : PeerKey}
    (reachable : (accessService settings).Reachable (.started db minted issued) config)
    (journal : config.shared.shared.journal = earlier ++ retirement :: later)
    (retired : retirement.Retired key) :
    PermanentlyRetired config key earlier later := by
  obtain ⟨labels, runs⟩ := reachable
  have sound : (retirementTerms settings).Sound := retirementTerms_sound
  have initial : (retirementTerms settings).discipline.Holds
      ((accessService settings).initial (.started db minted issued)) :=
    Service.Terms.holds_initial ⟨List.Pairwise.nil, fun _ member => nomatch member⟩
      fun _ => rfl
  have orderly : (retirementTerms settings).Orderly config :=
    (sound.run initial runs).invariant
  have order := orderly.shared.order
  rw [journal, List.pairwise_append, List.pairwise_cons] at order
  have respects : ∀ entry ∈ later, entry.Respects key := fun entry member =>
    order.2.1.1 entry member key retired
  have present : ∀ entry ∈ later, entry ∈ config.shared.shared.journal := by
    intro entry member
    rw [journal]
    exact List.mem_append_right _ (List.mem_cons_of_mem _ member)
  constructor
  · intro entry member rechecks body outcome made answered
    obtain ⟨_, task, made', answers⟩ := orderly.answered _ answered
    obtain rfl := Option.some.inj (made'.symm.trans made)
    by_contra carried
    have own : entry ∈ config.shared.shared.entriesOf entry.origin :=
      List.mem_filter.mpr ⟨present entry member, decide_eq_true rfl⟩
    exact (respects entry member).recheck ((answers carried).1 entry own key rechecks)
  · rintro request body outcome made rfl answered carried
    obtain ⟨_, task, made', answers⟩ := orderly.answered _ answered
    obtain rfl := Option.some.inj (made'.symm.trans made)
    obtain ⟨entry, member, valid⟩ := (answers carried).2
    obtain ⟨member, origin⟩ := List.mem_filter.mp member
    rw [journal, List.mem_append, List.mem_cons] at member
    rcases member with before | rfl | after
    · exact ⟨entry, before, of_decide_eq_true origin, valid⟩
    · rw [AccessEntry.recheck_of_retirement retired.1] at valid
      cases valid
    · exact absurd valid (respects entry after).recheck
  · exact fun entry member => (respects entry member).redemption
  · intro request body outcome made peer answered succeeded
    obtain ⟨_, task, made', answers⟩ := orderly.answered _ answered
    obtain rfl := Option.some.inj (made'.symm.trans made)
    obtain ⟨deviceKey, token, vaultId, same, redemption, listed, consumed⟩ :=
      answers succeeded
    refine ⟨deviceKey, token, vaultId, same, ?_⟩
    rintro rfl
    obtain ⟨entry, member, redeemed⟩ := List.mem_filterMap.mp listed
    obtain ⟨member, origin⟩ := List.mem_filter.mp member
    have for_key : redemption.key = key := by rw [consumed, peer]
    rw [journal, List.mem_append, List.mem_cons] at member
    rcases member with before | rfl | after
    · exact ⟨entry, before, of_decide_eq_true origin, redemption, redeemed, for_key⟩
    · rw [AccessEntry.redemption_of_retirement retired.1] at redeemed
      cases redeemed
    · exact absurd for_key ((respects entry after).redemption redemption redeemed)
  · exact fun entry member => (respects entry member).revoked
  · refine orderly.shared.revoked retirement ?_ key retired
    rw [journal]
    exact List.mem_append_right _ List.mem_cons_self

open AccessSchedule in
/-- A peer is onboarded and connects, and is retired between the two lookups of
its authentication. -/
def retirementRace : AccessSchedule :=
  serves 0 (.inviteMint "old" none false) 0 "abcdefghijklmnopqrstuv" 4 ++
    serves 1 (.redeem ⟨"abcdefghijklmnopqrstuv", "phone", "My phone"⟩) 10
      "ABCDEFGHIJKLMNOPQRSTUVWXYZabcdef" 5 ++
    serves 2 (.connect "old" (some "My phone") (some "phone")) 20 "" 1 ++
    receives 3 (.deviceAuth ⟨"old", "phone", "ABCDEFGHIJKLMNOPQRSTUVWXYZabcdef"⟩) 30 "" 1 ++
    serves 4 (.retirePeer "phone" ⟨some "old", some "My phone"⟩ (some "admin")) 40 "" 3 ++
    calls 3 50 "" 1 ++ [.finish 3]

theorem retirementRace_enabled : retirementRace.EnabledFrom .legacy := by
  decide +kernel

theorem retirement_is_permanent_raced :
    ∃ earlier later, later.length = 1 ∧
      PermanentlyRetired (retirementRace.config retirementRace_enabled) ⟨"old", "phone"⟩
        earlier later := by
  let journal := (retirementRace.config retirementRace_enabled).shared.shared.journal
  have split : journal = journal.take 9 ++
      journal.get ⟨9, by decide +kernel⟩ :: journal.drop 10 := by
    rw [List.get_eq_getElem, List.getElem_cons_drop, List.take_append_drop]
  refine ⟨journal.take 9, journal.drop 10, by decide +kernel, ?_⟩
  exact retirement_is_permanent (AccessSchedule.reachable retirementRace_enabled) split
    (by decide +kernel)

end Terms

end VaultCrdtServer
