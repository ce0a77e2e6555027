import VaultCrdtServer.Blobs.ProgressTasks

/-!
# Calls that do not fail

The contract of a request some of whose calls are known not to fail.  Its rules
are those of `Contract`, where the failure of a call is known to be one that
the call has of itself.
-/

namespace VaultCrdtServer

open Interleaving

/-- Neither SQLite nor the file system fails. -/
structure BlobCircumstance.Calm (circumstance : BlobCircumstance) : Prop where
  database : circumstance.dbFault = none
  files : circumstance.ioFault = none

instance (circumstance : BlobCircumstance) : Decidable circumstance.Calm :=
  decidable_of_iff (circumstance.dbFault = none ∧ circumstance.ioFault = none)
    ⟨fun calm => ⟨calm.1, calm.2⟩, fun calm => ⟨calm.1, calm.2⟩⟩

/-- What a request may assume and has to promise, and where its calls are known
not to fail. -/
structure CalmTerms extends BlobTerms where
  calm : BlobCall → BlobServer → Prop

/-- A call is executed, and where that is known it does not fail. -/
def CalmTerms.Executes
    (terms : CalmTerms)
    (settings : BlobSettings)
    (request : Nat)
    (call : BlobCall)
    (server : BlobServer)
    (reply : blobSignature.Reply call)
    (server' : BlobServer) : Prop :=
  ∃ circumstance, (terms.calm call server → circumstance.Calm) ∧
    BlobServer.exec settings request call circumstance server = some (reply, server')

/-- The contract of a request. -/
def calmContract
    (settings : BlobSettings)
    (request : Nat)
    (terms : CalmTerms) : Contract blobSignature BlobServer where
  rely := terms.rely
  pre := terms.pre
  exec := fun call server reply server' =>
    terms.facts server ∧ terms.Executes settings request call server reply server'
  rely_refl := terms.rely_refl
  rely_trans := terms.rely_trans

section Executes

variable {settings : BlobSettings} {request : Nat} {terms : CalmTerms}
variable {server server' : BlobServer}

/-- A database call fails or takes effect. -/
theorem CalmTerms.Executes.query
    {call : BlobDbCall}
    {reply : Except ServerError call.Reply}
    (executes : terms.Executes settings request (.db call) server reply server') :
    (∃ error, reply = .error error ∧ server' = server ∧
        (terms.calm (.db call) server → ∃ now uuid,
          call.exec settings.defaultQuotaBytes now uuid server.db = .error error)) ∨
      ∃ value, reply = .ok value ∧
        Committed settings request call value server server' := by
  obtain ⟨circumstance, calm, executed⟩ := executes
  change server.query settings request call circumstance = some (reply, server') at executed
  unfold BlobServer.query at executed
  cases fault : circumstance.dbFault with
  | some error =>
      simp only [fault, Option.some.injEq, Prod.mk.injEq] at executed
      obtain ⟨rfl, rfl⟩ := executed
      refine Or.inl ⟨error, rfl, rfl, ?_⟩
      intro known
      rw [(calm known).database] at fault
      cases fault
  | none =>
      simp only [fault] at executed
      split_ifs at executed with drawn
      cases effect : call.exec settings.defaultQuotaBytes circumstance.now circumstance.uuid
          server.db with
      | error error =>
          simp only [effect, Option.some.injEq, Prod.mk.injEq] at executed
          obtain ⟨rfl, rfl⟩ := executed
          exact Or.inl ⟨error, rfl, rfl, fun _ => ⟨_, _, effect⟩⟩
      | ok result =>
          simp only [effect, Option.some.injEq, Prod.mk.injEq] at executed
          obtain ⟨rfl, rfl⟩ := executed
          exact Or.inr ⟨result.1, rfl, ⟨_, _, result.2, effect,
            Option.not_isSome_iff_eq_none.mp drawn, rfl⟩⟩

/-- A file operation leaves everything but the disk alone, and where it is known
not to fail it does what it is for. -/
theorem CalmTerms.Executes.operate
    {call : FileCall}
    {reply : Except IoError call.Reply}
    (executes : terms.Executes settings request (.file call) server reply server') :
    server' = { server with disk := server'.disk } ∧
      call.Effect server.disk server'.disk ∧
      (terms.calm (.file call) server →
        BlobServer.fileEffect server.disk call = (reply, server'.disk)) ∧
      ∀ value, reply = .ok value →
        BlobServer.fileEffect server.disk call = (.ok value, server'.disk) := by
  obtain ⟨circumstance, calm, executed⟩ := executes
  have operated : server.operate call circumstance = (reply, server') :=
    Option.some.inj executed
  refine ⟨BlobServer.operate_eq operated, BlobServer.operate_effect operated, ?_, ?_⟩
  · intro known
    simp only [BlobServer.operate, (calm known).files, Prod.mk.injEq] at operated
    obtain ⟨rfl, rfl⟩ := operated
    rfl
  · rintro value rfl
    exact BlobServer.operate_eq_ok operated

end Executes

/-! ## Rules -/

section Rules

variable {settings : BlobSettings} {request : Nat} {terms : CalmTerms}
variable {α : Type} {post : Except ServerError α → BlobServer → Prop}
variable {server : BlobServer} {assertion : BlobServer → Prop}

/-- A handler that ends. -/
theorem calm_meets_pure
    {value : α}
    (stable : terms.Stable assertion)
    (holds : assertion server)
    (ends : ∀ server, assertion server → post (.ok value) server) :
    (pure value : BlobHandler α).run.Meets (calmContract settings request terms)
      post server :=
  fun later tolerated => ends later (stable server later holds tolerated)

/-- A handler that fails. -/
theorem calm_meets_throw
    {error : ServerError}
    (stable : terms.Stable assertion)
    (holds : assertion server)
    (ends : ∀ server, assertion server → post (.error error) server) :
    (throw error : BlobHandler α).run.Meets (calmContract settings request terms)
      post server :=
  fun later tolerated => ends later (stable server later holds tolerated)

/-- A call whose result the handler looks at. -/
theorem calm_meets_attempt
    {call : BlobCall}
    {continuation : blobSignature.Reply call → BlobHandler α}
    (stable : terms.Stable assertion)
    (holds : assertion server)
    (pre : ∀ server, assertion server → terms.pre call server)
    (continues : ∀ server reply server', assertion server → terms.facts server →
      terms.Executes settings request call server reply server' →
      (continuation reply).run.Meets (calmContract settings request terms) post server') :
    (BlobHandler.attempt call >>= continuation).run.Meets
      (calmContract settings request terms) post server := by
  intro server' tolerated
  have here := stable server server' holds tolerated
  refine ⟨pre server' here, ?_⟩
  rintro reply server'' ⟨facts, executes⟩
  exact continues server' reply server'' here facts executes

/-- A database call: the handler fails with it, or goes on with its reply. -/
theorem calm_meets_db
    {call : BlobDbCall}
    {continuation : call.Reply → BlobHandler α}
    (stable : terms.Stable assertion)
    (holds : assertion server)
    (pre : ∀ server, assertion server → terms.pre (.db call) server)
    (fails : ∀ server error, assertion server →
      (terms.calm (.db call) server → ∃ now uuid,
        call.exec settings.defaultQuotaBytes now uuid server.db = .error error) →
      ∀ later, terms.rely server later → post (.error error) later)
    (continues : ∀ server reply server', assertion server → terms.facts server →
      Committed settings request call reply server server' →
      (continuation reply).run.Meets (calmContract settings request terms) post server') :
    (BlobHandler.db call >>= continuation).run.Meets
      (calmContract settings request terms) post server := by
  intro server' tolerated
  have here := stable server server' holds tolerated
  refine ⟨pre server' here, ?_⟩
  rintro reply server'' ⟨facts, executes⟩
  rcases executes.query with ⟨error, rfl, rfl, known⟩ | ⟨value, rfl, committed⟩
  · exact fails _ error here known
  · exact continues server' value server'' here facts committed

/-- A file operation: the handler fails with it, or goes on with its reply. -/
theorem calm_meets_file
    {call : FileCall}
    {continuation : call.Reply → BlobHandler α}
    (stable : terms.Stable assertion)
    (holds : assertion server)
    (pre : ∀ server, assertion server → terms.pre (.file call) server)
    (fails : ∀ server error disk, assertion server → terms.facts server →
      call.Effect server.disk disk →
      (terms.calm (.file call) server →
        BlobServer.fileEffect server.disk call = (.error error, disk)) →
      ∀ later, terms.rely { server with disk := disk } later →
        post (.error error.toServerError) later)
    (continues : ∀ server reply disk, assertion server → terms.facts server →
      BlobServer.fileEffect server.disk call = (.ok reply, disk) →
      (continuation reply).run.Meets (calmContract settings request terms) post
        { server with disk := disk }) :
    (BlobHandler.file call >>= continuation).run.Meets
      (calmContract settings request terms) post server := by
  intro server' tolerated
  have here := stable server server' holds tolerated
  refine ⟨pre server' here, ?_⟩
  rintro reply server'' ⟨facts, executes⟩
  obtain ⟨same, effect, known, replied⟩ := executes.operate
  cases reply with
  | error error =>
      intro later tolerated'
      rw [same] at tolerated'
      exact fails server' error server''.disk here facts effect known later tolerated'
  | ok value =>
      have continued := continues server' value server''.disk here facts (replied value rfl)
      rwa [← same] at continued

variable {vault : VaultId} {uploadId : String}

/-- An upload that is looked for is missing, alive, or discarded. -/
theorem calm_meets_liveUpload
    {missed : BlobServer → Prop}
    {alive : UploadView → BlobServer → Prop}
    {outcome : Except ServerError Response → BlobServer → Prop}
    (stable : terms.Stable assertion)
    (missedStable : terms.Stable missed)
    (aliveStable : ∀ view, terms.Stable (alive view))
    (holds : assertion server)
    (pre : ∀ server, assertion server → terms.pre (.db (.readUpload vault uploadId)) server)
    (fails : ∀ server error, assertion server →
      ¬ terms.calm (.db (.readUpload vault uploadId)) server →
      ∀ later, terms.rely server later → outcome (.error error) later)
    (misses : ∀ server now, assertion server → terms.facts server →
      server.db.upload vault uploadId = none →
      missed (server.commit request now (.readUpload vault uploadId) none server.db))
    (reads : ∀ server now row, assertion server → terms.facts server →
      server.db.upload vault uploadId = some row → row.expired now = false →
      alive (row.view now) (server.commit request now (.readUpload vault uploadId)
        (some (row.view now)) server.db))
    (discards : ∀ server now row, assertion server → terms.facts server →
      server.db.upload vault uploadId = some row → row.expired now = true →
      (discardUpload vault uploadId).run.Meets (calmContract settings request terms)
        (Program.Reaches (fun _ => missed) outcome)
        (server.commit request now (.readUpload vault uploadId) (some (row.view now))
          server.db)) :
    (liveUpload vault uploadId).run.Meets (calmContract settings request terms)
      (Program.Reaches
        (fun found server => match found with
          | none => missed server
          | some view => alive view server) outcome) server := by
  refine calm_meets_db stable holds pre ?_ ?_
  · intro server error holds known later tolerated
    refine fails server error holds ?_ later tolerated
    intro calm
    obtain ⟨now, uuid, failed⟩ := known calm
    cases failed
  · intro server found server' holds facts committed
    obtain ⟨now, uuid, db, executed, -, rfl⟩ := committed.exec
    obtain ⟨replied, rfl⟩ := Prod.mk.inj (Except.ok.inj executed)
    subst replied
    unfold BlobDb.readUpload
    cases present : server.db.upload vault uploadId with
    | none =>
        exact calm_meets_pure missedStable (misses server now holds facts present)
          fun _ missed => missed
    | some row =>
        dsimp only [Option.map_some]
        cases expired : row.expired now with
        | true =>
            simp only [if_true]
            refine Program.Meets.bind_fallible (fun _ => missed) ?_ ?_
            · have gone := discards server now row holds facts present expired
              simp only [UploadRow.view, expired] at gone
              refine gone.weaken ?_
              intro result server known
              cases result <;> exact known
            · exact fun _ _ missed =>
                calm_meets_pure missedStable missed fun _ missed => missed
        | false =>
            simp only [Bool.false_eq_true, if_false]
            have here := reads server now row holds facts present expired
            simp only [UploadRow.view, expired] at here ⊢
            exact calm_meets_pure (aliveStable _) here fun _ alive => alive

end Rules

end VaultCrdtServer
