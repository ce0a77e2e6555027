import VaultCrdtServer.Blobs.Effects
import VaultCrdtServer.Foundation.Footprint

/-!
# Contracts of the blob requests

The contracts of the requests differ in what a request assumes of the others
and in what it promises whenever it makes a call.  What a call does is the same
in all of them, and so are the rules by which a handler is followed from call
to call: an assertion that interference keeps holds before the call, and the
rest of the handler goes on from the state the call has left.
-/

namespace VaultCrdtServer

open Interleaving

/-- What a request may assume and has to promise. -/
structure BlobTerms where
  /-- What the others may do while the request waits. -/
  rely : BlobServer → BlobServer → Prop
  /-- What holds whenever the request makes a call. -/
  pre : BlobCall → BlobServer → Prop
  /-- What is known of the server when a call is executed. -/
  facts : BlobServer → Prop
  rely_refl : ∀ server, rely server server
  rely_trans : ∀ {first second third}, rely first second → rely second third →
    rely first third

/-- The contract of a request. -/
def blobContract
    (settings : BlobSettings)
    (request : Nat)
    (terms : BlobTerms) : Contract blobSignature BlobServer where
  rely := terms.rely
  pre := terms.pre
  exec := fun call server reply server' => terms.facts server ∧ ∃ circumstance,
    BlobServer.exec settings request call circumstance server = some (reply, server')
  rely_refl := terms.rely_refl
  rely_trans := terms.rely_trans

/-- Interference keeps an assertion. -/
def BlobTerms.Stable (terms : BlobTerms) (assertion : BlobServer → Prop) : Prop :=
  ∀ server server', assertion server → terms.rely server server' → assertion server'

theorem BlobTerms.Stable.and
    {terms : BlobTerms}
    {first second : BlobServer → Prop}
    (stable : terms.Stable first)
    (stable' : terms.Stable second) :
    terms.Stable fun server => first server ∧ second server :=
  fun server server' holds tolerated =>
    ⟨stable server server' holds.1 tolerated, stable' server server' holds.2 tolerated⟩

/-- A database call took effect. -/
structure Committed
    (settings : BlobSettings)
    (request : Nat)
    (call : BlobDbCall)
    (reply : call.Reply)
    (server server' : BlobServer) : Prop where
  exec : ∃ now uuid db,
    call.exec settings.defaultQuotaBytes now uuid server.db = .ok (reply, db) ∧
      server.uploads.issued uuid = none ∧
      server' = server.commit request now call reply db

/-- A handler has failed, or it goes on with a value of which something is
known. -/
def Yields {α : Type} (middle : α → BlobServer → Prop) :
    Except ServerError α → BlobServer → Prop
  | .ok value, server => middle value server
  | .error _, _ => True

/-- Nothing is known of what a handler ends with. -/
abbrev Ends (α : Type) : α → BlobServer → Prop := fun _ _ => True

section Rules

variable {settings : BlobSettings} {request : Nat} {terms : BlobTerms}
variable {α : Type} {post : Except ServerError α → BlobServer → Prop}
variable {server : BlobServer} {assertion : BlobServer → Prop}

/-- A handler that ends. -/
theorem blob_meets_pure
    {value : α}
    (stable : terms.Stable assertion)
    (holds : assertion server)
    (ends : ∀ server, assertion server → post (.ok value) server) :
    (pure value : BlobHandler α).run.Meets (blobContract settings request terms)
      post server :=
  fun later tolerated => ends later (stable server later holds tolerated)

/-- A handler that fails. -/
theorem blob_meets_throw
    {error : ServerError}
    (stable : terms.Stable assertion)
    (holds : assertion server)
    (ends : ∀ server, assertion server → post (.error error) server) :
    (throw error : BlobHandler α).run.Meets (blobContract settings request terms)
      post server :=
  fun later tolerated => ends later (stable server later holds tolerated)

/-- A call whose result the handler looks at. -/
theorem blob_meets_attempt
    {call : BlobCall}
    {continuation : blobSignature.Reply call → BlobHandler α}
    (stable : terms.Stable assertion)
    (holds : assertion server)
    (pre : ∀ server, assertion server → terms.pre call server)
    (continues : ∀ server circumstance reply server', assertion server → terms.facts server →
      BlobServer.exec settings request call circumstance server = some (reply, server') →
      (continuation reply).run.Meets (blobContract settings request terms) post server') :
    (BlobHandler.attempt call >>= continuation).run.Meets
      (blobContract settings request terms) post server := by
  intro server' tolerated
  have here := stable server server' holds tolerated
  refine ⟨pre server' here, ?_⟩
  rintro reply server'' ⟨facts, circumstance, executed⟩
  exact continues server' circumstance reply server'' here facts executed

/-- A database call: the handler fails with it, or goes on with its reply. -/
theorem blob_meets_db
    {call : BlobDbCall}
    {continuation : call.Reply → BlobHandler α}
    (stable : terms.Stable assertion)
    (holds : assertion server)
    (pre : ∀ server, assertion server → terms.pre (.db call) server)
    (fails : ∀ server error, assertion server → post (.error error) server)
    (continues : ∀ server reply server', assertion server → terms.facts server →
      Committed settings request call reply server server' →
      (continuation reply).run.Meets (blobContract settings request terms) post server') :
    (BlobHandler.db call >>= continuation).run.Meets
      (blobContract settings request terms) post server := by
  intro server' tolerated
  have here := stable server server' holds tolerated
  refine ⟨pre server' here, ?_⟩
  rintro reply server'' ⟨facts, circumstance, executed⟩
  rcases BlobServer.query_cases executed with
    ⟨error, rfl, rfl⟩ | ⟨value, db, rfl, undrawn, effect, rfl⟩
  · exact fun later tolerated' => fails later error (stable _ later here tolerated')
  · exact continues server' value _ here facts ⟨_, _, db, effect, undrawn, rfl⟩

/-- A file operation: the handler fails with it, or goes on with its reply. -/
theorem blob_meets_file
    {call : FileCall}
    {continuation : call.Reply → BlobHandler α}
    (stable : terms.Stable assertion)
    (holds : assertion server)
    (pre : ∀ server, assertion server → terms.pre (.file call) server)
    (fails : ∀ server circumstance error server' later, assertion server → terms.facts server →
      server.operate call circumstance = (.error error, server') →
      terms.rely server' later → post (.error error.toServerError) later)
    (continues : ∀ server circumstance reply server', assertion server → terms.facts server →
      server.operate call circumstance = (.ok reply, server') →
      (continuation reply).run.Meets (blobContract settings request terms) post server') :
    (BlobHandler.file call >>= continuation).run.Meets
      (blobContract settings request terms) post server := by
  intro server' tolerated
  have here := stable server server' holds tolerated
  refine ⟨pre server' here, ?_⟩
  rintro reply server'' ⟨facts, circumstance, executed⟩
  simp only [BlobServer.exec, Option.some.injEq] at executed
  cases reply with
  | error error =>
      exact fun later tolerated' =>
        fails server' circumstance error server'' later here facts executed tolerated'
  | ok value => exact continues server' circumstance value server'' here facts executed

/-- What holds however a handler ends holds of what it yields. -/
theorem yields_always
    {handler : BlobHandler α}
    (meets : handler.run.Meets (blobContract settings request terms) (fun _ => assertion)
      server) :
    handler.run.Meets (blobContract settings request terms) (Yields fun _ => assertion)
      server := by
  refine meets.weaken ?_
  intro result server holds
  cases result with
  | ok value => exact holds
  | error error => trivial

/-- Sequential composition. -/
theorem yields_bind
    {β : Type}
    {middle : α → BlobServer → Prop}
    {final : β → BlobServer → Prop}
    {handler : BlobHandler α}
    {continuation : α → BlobHandler β}
    (first : handler.run.Meets (blobContract settings request terms) (Yields middle) server)
    (second : ∀ value server, middle value server →
      (continuation value).run.Meets (blobContract settings request terms) (Yields final)
        server) :
    (handler >>= continuation).run.Meets (blobContract settings request terms)
      (Yields final) server := by
  refine Program.Meets.bind_fallible middle (first.weaken ?_) second
  intro result server yields
  cases result with
  | ok value => exact yields
  | error error => trivial

end Rules

end VaultCrdtServer
