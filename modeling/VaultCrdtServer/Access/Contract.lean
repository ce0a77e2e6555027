import VaultCrdtServer.Access.Effects
import VaultCrdtServer.Access.Server
import VaultCrdtServer.Foundation.Footprint

/-!
# Contracts of the requests

What a request assumes of the others and promises of its calls depends on the
property that is followed through it.  The rules by which a handler is followed
from call to call are the same: an assertion that interference keeps holds before
the call, and the rest of the handler goes on from the state the call has left.
-/

namespace VaultCrdtServer

open Interleaving

variable {Blob : Type} {settings : AccessSettings Blob}

namespace AccessServer

/-- The database calls made for a request. -/
def entriesOf (request : Nat) (server : AccessServer Blob) : List (AccessEntry Blob) :=
  server.journal.filter fun entry => entry.origin = request

variable {server : AccessServer Blob} {request other : Nat} {now : Time}
variable {call : AccessDbCall Blob} {result : Except ServerError call.Reply}
variable {db : AccessDb Blob}

@[simp] theorem record_db : (server.record request now call result db).db = db := rfl

@[simp] theorem record_drawn :
    (server.record request now call result db).drawn = server.drawn := rfl

@[simp] theorem record_issued :
    (server.record request now call result db).issued = server.issued := rfl

@[simp] theorem record_journal :
    (server.record request now call result db).journal =
      server.journal ++ [⟨request, now, call, result, server.db, db⟩] := rfl

theorem entriesOf_record_self :
    (server.record request now call result db).entriesOf request =
      server.entriesOf request ++ [⟨request, now, call, result, server.db, db⟩] := by
  simp [entriesOf]

theorem entriesOf_record_of_ne (different : other ≠ request) :
    (server.record request now call result db).entriesOf other =
      server.entriesOf other := by
  simp [entriesOf, Ne.symm different]

/-- Only an insertion mints. -/
theorem mintedBy_eq
    (minted : List MintedInvite)
    (other : ∀ vaultId invite inviterPeerId deviceName,
      call ≠ .insertInvite vaultId invite inviterPeerId deviceName) :
    mintedBy call result db minted = minted := by
  unfold mintedBy
  split
  · exact absurd rfl (other _ _ _ _)
  · rfl

end AccessServer

/-- A call of the database: it has failed, or taken effect. -/
theorem AccessDbCall.perform_cases
    {libraries : AccessLibraries Blob}
    {now : Time}
    {fault : Option ServerError}
    {call : AccessDbCall Blob}
    {db db' : AccessDb Blob}
    {result : Except ServerError call.Reply}
    (performed : call.perform libraries now fault db = (result, db')) :
    (∃ error, result = .error error ∧ db' = db) ∨
      ∃ reply, result = .ok reply ∧ call.Effect libraries now db reply db' := by
  unfold perform at performed
  cases fault with
  | some error =>
      obtain ⟨rfl, rfl⟩ := Prod.mk.inj performed
      exact Or.inl ⟨error, rfl, rfl⟩
  | none =>
      cases executed : call.exec libraries now db with
      | ok outcome =>
          simp only [executed] at performed
          obtain ⟨rfl, rfl⟩ := Prod.mk.inj performed
          exact Or.inr ⟨outcome.1, rfl, effect_of_exec executed⟩
      | error error =>
          simp only [executed] at performed
          obtain ⟨rfl, rfl⟩ := Prod.mk.inj performed
          exact Or.inl ⟨error, rfl, rfl⟩

/-- A call of the database, as the server makes it. -/
theorem AccessServer.exec_db
    {request : Nat}
    {call : AccessDbCall Blob}
    {choice : AccessChoice}
    {server server' : AccessServer Blob}
    {reply : Except ServerError call.Reply}
    (executed : AccessServer.exec settings.toAccessLibraries request (.db call) choice
      server = some (reply, server')) :
    ∃ db, server' = server.record request choice.now call reply db ∧
      ((∃ error, reply = .error error ∧ db = server.db) ∨
        ∃ value, reply = .ok value ∧
          call.Effect settings.toAccessLibraries choice.now server.db value db) := by
  simp only [AccessServer.exec, Option.some.injEq, Prod.mk.injEq] at executed
  obtain ⟨rfl, rfl⟩ := executed
  exact ⟨_, rfl, AccessDbCall.perform_cases rfl⟩

/-- The other calls leave the database and the journal alone. -/
theorem AccessServer.exec_other
    {request : Nat}
    {call : AccessCall Blob}
    {choice : AccessChoice}
    {server server' : AccessServer Blob}
    {reply : (accessSignature Blob).Reply call}
    (executed : AccessServer.exec settings.toAccessLibraries request call choice server =
      some (reply, server'))
    (other : ∀ dbCall, call ≠ .db dbCall) :
    server'.db = server.db ∧ server'.minted = server.minted ∧
      server'.journal = server.journal := by
  cases call with
  | db call => exact absurd rfl (other call)
  | hashSecret plaintext =>
      simp only [AccessServer.exec] at executed
      split at executed <;>
        obtain ⟨-, rfl⟩ := Prod.mk.inj (Option.some.inj executed) <;>
        exact ⟨rfl, rfl, rfl⟩
  | randomSecret length alphabet =>
      simp only [AccessServer.exec, Option.ite_none_right_eq_some] at executed
      obtain ⟨-, executed⟩ := executed
      obtain ⟨-, rfl⟩ := Prod.mk.inj (Option.some.inj executed)
      exact ⟨rfl, rfl, rfl⟩
  | jwtSign vaultId =>
      simp only [AccessServer.exec] at executed
      split at executed <;>
        obtain ⟨-, rfl⟩ := Prod.mk.inj (Option.some.inj executed) <;>
        exact ⟨rfl, rfl, rfl⟩

/-- The document lane changes its own tables, and inserts no peer. -/
theorem AccessServer.environment_eq_some
    {event : LaneEvent Blob}
    {server server' : AccessServer Blob}
    (happened : AccessServer.environment settings.toAccessLibraries event server =
      some server') :
    ∃ reply db, event.call.exec settings.toLibraries event.now server.db.toDb =
        .ok (reply, db) ∧
      server' = { server with db := { server.db with toDb := db } } ∧
      ∀ key deviceName, event.call ≠ .upsertPeer key deviceName := by
  unfold AccessServer.environment at happened
  split at happened
  · cases happened
  · rename_i other
    split at happened
    · rename_i reply db executed
      exact ⟨reply, db, executed, (Option.some.inj happened).symm,
        fun key deviceName same => other key deviceName same⟩
    · cases happened

/-! ## Rules -/

section Rules

variable {terms : (accessService settings).Terms} {request : Nat} {task : AccessTask}
variable {α : Type} {server : AccessServer Blob} {assertion : AccessServer Blob → Prop}

/-- Interference keeps an assertion. -/
def Stable
    (terms : (accessService settings).Terms)
    (request : Nat)
    (assertion : AccessServer Blob → Prop) : Prop :=
  ∀ server server', assertion server → terms.rely request server server' →
    assertion server'

theorem Stable.and
    {first second : AccessServer Blob → Prop}
    (stable : Stable terms request first)
    (stable' : Stable terms request second) :
    Stable terms request fun server => first server ∧ second server :=
  fun server server' holds tolerated =>
    ⟨stable server server' holds.1 tolerated, stable' server server' holds.2 tolerated⟩

/-- A call, and what comes after it. -/
theorem access_meets_call
    (call : AccessCall Blob)
    {next : (accessSignature Blob).Reply call → Program (accessSignature Blob) α}
    {post : α → AccessServer Blob → Prop}
    (stable : Stable terms request assertion)
    (holds : assertion server)
    (pre : ∀ server, assertion server → terms.pre request task call server)
    (continues : ∀ server choice reply server', assertion server →
      terms.invariant server →
      AccessServer.exec settings.toAccessLibraries request call choice server =
        some (reply, server') →
      (next reply).Meets (terms.contract request task) post server') :
    (Program.call call next).Meets (terms.contract request task) post server := by
  intro server' tolerated
  have here := stable server server' holds tolerated
  refine ⟨pre server' here, ?_⟩
  rintro reply server'' ⟨invariant, choice, executed⟩
  exact continues server' choice reply server'' here invariant executed

variable {post : Except ServerError α → AccessServer Blob → Prop}

/-- A handler that ends. -/
theorem access_meets_pure
    {value : α}
    (stable : Stable terms request assertion)
    (holds : assertion server)
    (ends : ∀ server, assertion server → post (.ok value) server) :
    (pure value : AccessHandler Blob α).run.Meets (terms.contract request task)
      post server :=
  fun later tolerated => ends later (stable server later holds tolerated)

/-- A handler that fails. -/
theorem access_meets_throw
    {error : ServerError}
    (stable : Stable terms request assertion)
    (holds : assertion server)
    (ends : ∀ server, assertion server → post (.error error) server) :
    (throw error : AccessHandler Blob α).run.Meets (terms.contract request task)
      post server :=
  fun later tolerated => ends later (stable server later holds tolerated)

/-- A database call: the handler fails with it, or goes on with its reply. -/
theorem access_meets_db
    {call : AccessDbCall Blob}
    {continuation : call.Reply → AccessHandler Blob α}
    (stable : Stable terms request assertion)
    (holds : assertion server)
    (pre : ∀ server, assertion server → terms.pre request task (.db call) server)
    (fails : ∀ server now error later, assertion server → terms.invariant server →
      terms.rely request (server.record request now call (.error error) server.db) later →
        post (.error error) later)
    (continues : ∀ server now reply db, assertion server → terms.invariant server →
      call.Effect settings.toAccessLibraries now server.db reply db →
      (continuation reply).run.Meets (terms.contract request task) post
        (server.record request now call (.ok reply) db)) :
    (AccessHandler.db call >>= continuation).run.Meets (terms.contract request task)
      post server := by
  refine access_meets_call (.db call) stable holds pre ?_
  intro server choice reply server' here invariant executed
  obtain ⟨db, rfl, failed | ⟨value, rfl, effect⟩⟩ := AccessServer.exec_db executed
  · obtain ⟨error, rfl, rfl⟩ := failed
    exact fun later tolerated => fails server choice.now error later here invariant tolerated
  · exact continues server choice.now value db here invariant effect

/-- Hashing a secret. -/
theorem access_meets_hash
    {plaintext : String}
    {continuation : String → AccessHandler Blob α}
    (stable : Stable terms request assertion)
    (holds : assertion server)
    (pre : ∀ server, assertion server → terms.pre request task (.hashSecret plaintext) server)
    (fails : ∀ server error, assertion server → post (.error error) server)
    (continues : ∀ server salt stored, assertion server →
      hashSecret settings.toAccessLibraries salt plaintext = .ok stored →
      (continuation stored).run.Meets (terms.contract request task) post server) :
    (AccessHandler.hashSecret plaintext >>= continuation).run.Meets
      (terms.contract request task) post server := by
  refine access_meets_call (.hashSecret plaintext) stable holds pre ?_
  intro server choice reply server' here invariant executed
  simp only [AccessServer.exec] at executed
  split at executed
  · obtain ⟨rfl, rfl⟩ := Prod.mk.inj (Option.some.inj executed)
    exact fun later tolerated => fails later _ (stable server later here tolerated)
  · obtain ⟨hashed, rfl⟩ := Prod.mk.inj (Option.some.inj executed)
    cases reply with
    | error error =>
        exact fun later tolerated => fails later error (stable server later here tolerated)
    | ok stored => exact continues server choice.salt stored here hashed

/-- Drawing a secret. -/
theorem access_meets_random
    {length : Nat}
    {alphabet : String}
    {next : String → Program (accessSignature Blob) α}
    {post : α → AccessServer Blob → Prop}
    (stable : Stable terms request assertion)
    (holds : assertion server)
    (pre : ∀ server, assertion server →
      terms.pre request task (.randomSecret length alphabet) server)
    (continues : ∀ server secret, assertion server → terms.invariant server →
      server.Drawable length alphabet secret →
      (next secret).Meets (terms.contract request task) post
        { server with drawn := Function.update server.drawn secret (some request) }) :
    (Program.call (S := accessSignature Blob) (.randomSecret length alphabet) next).Meets
      (terms.contract request task) post server := by
  refine access_meets_call (.randomSecret length alphabet) stable holds pre ?_
  intro server choice reply server' here invariant executed
  simp only [AccessServer.exec, Option.ite_none_right_eq_some] at executed
  obtain ⟨drawable, executed⟩ := executed
  obtain ⟨rfl, rfl⟩ := Prod.mk.inj (Option.some.inj executed)
  exact continues server choice.random here invariant drawable

/-- Signing a token. -/
theorem access_meets_sign
    {vaultId : String}
    {continuation : Token → AccessHandler Blob α}
    (stable : Stable terms request assertion)
    (holds : assertion server)
    (pre : ∀ server, assertion server → terms.pre request task (.jwtSign vaultId) server)
    (fails : ∀ server error, assertion server → post (.error error) server)
    (continues : ∀ server token, assertion server → token.sub = vaultId →
      (continuation token).run.Meets (terms.contract request task) post
        { server with issued := vaultId :: server.issued }) :
    (AccessHandler.jwtSign vaultId >>= continuation).run.Meets
      (terms.contract request task) post server := by
  refine access_meets_call (.jwtSign vaultId) stable holds pre ?_
  intro server choice reply server' here invariant executed
  simp only [AccessServer.exec] at executed
  split at executed
  · obtain ⟨rfl, rfl⟩ := Prod.mk.inj (Option.some.inj executed)
    exact fun later tolerated => fails later _ (stable server later here tolerated)
  · obtain ⟨rfl, rfl⟩ := Prod.mk.inj (Option.some.inj executed)
    exact continues server _ here rfl

end Rules

end VaultCrdtServer
