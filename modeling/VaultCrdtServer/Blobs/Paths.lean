import VaultCrdtServer.Blobs.Contract

/-!
# Requests on paths

What a request may assume of a path whose lock it holds: the row stays as it
was read and no event of the path is sent.  With that, `post_blob_path` replaces
a row only by one that wins against it, and publishes only blobs that are
stored.
-/

namespace VaultCrdtServer

open Interleaving

/-- What a call has read of a path. -/
def BlobDbCall.pathRead : (call : BlobDbCall) → call.Reply → Option (PathKey × Option PathRow)
  | .readPath key, stored => some (key, stored)
  | _, _ => none

namespace BlobServer

/-- What a request has read of the path rows. -/
def readsOf (request : Nat) (server : BlobServer) : List (PathKey × Option PathRow) :=
  (server.entriesOf request).filterMap fun entry => entry.call.pathRead entry.reply

/-- The request holds the lock of a path. -/
def LocksPath (request : Nat) (key : PathKey) (server : BlobServer) : Prop :=
  server.docLocks (pathLockKey key.vault key.key) = some request

end BlobServer

/-- A live change names a blob that is stored, with a size within the path's
cap. -/
def PathChange.Publishable (change : PathChange) (key : PathKey) (db : BlobDb) : Prop :=
  change.state = .live →
    ∃ hash size cap, change.contentHash = some hash ∧ change.size = some size ∧
      capForKey key.key = some cap ∧ 0 ≤ size ∧ size ≤ cap ∧
      (db.blobs.lookup ⟨key.vault, hash⟩).isSome = true

/-- What the others may do to the path states while a request waits. -/
structure PathRely (request : Nat) (server server' : BlobServer) : Prop where
  locks : ∀ key, server'.docLocks key = some request ↔ server.docLocks key = some request
  rows : ∀ key, server.LocksPath request key →
    server'.db.blobPathStates.lookup key = server.db.blobPathStates.lookup key
  events : ∀ key, server.LocksPath request key → server'.eventsOf key = server.eventsOf key
  entries : server'.entriesOf request = server.entriesOf request
  blobs : ∀ key size, server.db.blobs.lookup key = some size →
    server'.db.blobs.lookup key = some size
  requests : ∀ task, server.requests[request]? = some task →
    server'.requests[request]? = some task

namespace PathRely

theorem refl (request : Nat) (server : BlobServer) : PathRely request server server where
  locks := fun _ => Iff.rfl
  rows := fun _ _ => rfl
  events := fun _ _ => rfl
  entries := rfl
  blobs := fun _ _ stored => stored
  requests := fun _ made => made

theorem trans
    {request : Nat}
    {first second third : BlobServer}
    (earlier : PathRely request first second)
    (later : PathRely request second third) :
    PathRely request first third where
  locks := fun key => (later.locks key).trans (earlier.locks key)
  rows := fun key held =>
    (later.rows key ((earlier.locks _).mpr held)).trans (earlier.rows key held)
  events := fun key held =>
    (later.events key ((earlier.locks _).mpr held)).trans (earlier.events key held)
  entries := later.entries.trans earlier.entries
  blobs := fun key size stored => later.blobs key size (earlier.blobs key size stored)
  requests := fun task made => later.requests task (earlier.requests task made)

end PathRely

/-- What holds whenever a request makes a call that changes or announces a path. -/
def pathPre (request : Nat) : BlobCall → BlobServer → Prop
  | .db (.upsertPath key change), server =>
      server.LocksPath request key ∧ server.acceptedBy request = [] ∧
        (∀ row, server.db.blobPathStates.lookup key = some row →
          change.wins row.toPathChange = true) ∧
        change.Publishable key server.db
  | .publish event, server =>
      server.LocksPath request event.path ∧
        ∃ row, server.db.blobPathStates.lookup event.path = some row ∧ row.seq = event.seq ∧
          ∀ earlier ∈ server.eventsOf event.path, earlier.seq < event.seq
  | _, _ => True

/-- The terms of a request as far as paths are concerned. -/
def pathTerms (request : Nat) : BlobTerms where
  rely := PathRely request
  pre := pathPre request
  facts := fun server => ∀ key, ∀ event ∈ server.eventsOf key, event.seq ≤ server.db.blobSeq
  rely_refl := PathRely.refl request
  rely_trans := PathRely.trans

/-! ## What a request establishes -/

/-- How a POST to a path has ended, and what it has read and changed. -/
inductive PathSettled (request : Nat) (key : PathKey) (change : Option PathChange) :
    Except ServerError Response → List (PathKey × Option PathRow) →
      List AcceptedPath → Prop
  /-- It is answered otherwise than by an acceptance, and has changed nothing. -/
  | refused {result reads} (unaccepted : ∀ seq, result ≠ .ok (.pathAccepted seq)) :
      PathSettled request key change result reads []
  /-- It repeats the row it has read, and has changed nothing. -/
  | retried {submitted current} (sent : change = some submitted)
      (retries : submitted.retries current.toPathChange = true) :
      PathSettled request key change (.ok (.pathAccepted current.seq))
        [(key, some current)] []
  /-- It wins against the row it has read, if any, and has replaced it. -/
  | accepted {submitted stored row} (sent : change = some submitted)
      (fresh : ∀ current, stored = some current →
        submitted.retries current.toPathChange = false ∧
          submitted.wins current.toPathChange = true)
      (stores : row.toPathChange = submitted) :
      PathSettled request key change (.ok (.pathAccepted row.seq))
        [(key, stored)] [⟨request, key, row⟩]

/-- What has come of a request on paths. -/
def PathOutcome (request : Nat) (outcome : BlobOutcome) (server : BlobServer) : Prop :=
  match server.requests[request]? with
  | some (.postBlobPath vault body) =>
      ∃ result, outcome = .response result ∧
        PathSettled request ⟨vault, body.pathKey⟩ body.check.toOption result
          (server.readsOf request) (server.acceptedBy request)
  | _ => server.acceptedBy request = []

/-- The request decides about a change with the path's lock in its hands. -/
structure Deciding
    (request : Nat)
    (task : BlobTask)
    (key : PathKey)
    (stored : Option PathRow)
    (server : BlobServer) : Prop where
  task : server.requests[request]? = some task
  lock : server.LocksPath request key
  row : server.db.blobPathStates.lookup key = stored
  reads : server.readsOf request = [(key, stored)]
  clean : server.acceptedBy request = []

/-- The request has done nothing to the paths yet. -/
structure Fresh (request : Nat) (task : BlobTask) (server : BlobServer) : Prop where
  task : server.requests[request]? = some task
  reads : server.readsOf request = []
  clean : server.acceptedBy request = []

section Stability

variable {request : Nat} {task : BlobTask} {key : PathKey} {stored : Option PathRow}

theorem PathRely.reads
    {server server' : BlobServer}
    (tolerated : PathRely request server server') :
    server'.readsOf request = server.readsOf request := by
  unfold BlobServer.readsOf
  rw [tolerated.entries]

theorem PathRely.acceptedBy
    {server server' : BlobServer}
    (tolerated : PathRely request server server') :
    server'.acceptedBy request = server.acceptedBy request := by
  rw [BlobServer.acceptedBy_eq, BlobServer.acceptedBy_eq, tolerated.entries]

theorem Deciding.stable : (pathTerms request).Stable (Deciding request task key stored) :=
  fun _ _ deciding tolerated =>
    { task := tolerated.requests task deciding.task
      lock := (tolerated.locks _).mpr deciding.lock
      row := (tolerated.rows key deciding.lock).trans deciding.row
      reads := tolerated.reads.trans deciding.reads
      clean := tolerated.acceptedBy.trans deciding.clean }

theorem Fresh.stable : (pathTerms request).Stable (Fresh request task) :=
  fun _ _ fresh tolerated =>
    { task := tolerated.requests task fresh.task
      reads := tolerated.reads.trans fresh.reads
      clean := tolerated.acceptedBy.trans fresh.clean }

theorem PathOutcome.stable
    {outcome : BlobOutcome}
    {server server' : BlobServer}
    (made : server.requests[request]?.isSome = true)
    (concluded : PathOutcome request outcome server)
    (tolerated : PathRely request server server') :
    PathOutcome request outcome server' := by
  obtain ⟨task, made⟩ := Option.isSome_iff_exists.mp made
  unfold PathOutcome at concluded ⊢
  rw [tolerated.requests task made]
  rw [made] at concluded
  rw [tolerated.reads, tolerated.acceptedBy]
  exact concluded

end Stability

end VaultCrdtServer
