import VaultCrdtServer.Blobs.PathRuns
import VaultCrdtServer.Blobs.Reference

/-!
# Path rows form chains

Whatever requests are interleaved and wherever they fail or are dropped, the
contents of a row only ever rise, every accepted change has a seq of its own,
and a request that is not accepted has changed nothing.
-/

namespace VaultCrdtServer

open Interleaving

/-- The path states and their counter are the same, and no change has been
accepted. -/
def SamePaths (server server' : BlobServer) : Prop :=
  server'.db.blobPathStates = server.db.blobPathStates ∧
    server'.db.blobSeq = server.db.blobSeq ∧
    server'.accepted = server.accepted

/-- A change has been accepted for a request: it takes the next seq and becomes
the row of its path. -/
def AcceptsPath (request : Nat) (server server' : BlobServer) : Prop :=
  ∃ accepted : AcceptedPath,
    accepted.origin = request ∧
      server'.accepted = server.accepted ++ [accepted] ∧
      accepted.row.seq = server.db.blobSeq + 1 ∧
      server'.db.blobSeq = server.db.blobSeq + 1 ∧
      server'.db.blobPathStates = server.db.blobPathStates.insert accepted.key accepted.row

/-- What an answered POST to a path has done. -/
structure PathAnswered
    (request : Nat)
    (vault : VaultId)
    (body : BlobPathBody)
    (result : Except ServerError Response)
    (server : BlobServer) : Prop where
  /-- Refused or failed, it has changed nothing. -/
  refused : statusOf result ∈ [400, 409, 412, 413, 422, 500] →
    server.acceptedBy request = []
  /-- A repetition of the row it has read has changed nothing. -/
  retried : ∀ change current, body.check = .ok change →
    (⟨vault, body.pathKey⟩, some current) ∈ server.readsOf request →
    change.retries current.toPathChange = true →
      server.acceptedBy request = []
  /-- Accepted, it repeats the row it has read, or has stored its change once
  under the seq it returns. -/
  accepted : ∀ seq, result = .ok (.pathAccepted seq) → ∃ change,
    body.check = .ok change ∧
      ((∃ current, server.readsOf request = [(⟨vault, body.pathKey⟩, some current)] ∧
          change.retries current.toPathChange = true ∧ current.seq = seq) ∨
        ∃ row, server.acceptedBy request = [⟨request, ⟨vault, body.pathKey⟩, row⟩] ∧
          row.toPathChange = change ∧ row.seq = seq)

/-- The path states of a server have grown in chains. -/
structure PathChains (server : BlobServer) : Prop where
  /-- The contents of a row rise, in rank and in seq. -/
  chains : ∀ key, (server.rowsOf key).Pairwise PathRow.Precedes
  /-- The row is the last of its contents. -/
  rows : ∀ key, server.db.blobPathStates.lookup key = (server.rowsOf key).getLast?
  /-- The changes of all paths have ascending seqs, in commit order. -/
  seqs : (server.accepted.map fun accepted => accepted.row.seq).Pairwise (· < ·)
  /-- The events of a path are sent in ascending order. -/
  events : ∀ key, ((server.eventsOf key).map BlobPathChanged.seq).Pairwise (· < ·)
  /-- What has become of the requests. -/
  answers : ∀ request outcome vault body, (request, outcome) ∈ server.answers →
    server.requests[request]? = some (.postBlobPath vault body) →
      ∃ result, outcome = .response result ∧
        PathAnswered request vault body result server

/-- A request that has settled has been answered as it should. -/
theorem PathSettled.answered
    {request : Nat}
    {vault : VaultId}
    {body : BlobPathBody}
    {result : Except ServerError Response}
    {server : BlobServer}
    (settled : PathSettled request ⟨vault, body.pathKey⟩ body.check.toOption result
      (server.readsOf request) (server.acceptedBy request)) :
    PathAnswered request vault body result server := by
  have submitted : ∀ {change}, body.check.toOption = some change → body.check = .ok change := by
    intro change
    cases body.check <;> simp [Except.toOption]
  generalize reads : server.readsOf request = readsMade at settled
  generalize changes : server.acceptedBy request = changesMade at settled
  cases settled with
  | refused unaccepted =>
      exact
        { refused := fun _ => changes
          retried := fun _ _ _ _ _ => changes
          accepted := fun seq accepts => absurd accepts (unaccepted seq) }
  | @retried change current sent retries =>
      refine
        { refused := fun _ => changes
          retried := fun _ _ _ _ _ => changes
          accepted := ?_ }
      intro seq accepts
      obtain rfl := Response.pathAccepted.inj (Except.ok.inj accepts)
      exact ⟨change, submitted sent, Or.inl ⟨current, reads, retries, rfl⟩⟩
  | @accepted change stored row sent fresh stores =>
      refine
        { refused := ?_
          retried := ?_
          accepted := ?_ }
      · intro refused
        simp [statusOf, Response.status] at refused
      · intro other current checked read retries
        obtain rfl := Except.ok.inj ((submitted sent).symm.trans checked)
        rw [reads, List.mem_singleton, Prod.mk.injEq] at read
        have differs := (fresh current read.2.symm).1
        rw [retries] at differs
        cases differs
      · intro seq accepts
        obtain rfl := Response.pathAccepted.inj (Except.ok.inj accepts)
        exact ⟨change, submitted sent, Or.inr ⟨row, changes, stores, rfl⟩⟩

section Chains

variable {settings : BlobSettings} {config config' : (blobMachine settings).Config}

/-- A step changes the path states only by accepting a change. -/
theorem step_paths
    {label : (blobMachine settings).Label}
    (stepped : (blobMachine settings).step label config = some config') :
    SamePaths config.shared config'.shared ∨
      ∃ request circumstance, label = .act request circumstance ∧
        AcceptsPath request config.shared config'.shared := by
  cases Machine.step_eq_some_iff.mp stepped with
  | @act config request circumstance call next reply server' current executed =>
      change config.shared.exec settings request call circumstance = _ at executed
      cases call with
      | db call =>
          rcases BlobServer.query_cases executed with
            ⟨error, rfl, rfl⟩ | ⟨value, db, rfl, -, effect, rfl⟩
          · exact Or.inl ⟨rfl, rfl, rfl⟩
          · have changes := (BlobDbCall.exec_effect effect).accepted request
            have grown : (config.shared.commit request circumstance.now call value db).accepted =
                config.shared.accepted ++
                  (call.accepted request circumstance.now value).toList :=
              BlobServer.accepted_commit call value circumstance.now db
            cases made : call.accepted request circumstance.now value with
            | none =>
                rw [made] at changes grown
                exact Or.inl ⟨changes.1, changes.2, by simpa using grown⟩
            | some accepted =>
                rw [made] at changes grown
                obtain ⟨_, _, _, origin, _, _⟩ := BlobDbCall.accepted_eq_some made
                exact Or.inr ⟨request, circumstance, rfl, accepted, origin, grown, changes⟩
      | _ =>
          refine Or.inl ?_
          rw [BlobServer.exec_other executed fun _ same => by cases same]
          exact ⟨rfl, rfl, rfl⟩
  | environment happened =>
      have alike := BlobServer.environment_alike happened
      exact Or.inl ⟨alike.paths, alike.counter,
        congrArg (List.filterMap BlobEntry.accepted) alike.journal⟩
  | start current started =>
      obtain ⟨-, -, rfl⟩ := start_eq started
      exact Or.inl ⟨rfl, rfl, rfl⟩
  | finish current => exact Or.inl ⟨rfl, rfl, rfl⟩
  | abandon => exact Or.inl ⟨rfl, rfl, rfl⟩

/-- The rows of the paths form chains, in every reachable state, and every step
from there changes them by one accepted change at most. -/
theorem path_rows_form_chains
    {quotaBytes : Table String (Option Int)}
    (reachable : BlobReachable settings quotaBytes config) :
    PathChains config.shared ∧
      ∀ label config', (blobMachine settings).step label config = some config' →
        SamePaths config.shared config'.shared ∨
          ∃ request circumstance, label = .act request circumstance ∧
            AcceptsPath request config.shared config'.shared := by
  obtain ⟨labels, runs⟩ := reachable
  have admitted : Machine.Admits (pathDiscipline settings False).allowed labels
      (blobConfig settings (.fresh quotaBytes) .empty) :=
    Machine.Admits.of_forall _ _ fun _ _ => False.elim
  have holds := pathDiscipline_sound.run (pathDiscipline_initial quotaBytes .empty) admitted runs
  have invariant := holds.invariant
  refine ⟨?_, fun _ _ stepped => step_paths stepped⟩
  refine
    { chains := invariant.history.chains
      rows := invariant.history.rows
      seqs := invariant.history.seqs
      events := invariant.history.events
      answers := ?_ }
  intro request outcome vault body answered made
  obtain ⟨-, -, concluded⟩ := invariant.answered (request, outcome) answered
  unfold PathOutcome at concluded
  rw [made] at concluded
  obtain ⟨result, same, settled⟩ := concluded
  exact ⟨result, same, settled.answered⟩

end Chains

/-- A request stores a tombstone, one that waits for it repeats it, and a third
replaces it. -/
def BlobSchedule.raced : BlobSchedule :=
  receives 0 (.postBlobPath VaultId.v (.tombstone 1 "a")) 2 ++
    receives 1 (.postBlobPath VaultId.v (.tombstone 1 "b")) 0 ++
    calls 0 "spare" 2 ++ [.finish 0] ++ calls 1 "spare" 2 ++ [.finish 1] ++
    serves 2 (.postBlobPath VaultId.v (.tombstone 2 "b")) 4

theorem BlobSchedule.raced_enabled : BlobSchedule.raced.Enabled := by
  decide +kernel

theorem path_rows_form_chains_raced :
    PathChains (BlobSchedule.raced.config BlobSchedule.raced_enabled).shared ∧
      ∀ label config', (blobMachine BlobSettings.reference).step label
          (BlobSchedule.raced.config BlobSchedule.raced_enabled) = some config' →
        SamePaths (BlobSchedule.raced.config BlobSchedule.raced_enabled).shared config'.shared ∨
          ∃ request circumstance, label = .act request circumstance ∧
            AcceptsPath request
              (BlobSchedule.raced.config BlobSchedule.raced_enabled).shared config'.shared :=
  path_rows_form_chains (BlobSchedule.reachable BlobSchedule.raced_enabled)

end VaultCrdtServer
