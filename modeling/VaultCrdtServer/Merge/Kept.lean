import VaultCrdtServer.Merge

/-!
# No merge is lost

While no delete of a path commits, the operations stored for it only grow, and
what an acknowledged write has brought stays with them.
-/

namespace VaultCrdtServer

open CausalHistory

variable {Blob : Type} {loro : Loro Blob}

/-- What a record says about merges.  Instants are the positions of the
journal. -/
structure MergesKept
    (log : OpLog loro)
    (initial : Db Blob)
    (server : Server Blob) : Prop where
  /-- From one instant to a later one the stored operations of a path that is
  live grow, unless a delete of it commits in between. -/
  growing : ∀ {front segment back path},
    server.journal = front ++ segment ++ back →
    (∀ entry ∈ segment, ¬ entry.Deletes path) →
    (dbAfter initial front).documents.lookup path ≠ none →
      (dbAfter initial (front ++ segment)).documents.lookup path ≠ none ∧
        storedOps log (dbAfter initial front) path ⊆
          storedOps log (dbAfter initial (front ++ segment)) path
  /-- The write of an `Ack` whose dependencies were stored, or came with it, is
  stored from its commit on, until a delete of the path commits. -/
  included : ∀ answered ∈ server.answers,
    ∀ {msg docUuid blob peerId requestId granted echoed},
      answered.frame.decoded = .ok msg →
      Submits docUuid blob peerId requestId msg →
      answered.response = .ack granted echoed →
        ∃ front entry back ops, server.journal = front ++ entry :: back ∧
          entry.origin = some answered.origin ∧
          entry.committed = some ⟨answered.vaultId, docUuid⟩ ∧
          log.changes blob = some ops ∧
          ((∀ op ∈ ops, log.deps op ⊆
              storedOps log (dbAfter initial front) ⟨answered.vaultId, docUuid⟩ ∪ ops) →
            ∀ segment rest, back = segment ++ rest →
              (∀ later ∈ segment, ¬ later.Deletes ⟨answered.vaultId, docUuid⟩) →
                ops ⊆ storedOps log (dbAfter initial (front ++ entry :: segment))
                  ⟨answered.vaultId, docUuid⟩)

section Growth

variable {log : OpLog loro} {libraries : Libraries Blob} {now : Time}
variable {entry : JournalEntry Blob} {path : DocPath}

/-- A row goes only with a delete. -/
theorem live_of_not_deletes
    (effect : DbCall.Effect libraries now entry.before entry.call entry.reply entry.after)
    (spared : ¬ entry.Deletes path)
    (live : entry.before.documents.lookup path ≠ none) :
    entry.after.documents.lookup path ≠ none := by
  obtain ⟨origin, call, reply, before, after⟩ := entry
  by_cases written : call.committed reply = some path
  · change DbCall.Effect libraries now before call reply after at effect
    cases effect with
    | read isRead => exact live
    | kept | established | replaced =>
        cases written
        simp [Db.putDocument]
    | removed | absent =>
        cases written
        exact absurd ⟨rfl, _, _, rfl⟩ spared
    | rejected | peerUpserted | tombstonesExpired | peersExpired => exact live
  · rwa [show after.documents.lookup path = before.documents.lookup path from
      effect.documents_frame written]

/-- The live editions of a database with the operations stored for them. -/
abbrev OpLog.editions (log : OpLog loro) (db : Db Blob) :
    Registry.State DocPath String Int (Set OpId) :=
  db.registry fun snapshot => log.opsOf (some snapshot)

theorem editions_live_eq
    {db : Db Blob}
    {token : Int}
    {ops : Set OpId}
    (live : (log.editions db).live path = some (token, ops)) :
    ops = storedOps log db path := by
  simp only [Db.registry, Option.map_eq_some_iff, Prod.mk.injEq] at live
  obtain ⟨row, live, _, rfl⟩ := live
  exact (storedOps_of_live live).symm

/-- The step of the editions with the operations stored for them. -/
theorem editions_step
    (lawful : log.Lawful)
    (coherent : Coherent log entry.before)
    (justified : DbCall.Justified loro entry.before entry.call)
    (effect : DbCall.Effect libraries now entry.before entry.call entry.reply
      entry.after) :
    Registry.Step DocPath.vault (log.editions entry.before)
      (log.editions entry.after) := by
  refine effect.registry_step ?_
  intro path row row' written live live'
  rcases stores_or_removes justified effect written with ⟨incoming, stores⟩ | removed
  · obtain ⟨ops, _, integrated⟩ := storedOps_of_stores lawful (coherent path) effect stores
    rw [storedOps_of_live live, storedOps_of_live live'] at integrated
    rw [integrated]
    exact subset_integrate
  · cases removed.symm.trans live'

/-- Along a history without deletes of it, a live path stays live and its
operations grow. -/
theorem storedOps_subset_of_history
    {initial db : Db Blob}
    {journal : List (JournalEntry Blob)}
    (lawful : log.Lawful)
    (sameLoro : libraries.loro = loro)
    (coherent : Coherent log initial)
    (history : History libraries initial journal db)
    (spared : ∀ entry ∈ journal, ¬ entry.Deletes path)
    (live : initial.documents.lookup path ≠ none) :
    db.documents.lookup path ≠ none ∧
      storedOps log initial path ⊆ storedOps log db path := by
  subst sameLoro
  have kept := history.preserves
    (motive := fun db => Coherent log db ∧
      db.documents.lookup path ≠ none ∧
        storedOps log initial path ⊆ storedOps log db path)
    (fun {entry now} member invariant justified effect => by
      obtain ⟨coherent, live, grown⟩ := invariant
      have live' := live_of_not_deletes effect (spared entry member) live
      refine ⟨coherent.step lawful justified effect, live', grown.trans ?_⟩
      obtain ⟨row, live⟩ := Option.ne_none_iff_exists'.mp live
      have before : (log.editions entry.before).live path =
          some (row.incarnation, storedOps log entry.before path) := by
        simp [Db.registry, live, storedOps_of_live live]
      obtain ⟨token, ops, after, larger⟩ :=
        (editions_step lawful coherent justified effect).content_le before
          (by simpa [Db.registry] using live')
      exact editions_live_eq after ▸ larger)
    ⟨coherent, live, subset_rfl⟩
  exact kept.2

end Growth

section Kept

variable {settings : Settings Blob} {log : OpLog settings.loro} {initial : Db Blob}

/-- A history keeps a database coherent. -/
theorem Coherent.history
    {journal : List (JournalEntry Blob)}
    {db : Db Blob}
    (lawful : log.Lawful)
    (coherent : Coherent log initial)
    (history : History settings.toLibraries initial journal db) :
    Coherent log db :=
  history.preserves
    (fun _ coherent justified effect => coherent.step lawful justified effect) coherent

/-- The record of a run keeps every merge. -/
theorem mergesKept_of_recorded
    {server : Server Blob}
    (lawful : log.Lawful)
    (coherent : Coherent log initial)
    (recorded : Recorded settings initial server) :
    MergesKept log initial server where
  growing := by
    intro front segment back path journal spared live
    have history := recorded.history
    rw [journal] at history
    obtain ⟨first, second⟩ := history.split.1.split
    exact storedOps_subset_of_history lawful rfl (coherent.history lawful first) second
      spared live
  included := by
    intro answered member msg docUuid blob peerId requestId granted echoed asked
      submits acked
    obtain ⟨entry, journaled, own, stores, _⟩ :=
      recorded.stored member asked submits acked
    obtain ⟨front, back, journal⟩ := List.append_of_mem journaled
    have history := recorded.history
    rw [journal] at history
    obtain ⟨first, rest, _, now, effect⟩ := history.at_entry
    have coherentBefore := coherent.history lawful first
    obtain ⟨ops, carried, integrated⟩ :=
      storedOps_of_stores lawful (coherentBefore _) effect stores
    refine ⟨front, entry, back, ops, journal, own, stores.committed, carried, ?_⟩
    rintro satisfied segment later rfl spared
    rw [first.dbAfter_eq] at satisfied
    rw [integrate_eq_union lawful.acyclic satisfied] at integrated
    have coherentAfter : Coherent log entry.after := by
      have whole : History settings.toLibraries initial
          ((front ++ [entry]) ++ (segment ++ later)) server.db := by
        simpa using history
      have after := whole.split.1
      rw [dbAfter_concat] at after
      exact coherent.history lawful after
    obtain ⟨row, live, _⟩ := row_of_stores effect stores
    have grown := (storedOps_subset_of_history lawful rfl coherentAfter rest.split.1
      spared (by rw [live]; exact Option.some_ne_none row)).2
    have ends : dbAfter initial (front ++ entry :: segment) =
        dbAfter entry.after segment := by
      have whole : History settings.toLibraries initial
          ((front ++ entry :: segment) ++ later) server.db := by
        simpa using history
      have prefixed := whole.split.1
      exact prefixed.at_entry.2.1.dbAfter_eq.symm
    rw [ends]
    rw [integrated] at grown
    exact Set.subset_union_right.trans grown

/-- As long as a path stays live its stored operations only grow, and every
acknowledged write with its dependencies is among them. -/
theorem merges_kept
    {config : (serverMachine settings).Config}
    (lawful : log.Lawful)
    (coherent : Coherent log initial)
    (reachable : Reachable settings initial config) :
    MergesKept log initial config.shared :=
  mergesKept_of_recorded lawful coherent reachable.recorded

end Kept

/-- Two connections push to one document at once. -/
def Schedule.pushedTwice : Schedule :=
  connects 0 "a" ++ connects 1 "b" ++ receives 0 (.push [⟨1, 0⟩]) 2 ++
    receives 1 (.push [⟨1, 1⟩]) 0 ++ completes 0 5 ++ completes 1 6

theorem Schedule.pushedTwice_enabled : Schedule.pushedTwice.Enabled := by
  decide +kernel

theorem merges_kept_pushedTwice :
    MergesKept (OpLog.reference .reference) Db.empty
      (Schedule.pushedTwice.config Schedule.pushedTwice_enabled).shared :=
  merges_kept (OpLog.reference_lawful .reference) coherent_empty
    (Schedule.reachable Schedule.pushedTwice_enabled)

end VaultCrdtServer
