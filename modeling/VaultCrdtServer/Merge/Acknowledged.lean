import VaultCrdtServer.Merge.Kept

/-!
# Acknowledged writes

An `Ack` says that the blob was imported, not that it was applied: operations
whose dependencies are neither stored nor in the blob stay pending in the
document, which is dropped after the export.
-/

namespace VaultCrdtServer

open CausalHistory

variable {Blob : Type} {loro : Loro Blob}

/-- The operations are stored for a path, and its version vector covers them. -/
structure StoredFor
    (log : OpLog loro)
    (ops : Set OpId)
    (db : Db Blob)
    (path : DocPath) : Prop where
  included : ops ⊆ storedOps log db path
  covered : ∃ row vv, db.documents.lookup path = some row ∧
    loro.decodeVv row.vvBlob = .ok vv ∧
    ∀ op ∈ ops, ∃ end_, vv.lookup op.peer = some end_ ∧
      (op.counter : Int) < end_.toInt

section Covered

variable {log : OpLog loro} {db : Db Blob} {path : DocPath}

/-- The version vector of a document covers what it has applied. -/
theorem OpLog.Lawful.covers
    (lawful : log.Lawful)
    {doc : loro.Doc}
    {op : OpId}
    (applied : op ∈ log.applied doc) :
    ∃ end_, (loro.oplogVv doc).lookup op.peer = some end_ ∧
      (op.counter : Int) < end_.toInt := by
  have occurs : op.peer ∈ loro.oplogVv doc :=
    (lawful.mem_oplogVv_iff doc op.peer).mpr ⟨op.counter, applied⟩
  obtain ⟨end_, found⟩ := Finmap.mem_iff.mp occurs
  exact ⟨end_, found, ((lawful.oplogVv_lookup ..).mp found).2 op.counter applied⟩

/-- What a coherent row stores is covered. -/
theorem CoherentAt.storedFor_iff
    (lawful : log.Lawful)
    (coherent : CoherentAt log db path)
    {row : DocumentRow Blob}
    (live : db.documents.lookup path = some row)
    {ops : Set OpId} :
    StoredFor log ops db path ↔ ops ⊆ storedOps log db path := by
  constructor
  · exact StoredFor.included
  · intro included
    refine ⟨included, ?_⟩
    obtain ⟨doc, applied, decoded⟩ := (coherent row live).vv
    refine ⟨row, _, live, decoded, ?_⟩
    intro op member
    rw [storedOps_of_live live, ← applied] at included
    exact lawful.covers (included member)

end Covered

/-- A write that is acknowledged is stored as a whole if and only if the
dependencies of its operations were stored or came with it. -/
theorem acknowledged_write_stored_iff
    {settings : Settings Blob}
    {log : OpLog settings.loro}
    {initial : Db Blob}
    {config : (serverMachine settings).Config}
    (lawful : log.Lawful)
    (coherent : Coherent log initial)
    (reachable : Reachable settings initial config)
    {answered : Answered Blob}
    (member : answered ∈ config.shared.answers)
    {msg : ClientMsg Blob}
    {docUuid peerId : String}
    {blob : Blob}
    {requestId echoed : Option String}
    {granted : Option Int}
    (asked : answered.frame.decoded = .ok msg)
    (submits : Submits docUuid blob peerId requestId msg)
    (acked : answered.response = .ack granted echoed) :
    ∃ entry ∈ config.shared.journal, entry.origin = some answered.origin ∧
      entry.committed = some ⟨answered.vaultId, docUuid⟩ ∧
      ∃ ops, log.changes blob = some ops ∧
        (StoredFor log ops entry.after ⟨answered.vaultId, docUuid⟩ ↔
          ∀ op ∈ ops, log.deps op ⊆
            storedOps log entry.before ⟨answered.vaultId, docUuid⟩ ∪ ops) := by
  obtain ⟨entry, journaled, own, stores, _⟩ :=
    reachable.recorded.stored member asked submits acked
  obtain ⟨front, back, journal⟩ := List.append_of_mem journaled
  have history := reachable.history
  rw [journal] at history
  obtain ⟨first, _, justified, now, effect⟩ := history.at_entry
  have coherentBefore := coherent.history lawful first
  obtain ⟨ops, carried, integrated⟩ :=
    storedOps_of_stores lawful (coherentBefore _) effect stores
  obtain ⟨row, live, _⟩ := row_of_stores effect stores
  refine ⟨entry, journaled, own, stores.committed, ops, carried, ?_⟩
  rw [(coherentBefore.step lawful justified effect _).storedFor_iff lawful live, integrated]
  exact pool_subset_integrate_iff lawful.acyclic (coherentBefore _).closed

/-- A delta whose base was never stored is pushed to a path without a document. -/
def Schedule.unfounded : Schedule :=
  connects 0 "a" ++ receives 0 (.push [⟨1, 1⟩]) 6

theorem Schedule.unfounded_enabled : Schedule.unfounded.Enabled := by
  decide +kernel

/-- The answer to that push. -/
def Answered.unfounded : Answered ReferenceBlob where
  origin := ⟨0, 1⟩
  vaultId := "v"
  frame := .of (.push [⟨1, 1⟩])
  response := .ack (some 1) none

theorem Answered.unfounded_mem_answers :
    Answered.unfounded ∈
      (Schedule.unfounded.config Schedule.unfounded_enabled).shared.answers :=
  List.mem_of_getElem? (i := 0) rfl

theorem acknowledged_write_stored_iff_unfounded :
    ∃ entry ∈ (Schedule.unfounded.config Schedule.unfounded_enabled).shared.journal,
      entry.origin = some ⟨0, 1⟩ ∧ entry.committed = some ⟨"v", "d"⟩ ∧
      ∃ ops, (OpLog.reference .reference).changes (.updates [⟨1, 1⟩]) = some ops ∧
        (StoredFor (OpLog.reference .reference) ops entry.after ⟨"v", "d"⟩ ↔
          ∀ op ∈ ops, (OpLog.reference .reference).deps op ⊆
            storedOps (OpLog.reference .reference) entry.before ⟨"v", "d"⟩ ∪ ops) :=
  acknowledged_write_stored_iff (OpLog.reference_lawful .reference) coherent_empty
    (Schedule.reachable Schedule.unfounded_enabled) Answered.unfounded_mem_answers rfl
    .syncPush rfl

/-- It was acknowledged, but nothing is stored. -/
theorem acknowledged_write_not_stored :
    Answered.unfounded ∈
        (Schedule.unfounded.config Schedule.unfounded_enabled).shared.answers ∧
      ¬ StoredFor (OpLog.reference .reference) { ⟨1, 1⟩ }
        (Schedule.unfounded.config Schedule.unfounded_enabled).shared.db ⟨"v", "d"⟩ := by
  refine ⟨Answered.unfounded_mem_answers, fun stored => ?_⟩
  have member := stored.included rfl
  have nothing : storedOps (OpLog.reference .reference)
      (Schedule.unfounded.config Schedule.unfounded_enabled).shared.db ⟨"v", "d"⟩ =
        { op | op ∈ ([] : List OpId) } := rfl
  rw [nothing] at member
  cases member

end VaultCrdtServer
