import VaultCrdtServer.Merge.Kept
import VaultCrdtServer.Sequential

/-!
# Disjoint histories

The two writes recognise a blob that shares no history with what is stored by
different signs.  `DocCreate` compares the peers of the stored version vector
with those of a probe import.  `SyncPush` looks for changes none of which
depends on anything outside the blob, so a delta with one change that begins a
history and another one with an unknown dependency gets past it.
-/

namespace VaultCrdtServer

open CausalHistory

variable {Blob : Type} {loro : Loro Blob}

/-- The blob has changes and none of them depends on anything outside it. -/
def BeginsHistory (loro : Loro Blob) (blob : Blob) : Prop :=
  ∃ info, loro.decodeImportBlobMeta blob = .ok info ∧ 0 < info.changeNum ∧
    info.startFrontiers = []

theorem VersionVector.isEmpty_eq_false_iff {vv : VersionVector} :
    vv.isEmpty = false ↔ ∃ peer, peer ∈ vv := by
  simp only [VersionVector.isEmpty, decide_eq_false_iff_not]
  rw [← ne_eq, ← Finset.nonempty_iff_ne_empty]
  exact exists_congr fun peer => Finmap.mem_keys

section Predicates

variable {log : OpLog loro} {db : Db Blob} {path : DocPath} {row : DocumentRow Blob}
variable {blob : Blob} {ops : Set OpId}

/-- The stored version vector is empty when nothing is stored. -/
theorem CoherentAt.decodeVv_isEmpty
    (lawful : log.Lawful)
    (coherent : CoherentAt log db path)
    (live : db.documents.lookup path = some row) :
    ∃ vv, loro.decodeVv row.vvBlob = .ok vv ∧
      (vv.isEmpty = false ↔ (storedOps log db path).Nonempty) ∧
      ∀ peer, peer ∈ vv ↔
        ∃ counter, (⟨peer, counter⟩ : OpId) ∈ storedOps log db path := by
  obtain ⟨vv, decoded, peers⟩ := coherent.decodeVv lawful live
  refine ⟨vv, decoded, ?_, peers⟩
  rw [VersionVector.isEmpty_eq_false_iff]
  constructor
  · rintro ⟨peer, occurs⟩
    obtain ⟨counter, member⟩ := (peers peer).mp occurs
    exact ⟨_, member⟩
  · rintro ⟨op, member⟩
    exact ⟨op.peer, (peers op.peer).mpr ⟨op.counter, member⟩⟩

/-- The check of `SyncPush`. -/
theorem disjointDelta_of_live
    (lawful : log.Lawful)
    (coherent : CoherentAt log db path)
    (live : db.documents.lookup path = some row)
    (carried : log.changes blob = some ops) :
    ∃ disjoint, disjointDelta loro (db.getSnapshotWithVv path) blob = .ok disjoint ∧
      (disjoint = true ↔
        (storedOps log db path).Nonempty ∧ BeginsHistory loro blob) := by
  obtain ⟨vv, decoded, isEmpty, _⟩ := coherent.decodeVv_isEmpty lawful live
  obtain ⟨info, found, _⟩ := lawful.decodeImportBlobMeta blob ops carried
  refine ⟨!vv.isEmpty && decide (0 < info.changeNum) && info.startFrontiers.isEmpty,
    ?_, ?_⟩
  · simp [disjointDelta, Db.getSnapshotWithVv, live, decoded, found, labelled, bind,
      Except.bind]
  · simp [← isEmpty, BeginsHistory, found, and_assoc]

/-- The check of `DocCreate`. -/
theorem disjointSnapshot_of_live
    (lawful : log.Lawful)
    (coherent : CoherentAt log db path)
    (live : db.documents.lookup path = some row)
    (carried : log.changes blob = some ops) :
    ∃ disjoint, disjointSnapshot loro (db.getSnapshotWithVv path) blob = .ok disjoint ∧
      (disjoint = true ↔ (storedOps log db path).Nonempty ∧
        (integrate log.deps ∅ ops).Nonempty ∧
        ∀ stored ∈ storedOps log db path, ∀ op ∈ integrate log.deps ∅ ops,
          stored.peer ≠ op.peer) := by
  obtain ⟨vv, decoded, isEmpty, peers⟩ := coherent.decodeVv_isEmpty lawful live
  obtain ⟨probe, imported⟩ := lawful.import_succeeds loro.new blob ops carried
  obtain ⟨ops', carried', applied, _⟩ := lawful.applied_import_new imported
  obtain rfl := Option.some.inj (carried.symm.trans carried')
  have probed := lawful.mem_oplogVv_iff probe
  rw [applied] at probed
  refine ⟨!vv.isEmpty && !(loro.oplogVv probe).isEmpty &&
    !decide (∃ peer ∈ vv.keys, ((loro.oplogVv probe).lookup peer).isSome), ?_, ?_⟩
  · simp [disjointSnapshot, Db.getSnapshotWithVv, live, decoded, imported, labelled,
      bind, Except.bind]
  · simp only [Bool.and_eq_true, Bool.not_eq_eq_eq_not, Bool.not_true, isEmpty,
      VersionVector.isEmpty_eq_false_iff, decide_eq_false_iff_not, and_assoc]
    refine and_congr_right fun _ => and_congr ?_ ?_
    · constructor
      · rintro ⟨peer, occurs⟩
        obtain ⟨counter, member⟩ := (probed peer).mp occurs
        exact ⟨_, member⟩
      · rintro ⟨op, member⟩
        exact ⟨op.peer, (probed op.peer).mpr ⟨op.counter, member⟩⟩
    · simp only [Finmap.mem_keys, Finmap.lookup_isSome, not_exists, not_and, probed,
        peers]
      constructor
      · intro apart stored member op applied same
        exact apart stored.peer ⟨stored.counter, member⟩ op.counter (same ▸ applied)
      · rintro apart peer ⟨counter, member⟩ counter' applied
        exact apart _ member _ applied rfl

end Predicates

/-! ## What is merged -/

/-- The operations of a blob together with their causal dependencies. -/
def OpLog.named (log : OpLog loro) (ops : Set OpId) : Set OpId :=
  { op | op ∈ ops ∨ ∃ change ∈ ops, op ∈ log.deps change }

/-- A write that has added an operation has a peer in common with the version
vector that was stored. -/
def MergesRelated
    (log : OpLog loro)
    (path : DocPath)
    (ops : Set OpId)
    (vv : VersionVector)
    (before after : Db Blob) : Prop :=
  storedOps log after path ≠ storedOps log before path →
    ∃ op ∈ log.named ops, op.peer ∈ vv

/-- A delta without a peer in common that gets past the check of `SyncPush`:
one of its operations can be applied by an empty document, another one depends
on something outside the blob. -/
structure EvadesCheck
    (log : OpLog loro)
    (msg : ClientMsg Blob)
    (blob : Blob)
    (ops : Set OpId)
    (vv : VersionVector) : Prop where
  syncPush : msg.IsSyncPush
  identifiers : checkIdentifiers msg = .ok ()
  outside : ¬ BeginsHistory loro blob
  applicable : ∃ op ∈ ops, op ∈ integrate log.deps ∅ ops
  apart : ∀ op ∈ log.named ops, op.peer ∉ vv

section Merges

variable {libraries : Libraries Blob} {log : OpLog libraries.loro} {db : Db Blob}
variable {frame : Frame Blob} {vaultId docUuid peerId : String} {blob : Blob}
variable {requestId : Option String} {msg : ClientMsg Blob} {ops : Set OpId}
variable {row : DocumentRow Blob} {vv : VersionVector}

/-- On a live row with something stored, a write merges only what has a peer in
common with it if and only if it is not a delta that evades the check. -/
theorem mergesRelated_iff
    (now : Time)
    (connId : Nat)
    (lawful : log.Lawful)
    (coherent : CoherentAt log db ⟨vaultId, docUuid⟩)
    (asked : frame.decoded = .ok msg)
    (submits : Submits docUuid blob peerId requestId msg)
    (live : db.documents.lookup ⟨vaultId, docUuid⟩ = some row)
    (decoded : libraries.loro.decodeVv row.vvBlob = .ok vv)
    (nonempty : vv.isEmpty = false)
    (carried : log.changes blob = some ops) :
    MergesRelated log ⟨vaultId, docUuid⟩ ops vv db
        (processAlone libraries now frame vaultId connId db).2 ↔
      ¬ EvadesCheck log msg blob ops vv := by
  obtain ⟨spec, refused⟩ := processAlone_spec libraries now db vaultId connId asked submits
  obtain ⟨vv', decoded', isEmpty, peers⟩ := coherent.decodeVv_isEmpty lawful live
  obtain rfl := Except.ok.inj (decoded.symm.trans decoded')
  have stored := isEmpty.mp nonempty
  -- operations of peers that do not occur are not stored
  have unstored : ∀ op : OpId, op.peer ∉ vv →
      op ∉ storedOps log db ⟨vaultId, docUuid⟩ :=
    fun op absent member => absent ((peers op.peer).mpr ⟨op.counter, member⟩)
  constructor
  · intro related evades
    cases submits with
    | docCreate => exact evades.syncPush
    | syncPush =>
        obtain ⟨disjoint, checked, isDisjoint⟩ :=
          disjointDelta_of_live lawful coherent live carried
        have admits : Admits libraries.loro db ⟨vaultId, docUuid⟩
            (.syncPush docUuid blob peerId requestId) := by
          refine ⟨fun dead => (nomatch live.symm.trans dead), checked.trans ?_⟩
          rw [Bool.eq_false_iff.mpr fun same => evades.outside (isDisjoint.mp same).2]
        obtain ⟨row', _, writes⟩ := WritesAlone.of_live now lawful coherent live
          carried admits False.elim
        have after := ((spec _).mp ⟨evades.identifiers, writes⟩).2
        obtain ⟨entry, rfl, final, stores, effect⟩ := writes.stores
        obtain ⟨ops', carried', integrated⟩ :=
          storedOps_of_stores lawful coherent effect stores
        obtain rfl := Option.some.inj (carried.symm.trans carried')
        obtain ⟨op, offered, applicable⟩ := evades.applicable
        have fresh := unstored op (evades.apart op (Or.inl offered))
        rw [after, ← final] at related
        obtain ⟨shared, named, occurs⟩ := related fun same => fresh <| by
          rw [← same, integrated]
          exact integrate_mono (Set.empty_subset _) subset_rfl applicable
        exact evades.apart shared named occurs
  · intro caught changed
    by_contra unrelated
    have apart : ∀ op ∈ log.named ops, op.peer ∉ vv :=
      fun op named occurs => unrelated ⟨op, named, occurs⟩
    by_cases acked : (processAlone libraries now frame vaultId connId db).1.1.IsAck
    · obtain ⟨identifiers, writes⟩ := (spec _).mpr ⟨acked, rfl⟩
      obtain ⟨entry, rfl, final, stores, effect⟩ := writes.stores
      obtain ⟨ops', carried', integrated⟩ :=
        storedOps_of_stores lawful coherent effect stores
      obtain rfl := Option.some.inj (carried.symm.trans carried')
      rw [← final, integrated] at changed
      obtain ⟨op, applied, fresh⟩ : ∃ op,
          op ∈ integrate log.deps (storedOps log entry.before ⟨vaultId, docUuid⟩) ops ∧
            op ∉ storedOps log entry.before ⟨vaultId, docUuid⟩ := by
        by_contra none
        push Not at none
        exact changed (Set.Subset.antisymm none subset_integrate)
      have offered := (integrate_subset applied).resolve_left fresh
      have applicable := integrate_empty_of_deps_not_held
        (fun change member dependency needed =>
          unstored dependency (apart dependency (Or.inr ⟨change, member, needed⟩)))
        applied fresh
      obtain ⟨admits, _⟩ := writes
      cases submits with
      | syncPush =>
          obtain ⟨disjoint, checked, isDisjoint⟩ :=
            disjointDelta_of_live lawful coherent live carried
          obtain rfl := Except.ok.inj (checked.symm.trans admits.2)
          refine caught ⟨trivial, identifiers, ?_, ⟨op, offered, applicable⟩, apart⟩
          intro begins
          cases isDisjoint.mpr ⟨stored, begins⟩
      | docCreate =>
          obtain ⟨disjoint, checked, isDisjoint⟩ :=
            disjointSnapshot_of_live lawful coherent live carried
          obtain rfl := Except.ok.inj (checked.symm.trans admits.2)
          refine absurd (isDisjoint.mpr ⟨stored, ⟨op, applicable⟩, ?_⟩) (by simp)
          intro old member new applied same
          have offered := (integrate_subset applied).resolve_left id
          exact apart new (Or.inl offered)
            ((peers new.peer).mpr ⟨old.counter, same ▸ member⟩)
    · exact changed (by rw [refused acked])

end Merges

/-- In every reachable state a write merges only histories with a peer in
common, unless it is a delta that evades the check of `SyncPush`. -/
theorem disjoint_histories_kept_apart_iff
    {settings : Settings Blob}
    {log : OpLog settings.loro}
    {initial : Db Blob}
    {config : (serverMachine settings).Config}
    {frame : Frame Blob}
    {vaultId docUuid peerId : String}
    {blob : Blob}
    {requestId : Option String}
    {msg : ClientMsg Blob}
    {ops : Set OpId}
    {row : DocumentRow Blob}
    {vv : VersionVector}
    (now : Time)
    (connId : Nat)
    (lawful : log.Lawful)
    (coherent : Coherent log initial)
    (reachable : Reachable settings initial config)
    (asked : frame.decoded = .ok msg)
    (submits : Submits docUuid blob peerId requestId msg)
    (live : config.shared.db.documents.lookup ⟨vaultId, docUuid⟩ = some row)
    (decoded : settings.loro.decodeVv row.vvBlob = .ok vv)
    (nonempty : vv.isEmpty = false)
    (carried : log.changes blob = some ops) :
    MergesRelated log ⟨vaultId, docUuid⟩ ops vv config.shared.db
        (processAlone settings.toLibraries now frame vaultId connId
          config.shared.db).2 ↔
      ¬ EvadesCheck log msg blob ops vv :=
  mergesRelated_iff now connId lawful (coherent.history lawful reachable.history _)
    asked submits live decoded nonempty carried

/-- A document with one edit of peer 1. -/
def Schedule.pushed : Schedule :=
  connects 0 "a" ++ serves 0 (.push [⟨1, 0⟩]) 7

theorem Schedule.pushed_enabled : Schedule.pushed.Enabled := by
  decide +kernel

/-- A first edit of peer 9, and one of peer 8 that continues an edit nobody has
sent. -/
def forkedEdits : List OpId := [⟨9, 0⟩, ⟨8, 0⟩]

theorem disjoint_histories_kept_apart_iff_forked :
    MergesRelated (OpLog.reference .reference) ⟨"v", "d"⟩ { op | op ∈ forkedEdits }
        (versionOf [⟨1, 0⟩]) (Schedule.pushed.config Schedule.pushed_enabled).shared.db
        (processAlone Settings.reference.toLibraries 0 (.of (.push forkedEdits)) "v" 0
          (Schedule.pushed.config Schedule.pushed_enabled).shared.db).2 ↔
      ¬ EvadesCheck (OpLog.reference .reference) (.push forkedEdits)
        (.updates forkedEdits) { op | op ∈ forkedEdits } (versionOf [⟨1, 0⟩]) :=
  disjoint_histories_kept_apart_iff 0 0 (OpLog.reference_lawful .reference)
    coherent_empty (Schedule.reachable Schedule.pushed_enabled) rfl .syncPush rfl rfl
    (by decide +kernel) rfl

/-- The server merges these edits into a document with which they share no
peer. -/
theorem disjoint_history_merged :
    Reachable Settings.reference Db.empty
        (Schedule.pushed.config Schedule.pushed_enabled) ∧
      ¬ MergesRelated (OpLog.reference .reference) ⟨"v", "d"⟩ { op | op ∈ forkedEdits }
        (versionOf [⟨1, 0⟩]) (Schedule.pushed.config Schedule.pushed_enabled).shared.db
        (processAlone Settings.reference.toLibraries 0 (.of (.push forkedEdits)) "v" 0
          (Schedule.pushed.config Schedule.pushed_enabled).shared.db).2 := by
  refine ⟨Schedule.reachable Schedule.pushed_enabled, fun related => ?_⟩
  have grown : (⟨9, 0⟩ : OpId) ∈ storedOps (OpLog.reference .reference)
      (processAlone Settings.reference.toLibraries 0 (.of (.push forkedEdits)) "v" 0
        (Schedule.pushed.config Schedule.pushed_enabled).shared.db).2 ⟨"v", "d"⟩ := by
    change (⟨9, 0⟩ : OpId) ∈ ([⟨1, 0⟩, ⟨9, 0⟩] : List OpId)
    decide
  obtain ⟨op, named, occurs⟩ := related fun same => by
    rw [same] at grown
    change (⟨9, 0⟩ : OpId) ∈ ([⟨1, 0⟩] : List OpId) at grown
    revert grown
    decide
  have apart : ∀ op ∈ forkedEdits, op.peer ∉ versionOf [⟨1, 0⟩] ∧
      ∀ dependency ∈ EditGraph.reference.deps op,
        dependency.peer ∉ versionOf [⟨1, 0⟩] := by
    decide +kernel
  rcases named with member | ⟨change, member, needed⟩
  · exact (apart op member).1 occurs
  · exact (apart change member).2 op needed occurs

end VaultCrdtServer
