import VaultCrdtServer.Merge.Disjoint

/-!
# Replays

A client that has missed an `Ack` sends its frame again.  The first processing
has changed what the second one looks at: a delta that begins a history was let
in because nothing was stored, and is now disjoint from its own operations.
-/

namespace VaultCrdtServer

open CausalHistory

variable {Blob : Type}

/-- A path has kept its operations, version vector, incarnation and tombstone. -/
structure SameStored
    {loro : Loro Blob}
    (log : OpLog loro)
    (path : DocPath)
    (db db' : Db Blob) : Prop where
  ops : storedOps log db' path = storedOps log db path
  vv : (db'.documents.lookup path).map (fun row => loro.decodeVv row.vvBlob) =
    (db.documents.lookup path).map fun row => loro.decodeVv row.vvBlob
  incarnation : (db'.documents.lookup path).map DocumentRow.incarnation =
    (db.documents.lookup path).map DocumentRow.incarnation
  tombstone : db'.tombstones.lookup path = db.tombstones.lookup path

/-- The version vector of a coherent row is that of its operations. -/
theorem CoherentRow.decodeVv_congr
    {loro : Loro Blob}
    {log : OpLog loro}
    {row row' : DocumentRow Blob}
    (lawful : log.Lawful)
    (coherent : CoherentRow log row)
    (coherent' : CoherentRow log row')
    (same : log.opsOf (some row'.snapshotBlob) = log.opsOf (some row.snapshotBlob)) :
    loro.decodeVv row'.vvBlob = loro.decodeVv row.vvBlob := by
  obtain ⟨doc, applied, decoded⟩ := coherent.vv
  obtain ⟨doc', applied', decoded'⟩ := coherent'.vv
  rw [decoded, decoded', lawful.oplogVv_congr (applied'.trans (same.trans applied.symm))]

/-- A blob that begins a history is applied by every document. -/
theorem BeginsHistory.nonempty_integrate
    {loro : Loro Blob}
    {log : OpLog loro}
    {blob : Blob}
    {ops held : Set OpId}
    (lawful : log.Lawful)
    (carried : log.changes blob = some ops)
    (begins : BeginsHistory loro blob) :
    (integrate log.deps held ops).Nonempty := by
  obtain ⟨info, found, changes, unfounded⟩ := begins
  obtain ⟨info', found', empty, frontiers⟩ := lawful.decodeImportBlobMeta blob ops carried
  obtain rfl := Except.ok.inj (found.symm.trans found')
  have inside : Closed log.deps ops := by
    intro op member dependency needed
    by_contra outside
    have frontier := (frontiers dependency).mpr ⟨outside, op, member, needed⟩
    simp [unfounded] at frontier
  have some : ops.Nonempty := by
    rw [Set.nonempty_iff_ne_empty]
    intro none
    have := empty.mpr none
    omega
  rw [integrate_eq_union lawful.acyclic fun op member =>
    (inside op member).trans Set.subset_union_right]
  exact some.mono Set.subset_union_right

section Replay

variable {libraries : Libraries Blob} {log : OpLog libraries.loro} {db later : Db Blob}
variable {frame : Frame Blob} {vaultId docUuid peerId : String} {blob : Blob}
variable {requestId : Option String} {msg : ClientMsg Blob}

/-- A frame with a blob that was acknowledged is acknowledged again, and changes
nothing then, if and only if it is not a delta that begins a history. -/
theorem replay_iff
    (now now' : Time)
    (connId connId' : Nat)
    (lawful : log.Lawful)
    (coherent : CoherentAt log db ⟨vaultId, docUuid⟩)
    (asked : frame.decoded = .ok msg)
    (submits : Submits docUuid blob peerId requestId msg)
    (acked : (processAlone libraries now frame vaultId connId db).1.1.IsAck)
    (sameDocument : later.documents.lookup ⟨vaultId, docUuid⟩ =
      (processAlone libraries now frame vaultId connId db).2.documents.lookup
        ⟨vaultId, docUuid⟩)
    (sameTombstone : later.tombstones.lookup ⟨vaultId, docUuid⟩ =
      (processAlone libraries now frame vaultId connId db).2.tombstones.lookup
        ⟨vaultId, docUuid⟩) :
    ((processAlone libraries now' frame vaultId connId' later).1.1.IsAck ∧
        SameStored log ⟨vaultId, docUuid⟩ later
          (processAlone libraries now' frame vaultId connId' later).2) ↔
      ¬ (msg.IsSyncPush ∧ BeginsHistory libraries.loro blob) := by
  obtain ⟨first, _⟩ := processAlone_spec libraries now db vaultId connId asked submits
  obtain ⟨again, _⟩ := processAlone_spec libraries now' later vaultId connId' asked submits
  obtain ⟨identifiers, writes⟩ := (first _).mpr ⟨acked, rfl⟩
  have unburied := writes.unburied
  obtain ⟨entry, rfl, written, stores, effect⟩ := writes.stores
  rw [← written] at sameDocument sameTombstone unburied
  obtain ⟨ops, carried, integrated⟩ := storedOps_of_stores lawful coherent effect stores
  obtain ⟨row, live, merges⟩ := row_of_stores effect stores
  have coherentRow := (coherentRow_of_merges lawful coherent merges).1
  rw [live] at sameDocument
  rw [← storedOps_congr (sameDocument.trans live.symm)] at integrated
  have coherentLater : CoherentAt log later ⟨vaultId, docUuid⟩ := by
    intro row' live'
    obtain rfl := Option.some.inj (sameDocument.symm.trans live')
    exact coherentRow
  constructor
  · rintro ⟨acked, _⟩ ⟨isSyncPush, begins⟩
    obtain ⟨_, admits, _⟩ := (again _).mpr ⟨acked, rfl⟩
    cases submits with
    | docCreate => exact isSyncPush
    | syncPush =>
        obtain ⟨disjoint, checked, isDisjoint⟩ :=
          disjointDelta_of_live lawful coherentLater sameDocument carried
        obtain rfl := Except.ok.inj (checked.symm.trans admits.2)
        have stored : (integrate log.deps
            (storedOps log entry.before ⟨vaultId, docUuid⟩) ops).Nonempty :=
          begins.nonempty_integrate lawful carried
        cases isDisjoint.mpr ⟨integrated ▸ stored, begins⟩
  · intro continues
    have admits : Admits libraries.loro later ⟨vaultId, docUuid⟩ msg := by
      cases submits with
      | syncPush =>
          obtain ⟨disjoint, checked, isDisjoint⟩ :=
            disjointDelta_of_live lawful coherentLater sameDocument carried
          refine ⟨fun dead => (nomatch sameDocument.symm.trans dead), checked.trans ?_⟩
          rw [Bool.eq_false_iff.mpr fun same => continues ⟨trivial, (isDisjoint.mp same).2⟩]
      | docCreate =>
          obtain ⟨disjoint, checked, isDisjoint⟩ :=
            disjointSnapshot_of_live lawful coherentLater sameDocument carried
          refine ⟨fun _ dead => (nomatch sameDocument.symm.trans dead), checked.trans ?_⟩
          -- what the probe applies was stored by the first processing
          have stored : integrate log.deps ∅ ops ⊆
              storedOps log later ⟨vaultId, docUuid⟩ := by
            rw [integrated]
            exact integrate_mono (Set.empty_subset _) subset_rfl
          have related : disjoint ≠ true := by
            intro same
            obtain ⟨_, ⟨op, probed⟩, apart⟩ := isDisjoint.mp same
            exact apart op (stored probed) op probed rfl
          rw [Bool.eq_false_iff.mpr related]
    obtain ⟨row', incarnation, writes⟩ := WritesAlone.of_live now' lawful
      coherentLater sameDocument carried admits fun replaces => by
        have buried := unburied replaces
        rwa [Db.isTombstoned, ← sameTombstone] at buried
    obtain ⟨acked, outcome⟩ := (again _).mp ⟨identifiers, writes⟩
    refine ⟨acked, ?_⟩
    rw [outcome]
    obtain ⟨entry', before, after, stores, effect⟩ := writes.stores
    have live' : (later.putDocument ⟨vaultId, docUuid⟩ row').documents.lookup
        ⟨vaultId, docUuid⟩ = some row' := AList.lookup_insert _
    subst before
    obtain ⟨ops', carried', integrated'⟩ :=
      storedOps_of_stores lawful coherentLater effect stores
    obtain rfl := Option.some.inj (carried.symm.trans carried')
    rw [after, integrated, integrate_integrate subset_rfl, ← integrated] at integrated'
    obtain ⟨row'', live'', merges'⟩ := row_of_stores effect stores
    rw [after] at live''
    obtain rfl := Option.some.inj (live'.symm.trans live'')
    have coherentRow' := (coherentRow_of_merges lawful coherentLater merges').1
    refine ⟨integrated', ?_, ?_, rfl⟩
    · rw [live', sameDocument, Option.map_some, Option.map_some]
      refine congrArg some (coherentRow.decodeVv_congr lawful coherentRow' ?_)
      rwa [← storedOps_of_live live', ← storedOps_of_live sameDocument]
    · rw [live', sameDocument, Option.map_some, Option.map_some, incarnation]

end Replay

/-- In every reachable state a frame with a blob that is acknowledged can be
processed again, with no other operation on its path in between, if and only if
it is not a delta that begins a history. -/
theorem replay_safe_iff
    {settings : Settings Blob}
    {log : OpLog settings.loro}
    {initial later : Db Blob}
    {config : (serverMachine settings).Config}
    {frame : Frame Blob}
    {vaultId docUuid peerId : String}
    {blob : Blob}
    {requestId : Option String}
    {msg : ClientMsg Blob}
    (now now' : Time)
    (connId connId' : Nat)
    (lawful : log.Lawful)
    (coherent : Coherent log initial)
    (reachable : Reachable settings initial config)
    (asked : frame.decoded = .ok msg)
    (submits : Submits docUuid blob peerId requestId msg)
    (acked : (processAlone settings.toLibraries now frame vaultId connId
      config.shared.db).1.1.IsAck)
    (sameDocument : later.documents.lookup ⟨vaultId, docUuid⟩ =
      (processAlone settings.toLibraries now frame vaultId connId
        config.shared.db).2.documents.lookup ⟨vaultId, docUuid⟩)
    (sameTombstone : later.tombstones.lookup ⟨vaultId, docUuid⟩ =
      (processAlone settings.toLibraries now frame vaultId connId
        config.shared.db).2.tombstones.lookup ⟨vaultId, docUuid⟩) :
    ((processAlone settings.toLibraries now' frame vaultId connId' later).1.1.IsAck ∧
        SameStored log ⟨vaultId, docUuid⟩ later
          (processAlone settings.toLibraries now' frame vaultId connId' later).2) ↔
      ¬ (msg.IsSyncPush ∧ BeginsHistory settings.loro blob) :=
  replay_iff now now' connId connId' lawful
    (coherent.history lawful reachable.history _) asked submits acked sameDocument
    sameTombstone

/-- A connection to an empty vault. -/
def Schedule.connected : Schedule := connects 0 "a"

theorem Schedule.connected_enabled : Schedule.connected.Enabled := by
  decide +kernel

/-- The database after a first edit was pushed there. -/
def Db.afterFirstEdit : Db ReferenceBlob :=
  (processAlone Settings.reference.toLibraries 0 (.of (.push [⟨1, 0⟩])) "v" 0
    (Schedule.connected.config Schedule.connected_enabled).shared.db).2

theorem replay_safe_iff_first_edit :
    ((processAlone Settings.reference.toLibraries 0 (.of (.push [⟨1, 0⟩])) "v" 0
          Db.afterFirstEdit).1.1.IsAck ∧
        SameStored (OpLog.reference .reference) ⟨"v", "d"⟩ Db.afterFirstEdit
          (processAlone Settings.reference.toLibraries 0 (.of (.push [⟨1, 0⟩])) "v" 0
            Db.afterFirstEdit).2) ↔
      ¬ ((ClientMsg.push [⟨1, 0⟩]).IsSyncPush ∧
        BeginsHistory Settings.reference.loro (.updates [⟨1, 0⟩])) :=
  replay_safe_iff 0 0 0 0 (OpLog.reference_lawful .reference) coherent_empty
    (Schedule.reachable Schedule.connected_enabled) rfl .syncPush (by decide +kernel)
    rfl rfl

/-- The first push is acknowledged, and its replay is refused. -/
theorem replay_of_first_edit_refused :
    Reachable Settings.reference Db.empty
        (Schedule.connected.config Schedule.connected_enabled) ∧
      (processAlone Settings.reference.toLibraries 0 (.of (.push [⟨1, 0⟩])) "v" 0
        (Schedule.connected.config Schedule.connected_enabled).shared.db).1.1.IsAck ∧
      ¬ (processAlone Settings.reference.toLibraries 0 (.of (.push [⟨1, 0⟩])) "v" 0
        Db.afterFirstEdit).1.1.IsAck :=
  ⟨Schedule.reachable Schedule.connected_enabled, by decide +kernel⟩

end VaultCrdtServer
