import VaultCrdtServer.Loro.Reference

/-!
# Updates

What the server relies on when it exports updates: they carry the operations a
version vector does not cover.  As the operations of a peer form a chain, the
vector of a document covers exactly what the document has applied, and a replica
that imports the updates beyond its own vector holds the union.
-/

namespace VaultCrdtServer

open CausalHistory

variable {Blob : Type} {loro : Loro Blob}

/-- A version vector covers the operations below its ends. -/
def VersionVector.Covers (vv : VersionVector) (op : OpId) : Prop :=
  ∃ end_, vv.lookup op.peer = some end_ ∧ (op.counter : Int) < end_.toInt

namespace OpLog

/-- The documented behaviour of `export(updates(..))`. -/
structure Exchanges (log : OpLog loro) : Prop where
  /-- An operation depends on the one its peer has made before it. -/
  chained : ∀ (peer : UInt64) (counter counter' : Counter),
    counter.val + 1 = counter'.val → (⟨peer, counter⟩ : OpId) ∈ log.deps ⟨peer, counter'⟩
  /-- Updates carry what is applied and not covered. -/
  export_updates : ∀ doc vv, ∃ blob, loro.exportUpdates doc vv = .ok blob ∧
    log.changes blob = some { op | op ∈ log.applied doc ∧ ¬ vv.Covers op }

/-- A document that has all dependencies of what it has applied. -/
structure Replica (log : OpLog loro) (doc : loro.Doc) : Prop where
  closed : Closed log.deps (log.applied doc)
  settled : log.pending doc = ∅

variable {log : OpLog loro}

/-- What a peer has made before an operation is in every closed set with it. -/
theorem Exchanges.earlier
    (exchanges : log.Exchanges)
    {ops : Set OpId}
    (closed : Closed log.deps ops)
    {peer : UInt64}
    {counter counter' : Counter}
    (earlier : counter.val ≤ counter'.val)
    (member : (⟨peer, counter'⟩ : OpId) ∈ ops) :
    (⟨peer, counter⟩ : OpId) ∈ ops := by
  induction apart : counter'.val - counter.val generalizing counter' with
  | zero =>
      have same : counter = counter' := Fin.ext (by omega)
      exact same ▸ member
  | succ distance inductionHypothesis =>
      let before : Counter := ⟨counter'.val - 1, by omega⟩
      have dependency : (⟨peer, before⟩ : OpId) ∈ ops :=
        closed _ member (exchanges.chained peer before counter' (by
          change counter'.val - 1 + 1 = counter'.val
          omega))
      have between : counter.val ≤ before.val := by
        change counter.val ≤ counter'.val - 1
        omega
      have nearer : before.val - counter.val = distance := by
        change counter'.val - 1 - counter.val = distance
        omega
      exact inductionHypothesis between dependency nearer

/-- The vector of a replica covers what the replica has applied. -/
theorem Replica.covers_iff
    (lawful : log.Lawful)
    (exchanges : log.Exchanges)
    {doc : loro.Doc}
    (closed : Closed log.deps (log.applied doc))
    (op : OpId) :
    (loro.oplogVv doc).Covers op ↔ op ∈ log.applied doc := by
  obtain ⟨peer, counter⟩ := op
  constructor
  · rintro ⟨end_, found, below⟩
    obtain ⟨⟨last, member, value⟩, _⟩ := (lawful.oplogVv_lookup doc peer end_).mp found
    have earlier : counter.val ≤ last.val := by
      dsimp only at below
      omega
    exact exchanges.earlier closed earlier member
  · intro member
    have occurs : peer ∈ loro.oplogVv doc :=
      (lawful.mem_oplogVv_iff doc peer).mpr ⟨counter, member⟩
    obtain ⟨end_, found⟩ := Finmap.mem_iff.mp occurs
    exact ⟨end_, found, ((lawful.oplogVv_lookup ..).mp found).2 counter member⟩

/-- A replica that imports a part of a closed set with all it lacks of the set
holds the union. -/
theorem Replica.import_between
    (lawful : log.Lawful)
    {doc doc' : loro.Doc}
    (replica : log.Replica doc)
    {ops pool : Set OpId}
    (closed : Closed log.deps ops)
    {blob : Blob}
    (carries : log.changes blob = some pool)
    (lacking : ops \ log.applied doc ⊆ pool)
    (within : pool ⊆ ops)
    (imports : loro.importBlob doc blob = .ok doc') :
    log.applied doc' = log.applied doc ∪ ops ∧ log.Replica doc' := by
  obtain ⟨carried, carries', applied, pending⟩ := lawful.import_applies _ _ _ imports
  obtain rfl := Option.some.inj (carries.symm.trans carries')
  rw [replica.settled, Set.empty_union] at applied pending
  have closed' : Closed log.deps (integrate log.deps (log.applied doc) pool) :=
    integrate_closed replica.closed
  rw [← applied] at closed'
  have union : integrate log.deps (log.applied doc) pool = log.applied doc ∪ ops := by
    apply Set.Subset.antisymm
    · exact integrate_subset.trans (Set.union_subset_union_right _ within)
    · rw [← integrate_sdiff lawful.acyclic closed]
      exact integrate_mono subset_rfl lacking
  rw [union] at applied
  refine ⟨applied, closed', ?_⟩
  rw [pending, applied]
  exact Set.sdiff_eq_empty.mpr fun op member => Or.inr (within member)

end OpLog

/-! ## The reference log -/

/-- Updates of the reference log. -/
theorem OpLog.reference_exchanges
    {graph : EditGraph}
    (chained : ∀ (peer : UInt64) (counter counter' : Counter),
      counter.val + 1 = counter'.val →
        (⟨peer, counter⟩ : OpId) ∈ graph.dependencies ⟨peer, counter'⟩) :
    (OpLog.reference graph).Exchanges where
  chained := chained
  export_updates := by
    intro doc vv
    refine ⟨_, rfl, ?_⟩
    refine congrArg some (Set.ext fun op => ?_)
    simp only [Set.mem_ofPred_eq, List.mem_filter, VersionVector.Covers]
    refine and_congr_right fun _ => ?_
    cases known : vv.lookup op.peer with
    | none => simp
    | some end_ => simp

/-- A document without waiting operations that has the dependencies of its own. -/
theorem OpLog.reference_replica
    {graph : EditGraph}
    {ops : List OpId}
    (closed : ∀ op ∈ ops, ∀ dependency ∈ graph.deps op, dependency ∈ ops) :
    (OpLog.reference graph).Replica ⟨ops, []⟩ where
  closed := fun op member dependency needed => closed op member dependency needed
  settled := Set.eq_empty_of_forall_notMem fun _ member => List.not_mem_nil member

end VaultCrdtServer
