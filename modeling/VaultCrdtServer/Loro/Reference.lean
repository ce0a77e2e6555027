import VaultCrdtServer.Loro

/-!
# A reference operation log

A computable Loro whose blobs are lists of operation identifiers over a fixed
graph of edits.  It meets the documented behaviour, so nothing that is proved
from that behaviour is vacuous, and concrete runs of the server evaluate on it.
-/

namespace VaultCrdtServer

open CausalHistory

/-- The edits ever made, each with the edits it depends on. -/
structure EditGraph where
  /-- Causal dependencies of each edit. -/
  deps : OpId → List OpId
  /-- A rank that grows along the dependencies. -/
  rank : OpId → Nat
  older : ∀ op, ∀ dependency ∈ deps op, rank dependency < rank op

/-- Blobs of the reference log. -/
inductive ReferenceBlob
  | updates (ops : List OpId)
  | version (vv : VersionVector)
  | garbage
  deriving DecidableEq

/-- Documents of the reference log. -/
structure ReferenceDoc where
  /-- Operations that are applied. -/
  applied : List OpId
  /-- Operations that wait for their dependencies. -/
  pending : List OpId

namespace EditGraph

variable (graph : EditGraph)

/-- Dependencies as sets. -/
def dependencies (op : OpId) : Set OpId :=
  { dependency | dependency ∈ graph.deps op }

/-- The edits of a pool a document can apply. -/
def admitted (doc : ReferenceDoc) (ops : List OpId) : List OpId :=
  (doc.pending ++ ops).filter fun op =>
    readyBelow graph.deps doc.applied (doc.pending ++ ops) (graph.rank op + 1) op

/-- Apply what is ready and keep the rest. -/
def receive (doc : ReferenceDoc) (ops : List OpId) : ReferenceDoc :=
  let applied := doc.applied ∪ graph.admitted doc ops
  { applied := applied
    pending := (doc.pending ++ ops).filter fun op => op ∉ applied }

theorem mem_receive_applied_iff
    (doc : ReferenceDoc)
    (ops : List OpId)
    (op : OpId) :
    op ∈ (graph.receive doc ops).applied ↔
      op ∈ integrate graph.dependencies { op | op ∈ doc.applied }
        { op | op ∈ doc.pending ++ ops } := by
  have ready : readyBelow graph.deps doc.applied (doc.pending ++ ops)
      (graph.rank op + 1) op = true ↔ _ :=
    readyBelow_iff graph.older (Nat.lt_succ_self (graph.rank op))
  simp only [receive, List.mem_union_iff, admitted, List.mem_filter]
  constructor
  · rintro (member | ⟨_, computed⟩)
    · exact subset_integrate member
    · exact ready.mp computed
  · intro applied
    rcases integrate_subset applied with member | offered
    · exact Or.inl member
    · exact Or.inr ⟨offered, ready.mpr applied⟩

end EditGraph

/-- The version vector of a list of operations. -/
def versionOf : List OpId → VersionVector
  | [] => ∅
  | op :: ops =>
      let rest := versionOf ops
      match rest.lookup op.peer with
      | some end_ =>
          if end_.toInt < (op.counter : Int) + 1 then
            rest.insert op.peer (Int32.ofInt ((op.counter : Int) + 1))
          else
            rest
      | none => rest.insert op.peer (Int32.ofInt ((op.counter : Int) + 1))

/-- The end after an operation, as an integer. -/
theorem toInt_counter_succ (counter : Counter) :
    (Int32.ofInt ((counter : Int) + 1)).toInt = (counter : Int) + 1 :=
  Int32.toInt_ofInt_of_le (by omega) (by omega)

/-- A peer's operations have at most one end. -/
theorem OpLog.IsEnd.unique
    {ops : Set OpId}
    {peer : UInt64}
    {first second : Int32}
    (isFirst : OpLog.IsEnd ops peer first)
    (isSecond : OpLog.IsEnd ops peer second) :
    first = second := by
  obtain ⟨⟨counter, member, value⟩, bound⟩ := isFirst
  obtain ⟨⟨counter', member', value'⟩, bound'⟩ := isSecond
  have below := bound counter' member'
  have above := bound' counter member
  exact Int32.toInt_inj.mp (by omega)

/-- What `versionOf` says about one peer. -/
theorem versionOf_spec (ops : List OpId) (peer : UInt64) :
    match (versionOf ops).lookup peer with
    | some end_ => OpLog.IsEnd { op | op ∈ ops } peer end_
    | none => ∀ counter, (⟨peer, counter⟩ : OpId) ∉ ops := by
  induction ops with
  | nil => simp [versionOf]
  | cons op ops inductionHypothesis =>
      obtain ⟨author, counter⟩ := op
      have value := toInt_counter_succ counter
      by_cases same : peer = author
      · subst same
        cases known : (versionOf ops).lookup peer with
        | none =>
            rw [known] at inductionHypothesis
            simp only [versionOf, known, Finmap.lookup_insert]
            refine ⟨⟨counter, by simp, value⟩, ?_⟩
            intro other member
            simp only [Set.mem_ofPred_eq, List.mem_cons, OpId.mk.injEq,
              true_and, inductionHypothesis other, or_false] at member
            subst member
            omega
        | some end_ =>
            rw [known] at inductionHypothesis
            obtain ⟨⟨last, lastMember, lastValue⟩, bound⟩ := inductionHypothesis
            by_cases later : end_.toInt < (counter : Int) + 1
            · simp only [versionOf, known, later, ↓reduceIte,
                Finmap.lookup_insert]
              refine ⟨⟨counter, by simp, value⟩, ?_⟩
              intro other member
              simp only [Set.mem_ofPred_eq, List.mem_cons, OpId.mk.injEq,
                true_and] at member
              rcases member with rfl | member
              · omega
              · have := bound other member
                omega
            · simp only [versionOf, known, later, ↓reduceIte]
              refine ⟨⟨last, List.mem_cons_of_mem _ lastMember, lastValue⟩, ?_⟩
              intro other member
              simp only [Set.mem_ofPred_eq, List.mem_cons, OpId.mk.injEq,
                true_and] at member
              rcases member with rfl | member
              · omega
              · exact bound other member
      · have unchanged : (versionOf (⟨author, counter⟩ :: ops)).lookup peer =
            (versionOf ops).lookup peer := by
          cases known : (versionOf ops).lookup author with
          | none =>
              simp [versionOf, known, Finmap.lookup_insert_of_ne _ same]
          | some end_ =>
              by_cases later : end_.toInt < (counter : Int) + 1 <;>
                simp [versionOf, known, later,
                  Finmap.lookup_insert_of_ne _ same]
        rw [unchanged]
        simpa [OpLog.IsEnd, same] using inductionHypothesis

theorem versionOf_lookup_iff
    (ops : List OpId)
    (peer : UInt64)
    (end_ : Int32) :
    (versionOf ops).lookup peer = some end_ ↔
      OpLog.IsEnd { op | op ∈ ops } peer end_ := by
  have spec := versionOf_spec ops peer
  cases known : (versionOf ops).lookup peer with
  | none =>
      rw [known] at spec
      refine iff_of_false (by simp) ?_
      rintro ⟨⟨counter, member, _⟩, _⟩
      exact spec counter member
  | some found =>
      rw [known] at spec
      constructor
      · intro equal
        exact Option.some.inj equal ▸ spec
      · intro isEnd
        rw [spec.unique isEnd]

/-- The reference log over a graph of edits. -/
def Loro.reference (graph : EditGraph) : Loro ReferenceBlob where
  Doc := ReferenceDoc
  new := { applied := [], pending := [] }
  importBlob := fun doc blob =>
    match blob with
    | .updates ops => .ok (graph.receive doc ops)
    | _ => .error "decode error"
  oplogVv := fun doc => versionOf doc.applied
  exportSnapshot := fun doc => .ok (.updates doc.applied)
  exportUpdates := fun doc vv => .ok (.updates (doc.applied.filter fun op =>
    match vv.lookup op.peer with
    | some end_ => end_.toInt ≤ (op.counter : Int)
    | none => true))
  decodeImportBlobMeta := fun blob =>
    match blob with
    | .updates ops => .ok
        { changeNum := ops.length
          startFrontiers := (ops.flatMap graph.deps).filter fun op => op ∉ ops }
    | _ => .error "decode error"
  contentText := fun doc => toString doc.applied.length
  encodeVv := .version
  decodeVv := fun blob =>
    match blob with
    | .version vv => .ok vv
    | _ => .error "decode error"

/-- The operations of the reference log. -/
def OpLog.reference (graph : EditGraph) : OpLog (Loro.reference graph) where
  deps := graph.dependencies
  changes := fun blob =>
    match blob with
    | .updates ops => some { op | op ∈ ops }
    | _ => none
  applied := fun doc => { op | op ∈ doc.applied }
  pending := fun doc => { op | op ∈ doc.pending }

/-- The reference log behaves as documented. -/
theorem OpLog.reference_lawful (graph : EditGraph) :
    (OpLog.reference graph).Lawful where
  acyclic :=
    Subrelation.wf
      (fun {dependency op} needed => graph.older op dependency needed)
      (InvImage.wf graph.rank Nat.lt_wfRel.wf)
  applied_new := by
    simp [OpLog.reference, Loro.reference]
  pending_new := by
    simp [OpLog.reference, Loro.reference]
  import_succeeds := by
    intro doc blob ops carried
    cases blob with
    | updates ops => exact ⟨_, rfl⟩
    | version vv => cases carried
    | garbage => cases carried
  import_applies := by
    intro doc blob doc' imported
    cases blob with
    | version vv => cases imported
    | garbage => cases imported
    | updates ops =>
        cases imported
        have offered : ({ op | op ∈ doc.pending ++ ops } : Set OpId) =
            { op | op ∈ doc.pending } ∪ { op | op ∈ ops } := by
          ext op
          simp
        refine ⟨{ op | op ∈ ops }, rfl, ?_, ?_⟩
        · ext op
          have applied := graph.mem_receive_applied_iff doc ops op
          rw [offered] at applied
          exact applied
        · ext op
          simp [OpLog.reference, EditGraph.receive]
          tauto
  export_snapshot := fun _ => ⟨_, rfl, rfl⟩
  oplogVv_lookup := fun doc peer end_ => versionOf_lookup_iff doc.applied peer end_
  decodeVv_encodeVv := fun _ => rfl
  decodeImportBlobMeta := by
    intro blob ops carried
    cases blob with
    | version vv => cases carried
    | garbage => cases carried
    | updates ops =>
        cases carried
        refine ⟨_, rfl, ?_, ?_⟩
        · rw [List.length_eq_zero_iff]
          constructor
          · rintro rfl
            simp
          · intro empty
            exact List.eq_nil_iff_forall_not_mem.mpr fun op member =>
              (empty ▸ (show op ∈ { op | op ∈ ops } from member) : op ∈ ∅)
        · intro op
          simp [OpLog.reference, EditGraph.dependencies, and_comm]

/-- A peer's own edits form a chain; its first edit depends on `base`. -/
def EditGraph.chains
    (base : UInt64 → List OpId)
    (smaller : ∀ peer, ∀ dependency ∈ base peer,
      dependency.peer.toNat < peer.toNat) : EditGraph where
  deps := fun op =>
    if first : op.counter.val = 0 then
      base op.peer
    else
      [⟨op.peer, ⟨op.counter.val - 1, by omega⟩⟩]
  rank := fun op => op.peer.toNat * 2147483647 + op.counter.val
  older := by
    intro op dependency needed
    split_ifs at needed with first
    · have := smaller op.peer dependency needed
      have := dependency.counter.isLt
      omega
    · simp only [List.mem_singleton] at needed
      subst needed
      simp only
      omega

end VaultCrdtServer
