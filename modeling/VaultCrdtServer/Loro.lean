import VaultCrdtServer.Foundation.CausalHistory
import Mathlib.Data.Finmap
import Mathlib.Order.Preorder.Finite

/-!
# The Loro library

The server uses Loro as a library: a document is created empty, blobs are
imported into it, and snapshots, deltas and version vectors are taken from it.
`Loro` is that interface.  Its blobs are an arbitrary type.

`OpLog` names what blobs and documents contain, and `OpLog.Lawful` is the
documented behaviour the server relies on: import applies the changes whose
causal dependencies are present and keeps the others pending, and neither an
exported snapshot nor the version vector shows pending changes.
-/

namespace VaultCrdtServer

/-- Loro's `Counter`, an `i32` that leaves room for the exclusive end. -/
abbrev Counter := Fin 2147483647

instance neZero_counters : @NeZero Nat Zero.ofOfNat0 2147483647 := ⟨by decide⟩

/-- Identifier of an operation. -/
structure OpId where
  /-- The peer that made the operation. -/
  peer : UInt64
  /-- Its position among the operations of that peer. -/
  counter : Counter
  deriving DecidableEq

/-- `VersionVector`: the exclusive end of the known operations of each peer. -/
abbrev VersionVector := Finmap fun _ : UInt64 => Int32

/-- The fields of `ImportBlobMetadata` the server reads. -/
structure ImportBlobMeta where
  /-- `change_num` -/
  changeNum : Nat
  /-- `start_frontiers` -/
  startFrontiers : List OpId

/-- The part of the Loro library the server calls. -/
structure Loro (Blob : Type) where
  /-- `LoroDoc` -/
  Doc : Type
  /-- `LoroDoc::new` -/
  new : Doc
  /-- `LoroDoc::import` -/
  importBlob : Doc → Blob → Except String Doc
  /-- `LoroDoc::oplog_vv` -/
  oplogVv : Doc → VersionVector
  /-- `export(ExportMode::Snapshot)` -/
  exportSnapshot : Doc → Except String Blob
  /-- `export(ExportMode::updates(..))` -/
  exportUpdates : Doc → VersionVector → Except String Blob
  /-- `LoroDoc::decode_import_blob_meta` -/
  decodeImportBlobMeta : Blob → Except String ImportBlobMeta
  /-- `get_text("content").to_string()` -/
  contentText : Doc → String
  /-- `VersionVector::encode` -/
  encodeVv : VersionVector → Blob
  /-- `VersionVector::decode` -/
  decodeVv : Blob → Except String VersionVector

/-- The operations blobs and documents consist of.  Operation identifiers are
globally unique, so what an operation depends on is a function of its
identifier. -/
structure OpLog {Blob : Type} (loro : Loro Blob) where
  /-- Causal dependencies of an operation. -/
  deps : OpId → Set OpId
  /-- The operations a well-formed blob carries. -/
  changes : Blob → Option (Set OpId)
  /-- The operations a document has applied. -/
  applied : loro.Doc → Set OpId
  /-- The operations a document keeps aside. -/
  pending : loro.Doc → Set OpId

namespace OpLog

open CausalHistory

/-- The exclusive end of a peer's operations. -/
def IsEnd (ops : Set OpId) (peer : UInt64) (end_ : Int32) : Prop :=
  (∃ counter : Counter, ⟨peer, counter⟩ ∈ ops ∧
      end_.toInt = (counter : Int) + 1) ∧
    ∀ counter : Counter, ⟨peer, counter⟩ ∈ ops →
      (counter : Int) < end_.toInt

/-- The documented behaviour of Loro the server relies on. -/
structure Lawful {Blob : Type} {loro : Loro Blob} (log : OpLog loro) :
    Prop where
  /-- Operations form a directed acyclic graph. -/
  acyclic : WellFounded fun dependency op => dependency ∈ log.deps op
  applied_new : log.applied loro.new = ∅
  pending_new : log.pending loro.new = ∅
  /-- A well-formed blob is imported. -/
  import_succeeds : ∀ doc blob ops, log.changes blob = some ops →
    ∃ doc', loro.importBlob doc blob = .ok doc'
  /-- An import applies what has its dependencies and keeps the rest. -/
  import_applies : ∀ doc blob doc', loro.importBlob doc blob = .ok doc' →
    ∃ ops, log.changes blob = some ops ∧
      log.applied doc' =
        integrate log.deps (log.applied doc) (log.pending doc ∪ ops) ∧
      log.pending doc' = (log.pending doc ∪ ops) \ log.applied doc'
  /-- A snapshot carries exactly what the document has applied. -/
  export_snapshot : ∀ doc, ∃ blob, loro.exportSnapshot doc = .ok blob ∧
    log.changes blob = some (log.applied doc)
  /-- The version vector describes exactly what the document has applied. -/
  oplogVv_lookup : ∀ doc peer end_,
    (loro.oplogVv doc).lookup peer = some end_ ↔
      IsEnd (log.applied doc) peer end_
  decodeVv_encodeVv : ∀ vv, loro.decodeVv (loro.encodeVv vv) = .ok vv
  /-- `change_num` counts the changes of the blob, and `start_frontiers` are
  their causal dependencies that lie outside it. -/
  decodeImportBlobMeta : ∀ blob ops, log.changes blob = some ops →
    ∃ info, loro.decodeImportBlobMeta blob = .ok info ∧
      (info.changeNum = 0 ↔ ops = ∅) ∧
      ∀ op, op ∈ info.startFrontiers ↔
        op ∉ ops ∧ ∃ change ∈ ops, op ∈ log.deps change

variable {Blob : Type} {loro : Loro Blob} {log : OpLog loro}

/-- A peer occurs in the version vector exactly when one of its operations is
applied. -/
theorem Lawful.mem_oplogVv_iff
    (lawful : log.Lawful)
    (doc : loro.Doc)
    (peer : UInt64) :
    peer ∈ loro.oplogVv doc ↔
      ∃ counter, (⟨peer, counter⟩ : OpId) ∈ log.applied doc := by
  constructor
  · intro occurs
    obtain ⟨end_, found⟩ := Finmap.mem_iff.mp occurs
    obtain ⟨⟨counter, member, _⟩, _⟩ := (lawful.oplogVv_lookup ..).mp found
    exact ⟨counter, member⟩
  · intro witnessed
    obtain ⟨counter, member⟩ := witnessed
    -- the largest counter of the peer gives the end of its operations
    let counters : Set Counter :=
      { other | (⟨peer, other⟩ : OpId) ∈ log.applied doc }
    obtain ⟨last, lastMember, lastMaximal⟩ :=
      counters.toFinite.exists_maximal ⟨counter, member⟩
    have fits : (last : Nat) + 1 < 2 ^ 31 := by omega
    have isEnd : IsEnd (log.applied doc) peer
        (Int32.ofInt ((last : Int) + 1)) := by
      have value : (Int32.ofInt ((last : Int) + 1)).toInt =
          (last : Int) + 1 :=
        Int32.toInt_ofInt_of_le (by omega) (by omega)
      refine ⟨⟨last, lastMember, value⟩, ?_⟩
      intro other otherMember
      rw [value]
      have bound : other ≤ last := by
        by_contra larger
        exact larger (lastMaximal otherMember (le_of_not_ge larger))
      have := Fin.le_def.mp bound
      omega
    exact Finmap.mem_of_lookup_eq_some
      ((lawful.oplogVv_lookup ..).mpr isEnd)

/-- The version vector is determined by what is applied. -/
theorem Lawful.oplogVv_congr
    (lawful : log.Lawful)
    {first second : loro.Doc}
    (same : log.applied first = log.applied second) :
    loro.oplogVv first = loro.oplogVv second := by
  apply Finmap.ext_lookup
  intro peer
  apply Option.ext
  intro end_
  rw [lawful.oplogVv_lookup, lawful.oplogVv_lookup, same]

/-- What a new document has applied after one import. -/
theorem Lawful.applied_import_new
    (lawful : log.Lawful)
    {blob : Blob}
    {doc : loro.Doc}
    (imported : loro.importBlob loro.new blob = .ok doc) :
    ∃ ops, log.changes blob = some ops ∧
      log.applied doc = integrate log.deps ∅ ops ∧
      log.pending doc = ops \ log.applied doc := by
  obtain ⟨ops, carried, applied, pending⟩ :=
    lawful.import_applies _ _ _ imported
  rw [lawful.applied_new, lawful.pending_new, Set.empty_union] at applied
  rw [lawful.pending_new, Set.empty_union] at pending
  exact ⟨ops, carried, applied, pending⟩

end OpLog

end VaultCrdtServer
