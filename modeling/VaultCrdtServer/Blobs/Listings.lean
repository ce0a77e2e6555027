import VaultCrdtServer.Blobs.Transcripts
import VaultCrdtServer.Foundation.Paging

/-!
# Listings of path states

A listing is answered with a page and a maximum that one acquisition of the
database has found.  What has been found stays current as long as it is not
written again, since a row that is written takes a seq above all others.
-/

namespace VaultCrdtServer

open Interleaving

/-! ## The rows of a vault -/

/-- The seqs of path rows are distinct and have been counted. -/
structure BlobDb.Numbered (db : BlobDb) : Prop where
  distinct : ∀ key key' row row', db.blobPathStates.lookup key = some row →
    db.blobPathStates.lookup key' = some row' → row.seq = row'.seq → key = key'
  counted : ∀ key row, db.blobPathStates.lookup key = some row →
    0 < row.seq ∧ row.seq ≤ db.blobSeq
  nonneg : 0 ≤ db.blobSeq

/-- Seq of a row of a listing. -/
def seqOf (entry : String × PathRow) : Int := entry.2.seq

/-- What is current in the second database and was counted in the first is
current in the first. -/
structure BlobDb.Precedes (before db : BlobDb) : Prop where
  counter : before.blobSeq ≤ db.blobSeq
  rows : ∀ key row, db.blobPathStates.lookup key = some row → row.seq ≤ before.blobSeq →
    before.blobPathStates.lookup key = some row

namespace BlobDb

variable {vault : VaultId} {db db' : BlobDb} {entry : String × PathRow}

theorem mem_vaultPaths :
    entry ∈ db.vaultPaths vault ↔
      db.blobPathStates.lookup ⟨vault, entry.1⟩ = some entry.2 := by
  unfold vaultPaths
  rw [List.mem_map]
  constructor
  · rintro ⟨⟨key, row⟩, member, rfl⟩
    rw [List.mem_filter, decide_eq_true_eq] at member
    obtain ⟨stored, rfl⟩ := member
    exact AList.mem_lookup_iff.mpr stored
  · intro stored
    refine ⟨⟨⟨vault, entry.1⟩, entry.2⟩, ?_, rfl⟩
    rw [List.mem_filter, decide_eq_true_eq]
    exact ⟨AList.mem_lookup_iff.mp stored, rfl⟩

/-- The rows of a vault have distinct seqs. -/
theorem Numbered.vaultPaths_distinct (numbered : db.Numbered) (vault : VaultId) :
    (db.vaultPaths vault).Pairwise fun first second => seqOf first ≠ seqOf second := by
  unfold vaultPaths
  rw [List.pairwise_map]
  refine List.Pairwise.imp_of_mem ?_ ((List.nodupKeys_iff_pairwise.mp
    db.blobPathStates.nodupKeys).filter _)
  rintro ⟨key, row⟩ ⟨key', row'⟩ member member' different same
  rw [List.mem_filter] at member member'
  exact different (numbered.distinct key key' row row' (AList.mem_lookup_iff.mpr member.1)
    (AList.mem_lookup_iff.mpr member'.1) same)

/-- No row of a vault has a seq above its maximum. -/
theorem seq_le_maxSeq (member : entry ∈ db.vaultPaths vault) :
    seqOf entry ≤ db.maxSeq vault := by
  have listed : seqOf entry ∈ (db.vaultPaths vault).map fun entry => entry.2.seq :=
    List.mem_map_of_mem member
  unfold maxSeq
  cases greatest : ((db.vaultPaths vault).map fun entry => entry.2.seq).max? with
  | none => simp [List.max?_eq_none_iff.mp greatest] at listed
  | some seq => exact (List.max?_le_iff greatest).mp le_rfl _ listed

/-- The maximum has been counted. -/
theorem Numbered.maxSeq_le (numbered : db.Numbered) (vault : VaultId) :
    db.maxSeq vault ≤ db.blobSeq := by
  unfold maxSeq
  cases greatest : ((db.vaultPaths vault).map fun entry => entry.2.seq).max? with
  | none => exact numbered.nonneg
  | some seq =>
      obtain ⟨entry, member, rfl⟩ := List.mem_map.mp (List.max?_mem greatest)
      exact (numbered.counted _ _ (mem_vaultPaths.mp member)).2

/-- The rows that are listed are a page of the vault's rows. -/
theorem pathsSince_eq_page (since : Int) (limit : Nat) :
    db.pathsSince vault since limit =
      Paging.page seqOf since limit (db.vaultPaths vault) := rfl

/-- Pages are strictly ascending and not above the maximum. -/
theorem Numbered.pathsSince_ascending (numbered : db.Numbered) (since : Int) (limit : Nat) :
    ((db.pathsSince vault since limit).Pairwise fun first second =>
        first.2.seq < second.2.seq) ∧
      ∀ entry ∈ db.pathsSince vault since limit, entry.2.seq ≤ db.maxSeq vault := by
  rw [pathsSince_eq_page]
  refine ⟨Paging.page_ascending (numbered.vaultPaths_distinct vault), ?_⟩
  exact fun entry member => seq_le_maxSeq (Paging.mem_page member).1

/-- The paths change as by some upserts that take the next seq. -/
def Renumbers (db db' : BlobDb) : Prop :=
  (db'.blobPathStates = db.blobPathStates ∧ db'.blobSeq = db.blobSeq) ∨
    ∃ key row, row.seq = db.blobSeq + 1 ∧ db'.blobSeq = db.blobSeq + 1 ∧
      db'.blobPathStates = db.blobPathStates.insert key row

/-- Database calls change path rows by upserts only. -/
theorem Renumbers.of_effect
    {now : Time}
    {call : BlobDbCall}
    {reply : call.Reply}
    (effect : call.Effect now reply db db') :
    db.Renumbers db' := by
  have changes := effect.accepted 0
  cases made : call.accepted 0 now reply with
  | none =>
      rw [made] at changes
      exact Or.inl changes
  | some accepted =>
      rw [made] at changes
      exact Or.inr ⟨accepted.key, accepted.row, changes⟩

/-- Seqs stay distinct. -/
theorem Numbered.renumbers
    (numbered : db.Numbered)
    (changes : db.Renumbers db') :
    db'.Numbered := by
  rcases changes with ⟨rows, counter⟩ | ⟨key, row, next, counter, rows⟩
  · refine ⟨?_, ?_, ?_⟩
    · simpa only [rows] using numbered.distinct
    · simpa only [rows, counter] using numbered.counted
    · simpa only [counter] using numbered.nonneg
  · have nonneg := numbered.nonneg
    refine ⟨?_, ?_, by omega⟩
    · intro first second row₁ row₂ stored₁ stored₂ same
      rw [rows, Table.lookup_insert_eq_ite] at stored₁ stored₂
      split_ifs at stored₁ stored₂ with own₁ own₂
      · rw [own₁, own₂]
      · obtain rfl := Option.some.inj stored₁
        have := numbered.counted second row₂ stored₂
        omega
      · obtain rfl := Option.some.inj stored₂
        have := numbered.counted first row₁ stored₁
        omega
      · exact numbered.distinct first second row₁ row₂ stored₁ stored₂ same
    · intro other row' stored
      rw [rows, Table.lookup_insert_eq_ite] at stored
      split_ifs at stored with own
      · obtain rfl := Option.some.inj stored
        omega
      · have := numbered.counted other row' stored
        omega

theorem Precedes.refl (db : BlobDb) : db.Precedes db :=
  ⟨le_rfl, fun _ _ stored _ => stored⟩

/-- A row that is written is above all that was counted. -/
theorem Precedes.renumbers
    {before : BlobDb}
    (precedes : before.Precedes db)
    (changes : db.Renumbers db') :
    before.Precedes db' := by
  have older := precedes.counter
  rcases changes with ⟨rows, counter⟩ | ⟨key, row, next, counter, rows⟩
  · exact ⟨by omega, by simpa only [rows] using precedes.rows⟩
  · refine ⟨by omega, ?_⟩
    intro other row' stored counted
    rw [rows, Table.lookup_insert_eq_ite] at stored
    split_ifs at stored with own
    · obtain rfl := Option.some.inj stored
      omega
    · exact precedes.rows other row' stored counted

end BlobDb

/-! ## Steps and runs -/

section Runs

variable {settings : BlobSettings} {quotaBytes : Table String (Option Int)}

variable {config config' : (blobMachine settings).Config}
variable {label : (blobMachine settings).Label}

/-- What a step does to the paths. -/
theorem renumbers_of_step
    (stepped : Machine.Steps (blobMachine settings) label config config') :
    config.shared.db.Renumbers config'.shared.db := by
  rcases db_of_step stepped with quotas | ⟨_, _, _, _, _, -, -, effect⟩
  · rw [quotas]
    exact Or.inl ⟨rfl, rfl⟩
  · exact .of_effect effect

/-- In every run the seqs stay in order. -/
theorem BlobReachable.numbered
    (reachable : BlobReachable settings quotaBytes config) :
    config.shared.db.Numbered :=
  reachable.induction (motive := fun config => config.shared.db.Numbered)
    { distinct := fun _ _ _ _ stored => nomatch stored
      counted := fun _ _ stored => nomatch stored
      nonneg := le_rfl }
    fun _ numbered stepped => numbered.renumbers (renumbers_of_step stepped)

/-- They were in order before every call. -/
theorem BlobReachable.numbered_before
    (reachable : BlobReachable settings quotaBytes config) :
    ∀ entry ∈ config.shared.journal, entry.before.Numbered := by
  refine reachable.journal ?_
  intro config entry uuid reached same _
  rw [same]
  exact reached.numbered

/-- A listing ends with what its one query has found. -/
def ListsOnce (task : BlobTask) (outcome : BlobOutcome) (queries : List BlobQuery) : Prop :=
  ∀ vault sinceSeq limit rows maxSeq, task = .listBlobPaths vault sinceSeq limit →
    outcome = .response (.ok (.pathStates rows maxSeq)) →
      queries =
        [⟨.listPaths vault sinceSeq.toInt (pageLimit limit.toInt), (maxSeq, rows)⟩]

theorem blobProgram_listsOnce (task : BlobTask) :
    (blobProgram settings task).Accounts BlobCall.queried (fun _ _ => True) (ListsOnce task)
      [] := by
  by_cases lists : ∃ vault sinceSeq limit, task = .listBlobPaths vault sinceSeq limit
  · obtain ⟨vault, sinceSeq, limit, rfl⟩ := lists
    refine ⟨trivial, fun reply => ?_⟩
    cases reply with
    | error error =>
        intro _ _ _ rows maxSeq _ failed
        cases failed
    | ok found =>
        intro vault' sinceSeq' limit' rows maxSeq same answered
        cases same
        cases answered
        rfl
  · refine Program.Accounts.of_forall _ (fun _ _ => trivial) ?_ []
    intro outcome queries vault sinceSeq limit rows maxSeq same
    exact absurd ⟨vault, sinceSeq, limit, same⟩ lists

/-- A listing is answered with a page and the maximum, as one acquisition of the
database has found them. -/
theorem BlobReachable.listed
    (reachable : BlobReachable settings quotaBytes config)
    {request : Nat}
    {vault : VaultId}
    {sinceSeq limit : Int64}
    {rows : List (String × PathRow)}
    {maxSeq : Int}
    (made : config.shared.requests[request]? = some (.listBlobPaths vault sinceSeq limit))
    (answered : (request, BlobOutcome.response (.ok (.pathStates rows maxSeq))) ∈
      config.shared.answers) :
    ∃ entry ∈ config.shared.entriesOf request,
      maxSeq = entry.before.maxSeq vault ∧
        rows = entry.before.pathsSince vault sinceSeq.toInt (pageLimit limit.toInt) := by
  have attentive := reachable.attentive blobProgram_listsOnce
  obtain ⟨-, -, concludes⟩ := attentive.records.answered _ answered
  have queries := concludes _ made vault sinceSeq limit rows maxSeq rfl rfl
  obtain ⟨entry, entries, query⟩ := List.map_eq_singleton_iff.mp queries
  have own : entry ∈ config.shared.entriesOf request :=
    entries ▸ List.mem_singleton_self entry
  refine ⟨entry, own, ?_⟩
  have executed := reachable.journal
    (motive := fun entry => ∃ uuid, entry.call.exec settings.defaultQuotaBytes entry.now uuid
      entry.before = .ok (entry.reply, entry.after))
    (fun _ _ exec => ⟨_, exec⟩) entry (List.mem_of_mem_filter own)
  obtain ⟨uuid, exec⟩ := executed
  obtain ⟨origin, now, call, reply, before, after⟩ := entry
  obtain ⟨rfl, same⟩ := Sigma.mk.inj query
  obtain rfl := eq_of_heq same
  obtain ⟨found, -⟩ := Prod.mk.inj (Except.ok.inj exec)
  obtain ⟨greatest, page⟩ := Prod.mk.inj found
  exact ⟨greatest.symm, page.symm⟩

end Runs

end VaultCrdtServer
