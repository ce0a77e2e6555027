import VaultCrdtServer.History

/-!
# Document lists

A `DocList` is put together from three queries, and other connections may get
in between.  It describes one state of the vault unless a change of the
documents is followed by one of the tombstones meanwhile.
-/

namespace VaultCrdtServer

variable {Blob : Type}

/-! ## What a listing shows -/

/-- What a listing shows of a document. -/
def DocumentRow.listed (row : DocumentRow Blob) : Time × Blob × Int :=
  (row.updatedAt, row.vvBlob, row.incarnation)

section Views

variable {libraries : Libraries Blob} {vault doc : String} {db db' : Db Blob}

/-- The rows of a vault, as far as they are listed. -/
theorem select_congr
    {ρ ν : Type}
    {view : ρ → ν}
    {first second : Table DocPath ρ}
    (same : ∀ doc, (first.lookup ⟨vault, doc⟩).map view =
      (second.lookup ⟨vault, doc⟩).map view) :
    (first.select (fun path _ => path.vault = vault) DocPath.doc).map
        (fun entry => (entry.1, view entry.2)) =
      (second.select (fun path _ => path.vault = vault) DocPath.doc).map
        fun entry => (entry.1, view entry.2) := by
  refine Table.select_map_congr (ω := String) ?_ ?_
  · rintro ⟨pathVault, doc⟩ ⟨otherVault, otherDoc⟩ inVault otherInVault sameDoc
    simp only [decide_eq_true_eq] at inVault otherInVault sameDoc
    rw [inVault, otherInVault, sameDoc]
  · rintro ⟨pathVault, doc⟩ inVault
    obtain rfl := of_decide_eq_true inVault
    exact same doc

/-- What `list_docs_with_vv` reports of a stored version vector. -/
def listedVv (libraries : Libraries Blob) (vvBlob : Blob) : Bytes :=
  match libraries.loro.decodeVv vvBlob with
  | .ok vv => vvToJsonBytes libraries.json vv
  | .error _ => invalidVvSentinelJson

theorem listDocsWithVv_congr
    (same : ∀ doc, (db.documents.lookup ⟨vault, doc⟩).map DocumentRow.listed =
      (db'.documents.lookup ⟨vault, doc⟩).map DocumentRow.listed) :
    db.listDocsWithVv libraries vault = db'.listDocsWithVv libraries vault := by
  have shown := congrArg
    (List.map fun (entry : DocPath × Time × Blob × Int) => (
      { docUuid := entry.1.doc
        updatedAt := entry.2.1
        serverVv := listedVv libraries entry.2.2.1
        incarnation := some entry.2.2.2 } : DocEntry)) (select_congr same)
  rw [List.map_map, List.map_map] at shown
  exact shown

theorem listTombstonesWithHash_congr
    (same : ∀ doc, (db.tombstones.lookup ⟨vault, doc⟩).map TombstoneRow.contentHash =
      (db'.tombstones.lookup ⟨vault, doc⟩).map TombstoneRow.contentHash) :
    db.listTombstonesWithHash vault = db'.listTombstonesWithHash vault := by
  have shown := congrArg
    (List.map fun (entry : DocPath × Option String) => (
      { docUuid := entry.1.doc, contentHash := entry.2 } : TombstoneHash))
    (select_congr same)
  rw [List.map_map, List.map_map] at shown
  exact shown

/-- The two tombstone listings have the same ids. -/
theorem map_listTombstonesWithHash (vault : String) (db : Db Blob) :
    (db.listTombstonesWithHash vault).map TombstoneHash.docUuid =
      db.listTombstones vault := by
  simp only [Db.listTombstonesWithHash, Db.listTombstones, List.map_map]
  rfl

theorem listTombstones_congr
    (same : ∀ doc, (db.tombstones.lookup ⟨vault, doc⟩).map TombstoneRow.contentHash =
      (db'.tombstones.lookup ⟨vault, doc⟩).map TombstoneRow.contentHash) :
    db.listTombstones vault = db'.listTombstones vault := by
  rw [← map_listTombstonesWithHash, listTombstonesWithHash_congr same,
    map_listTombstonesWithHash]

theorem mem_listTombstones_iff :
    doc ∈ db.listTombstones vault ↔
      (db.tombstones.lookup ⟨vault, doc⟩).isSome = true := by
  simp only [Db.listTombstones, List.mem_map, Prod.exists, Table.mem_select_iff,
    decide_eq_true_eq, Option.isSome_iff_exists]
  constructor
  · rintro ⟨⟨_, _⟩, row, ⟨found, rfl⟩, rfl⟩
    exact ⟨row, found⟩
  · rintro ⟨row, found⟩
    exact ⟨⟨vault, doc⟩, row, ⟨found, rfl⟩, rfl⟩

theorem exists_mem_listDocsWithVv_iff :
    (∃ entry ∈ db.listDocsWithVv libraries vault, entry.docUuid = doc) ↔
      (db.documents.lookup ⟨vault, doc⟩).isSome = true := by
  simp only [Db.listDocsWithVv, List.mem_map, Prod.exists, Table.mem_select_iff,
    decide_eq_true_eq, Option.isSome_iff_exists]
  constructor
  · rintro ⟨_, ⟨⟨_, _⟩, row, ⟨found, rfl⟩, rfl⟩, rfl⟩
    exact ⟨row, found⟩
  · rintro ⟨row, found⟩
    exact ⟨_, ⟨⟨vault, doc⟩, row, ⟨found, rfl⟩, rfl⟩, rfl⟩

end Views

/-! ## One state -/

/-- A listing is that of one of the databases, with what follows from it. -/
structure DescribesOneState
    (libraries : Libraries Blob)
    (vault : String)
    (instants : Db Blob → Prop)
    (docs : List DocEntry)
    (tombstones : List String)
    (hashes : List TombstoneHash) : Prop where
  instant : ∃ db, instants db ∧ docs = db.listDocsWithVv libraries vault ∧
    tombstones = db.listTombstones vault ∧ hashes = db.listTombstonesWithHash vault
  /-- No path is listed twice. -/
  apart : ∀ entry ∈ docs, entry.docUuid ∉ tombstones
  /-- What is live or tombstoned all the time is listed. -/
  complete : ∀ doc, (∀ db, instants db →
      (db.documents.lookup ⟨vault, doc⟩).isSome = true ∨
        (db.tombstones.lookup ⟨vault, doc⟩).isSome = true) →
    (∃ entry ∈ docs, entry.docUuid = doc) ∨ doc ∈ tombstones
  sameIds : hashes.map TombstoneHash.docUuid = tombstones

/-- A listing of one database. -/
theorem DescribesOneState.of_instant
    {libraries : Libraries Blob}
    {vault : String}
    {instants : Db Blob → Prop}
    {db : Db Blob}
    (exclusive : Exclusive db)
    (during : instants db) :
    DescribesOneState libraries vault instants (db.listDocsWithVv libraries vault)
      (db.listTombstones vault) (db.listTombstonesWithHash vault) where
  instant := ⟨db, during, rfl, rfl, rfl⟩
  apart := by
    intro entry listed buried
    have live := exists_mem_listDocsWithVv_iff.mp ⟨entry, listed, rfl⟩
    have tombstoned := mem_listTombstones_iff.mp buried
    rcases exclusive ⟨vault, entry.docUuid⟩ with none | none
    · simp [none] at live
    · simp [none] at tombstoned
  complete := by
    intro doc throughout
    rw [exists_mem_listDocsWithVv_iff, mem_listTombstones_iff]
    exact throughout db during
  sameIds := map_listTombstonesWithHash vault db

/-! ## Changes between the queries -/

namespace JournalEntry

/-- The call has changed what is listed of the vault's documents. -/
def ChangesDocuments (vault : String) (entry : JournalEntry Blob) : Prop :=
  ∃ doc, (entry.after.documents.lookup ⟨vault, doc⟩).map DocumentRow.listed ≠
    (entry.before.documents.lookup ⟨vault, doc⟩).map DocumentRow.listed

/-- The call has changed what is listed of the vault's tombstones. -/
def ChangesTombstones (vault : String) (entry : JournalEntry Blob) : Prop :=
  ∃ doc, (entry.after.tombstones.lookup ⟨vault, doc⟩).map TombstoneRow.contentHash ≠
    (entry.before.tombstones.lookup ⟨vault, doc⟩).map TombstoneRow.contentHash

end JournalEntry

/-- Between the first two queries no change of the vault's documents comes with
or before one of its tombstones, and between the last two queries its
tombstones do not change. -/
structure Undivided
    (vault : String)
    (between later : List (JournalEntry Blob)) : Prop where
  ordered : between.Pairwise fun earlier entry =>
    earlier.ChangesDocuments vault → ¬ entry.ChangesTombstones vault
  separate : ∀ entry ∈ between,
    entry.ChangesDocuments vault → ¬ entry.ChangesTombstones vault
  settled : ∀ entry ∈ later, ¬ entry.ChangesTombstones vault

/-- Where no change of the first kind comes with or before one of the second,
there is an instant after all of the second and before all of the first. -/
theorem exists_cut
    {α : Type}
    {first second : α → Prop}
    {items : List α}
    (ordered : items.Pairwise fun earlier item => first earlier → ¬ second item)
    (separate : ∀ item ∈ items, first item → ¬ second item) :
    ∃ front back, items = front ++ back ∧ (∀ item ∈ front, ¬ first item) ∧
      ∀ item ∈ back, ¬ second item := by
  induction items with
  | nil => exact ⟨[], [], rfl, by simp, by simp⟩
  | cons item items inductionHypothesis =>
      rw [List.pairwise_cons] at ordered
      by_cases changes : first item
      · refine ⟨[], item :: items, rfl, by simp, ?_⟩
        intro other member
        rcases List.mem_cons.mp member with rfl | member
        · exact separate other (by simp) changes
        · exact ordered.1 other member changes
      · obtain ⟨front, back, rfl, spared, settled⟩ :=
          inductionHypothesis ordered.2 fun other member =>
            separate other (List.mem_cons_of_mem _ member)
        refine ⟨item :: front, back, rfl, ?_, settled⟩
        intro other member
        rcases List.mem_cons.mp member with rfl | member
        · exact changes
        · exact spared other member

section Unchanged

variable {libraries : Libraries Blob} {initial db : Db Blob}
variable {journal : List (JournalEntry Blob)} {vault : String}

/-- Without a change the documents are listed as they were. -/
theorem History.listDocsWithVv_eq
    (history : History libraries initial journal db)
    (unchanged : ∀ entry ∈ journal, ¬ entry.ChangesDocuments vault) :
    db.listDocsWithVv libraries vault = initial.listDocsWithVv libraries vault := by
  apply listDocsWithVv_congr
  refine history.preserves (motive := fun db => ∀ doc,
    (db.documents.lookup ⟨vault, doc⟩).map DocumentRow.listed =
      (initial.documents.lookup ⟨vault, doc⟩).map DocumentRow.listed) ?_ fun _ => rfl
  intro entry now member same _ _ doc
  by_contra changed
  exact unchanged entry member ⟨doc, fun kept => changed (kept.trans (same doc))⟩

/-- Without a change the tombstones are those there were. -/
theorem History.tombstones_eq
    (history : History libraries initial journal db)
    (unchanged : ∀ entry ∈ journal, ¬ entry.ChangesTombstones vault) :
    ∀ doc, (db.tombstones.lookup ⟨vault, doc⟩).map TombstoneRow.contentHash =
      (initial.tombstones.lookup ⟨vault, doc⟩).map TombstoneRow.contentHash := by
  refine history.preserves (motive := fun db => ∀ doc,
    (db.tombstones.lookup ⟨vault, doc⟩).map TombstoneRow.contentHash =
      (initial.tombstones.lookup ⟨vault, doc⟩).map TombstoneRow.contentHash) ?_
    fun _ => rfl
  intro entry now member same _ _ doc
  by_contra changed
  exact unchanged entry member ⟨doc, fun kept => changed (kept.trans (same doc))⟩

end Unchanged

/-! ## The reply -/

/-- The databases between the calls of a part of the journal. -/
def InstantOf
    (initial : Db Blob)
    (front during : List (JournalEntry Blob))
    (db : Db Blob) : Prop :=
  ∃ early late, during = early ++ late ∧ db = dbAfter initial (front ++ early)

/-- A reply whose queries are not divided by changes describes one state. -/
theorem describesOneState_of_undivided
    {libraries : Libraries Blob}
    {initial db docs tombstones hashes : Db Blob}
    {vault : String}
    {front between later back : List (JournalEntry Blob)}
    {first second third : JournalEntry Blob}
    (exclusive : Exclusive initial)
    (history : History libraries initial
      (front ++ first :: (between ++ second :: (later ++ third :: back))) db)
    (readsFirst : first.before = docs ∧ first.after = docs)
    (readsSecond : second.before = tombstones ∧ second.after = tombstones)
    (readsThird : third.before = hashes)
    (undivided : Undivided vault between later) :
    DescribesOneState libraries vault
      (InstantOf initial front (first :: (between ++ second :: later)))
      (docs.listDocsWithVv libraries vault) (tombstones.listTombstones vault)
      (hashes.listTombstonesWithHash vault) := by
  obtain ⟨early, late, rfl, spared, settled⟩ :=
    exists_cut undivided.ordered undivided.separate
  have whole : History libraries initial
      ((front ++ first :: early) ++ (late ++ second :: (later ++ third :: back))) db := by
    simpa using history
  obtain ⟨before, after⟩ := whole.split
  generalize instant : dbAfter initial (front ++ first :: early) = middle at before after
  -- the documents have not changed since the first query
  have sameDocs : middle.listDocsWithVv libraries vault =
      docs.listDocsWithVv libraries vault := by
    have since := before.at_entry.2.1.listDocsWithVv_eq spared
    rwa [readsFirst.2] at since
  -- and the tombstones do not change any more
  have toSecond := after.at_entry.1.tombstones_eq settled
  rw [readsSecond.1] at toSecond
  have toThird := after.at_entry.2.1.at_entry.1.tombstones_eq undivided.settled
  rw [readsThird, readsSecond.2] at toThird
  rw [← sameDocs, listTombstones_congr toSecond,
    listTombstonesWithHash_congr fun doc => (toThird doc).trans (toSecond doc)]
  refine .of_instant ?_ ⟨first :: early, late ++ second :: later, by simp, instant.symm⟩
  exact before.preserves
    (fun _ exclusive justified effect => exclusive.step justified effect) exclusive

/-- In every run from an empty database a `DocList` whose queries are not
divided by changes describes one state of its vault. -/
theorem docList_describes_one_state
    {settings : Settings Blob}
    {config : (serverMachine settings).Config}
    (reachable : Reachable settings Db.empty config)
    {answered : Answered Blob}
    (member : answered ∈ config.shared.answers)
    {docs : List DocEntry}
    {tombstones : List String}
    {hashes : List TombstoneHash}
    (listed : answered.response = .docList docs tombstones hashes) :
    ∃ front between later back first second third,
      config.shared.journal =
        front ++ first :: (between ++ second :: (later ++ third :: back)) ∧
      config.shared.entriesOf answered.origin = [first, second, third] ∧
      (Undivided answered.vaultId between later →
        DescribesOneState settings.toLibraries answered.vaultId
          (InstantOf Db.empty front (first :: (between ++ second :: later)))
          docs tombstones hashes) := by
  obtain ⟨_, broadcast, settled, _⟩ := reachable.recorded.reported answered member
  rw [listed] at settled
  generalize made : config.shared.entriesOf answered.origin = entries at settled
  cases settled with
  | plain isPlain => exact isPlain.elim
  | @listed docsDb tombstonesDb hashesDb asked =>
      have parts := made
      unfold Server.entriesOf at parts
      obtain ⟨front, rest, journal, _, _, remaining⟩ := List.filter_eq_cons_iff.mp parts
      obtain ⟨between, rest, rfl, _, _, remaining⟩ := List.filter_eq_cons_iff.mp remaining
      obtain ⟨later, back, rfl, _, _, _⟩ := List.filter_eq_cons_iff.mp remaining
      refine ⟨front, between, later, back, _, _, _, journal, rfl, ?_⟩
      intro undivided
      have history := reachable.history
      rw [journal] at history
      exact describesOneState_of_undivided (fun _ => Or.inl rfl) history ⟨rfl, rfl⟩
        ⟨rfl, rfl⟩ rfl undivided

/-- A document is deleted after the documents were listed and before the
tombstones are. -/
def Schedule.divided : Schedule :=
  connects 0 "a" ++ connects 1 "b" ++ serves 0 (.push [⟨1, 0⟩]) 7 ++
    receives 1 .requestDocList 1 ++ serves 0 (.delete none) 5 ++ completes 1 3

theorem Schedule.divided_enabled : Schedule.divided.Enabled := by
  decide +kernel

/-- The list that is sent. -/
def Answered.divided : Answered ReferenceBlob where
  origin := ⟨1, 1⟩
  vaultId := "v"
  frame := .of .requestDocList
  response := .docList
    [⟨"d", 0, vvToJsonBytes .reference (versionOf [⟨1, 0⟩]), some 1⟩]
    ["d"]
    [⟨"d", some (fnv1a64Hex "1")⟩]

theorem Answered.divided_mem_answers :
    Answered.divided ∈
      (Schedule.divided.config Schedule.divided_enabled).shared.answers :=
  List.mem_of_getElem? (i := 2) rfl

theorem docList_describes_one_state_divided :
    ∃ front between later back first second third,
      (Schedule.divided.config Schedule.divided_enabled).shared.journal =
        front ++ first :: (between ++ second :: (later ++ third :: back)) ∧
      (Schedule.divided.config Schedule.divided_enabled).shared.entriesOf ⟨1, 1⟩ =
        [first, second, third] ∧
      (Undivided "v" between later →
        DescribesOneState Settings.reference.toLibraries "v"
          (InstantOf Db.empty front (first :: (between ++ second :: later)))
          [⟨"d", 0, vvToJsonBytes .reference (versionOf [⟨1, 0⟩]), some 1⟩] ["d"]
          [⟨"d", some (fnv1a64Hex "1")⟩]) :=
  docList_describes_one_state (Schedule.reachable Schedule.divided_enabled)
    Answered.divided_mem_answers rfl

/-- The document is listed as live and as deleted. -/
theorem docList_divided :
    Reachable Settings.reference Db.empty
        (Schedule.divided.config Schedule.divided_enabled) ∧
      Answered.divided ∈
        (Schedule.divided.config Schedule.divided_enabled).shared.answers ∧
      ∀ docs tombstones hashes,
        Answered.divided.response = .docList docs tombstones hashes →
          ∀ instants, ¬ DescribesOneState Settings.reference.toLibraries "v" instants
            docs tombstones hashes := by
  refine ⟨Schedule.reachable Schedule.divided_enabled, Answered.divided_mem_answers, ?_⟩
  intro docs tombstones hashes listed instants describes
  cases listed
  exact describes.apart _ (List.mem_singleton_self _) (List.mem_singleton_self _)

end VaultCrdtServer
