import VaultCrdtServer.Blobs.Claims

/-!
# Room for uploads

A `create_upload` is between its check and its insertion once it has been
admitted.  As long as only one is, there is room for its row when it is inserted:
what the check has found is kept by all other steps.
-/

namespace VaultCrdtServer

open Interleaving

variable {settings : BlobSettings} {quotaBytes : Table String (Option Int)}

/-! ## Between check and insertion -/

/-- The size an upload of the vault has been admitted with. -/
def BlobEntry.admittedSize (vault : VaultId) (entry : BlobEntry) : Option Nat :=
  match entry.call, entry.reply with
  | .admitUpload vault' size, .admitted _ => if vault' = vault then some size else none
  | _, _ => none

/-- The size a `create_upload` of the vault has been admitted with, while it is
between its check and its insertion. -/
def admittedSize
    (vault : VaultId)
    (config : (blobMachine settings).Config)
    (request : Nat) : Option Nat :=
  if (config.thread request).isSome then
    (config.shared.entriesOf request).getLast?.bind (BlobEntry.admittedSize vault)
  else
    none

/-- A step changes at most the quotas, or makes a database call that inserts no
upload of the vault. -/
def InsertsNone
    (vault : VaultId)
    (label : (blobMachine settings).Label)
    (config config' : (blobMachine settings).Config) : Prop :=
  config'.shared.db =
      { config.shared.db with quotaBytes := config'.shared.db.quotaBytes } ∨
    ∃ request circumstance call next, ∃ reply : call.Reply,
      label = .act request circumstance ∧
      config.thread request = some (.call (.db call) next) ∧
      call.Effect circumstance.now reply config.shared.db config'.shared.db ∧
      ∀ row, call.inserted circumstance.now = some row → row.vaultId ≠ vault

/-- What a step does to the uploads of a vault: a `create_upload` inserts the row
it has been admitted with, or one is admitted, or neither. -/
inductive UploadStep
    (vault : VaultId)
    (label : (blobMachine settings).Label)
    (config config' : (blobMachine settings).Config) : Prop
  | inserts
      {request : Nat} {circumstance : BlobCircumstance} {size : Nat}
      {call : BlobDbCall} {next} {reply : call.Reply} {row : UploadRow}
      (acts : label = .act request circumstance)
      (current : config.thread request = some (.call (.db call) next))
      (admitted : admittedSize vault config request = some size)
      (inserted : call.inserted circumstance.now = some row)
      (claimed : row.sizeClaimed = size)
      (small : size ≤ absoluteMax)
      (effect : call.Effect circumstance.now reply config.shared.db config'.shared.db)
      (others : ∀ other size', admittedSize vault config' other = some size' →
        other ≠ request ∧ admittedSize vault config other = some size')
  | admits
      {request : Nat} {circumstance : BlobCircumstance} {size : Nat} {uploadId : String}
      {next}
      (acts : label = .act request circumstance)
      (current : config.thread request = some (.call (.db (.admitUpload vault size)) next))
      (admission : config.shared.db.admitUpload vault size settings.defaultQuotaBytes
        circumstance.now circumstance.uuid = .ok (.admitted uploadId))
      (same : config'.shared.db = config.shared.db)
      (others : ∀ other size', admittedSize vault config' other = some size' →
        (other = request ∧ size' = size) ∨
          other ≠ request ∧ admittedSize vault config other = some size')
  | neither
      (changes : InsertsNone vault label config config')
      (others : ∀ other size, admittedSize vault config' other = some size →
        admittedSize vault config other = some size)

section Steps

variable {vault : VaultId} {config config' : (blobMachine settings).Config}
variable {label : (blobMachine settings).Label}

/-- A request that has made no call is where it was. -/
theorem admittedSize_of_quiet
    {other size : Nat}
    (busy : (config'.thread other).isSome = true → (config.thread other).isSome = true)
    (entries : config'.shared.entriesOf other = config.shared.entriesOf other)
    (admitted : admittedSize vault config' other = some size) :
    admittedSize vault config other = some size := by
  unfold admittedSize at admitted ⊢
  split_ifs at admitted with running
  rw [if_pos (busy running), ← entries]
  exact admitted

/-- The last entry of a request is the last reply it has heard. -/
theorem BlobServer.getLast_entriesOf
    {server : BlobServer}
    {request : Nat}
    {query : BlobQuery}
    (heard : [query] <:+ server.queriesOf request) :
    ∃ entry, (server.entriesOf request).getLast? = some entry ∧ entry.query = query := by
  have last : ((server.entriesOf request).map BlobEntry.query).getLast? = some query :=
    List.singleton_suffix_iff_getLast?_eq_some.mp heard
  rw [List.getLast?_map, Option.map_eq_some_iff] at last
  exact last

/-- An entry says that an upload of the vault has been admitted. -/
theorem BlobEntry.admittedSize_eq_some
    {entry : BlobEntry}
    {size : Nat}
    (admitted : entry.admittedSize vault = some size) :
    ∃ uploadId, entry.query = ⟨.admitUpload vault size, .admitted uploadId⟩ := by
  obtain ⟨origin, now, call, reply, before, after⟩ := entry
  unfold admittedSize at admitted
  dsimp only at admitted
  split at admitted
  · split_ifs at admitted with own
    obtain rfl := Option.some.inj admitted
    subst own
    exact ⟨_, rfl⟩
  · cases admitted

theorem BlobEntry.admittedSize_of_query
    {entry : BlobEntry}
    {size : Nat}
    {uploadId : String}
    (query : entry.query = ⟨.admitUpload vault size, .admitted uploadId⟩) :
    entry.admittedSize vault = some size := by
  obtain ⟨origin, now, call, reply, before, after⟩ := entry
  obtain ⟨rfl, same⟩ := Sigma.mk.inj query
  obtain rfl := eq_of_heq same
  exact if_pos rfl

/-- A `create_upload` that inserts its row has been admitted with its size. -/
theorem BlobReachable.admitted
    (reachable : BlobReachable settings quotaBytes config)
    {request : Nat}
    {uploadId : String}
    {hash : Hash}
    {size : Int}
    {next}
    (current : config.thread request =
      some (.call (.db (.insertUpload vault uploadId hash size)) next)) :
    ∃ claimed : Nat, size = claimed ∧ claimed ≤ absoluteMax ∧
      admittedSize vault config request = some claimed := by
  obtain ⟨-, positive, within⟩ : stagingPre settings.toBlobLibraries request
    (.db (.insertUpload vault uploadId hash size)) config.shared := reachable.staging.pre current
  have exact : (asU64 size : Int) = size := by
    refine asU64_of_nonneg positive.le (within.trans ?_)
    decide +kernel
  obtain ⟨entry, last, query⟩ := BlobServer.getLast_entriesOf (reachable.call_goesBy current)
  refine ⟨asU64 size, exact.symm, by omega, ?_⟩
  unfold admittedSize
  rw [if_pos (by simp [current]), last]
  exact BlobEntry.admittedSize_of_query query

/-- A database call that takes effect. -/
theorem BlobReachable.uploadStep_commit
    (reachable : BlobReachable settings quotaBytes config)
    (vault : VaultId)
    {request : Nat}
    {circumstance : BlobCircumstance}
    {call : BlobDbCall}
    {next : Except ServerError call.Reply → Program blobSignature BlobOutcome}
    {reply : call.Reply}
    {db : BlobDb}
    (current : config.thread request = some (.call (.db call) next))
    (executed : call.exec settings.defaultQuotaBytes circumstance.now circumstance.uuid
      config.shared.db = .ok (reply, db)) :
    UploadStep vault (.act request circumstance) config
      (config.advance request (some (next (.ok reply)))
        (config.shared.commit request circumstance.now call reply db)) := by
  have effect := BlobDbCall.exec_effect executed
  let entry : BlobEntry := ⟨request, circumstance.now, call, reply, config.shared.db, db⟩
  let config' := config.advance request (some (next (.ok reply)))
    (config.shared.commit request circumstance.now call reply db)
  have own : admittedSize vault config' request = entry.admittedSize vault := by
    have running : (config'.thread request).isSome = true :=
      congrArg Option.isSome (config.advance_thread_self ..)
    have made : config'.shared.entriesOf request = config.shared.entriesOf request ++ [entry] :=
      BlobServer.entriesOf_commit_self ..
    unfold admittedSize
    rw [if_pos running, made]
    simp
  have foreign : ∀ other size, other ≠ request → admittedSize vault config' other = some size →
      admittedSize vault config other = some size := by
    intro other size different
    refine admittedSize_of_quiet ?_ (BlobServer.entriesOf_commit_of_ne _ _ _ _ different)
    simp [config', config.advance_thread_other different]
  cases admitted : entry.admittedSize vault with
  | some size =>
      obtain ⟨uploadId, query⟩ := BlobEntry.admittedSize_eq_some admitted
      obtain ⟨rfl, same⟩ := Sigma.mk.inj query
      obtain rfl := eq_of_heq same
      obtain ⟨admission, rfl⟩ := BlobDbCall.exec_admitUpload_eq executed
      refine .admits rfl current admission rfl ?_
      intro other size' held
      by_cases different : other = request
      · subst different
        rw [own, admitted] at held
        exact Or.inl ⟨rfl, (Option.some.inj held).symm⟩
      · exact Or.inr ⟨different, foreign other size' different held⟩
  | none =>
      have others : ∀ other size, admittedSize vault config' other = some size →
          other ≠ request ∧ admittedSize vault config other = some size := by
        intro other size held
        have different : other ≠ request := by
          rintro rfl
          rw [own, admitted] at held
          cases held
        exact ⟨different, foreign other size different held⟩
      by_cases inserts : ∃ row, call.inserted circumstance.now = some row ∧ row.vaultId = vault
      · obtain ⟨row, inserted, rfl⟩ := inserts
        cases call with
        | insertUpload vault uploadId hash size =>
            obtain rfl := Option.some.inj inserted
            obtain ⟨claimed, rfl, small, held⟩ := reachable.admitted current
            exact .inserts rfl current held inserted rfl small effect others
        | _ => cases inserted
      · refine .neither (Or.inr ⟨request, circumstance, call, next, reply, rfl, current,
          effect, ?_⟩) fun other size held => (others other size held).2
        exact fun row inserted same => inserts ⟨row, inserted, same⟩

/-- What any step does to the uploads of a vault. -/
theorem BlobReachable.uploadStep
    (reachable : BlobReachable settings quotaBytes config)
    (vault : VaultId)
    (stepped : Machine.Steps (blobMachine settings) label config config') :
    UploadStep vault label config config' := by
  cases stepped with
  | @act _ request circumstance call next reply server' current executed =>
      change config.shared.exec settings request call circumstance = _ at executed
      have quiet : server'.db = config.shared.db →
          server'.entriesOf request = config.shared.entriesOf request →
          UploadStep vault (.act request circumstance) config
            (config.advance request (some (next reply)) server') := by
        intro same entries
        refine .neither (Or.inl (by simp [same])) ?_
        intro other size
        by_cases different : other = request
        · subst different
          exact admittedSize_of_quiet (by simp [current]) entries
        · refine admittedSize_of_quiet ?_ (BlobServer.exec_entriesOf_of_ne executed different)
          simp [config.advance_thread_other different]
      cases call with
      | db call =>
          rcases BlobServer.query_cases executed with
            ⟨error, rfl, rfl⟩ | ⟨value, db, rfl, -, effect, rfl⟩
          · exact quiet rfl rfl
          · exact reachable.uploadStep_commit vault current effect
      | _ =>
          have others := BlobServer.exec_other executed fun _ same => by cases same
          refine quiet ?_ ?_
          · rw [others]
          · rw [others]
            rfl
  | @environment _ event server' happened =>
      have alike := BlobServer.environment_alike happened
      refine .neither (Or.inl alike.db_eq) ?_
      intro other size
      refine admittedSize_of_quiet (fun running => running) ?_
      change server'.entriesOf other = _
      rw [BlobServer.entriesOf, alike.journal]
      rfl
  | start current started =>
      have fresh := reachable.goesBy.records.queriesOf_new
      obtain ⟨rfl, rfl, rfl⟩ := start_eq started
      refine .neither (Or.inl rfl) ?_
      intro other size held
      by_cases different : other = config.shared.requests.length
      · subst different
        have nothing : config.shared.entriesOf config.shared.requests.length = [] :=
          List.map_eq_nil_iff.mp fresh
        unfold admittedSize at held
        split_ifs at held
        change ((config.shared.entriesOf config.shared.requests.length).getLast?.bind _) = _
          at held
        rw [nothing] at held
        cases held
      · unfold admittedSize at held ⊢
        rwa [config.advance_thread_other different] at held
  | @finish _ request outcome current =>
      refine .neither (Or.inl rfl) ?_
      intro other size
      refine admittedSize_of_quiet ?_ rfl
      by_cases different : other = request
      · simp [different]
      · simp [config.advance_thread_other different]
  | @abandon _ request =>
      refine .neither (Or.inl rfl) ?_
      intro other size
      refine admittedSize_of_quiet ?_ rfl
      by_cases different : other = request
      · simp [different]
      · simp [config.advance_thread_other different]

end Steps

/-! ## Room for what has been admitted -/

/-- A measure of the database is within a bound, and there is room in it for what
has been admitted, by one request at most. -/
structure Covers
    (vault : VaultId)
    (measure : BlobDb → Int)
    (bound : Int)
    (charge : Nat → Int)
    (config : (blobMachine settings).Config) : Prop where
  within : measure config.shared.db ≤ bound
  room : ∀ request size, admittedSize vault config request = some size →
    measure config.shared.db + charge size ≤ bound
  alone : ∀ request other size size', admittedSize vault config request = some size →
    admittedSize vault config other = some size' → request = other

section Covers

variable {vault : VaultId} {measure : BlobDb → Int} {bound : Int} {charge : Nat → Int}
variable {config config' : (blobMachine settings).Config}
variable {label : (blobMachine settings).Label}

theorem Covers.weaken
    {measure' : BlobDb → Int}
    (covers : Covers vault measure bound charge config)
    (less : measure' config.shared.db ≤ measure config.shared.db) :
    Covers vault measure' bound charge config where
  within := less.trans covers.within
  room := fun request size admitted =>
    (Int.add_le_add_right less _).trans (covers.room request size admitted)
  alone := covers.alone

/-- An insertion uses up the room that was kept for it, and a check that is made
while nothing is admitted keeps room. -/
theorem Covers.step
    (covers : Covers vault measure bound charge config)
    (transition : UploadStep vault label config config')
    (inserts : ∀ {request circumstance size} {call : BlobDbCall} {next} {reply : call.Reply}
        {row},
      label = .act request circumstance →
      config.thread request = some (.call (.db call) next) →
      call.inserted circumstance.now = some row →
      row.sizeClaimed = (size : Nat) → size ≤ absoluteMax →
      call.Effect circumstance.now reply config.shared.db config'.shared.db →
        measure config'.shared.db ≤ measure config.shared.db + charge size)
    (admits : ∀ {request circumstance size uploadId next},
      label = .act request circumstance →
      config.thread request = some (.call (.db (.admitUpload vault size)) next) →
      config.shared.db.admitUpload vault size settings.defaultQuotaBytes circumstance.now
        circumstance.uuid = .ok (.admitted uploadId) →
        measure config.shared.db + charge size ≤ bound ∧
          ∀ other, other ≠ request → admittedSize vault config other = none)
    (keeps : InsertsNone vault label config config' →
      measure config'.shared.db ≤ measure config.shared.db) :
    Covers vault measure bound charge config' := by
  cases transition with
  | @inserts request circumstance size call next reply row acts current admitted inserted
      claimed small effect others =>
      have nobody : ∀ other size', admittedSize vault config' other = some size' → False := by
        intro other size' held
        obtain ⟨different, before⟩ := others other size' held
        exact different (covers.alone other request size' size before admitted)
      exact
        { within := (inserts acts current inserted claimed small effect).trans
            (covers.room request size admitted)
          room := fun other size' held => (nobody other size' held).elim
          alone := fun other _ size' _ held _ => (nobody other size' held).elim }
  | @admits request circumstance size uploadId next acts current admission same others =>
      obtain ⟨room, idle⟩ := admits acts current admission
      have only : ∀ other size', admittedSize vault config' other = some size' →
          other = request ∧ size' = size := by
        intro other size' held
        rcases others other size' held with own | ⟨different, before⟩
        · exact own
        · rw [idle other different] at before
          cases before
      refine ⟨same ▸ covers.within, ?_, ?_⟩
      · intro other size' held
        obtain ⟨rfl, rfl⟩ := only other size' held
        exact same ▸ room
      · intro first second size' size'' held held'
        exact (only first size' held).1.trans (only second size'' held').1.symm
  | neither changes others =>
      have less := keeps changes
      exact
        { within := less.trans covers.within
          room := fun request size held =>
            (Int.add_le_add_right less _).trans (covers.room request size (others _ _ held))
          alone := fun request other size size' held held' =>
            covers.alone request other size size' (others _ _ held) (others _ _ held') }

end Covers

/-! ## What is checked -/

/-- A sum that is returned is exact, and fits an `i64`. -/
theorem sqlSum_eq_ok
    {values : List Int}
    {sum : Int}
    (added : sqlSum values = .ok sum) :
    sum = values.sum ∧ values.sum ≤ i64Max := by
  unfold sqlSum at added
  split_ifs at added with fits
  exact ⟨(Except.ok.inj added).symm, fits⟩

/-- What the open uploads of a vault have not received, as `create_upload` counts
it. -/
def BlobDb.inflightBytes (vault : VaultId) (now : Time) (db : BlobDb) : Int :=
  ((db.openUploads vault now).map fun row => row.sizeClaimed - row.receivedBytes).sum

namespace BlobServer.Accurate

variable {vault : VaultId} {now : Time} {libraries : BlobLibraries} {server : BlobServer}

theorem storedBytes_nonneg (accurate : server.Accurate) :
    0 ≤ server.db.storedBytes vault := by
  refine List.sum_nonneg ?_
  intro value member
  obtain ⟨⟨key, size⟩, stored, rfl⟩ := List.mem_map.mp member
  exact (accurate.sizes key size
    (AList.mem_lookup_iff.mpr (List.mem_of_mem_filter stored))).le

/-- An open upload has yet to receive at most the limit. -/
theorem unreceived
    (accurate : server.Accurate)
    (sound : StoreSound libraries server)
    {value : Int}
    (member : value ∈ (server.db.openUploads vault now).map fun row =>
      row.sizeClaimed - row.receivedBytes) :
    0 ≤ value ∧ value ≤ absoluteMax := by
  obtain ⟨row, isOpen, rfl⟩ := List.mem_map.mp member
  obtain ⟨-, uploadId, found⟩ := BlobDb.mem_openUploads_iff.mp isOpen
  obtain ⟨nonneg, within⟩ := accurate.counts uploadId row found
  have claimed := (sound.sizes _ _ _ (sound.uploadRows uploadId row found)).2
  omega

theorem inflightBytes_nonneg
    (accurate : server.Accurate)
    (sound : StoreSound libraries server) :
    0 ≤ server.db.inflightBytes vault now :=
  List.sum_nonneg fun _ member => (accurate.unreceived sound member).1

theorem inflightBytes_le
    (accurate : server.Accurate)
    (sound : StoreSound libraries server) :
    server.db.inflightBytes vault now ≤
      (server.db.openUploads vault now).length * absoluteMax := by
  have each : ∀ value ∈ (server.db.openUploads vault now).map fun row =>
      row.sizeClaimed - row.receivedBytes, value ≤ (absoluteMax : Int) :=
    fun _ member => (accurate.unreceived sound member).2
  have bounded := List.sum_le_card_nsmul _ _ each
  rwa [List.length_map, nsmul_eq_mul] at bounded

/-- The projection of `create_upload` was within the quota. -/
theorem room_of_admitUpload
    {defaultQuotaBytes size : Nat}
    {uuid uploadId : String}
    (accurate : server.Accurate)
    (sound : StoreSound libraries server)
    (admission : server.db.admitUpload vault size defaultQuotaBytes now uuid =
      .ok (.admitted uploadId))
    (limited : 0 < server.db.effectiveQuota vault defaultQuotaBytes)
    (small : size ≤ absoluteMax) :
    server.db.storedBytes vault + server.db.inflightBytes vault now + size ≤
      server.db.effectiveQuota vault defaultQuotaBytes := by
  obtain ⟨-, few, room⟩ := BlobDb.admitUpload_eq_admitted admission
  obtain ⟨stored, inflight, stored_eq, inflight_eq, room⟩ := room limited
  obtain ⟨rfl, fits⟩ := sqlSum_eq_ok stored_eq
  obtain ⟨rfl, -⟩ := sqlSum_eq_ok inflight_eq
  change saturatingAdd (saturatingAdd (asU64 (server.db.storedBytes vault))
    (asU64 (server.db.inflightBytes vault now))) size ≤ _ at room
  have nonneg : 0 ≤ server.db.storedBytes vault := accurate.storedBytes_nonneg
  have exactStored := asU64_of_nonneg nonneg fits
  -- Four uploads of 25 MiB are far from the bounds of the counters.
  have four : ((server.db.openUploads vault now).length : Int) * absoluteMax ≤
      maxOpenUploads * absoluteMax := by
    exact_mod_cast Nat.mul_le_mul_right absoluteMax few.le
  have limit := (accurate.inflightBytes_le sound).trans four
  unfold maxOpenUploads absoluteMax audioCap at limit
  have nonneg' : 0 ≤ server.db.inflightBytes vault now := accurate.inflightBytes_nonneg sound
  have exactInflight := asU64_of_nonneg nonneg' (by unfold i64Max; omega)
  change server.db.storedBytes vault ≤ i64Max at fits
  unfold i64Max at fits
  unfold absoluteMax audioCap at small
  unfold saturatingAdd u64Max at room
  omega

end BlobServer.Accurate

section Grown

variable {vault : VaultId} {now since : Time} {call : BlobDbCall} {reply : call.Reply}
variable {db db' : BlobDb}

/-- An upload of another vault weighs nothing. -/
theorem getD_inserted_eq_zero
    {α : Type}
    [Zero α]
    {weight : UploadRow → α}
    (elsewhere : ∀ row, call.inserted now = some row → row.vaultId ≠ vault)
    (ignores : ∀ row : UploadRow, row.isOpen vault since = false → weight row = 0) :
    ((call.inserted now).map weight).getD 0 = 0 := by
  cases inserted : call.inserted now with
  | none => rfl
  | some row =>
      refine ignores row ?_
      simp [UploadRow.isOpen, elsewhere row inserted]

/-- An upload that is inserted reserves what it claims. -/
theorem BlobDbCall.Effect.reservedBytes_inserted_le
    {row : UploadRow}
    {size : Nat}
    (effect : Effect now call reply db db')
    (claims : db.ClaimsWithin)
    (inserted : call.inserted now = some row)
    (claimed : row.sizeClaimed = size) :
    db'.reservedBytes vault since ≤ db.reservedBytes vault since + size := by
  have backed : db.Backed vault since call := by
    cases call with
    | insertBlob => cases inserted
    | _ => trivial
  have grown := effect.reservedBytes_le claims backed
  have added : db.pendingWeight vault since row ≤ row.sizeClaimed :=
    BlobDb.pendingWeight_le (claimed ▸ Int.natCast_nonneg size)
  rw [inserted, Option.map_some, Option.getD_some] at grown
  omega

/-- Nothing else reserves anything. -/
theorem BlobDbCall.Effect.reservedBytes_elsewhere_le
    (effect : Effect now call reply db db')
    (claims : db.ClaimsWithin)
    (backed : db.Backed vault since call)
    (elsewhere : ∀ row, call.inserted now = some row → row.vaultId ≠ vault) :
    db'.reservedBytes vault since ≤ db.reservedBytes vault since := by
  have grown := effect.reservedBytes_le claims backed
  have nothing : ((call.inserted now).map (db.pendingWeight vault since)).getD 0 = 0 :=
    getD_inserted_eq_zero elsewhere fun row (closed : row.isOpen vault since = false) => by
      simp [BlobDb.pendingWeight, closed]
  rwa [nothing, zero_add] at grown

end Grown

end VaultCrdtServer
