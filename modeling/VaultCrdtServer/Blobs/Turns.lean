import VaultCrdtServer.Blobs.Admission
import VaultCrdtServer.Blobs.Records
import VaultCrdtServer.Foundation.Turns
import Mathlib.Data.Finset.Dedup
import Mathlib.Data.Finset.Order

/-!
# Requests that take turns

A request that is served while no other is served stores the blob of an upload
that was open when it began.  The quota check counts what is stored and what the
open uploads have yet to receive, but not what they have received.  So what a
vault has reserved never becomes more than its quota, as long as the check has
room only where it would if it counted that, too.
-/

namespace VaultCrdtServer

open Interleaving

variable {settings : BlobSettings} {quotaBytes : Table String (Option Int)}

/-! ## Kinds of calls -/

/-- The call stores no blob. -/
def BlobCall.StoresNone : BlobCall → Prop
  | .db (.insertBlob ..) => False
  | _ => True

theorem BlobCall.KeepsUploads.storesNone
    {call : BlobCall}
    (keeps : call.KeepsUploads) :
    call.StoresNone := by
  unfold StoresNone
  split
  · cases keeps
  · trivial

/-- Blobs are stored by PUTs only. -/
theorem blobProgram_storesNone
    {task : BlobTask}
    (noPut : ∀ vault uploadId request, task ≠ .putUpload vault uploadId request) :
    (blobProgram settings task).Only BlobCall.StoresNone := by
  have responds : ∀ {α : Type} {handler : BlobHandler α}
      {outcome : Except ServerError α → BlobOutcome},
      handler.run.Only BlobCall.StoresNone →
      (handler.run.bind fun result => .done (outcome result)).Only BlobCall.StoresNone :=
    fun only => only.bind fun _ => trivial
  cases task with
  | createUpload vault hash size =>
      refine responds (createUpload_only vault hash size ?_ ?_ ?_ ?_)
      · exact fun _ => trivial
      · exact fun _ => trivial
      · exact fun _ => trivial
      · exact fun _ _ _ _ => trivial
  | getUpload vault uploadId =>
      exact responds (getUpload_only vault uploadId trivial trivial trivial)
  | putUpload vault uploadId request => exact absurd rfl (noPut vault uploadId request)
  | getBlob vault hash range =>
      refine responds (getBlob_only vault hash range ?_ ?_ ?_ ?_ ?_)
      all_goals exact fun _ => by first | trivial | exact fun _ => trivial
  | postBlobPath vault body =>
      exact responds ((postBlobPath_keepsUploads _ vault body).mono fun _ =>
        BlobCall.KeepsUploads.storesNone)
  | listBlobPaths vault sinceSeq limit =>
      exact responds (only_db.mpr ⟨trivial, fun _ => trivial⟩)
  | sweep =>
      refine responds (only_db.mpr ⟨trivial, fun expired => ?_⟩)
      exact sweepUploads_only (fun _ _ => trivial) (fun _ => trivial) (fun _ _ => trivial)
        expired 0
  | holdLock key => exact ⟨trivial, fun _ => trivial⟩

/-! ## A PUT alone -/

/-- An upload was open at a time, and claims what a view of its row says. -/
def BlobDb.Standing
    (vault : VaultId)
    (uploadId : String)
    (since : Time)
    (view : UploadView)
    (db : BlobDb) : Prop :=
  ∃ row, db.blobUploads.lookup uploadId = some row ∧ row.isOpen vault since = true ∧
    row.hashClaimed = view.hashClaimed ∧ row.sizeClaimed = view.sizeClaimed

/-- The blob of such an upload may be stored. -/
theorem BlobDb.Standing.backed
    {owner vault : VaultId}
    {uploadId : String}
    {since : Time}
    {view : UploadView}
    {db : BlobDb}
    (standing : db.Standing vault uploadId since view) :
    db.Backed owner since (.insertBlob ⟨vault, view.hashClaimed⟩ view.sizeClaimed) := by
  rintro rfl -
  obtain ⟨row, found, isOpen, hash, size⟩ := standing
  exact ⟨row, mem_openUploads_iff.mpr ⟨isOpen, uploadId, found⟩, hash, size⟩

/-- The contract of a request that began at a time, while nobody else changes
uploads or blobs: the blobs it stores are those of uploads that were open when
it began. -/
def turnContract
    (settings : BlobSettings)
    (owner : VaultId)
    (since : Time) : Contract blobSignature BlobDb where
  rely := fun db db' => db' = { db with quotaBytes := db'.quotaBytes }
  pre := fun
    | .db call, db => db.Backed owner since call
    | _, _ => True
  exec := fun
    | .db call, db, reply, db' =>
        (∃ error, reply = .error error ∧ db' = db) ∨
          ∃ value now uuid, reply = .ok value ∧ since ≤ now ∧
            call.exec settings.defaultQuotaBytes now uuid db = .ok (value, db')
    | .file _, db, _, db' | .lock _, db, _, db' | .publish _, db, _, db' => db' = db
  rely_refl := fun _ => rfl
  rely_trans := fun first second => by
    rw [second, first]

section Turn

variable {owner : VaultId} {since : Time} {α : Type} {db : BlobDb}
variable {post : Except ServerError α → BlobDb → Prop}

/-- Nothing is known of what a request ends with. -/
abbrev Anyhow (α : Type) : α → BlobDb → Prop := fun _ _ => True

/-- Programs that store nothing stay within the contract. -/
theorem storesNone_meets
    {program : Program blobSignature α}
    (only : program.Only BlobCall.StoresNone) :
    program.Meets (turnContract settings owner since) (Anyhow α) db := by
  refine only.meets (fun _ => True) (fun _ _ _ _ => trivial) ?_
    (fun _ _ _ _ _ _ _ => trivial) trivial
  intro call db stores _
  cases call with
  | db call => cases call <;> trivial
  | _ => trivial

/-- File operations keep what is known of the database. -/
theorem isFile_meets
    {handler : BlobHandler α}
    {assertion : BlobDb → Prop}
    {outcome : Except ServerError Response → BlobDb → Prop}
    (only : handler.run.Only BlobCall.IsFile)
    (stable : ∀ db quotas, assertion db → assertion { db with quotaBytes := quotas })
    (errors : ∀ error db, outcome (.error error) db)
    (holds : assertion db) :
    handler.run.Meets (turnContract settings owner since)
      (Program.Reaches (fun _ => assertion) outcome) db := by
  refine (only.meets assertion ?_ ?_ ?_ holds).weaken ?_
  · intro db db' holds tolerated
    rw [show db' = _ from tolerated]
    exact stable db _ holds
  · intro call db isFile _
    cases call with
    | file call => trivial
    | _ => cases isFile
  · intro call db reply db' isFile holds effect
    cases call with
    | file call =>
        obtain rfl : db' = db := effect
        exact holds
    | _ => cases isFile
  · intro result db holds
    cases result with
    | ok value => exact holds
    | error error => exact errors error db

/-- A database call: the handler fails with it, or goes on with its reply. -/
theorem turn_meets_db
    {call : BlobDbCall}
    {continuation : call.Reply → BlobHandler α}
    {assertion : BlobDb → Prop}
    (stable : ∀ db quotas, assertion db → assertion { db with quotaBytes := quotas })
    (holds : assertion db)
    (pre : ∀ db, assertion db → db.Backed owner since call)
    (errors : ∀ error db, post (.error error) db)
    (continues : ∀ db value now uuid db', assertion db → since ≤ now →
      call.exec settings.defaultQuotaBytes now uuid db = .ok (value, db') →
        (continuation value).run.Meets (turnContract settings owner since) post db') :
    (BlobHandler.db call >>= continuation).run.Meets (turnContract settings owner since)
      post db := by
  intro db' tolerated
  have here : assertion db' := by
    rw [show db' = _ from tolerated]
    exact stable db _ holds
  refine ⟨pre db' here, ?_⟩
  rintro reply db'' (⟨error, rfl, rfl⟩ | ⟨value, now, uuid, rfl, later, executed⟩)
  · exact fun db _ => errors error db
  · exact continues db' value now uuid db'' here later executed

variable {vault : VaultId} {uploadId : String} {view : UploadView}

theorem BlobDb.Standing.of_quotas
    (quotas : Table String (Option Int))
    (standing : db.Standing vault uploadId since view) :
    BlobDb.Standing vault uploadId since view { db with quotaBytes := quotas } := standing

/-- Counting a segment leaves the claim of its upload alone. -/
theorem BlobDb.Standing.updateReceived
    {next : Int}
    (standing : db.Standing vault uploadId since view) :
    (db.updateReceived vault uploadId next).Standing vault uploadId since view := by
  obtain ⟨row, found, isOpen, hash, size⟩ := standing
  have owned : row.vaultId = vault := by
    simp only [UploadRow.isOpen, Bool.and_eq_true, decide_eq_true_eq] at isOpen
    exact isOpen.1
  have upload : db.upload vault uploadId = some row :=
    BlobDb.upload_eq_some_iff.mpr ⟨found, owned⟩
  refine ⟨{ row with receivedBytes := next }, ?_, isOpen, hash, size⟩
  simp only [BlobDb.updateReceived, upload, Table.lookup_insert_eq_ite, if_true]

/-- An upload that is found alive has been open since the request began. -/
theorem liveUpload_standing
    {outcome : Except ServerError Response → BlobDb → Prop}
    (errors : ∀ error db, outcome (.error error) db) :
    (liveUpload vault uploadId).run.Meets (turnContract settings owner since)
      (Program.Reaches
        (fun found db => ∀ view, found = some view → db.Standing vault uploadId since view)
        outcome) db := by
  unfold liveUpload
  refine turn_meets_db (fun _ _ (_ : True) => trivial) trivial (fun _ _ => trivial) errors ?_
  intro db found now uuid db' _ later executed
  obtain ⟨rfl, rfl⟩ := Prod.mk.inj (Except.ok.inj executed)
  cases upload : db.upload vault uploadId with
  | none =>
      simp only [BlobDb.readUpload, upload, Option.map_none]
      exact fun _ _ => nofun
  | some row =>
      simp only [BlobDb.readUpload, upload, Option.map_some]
      split
      · refine Program.Meets.bind_fallible (fun _ _ => True) ?_ fun _ _ _ _ _ => nofun
        refine (storesNone_meets (discardUpload_only vault uploadId trivial trivial)).weaken ?_
        intro result db _
        cases result with
        | ok value => trivial
        | error error => exact errors error db
      · rename_i unexpired
        obtain ⟨found, owned⟩ := BlobDb.upload_eq_some_iff.mp upload
        have isOpen : row.isOpen vault now = true := by
          simp [UploadRow.isOpen, owned, Bool.eq_false_of_not_eq_true unexpired]
        rintro db' tolerated view same
        obtain rfl := Option.some.inj same
        rw [show db' = _ from tolerated]
        exact ⟨row, found, UploadRow.isOpen_of_le isOpen later, rfl, rfl⟩

theorem recordBlob_turn
    {destExisted : Bool}
    (standing : db.Standing vault uploadId since view) :
    (recordBlob vault uploadId view destExisted).run.Meets (turnContract settings owner since)
      (Anyhow _) db := by
  obtain ⟨next, same, rest⟩ :=
    recordBlob_inserts BlobCall.StoresNone vault uploadId view destExisted trivial trivial
      trivial trivial
  rw [same]
  intro db' tolerated
  rw [show db' = _ from tolerated]
  exact ⟨standing.backed, fun reply _ _ => storesNone_meets (rest reply)⟩

theorem finishUpload_turn
    (libraries : BlobLibraries)
    (next : Nat)
    (standing : db.Standing vault uploadId since view) :
    (finishUpload libraries vault uploadId view next).run.Meets
      (turnContract settings owner since) (Anyhow _) db := by
  have discards : ∀ (response : Response) db,
      (do discardUpload vault uploadId
          return response : BlobHandler Response).run.Meets
        (turnContract settings owner since) (Anyhow _) db :=
    fun response db => storesNone_meets
      ((discardUpload_only vault uploadId trivial trivial).bind_fallible fun _ => trivial)
  unfold finishUpload
  split
  · exact discards _ db
  · refine Program.Meets.bind_fallible _
      (isFile_meets (file_only trivial) (fun _ quotas holds => holds.of_quotas quotas)
        (fun _ _ => trivial) standing) ?_
    intro bytes db standing
    split
    · exact discards _ db
    · split
      · exact discards _ db
      · refine Program.Meets.bind_fallible _
          (isFile_meets (placeBlob_isFile ..) (fun _ quotas holds => holds.of_quotas quotas)
            (fun _ _ => trivial) standing) ?_
        exact fun destExisted db standing => recordBlob_turn standing

theorem receiveSegment_turn
    (libraries : BlobLibraries)
    (range : ContentRange)
    (segment : Bytes) :
    (receiveSegment libraries vault uploadId range segment).run.Meets
      (turnContract settings owner since) (Anyhow _) db := by
  refine Program.Meets.bind_fallible _ (liveUpload_standing fun _ _ => trivial) ?_
  intro found db standing
  cases found with
  | none => exact fun _ _ => trivial
  | some view =>
      dsimp only
      split
      · exact fun _ _ => trivial
      · split
        · exact fun _ _ => trivial
        · split
          · exact fun _ _ => trivial
          · refine Program.Meets.bind_fallible _
              (isFile_meets (stageSegment_isFile ..)
                (fun _ quotas holds => holds.of_quotas quotas) (fun _ _ => trivial)
                (standing view rfl)) ?_
            intro _ db standing
            refine turn_meets_db (fun _ quotas holds => holds.of_quotas quotas) standing
              (fun _ _ => trivial) (fun _ _ => trivial) ?_
            intro db value now uuid db' standing _ executed
            obtain ⟨-, rfl⟩ := Prod.mk.inj (Except.ok.inj executed)
            split
            · exact fun _ _ => trivial
            · exact finishUpload_turn libraries _ standing.updateReceived

/-- A PUT alone stores the blob of an upload that was open when it began. -/
theorem putUpload_turn (libraries : BlobLibraries) (request : PutRequest) :
    (putUpload libraries vault uploadId request).run.Meets (turnContract settings owner since)
      (Anyhow _) db := by
  unfold putUpload
  split
  · exact fun _ _ => trivial
  · split
    · exact fun _ _ => trivial
    · split
      · exact fun _ _ => trivial
      · exact fun _ _ => trivial
      · split_ifs
        · exact fun _ _ => trivial
        · exact fun _ _ => trivial
        · refine Program.Meets.bind_fallible _ (liveUpload_standing fun _ _ => trivial) ?_
          intro preview db _
          cases preview with
          | none => exact fun _ _ => trivial
          | some preview =>
              exact fun _ _ => ⟨trivial, fun _ _ _ => receiveSegment_turn libraries _ _⟩

end Turn

/-- A request that is served while no other is keeps to its contract. -/
theorem exec_turn
    {owner : VaultId}
    {since : Time}
    {request : Nat}
    {call : BlobCall}
    {circumstance : BlobCircumstance}
    {reply : blobSignature.Reply call}
    {server server' : BlobServer}
    (later : since ≤ circumstance.now)
    (executed : BlobServer.exec settings request call circumstance server =
      some (reply, server')) :
    (turnContract settings owner since).exec call server.db reply server'.db := by
  cases call with
  | db call =>
      rcases BlobServer.query_cases executed with
        ⟨error, rfl, rfl⟩ | ⟨value, db, rfl, -, made, rfl⟩
      · exact Or.inl ⟨error, rfl, rfl⟩
      · exact Or.inr ⟨value, _, _, rfl, later, made⟩
  | _ =>
      change server'.db = server.db
      rw [BlobServer.exec_other executed fun _ same => by cases same]

/-! ## Runs of requests that take turns -/

/-- A request begins when no other is being served, and none is dropped. -/
def TakesTurns
    (settings : BlobSettings)
    (label : (blobMachine settings).Label)
    (config : (blobMachine settings).Config) : Prop :=
  match label with
  | .start _ _ =>
      ∀ request < config.shared.requests.length, (config.thread request).isNone = true
  | .abandon _ => False
  | _ => True

instance
    (label : (blobMachine settings).Label)
    (config : (blobMachine settings).Config) :
    Decidable (TakesTurns settings label config) := by
  induction label using Machine.Label.casesOn with
  | start => exact inferInstanceAs (Decidable (∀ request < _, _ = true))
  | abandon => exact isFalse id
  | _ => exact isTrue trivial

/-! ## What the check leaves out -/

/-- What the open uploads of a vault have received of blobs that are not stored. -/
def BlobDb.stagedBytes (vault : VaultId) (now : Time) (db : BlobDb) : Int :=
  ((db.openUploads vault now).map fun row =>
    if db.blobs.lookup ⟨vault, row.hashClaimed⟩ = none then row.receivedBytes else 0).sum

/-- A check for a vault has room only where it would if it counted what the open
uploads of the vault have received. -/
def CountsStaged (vault : VaultId) : CallCondition settings
  | config, _, now, .admitUpload vault' size =>
      let db := config.shared.db
      let projected := db.storedBytes vault + db.inflightBytes vault now + size
      vault' = vault → projected ≤ db.effectiveQuota vault settings.defaultQuotaBytes →
        projected + db.stagedBytes vault now ≤
          db.effectiveQuota vault settings.defaultQuotaBytes
  | _, _, _, _ => True

instance
    (vault : VaultId)
    (config : (blobMachine settings).Config)
    (request : Nat)
    (now : Time)
    (call : BlobDbCall) :
    Decidable (CountsStaged vault config request now call) := by
  induction call using BlobDbCall.casesOn with
  | admitUpload => exact inferInstanceAs (Decidable (_ → _ ≤ _ → _ ≤ _))
  | _ => exact isTrue trivial

/-- What the open uploads of a vault are going to add is what the check counts
and what they have received. -/
theorem BlobServer.Accurate.pendingBytes_le
    {vault : VaultId}
    {now : Time}
    {server : BlobServer}
    (accurate : server.Accurate) :
    server.db.pendingBytes vault now ≤
      server.db.inflightBytes vault now + server.db.stagedBytes vault now := by
  unfold BlobDb.inflightBytes BlobDb.stagedBytes
  rw [← List.sum_map_add, ← BlobDb.total_openUploads]
  refine Table.total_le_total ?_
  intro uploadId row found
  have within := (accurate.counts uploadId row found).2
  unfold BlobDb.pendingWeight
  cases row.isOpen vault now with
  | false => simp
  | true =>
      simp only [true_and, if_true]
      split_ifs
      · rw [sub_add_cancel]
      · rw [add_zero]
        exact sub_nonneg.mpr within

/-! ## The account -/

/-- What a vault has reserved, seen from a time, is within its quota, and the
quota has room for what has been admitted. -/
abbrev Reserves
    (vault : VaultId)
    (quota : Nat)
    (since : Time) : (blobMachine settings).Config → Prop :=
  Covers vault (BlobDb.reservedBytes vault since) quota fun size => size

/-- The account is in order, seen from some time that has passed.  The request
that is being served stores no blobs, or only those of uploads that were open at
that time. -/
def Accounted
    (settings : BlobSettings)
    (vault : VaultId)
    (quota : Nat)
    (now : Time)
    (config : (blobMachine settings).Config) : Prop :=
  ∃ since ≤ now, Reserves vault quota since config ∧
    ∀ request program, config.thread request = some program →
      program.Only BlobCall.StoresNone ∨
        program.Only BlobCall.Receives ∧
          program.Meets (turnContract settings vault since) (Anyhow _) config.shared.db

/-- At most one request is being served, and the account is in order. -/
structure InTurn
    (settings : BlobSettings)
    (quotaBytes : Table String (Option Int))
    (vault : VaultId)
    (quota : Nat)
    (now : Time)
    (config : (blobMachine settings).Config) : Prop where
  reached : BlobReachable settings quotaBytes config
  solitary : config.Solitary
  accounted : Accounted settings vault quota now config

section Runs

variable {vault : VaultId} {quota : Nat} {now : Time}
variable {label : (blobMachine settings).Label}
variable {config config' : (blobMachine settings).Config}

/-- A request that begins finds all others served. -/
theorem TakesTurns.idle
    {request : Nat}
    {task : BlobTask}
    (turns : TakesTurns settings (.start request task) config)
    (reached : BlobReachable settings quotaBytes config)
    (other : Nat) :
    config.thread other = none := by
  by_contra active
  have made := reached.goesBy.records.running other active
  exact active (Option.isNone_iff_eq_none.mp (turns other made))

/-- A request that stores no blobs keeps the account, seen from its own time. -/
theorem Reserves.step_storesNone
    {request : Nat}
    {circumstance : BlobCircumstance}
    {program : Program blobSignature BlobOutcome}
    (reserves : Reserves vault quota circumstance.now config)
    (reached : BlobReachable settings quotaBytes config)
    (solitary : config.Solitary)
    (limited : 0 < quota)
    (constant : QuotaIs settings vault quota (.act request circumstance) config)
    (counts : CallStep (CountsStaged vault) (.act request circumstance) config)
    (current : config.thread request = some program)
    (only : program.Only BlobCall.StoresNone)
    (stepped : Machine.Steps (blobMachine settings) (.act request circumstance) config
      config') :
    Reserves vault quota circumstance.now config' := by
  have claims := reached.claimsWithin
  refine reserves.step (reached.uploadStep vault stepped) ?_ ?_ ?_
  · rintro _ _ size call next reply row same - inserted claimed - effect
    exact effect.reservedBytes_inserted_le claims inserted claimed
  · rintro _ _ size uploadId next same current' admission
    cases same
    have sound : StoreSound settings.toBlobLibraries config.shared := reached.staging.invariant
    have effective : config.shared.db.effectiveQuota vault settings.defaultQuotaBytes =
      quota := constant
    have room := reached.accurate.room_of_admitUpload sound admission
      (effective.symm ▸ limited) (reached.call_goesBy current')
    simp only [CallStep, current'] at counts
    have counted := counts rfl room
    have pending : config.shared.db.pendingBytes vault circumstance.now ≤ _ :=
      reached.accurate.pendingBytes_le
    refine ⟨?_, ?_⟩
    · rw [effective] at counted
      unfold BlobDb.reservedBytes
      omega
    · intro other different
      unfold admittedSize
      rw [solitary.idle current' different]
      rfl
  · rintro (quotas | ⟨_, _, call, next, reply, same, current', effect, elsewhere⟩)
    · rw [quotas]
      exact le_rfl
    · cases same
      obtain rfl := Option.some.inj (current'.symm.trans current)
      refine effect.reservedBytes_elsewhere_le claims ?_ elsewhere
      cases call with
      | insertBlob => cases only.1
      | _ => trivial

/-- A request that keeps to its contract keeps the account, seen from the time it
began at. -/
theorem Reserves.step_receives
    {request : Nat}
    {circumstance : BlobCircumstance}
    {program : Program blobSignature BlobOutcome}
    {since : Time}
    (reserves : Reserves vault quota since config)
    (reached : BlobReachable settings quotaBytes config)
    (current : config.thread request = some program)
    (receives : program.Only BlobCall.Receives)
    (meets : program.Meets (turnContract settings vault since) (Anyhow _) config.shared.db)
    (stepped : Machine.Steps (blobMachine settings) (.act request circumstance) config
      config') :
    Reserves vault quota since config' := by
  refine reserves.step (reached.uploadStep vault stepped) ?_ ?_ ?_
  · rintro _ _ size call next reply row same current' inserted - - -
    cases same
    obtain rfl := Option.some.inj (current'.symm.trans current)
    cases call with
    | insertUpload => cases receives.1
    | _ => cases inserted
  · rintro _ _ size uploadId next same current' -
    cases same
    obtain rfl := Option.some.inj (current'.symm.trans current)
    cases receives.1
  · rintro (quotas | ⟨_, _, call, next, reply, same, current', effect, elsewhere⟩)
    · rw [quotas]
      exact le_rfl
    · cases same
      obtain rfl := Option.some.inj (current'.symm.trans current)
      exact effect.reservedBytes_elsewhere_le reached.claimsWithin meets.pre elsewhere

/-- Other steps keep the account. -/
theorem Reserves.step_quiet
    {since : Time}
    (reserves : Reserves vault quota since config)
    (reached : BlobReachable settings quotaBytes config)
    (quiet : ∀ request circumstance, label ≠ .act request circumstance)
    (stepped : Machine.Steps (blobMachine settings) label config config') :
    Reserves vault quota since config' := by
  refine reserves.step (reached.uploadStep vault stepped) ?_ ?_ ?_
  · exact fun acts => absurd acts (quiet _ _)
  · exact fun acts => absurd acts (quiet _ _)
  · rintro (quotas | ⟨request, circumstance, call, next, reply, acts, -⟩)
    · rw [quotas]
      exact le_rfl
    · exact absurd acts (quiet request circumstance)

/-- A request that is being served makes a call. -/
theorem InTurn.accounted_act
    {request : Nat}
    {circumstance : BlobCircumstance}
    (held : InTurn settings quotaBytes vault quota circumstance.now config)
    (limited : 0 < quota)
    (constant : QuotaIs settings vault quota (.act request circumstance) config)
    (counts : CallStep (CountsStaged vault) (.act request circumstance) config)
    (stepped : Machine.Steps (blobMachine settings) (.act request circumstance) config
      config') :
    Accounted settings vault quota circumstance.now config' := by
  obtain ⟨since, passed, reserves, programs⟩ := held.accounted
  have stepped' := stepped
  cases stepped with
  | @act _ _ _ call next reply shared current effect =>
      have turned : ∀ {motive : Program blobSignature BlobOutcome → Prop},
          motive (next reply) → ∀ other program,
            (config.advance request (some (next reply)) shared).thread other = some program →
              motive program := by
        intro motive holds other program running
        by_cases same : other = request
        · rw [same, config.advance_thread_self] at running
          exact Option.some.inj running ▸ holds
        · rw [config.advance_thread_other same, held.solitary.idle current same] at running
          cases running
      rcases programs request _ current with only | ⟨receives, meets⟩
      · have here : Reserves vault quota circumstance.now config :=
          reserves.weaken (held.reached.claimsWithin.reservedBytes_le passed)
        exact ⟨circumstance.now, le_rfl,
          here.step_storesNone held.reached held.solitary limited constant counts current only
            stepped',
          turned (Or.inl (only.2 reply))⟩
      · exact ⟨since, passed,
          reserves.step_receives held.reached current receives meets stepped',
          turned (Or.inr ⟨receives.2 reply, meets.next (exec_turn passed effect)⟩)⟩

/-- A request begins. -/
theorem InTurn.accounted_start
    {request : Nat}
    {task : BlobTask}
    (held : InTurn settings quotaBytes vault quota now config)
    (turns : TakesTurns settings (.start request task) config)
    (stepped : Machine.Steps (blobMachine settings) (.start request task) config config') :
    Accounted settings vault quota now config' := by
  obtain ⟨since, passed, reserves, -⟩ := held.accounted
  refine ⟨since, passed,
    reserves.step_quiet held.reached (fun _ _ same => by cases same) stepped, ?_⟩
  cases stepped with
  | start current started =>
      obtain ⟨-, rfl, rfl⟩ := start_eq started
      intro other program running
      by_cases same : other = request
      · rw [same, config.advance_thread_self] at running
        obtain rfl := Option.some.inj running
        by_cases puts : ∃ vault uploadId put, task = .putUpload vault uploadId put
        · obtain ⟨vault', uploadId, put, rfl⟩ := puts
          refine Or.inr ⟨(putUpload_receives _ vault' uploadId put).bind fun _ => trivial, ?_⟩
          exact (putUpload_turn _ put).bind _ fun _ _ _ _ _ => trivial
        · simp only [not_exists] at puts
          exact Or.inl (blobProgram_storesNone puts)
      · rw [config.advance_thread_other same, turns.idle held.reached other] at running
        cases running

/-- Something happens besides the requests. -/
theorem Accounted.environment
    {event : BlobEvent}
    (accounted : Accounted settings vault quota now config)
    (reached : BlobReachable settings quotaBytes config)
    (stepped : Machine.Steps (blobMachine settings) (.environment event) config config') :
    Accounted settings vault quota now config' := by
  obtain ⟨since, passed, reserves, programs⟩ := accounted
  refine ⟨since, passed, reserves.step_quiet reached (fun _ _ same => by cases same) stepped,
    ?_⟩
  cases stepped with
  | @environment _ _ server happened =>
      have quotas := (BlobServer.environment_alike happened).db_eq
      intro request program running
      rcases programs request program running with only | ⟨receives, meets⟩
      · exact Or.inl only
      · exact Or.inr ⟨receives, meets.stable quotas⟩

/-- A request has been answered. -/
theorem Accounted.finish
    {request : Nat}
    (accounted : Accounted settings vault quota now config)
    (reached : BlobReachable settings quotaBytes config)
    (stepped : Machine.Steps (blobMachine settings) (.finish request) config config') :
    Accounted settings vault quota now config' := by
  obtain ⟨since, passed, reserves, programs⟩ := accounted
  refine ⟨since, passed, reserves.step_quiet reached (fun _ _ same => by cases same) stepped,
    ?_⟩
  cases stepped with
  | finish current =>
      intro other program running
      by_cases same : other = request
      · rw [same, config.advance_thread_self] at running
        cases running
      · rw [config.advance_thread_other same] at running
        exact programs other program running

/-- While requests take turns the account stays in order. -/
theorem inTurn_timed (vault : VaultId) {quota : Nat} (limited : 0 < quota) :
    Machine.Timed (blobTimeOf settings)
      (fun label config =>
        TakesTurns settings label config ∧
          QuotaIs settings vault quota label config ∧
            CallStep (CountsStaged vault) label config)
      (InTurn settings quotaBytes vault quota) where
  passes := fun held passed =>
    { held with
      accounted :=
        have ⟨since, earlier, rest⟩ := held.accounted
        ⟨since, earlier.trans passed, rest⟩ }
  step := by
    intro now label config config' held stamps allowed stepped
    obtain ⟨turns, constant, counts⟩ := allowed
    refine ⟨held.reached.step stepped, ?_, ?_⟩
    · refine held.solitary.step ?_ stepped
      rintro request task rfl other -
      exact turns.idle held.reached other
    · cases label with
      | act request circumstance =>
          obtain rfl := stamps _ rfl
          exact held.accounted_act limited constant counts stepped
      | environment event => exact held.accounted.environment held.reached stepped
      | start request task => exact held.accounted_start turns stepped
      | finish request => exact held.accounted.finish held.reached stepped
      | abandon request => exact turns.elim

end Runs

/-- A vault without uploads or blobs has reserved nothing. -/
theorem BlobDb.ClaimsWithin.reservedBytes_nonpos
    {vault : VaultId}
    {now : Time}
    {db : BlobDb}
    (claims : db.ClaimsWithin)
    (noBlobs : db.blobSizes vault = [])
    (noUploads : ∀ uploadId row, db.blobUploads.lookup uploadId = some row →
      row.vaultId ≠ vault) :
    db.reservedBytes vault now ≤ 0 := by
  have none : db.openUploads vault now = [] := by
    refine List.eq_nil_iff_forall_not_mem.mpr ?_
    intro row member
    obtain ⟨isOpen, uploadId, found⟩ := mem_openUploads_iff.mp member
    simp only [UploadRow.isOpen, Bool.and_eq_true, decide_eq_true_eq] at isOpen
    exact noUploads uploadId row found isOpen.1
  have pending : db.pendingBytes vault now ≤ 0 := by
    have bounded : db.pendingBytes vault now ≤
        (db.openUploads vault now).length * absoluteMax := claims.pendingBytes_le
    simpa [none] using bounded
  have stored : db.storedBytes vault = 0 := by simp [storedBytes, noBlobs]
  unfold reservedBytes
  omega

/-- BLAKE3 of the bytes `ab`. -/
def Hash.ofAB : Hash :=
  ⟨"2dc99999a6aaef3f20349d2ed4057a2b54419545dabb809e6381de1bad8337e2", by decide +kernel⟩

/-- A server with a quota of two bytes. -/
def BlobSettings.narrow : BlobSettings where
  blake3Hex := fun bytes =>
    if bytes = [0x61, 0x62] then Hash.ofAB.1 else referenceDigest bytes
  svgFilterOutput := some
  defaultQuotaBytes := 2

/-- Half of a blob of two bytes has been received when a blob of one byte is
admitted.  Both are finished. -/
def BlobSchedule.halfReceived : BlobSchedule :=
  [.start 0 (.createUpload VaultId.v Hash.ofAB.1 2)] ++ calls 0 "u" 2 ++ calls 0 "spare" 3 ++
    [.finish 0] ++
    serves 1 (.putUpload VaultId.v "u" ⟨some "bytes 0-0/2", [.ok [0x61]]⟩) 8 ++
    uploads 2 "w" Hash.ofA 0x61 ++
    serves 4 (.putUpload VaultId.v "u" ⟨some "bytes 1-1/2", [.ok [0x62]]⟩) 16

theorem BlobSchedule.halfReceived_enabled :
    ((blobMachine BlobSettings.narrow).run (BlobSchedule.halfReceived.on BlobSettings.narrow)
      (blobConfig BlobSettings.narrow (.fresh ∅) .empty)).isSome = true := by
  decide +kernel

end VaultCrdtServer
