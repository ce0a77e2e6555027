import VaultCrdtServer.Loro.Updates
import VaultCrdtServer.Merge.Kept
import VaultCrdtServer.Server.Transcripts
import VaultCrdtServer.VvSerde.RoundTrip

/-!
# Synchronization

What a round of synchronization achieves.  A replica sends its version vector and
imports the delta it is answered with; then it holds what was stored when the
server read the document.  It pushes what the reported vector does not cover;
then the server holds what the replica holds, and what was stored meanwhile.
-/

namespace VaultCrdtServer

open CausalHistory Interleaving

variable {Blob : Type}

/-! ## Answers to `SyncStart` -/

/-- The delta and the vector of an answer are those of the snapshot that the one
query for the frame has found. -/
structure Syncs
    (libraries : Libraries Blob)
    (path : DocPath)
    (clientVv : Option Bytes)
    (delta : Blob)
    (serverVv : Bytes)
    (incarnation : Option Int)
    (queries : List (Query Blob)) : Prop where
  found : ∃ snapshot token doc,
    queries = [⟨.getSnapshotWithIncarnation path, some (snapshot, token)⟩] ∧
    libraries.loro.importBlob libraries.loro.new snapshot = .ok doc ∧
    serverVv = vvToJsonBytes libraries.json (libraries.loro.oplogVv doc) ∧
    incarnation = some token ∧
    match clientVv with
    | some bytes => ∃ vv, vvFromJsonBytes libraries.json bytes = .ok vv ∧
        libraries.loro.exportUpdates doc vv = .ok delta
    | none => delta = snapshot

/-- Answers to `SyncStart` with a delta are as they should be. -/
def FitsSyncStart
    (libraries : Libraries Blob)
    (vaultId : String)
    (frame : Frame Blob)
    (response : ServerMsg Blob)
    (queries : List (Query Blob)) : Prop :=
  ∀ docUuid clientVv answeredUuid delta serverVv incarnation,
    frame.decoded = .ok (.syncStart docUuid clientVv) →
    response = .syncDelta answeredUuid delta serverVv incarnation →
      answeredUuid = docUuid ∧
        Syncs libraries ⟨vaultId, docUuid⟩ clientVv delta serverVv incarnation queries

section Programs

variable {settings : Settings Blob} {vaultId : String} {docUuid : String}
variable {clientVv : Option Bytes} {queries : List (Query Blob)}

/-- The result of the handler, if it is a delta. -/
def Delivers
    (libraries : Libraries Blob)
    (path : DocPath)
    (clientVv : Option Bytes)
    (result : Except ServerError (Answer Blob))
    (queries : List (Query Blob)) : Prop :=
  ∀ answeredUuid delta serverVv incarnation broadcast,
    result = .ok (.syncDelta answeredUuid delta serverVv incarnation, broadcast) →
      answeredUuid = path.doc ∧
        Syncs libraries path clientVv delta serverVv incarnation queries

/-- Calls that answer no frame fit. -/
theorem ServerCall.Handles.fits
    {call : ServerCall Blob}
    {msg : ClientMsg Blob}
    {fits : Frame Blob → ServerMsg Blob → List (Query Blob) → Prop}
    (handles : call.Handles vaultId msg)
    (queries : List (Query Blob)) :
    call.Fits fits queries := by
  cases call with
  | db | lock | unlock | publish | subscribe => trivial
  | respond => exact handles.elim

/-- The one query finds a document or not. -/
theorem handleSyncStart_accounts
    {fits : Frame Blob → ServerMsg Blob → List (Query Blob) → Prop} :
    (handleSyncStart settings.toLibraries ⟨vaultId, docUuid⟩ clientVv).run.Accounts
      ServerCall.queried (ServerCall.Fits fits)
      (Delivers settings.toLibraries ⟨vaultId, docUuid⟩ clientVv) [] := by
  refine Program.Accounts.bind_fallible ⟨trivial, fun reply => ?_⟩
  cases reply with
  | error error => exact fun _ _ _ _ _ failed => (nomatch failed)
  | ok existing =>
      cases existing with
      | none => exact fun _ _ _ _ _ unknown => (nomatch unknown)
      | some found =>
          obtain ⟨snapshot, token⟩ := found
          refine Program.Accounts.bind_fallible ?_
          cases imports : settings.loro.importBlob settings.loro.new snapshot with
          | error reason => exact fun _ _ _ _ _ failed => (nomatch failed)
          | ok doc =>
              cases clientVv with
              | none =>
                  intro answeredUuid delta serverVv incarnation broadcast answered
                  cases answered
                  exact ⟨rfl, ⟨snapshot, token, doc, rfl, imports, rfl, rfl, rfl⟩⟩
              | some bytes =>
                  refine Program.Accounts.bind_fallible ?_
                  cases decoded : vvFromJsonBytes settings.json bytes with
                  | error error => exact fun _ _ _ _ _ failed => (nomatch failed)
                  | ok vv =>
                      refine Program.Accounts.bind_fallible ?_
                      cases exported : settings.loro.exportUpdates doc vv with
                      | error reason => exact fun _ _ _ _ _ failed => (nomatch failed)
                      | ok updates =>
                          intro answeredUuid delta serverVv incarnation broadcast answered
                          cases answered
                          exact ⟨rfl, ⟨snapshot, token, doc, rfl, imports, rfl, rfl, vv,
                            decoded, exported⟩⟩

/-- What a handler makes of a frame fits. -/
theorem processMessage_syncs
    {fits : Frame Blob → ServerMsg Blob → List (Query Blob) → Prop}
    (connId : Nat)
    (frame : Frame Blob) :
    (processMessage settings.toLibraries frame vaultId connId).Accounts
      ServerCall.queried (ServerCall.Fits fits)
      (fun answer => FitsSyncStart settings.toLibraries vaultId frame answer.1) [] := by
  have anyway (vacuous : ∀ docUuid clientVv,
      frame.decoded ≠ .ok (.syncStart docUuid clientVv)) :
      (processMessage settings.toLibraries frame vaultId connId).Accounts
        ServerCall.queried (ServerCall.Fits fits)
        (fun answer => FitsSyncStart settings.toLibraries vaultId frame answer.1) [] := by
    refine Program.Accounts.of_only ?_ ?_ []
    · refine (processMessage_handles frame connId).mono fun _ made => ?_
      obtain ⟨_, _, handles⟩ := made
      exact handles.fits
    · intro answer queries docUuid clientVv _ _ _ _ decoded
      exact absurd decoded (vacuous docUuid clientVv)
  cases decoded : frame.decoded with
  | error reason => exact anyway fun _ _ started => by simp [decoded] at started
  | ok msg =>
      cases msg with
      | auth | ping | requestDocList | syncPush | docCreate | docDelete =>
          exact anyway fun _ _ started => by simp [decoded] at started
      | syncStart docUuid clientVv =>
          unfold processMessage
          rw [decoded]
          refine Program.Accounts.bind (Program.Accounts.bind_fallible ?_)
          -- only a delta of the handler is a delta after `finishAnswer`
          have refuses : ∀ (error : ServerError) queries,
              FitsSyncStart settings.toLibraries vaultId frame
                (finishAnswer (requestIdOf frame.decoded) (.error error)).1 queries := by
            intro error queries docUuid' clientVv' answeredUuid delta serverVv incarnation
              _ answered
            cases answered
          have finishes : ∀ result queries,
              Delivers settings.toLibraries ⟨vaultId, docUuid⟩ clientVv result queries →
                FitsSyncStart settings.toLibraries vaultId frame
                  (finishAnswer (requestIdOf frame.decoded) result).1 queries := by
            intro result queries delivers
            cases result with
            | error error => exact refuses error queries
            | ok answer =>
                obtain ⟨response, broadcast⟩ := answer
                intro docUuid' clientVv' answeredUuid delta serverVv incarnation
                  decoded' answered
                obtain ⟨rfl, rfl⟩ : docUuid = docUuid' ∧ clientVv = clientVv' := by
                  simpa [decoded] using decoded'
                cases response with
                | syncDelta =>
                    cases answered
                    exact delivers _ _ _ _ _ rfl
                | _ => cases answered
          rw [decoded] at refuses finishes
          cases checked : checkIdentifiers (.syncStart docUuid clientVv :
              ClientMsg Blob) with
          | error error => exact refuses error []
          | ok =>
              exact handleSyncStart_accounts.imp finishes

/-- What fits is answered. -/
theorem deliver_accounts
    {fits : Frame Blob → ServerMsg Blob → List (Query Blob) → Prop}
    {frame : Frame Blob}
    {answer : Answer Blob}
    (answers : fits frame answer.1 queries) :
    (deliver settings frame answer).Accounts ServerCall.queried (ServerCall.Fits fits)
      (fun _ _ => True) queries := by
  unfold deliver
  split_ifs
  · refine Program.Accounts.bind ⟨answers, fun sent => ?_⟩
    refine Program.Accounts.of_only ?_ (fun _ _ => trivial) _
    split_ifs
    · cases answer.2 with
      | none => trivial
      | some event => exact ⟨fun _ => trivial, fun _ => trivial⟩
    · trivial
  · trivial

/-- The answer of every frame fits. -/
theorem serveFrame_accounts (connId : Nat) (frame : Frame Blob) :
    (serveFrame settings vaultId connId frame).Accounts ServerCall.queried
      (ServerCall.Fits (FitsSyncStart settings.toLibraries vaultId)) (fun _ _ => True) [] := by
  unfold serveFrame
  split_ifs
  · refine Program.Accounts.bind ⟨?_, fun _ => trivial⟩
    intro docUuid clientVv answeredUuid delta serverVv incarnation _ answered
    cases answered
  · trivial
  · refine Program.Accounts.bind ((processMessage_syncs connId frame).imp ?_)
    exact fun answer queries answers => deliver_accounts answers

end Programs

/-! ## What a replica is sent -/

/-- Every call of a history was executed on the database before it. -/
theorem History.executed_of_mem
    {libraries : Libraries Blob}
    {initial db : Db Blob}
    {journal : List (JournalEntry Blob)}
    {entry : JournalEntry Blob}
    (history : History libraries initial journal db)
    (member : entry ∈ journal) :
    ∃ now, entry.call.exec libraries now entry.before = .ok (entry.reply, entry.after) := by
  induction history with
  | start => cases member
  | commit earlier justified executed inductionHypothesis =>
      rcases List.mem_append.mp member with before | last
      · exact inductionHypothesis before
      · obtain rfl := List.mem_singleton.mp last
        exact ⟨_, executed⟩

/-- The row that the query has found. -/
theorem row_of_query
    {libraries : Libraries Blob}
    {now : Time}
    {entry : JournalEntry Blob}
    {path : DocPath}
    {snapshot : Blob}
    {token : Int}
    (executed : entry.call.exec libraries now entry.before = .ok (entry.reply, entry.after))
    (found : entry.query = ⟨.getSnapshotWithIncarnation path, some (snapshot, token)⟩) :
    entry.after = entry.before ∧
      ∃ row, entry.before.documents.lookup path = some row ∧
        row.snapshotBlob = snapshot ∧ row.incarnation = token := by
  obtain ⟨origin, call, reply, before, after⟩ := entry
  obtain ⟨rfl, same⟩ := Sigma.mk.inj found
  obtain rfl := eq_of_heq same
  have result : (before.getSnapshotWithIncarnation path, before) =
      (some (snapshot, token), after) := Except.ok.inj executed
  obtain ⟨read, rfl⟩ := Prod.mk.inj result
  refine ⟨rfl, ?_⟩
  obtain ⟨row, live, columns⟩ := Option.map_eq_some_iff.mp read
  obtain ⟨snapshot', token'⟩ := Prod.mk.inj columns
  exact ⟨row, live, snapshot', token'⟩

/-- What an answer brings to a replica: the operations stored when the server
read the document. -/
structure Brings
    (libraries : Libraries Blob)
    (log : OpLog libraries.loro)
    (path : DocPath)
    (doc : libraries.loro.Doc)
    (delta : Blob)
    (serverVv : Bytes)
    (incarnation : Option Int)
    (read : JournalEntry Blob) : Prop where
  /-- The token is that of the live row. -/
  token : ∃ row, read.before.documents.lookup path = some row ∧
    incarnation = some row.incarnation
  imports : ∃ doc', libraries.loro.importBlob doc delta = .ok doc'
  /-- Nothing the replica held is lost, and nothing it was sent is left waiting. -/
  joined : ∀ doc', libraries.loro.importBlob doc delta = .ok doc' →
    log.applied doc' = log.applied doc ∪ storedOps log read.before path ∧
      log.Replica doc'
  /-- The reported vector covers what was stored. -/
  covers : ∃ vv, vvFromJsonBytes libraries.json serverVv = .ok vv ∧
    ∀ op, vv.Covers op ↔ op ∈ storedOps log read.before path

section Answers

variable {settings : Settings Blob} {log : OpLog settings.loro} {initial : Db Blob}
variable {server : Server Blob} {path : DocPath} {clientVv : Option Bytes}
variable {delta : Blob} {serverVv : Bytes} {incarnation : Option Int}
variable {doc : settings.loro.Doc} {read : JournalEntry Blob}

/-- The wire form is read back. -/
theorem vvFromJsonBytes_vvToJsonBytes
    {json : SerdeJson}
    (faithful : json.Faithful)
    (vv : VersionVector) :
    vvFromJsonBytes json (vvToJsonBytes json vv) = .ok vv :=
  vvFromJsonBytes_of_encodes faithful ⟨VersionVector.entries vv, List.Perm.refl _, rfl⟩

/-- A delta of a stored snapshot brings the replica what it lacks. -/
theorem Syncs.brings
    (lawful : log.Lawful)
    (exchanges : log.Exchanges)
    (faithful : settings.json.Faithful)
    {now : Time}
    (executed : read.call.exec settings.toLibraries now read.before =
      .ok (read.reply, read.after))
    (coherent : Coherent log read.before)
    (syncs : Syncs settings.toLibraries path clientVv delta serverVv incarnation
      [read.query])
    (replica : log.Replica doc)
    (reports : ∀ bytes ∈ clientVv,
      Encodes settings.json (settings.loro.oplogVv doc) bytes) :
    Brings settings.toLibraries log path doc delta serverVv incarnation read := by
  obtain ⟨snapshot, token, opened, found, imports, vector, granted, exported⟩ := syncs.found
  obtain ⟨_, row, live, rfl, rfl⟩ := row_of_query executed (List.singleton_inj.mp found)
  obtain ⟨ops, carried, closed⟩ := (coherent path row live).snapshot
  have stored : storedOps log read.before path = ops :=
    (storedOps_of_live live).trans (OpLog.opsOf_some carried)
  have applied : log.applied opened = ops := by
    have snapshots : ∀ blob ∈ some row.snapshotBlob, log.IsSnapshot blob := by
      intro blob same
      obtain rfl := Option.some.inj same
      exact ⟨ops, carried, closed⟩
    rw [(lawful.opened snapshots imports).1, OpLog.opsOf_some carried]
  -- the delta carries at least what the replica lacks, and nothing else
  obtain ⟨pool, sent, lacking, within⟩ : ∃ pool, log.changes delta = some pool ∧
      ops \ log.applied doc ⊆ pool ∧ pool ⊆ ops := by
    cases clientVv with
    | none =>
        obtain rfl := exported
        exact ⟨ops, carried, Set.sdiff_subset, subset_rfl⟩
    | some bytes =>
        obtain ⟨vv, decoded, updates⟩ := exported
        have reported := vvFromJsonBytes_of_encodes faithful (reports bytes rfl)
        obtain rfl := Except.ok.inj (decoded.symm.trans reported)
        obtain ⟨blob, exports, changes⟩ :=
          exchanges.export_updates opened (settings.loro.oplogVv doc)
        obtain rfl := Except.ok.inj (updates.symm.trans exports)
        refine ⟨_, changes, ?_, ?_⟩
        · rw [applied]
          intro op member
          refine ⟨member.1, fun covered => member.2 ?_⟩
          exact (OpLog.Replica.covers_iff lawful exchanges replica.closed op).mp covered
        · rw [applied]
          exact fun op member => member.1
  have openedClosed : Closed log.deps (log.applied opened) := applied.symm ▸ closed
  refine ⟨⟨row, live, granted⟩, lawful.import_succeeds doc delta pool sent, ?_, ?_⟩
  · rw [stored]
    exact fun doc' received =>
      replica.import_between lawful closed sent lacking within received
  · rw [vector, stored]
    refine ⟨_, vvFromJsonBytes_vvToJsonBytes faithful _, fun op => ?_⟩
    rw [← applied]
    exact OpLog.Replica.covers_iff lawful exchanges openedClosed op

/-- The one query that was made for a frame answered with a delta. -/
theorem read_of_answered
    {config : (serverMachine settings).Config}
    (lawful : log.Lawful)
    (coherent : Coherent log initial)
    (reachable : Reachable settings initial config)
    {answered : Answered Blob}
    {docUuid answeredUuid : String}
    (member : answered ∈ config.shared.answers)
    (asked : answered.frame.decoded = .ok (.syncStart docUuid clientVv))
    (delivered : answered.response = .syncDelta answeredUuid delta serverVv incarnation) :
    answeredUuid = docUuid ∧
      ∃ read, config.shared.entriesOf answered.origin = [read] ∧
        Coherent log read.before ∧
        (∃ now, read.call.exec settings.toLibraries now read.before =
          .ok (read.reply, read.after)) ∧
        Syncs settings.toLibraries ⟨answered.vaultId, docUuid⟩ clientVv delta serverVv
          incarnation [read.query] := by
  have vouched := reachable.vouched fun vaultId => serveFrame_accounts
  obtain ⟨same, syncs⟩ := vouched.answers answered member docUuid clientVv answeredUuid
    delta serverVv incarnation asked delivered
  have one : ∃ read, config.shared.entriesOf answered.origin = [read] := by
    obtain ⟨_, _, _, queries, _⟩ := syncs.found
    have length := congrArg List.length queries
    rw [Server.queriesOf, List.length_map] at length
    exact List.length_eq_one_iff.mp length
  obtain ⟨read, entries⟩ := one
  rw [Server.queriesOf, entries] at syncs
  have journaled : read ∈ config.shared.journal := by
    have own : read ∈ config.shared.entriesOf answered.origin :=
      entries ▸ List.mem_singleton_self read
    exact List.mem_of_mem_filter own
  have history := reachable.history
  have executed := history.executed_of_mem journaled
  obtain ⟨front, back, journal⟩ := List.append_of_mem journaled
  rw [journal] at history
  exact ⟨same, read, entries, coherent.history lawful history.at_entry.1, executed, syncs⟩

/-- The delta of an answer to `SyncStart` brings a replica that has reported its
vector, or none, exactly what was stored when the server read the document. -/
theorem sync_start_brings
    {config : (serverMachine settings).Config}
    (lawful : log.Lawful)
    (exchanges : log.Exchanges)
    (faithful : settings.json.Faithful)
    (coherent : Coherent log initial)
    (reachable : Reachable settings initial config)
    {answered : Answered Blob}
    {docUuid answeredUuid : String}
    (member : answered ∈ config.shared.answers)
    (asked : answered.frame.decoded = .ok (.syncStart docUuid clientVv))
    (delivered : answered.response = .syncDelta answeredUuid delta serverVv incarnation)
    (replica : log.Replica doc)
    (reports : ∀ bytes ∈ clientVv,
      Encodes settings.json (settings.loro.oplogVv doc) bytes) :
    answeredUuid = docUuid ∧
      ∃ read, config.shared.entriesOf answered.origin = [read] ∧
        Brings settings.toLibraries log ⟨answered.vaultId, docUuid⟩ doc delta serverVv
          incarnation read := by
  obtain ⟨same, read, entries, coherentBefore, ⟨now, executed⟩, syncs⟩ :=
    read_of_answered lawful coherent reachable member asked delivered
  exact ⟨same, read, entries, syncs.brings lawful exchanges faithful executed coherentBefore
    replica reports⟩

end Answers

/-! ## A round of one replica -/

/-- The reference server with a faithful JSON writer. -/
def Settings.flat : Settings ReferenceBlob := { Settings.reference with json := .flat }

/-- A frame is received and served. -/
def servesFlat
    (connId : Nat)
    (msg : ClientMsg ReferenceBlob)
    (count : Nat) : List (serverMachine Settings.flat).Label :=
  .start connId (.frame (.of msg)) :: List.replicate count (.act connId ⟨0, none⟩) ++
    [.finish connId]

/-- What a replica with an edit of its own reports, `{"9":1}`. -/
def offlineVv : Bytes := [0x7B, 0x22, 0x39, 0x22, 0x3A, 0x31, 0x7D]

/-- A document is pushed.  A second replica, which holds an edit of its own, asks
for it, edits it again, and pushes both edits. -/
def editedRound : List (serverMachine Settings.flat).Label :=
  .start 0 (.connect "v" "a" "" []) :: List.replicate 2 (.act 0 ⟨0, none⟩) ++ [.finish 0] ++
    servesFlat 0 (.push [⟨7, 0⟩]) 7 ++
    .start 1 (.connect "v" "b" "" []) :: List.replicate 2 (.act 1 ⟨0, none⟩) ++
    [.finish 1] ++ servesFlat 1 (.syncStart "d" (some offlineVv)) 2 ++
    servesFlat 1 (.push [⟨9, 0⟩, ⟨8, 0⟩]) 6

theorem editedRound_enabled :
    ((serverMachine Settings.flat).run editedRound
      (initialConfig Settings.flat Db.empty)).isSome = true := by
  decide +kernel

/-- What the round leads to. -/
def editedConfig : (serverMachine Settings.flat).Config :=
  ((serverMachine Settings.flat).run editedRound
    (initialConfig Settings.flat Db.empty)).get editedRound_enabled

theorem editedConfig_reachable : Reachable Settings.flat Db.empty editedConfig :=
  ⟨editedRound, (Option.some_get editedRound_enabled).symm⟩

/-- The answer to the question of the second replica. -/
def Answered.asked : Answered ReferenceBlob where
  origin := ⟨1, 1⟩
  vaultId := "v"
  frame := .of (.syncStart "d" (some offlineVv))
  response := .syncDelta "d" (.updates [⟨7, 0⟩])
    (vvToJsonBytes .flat (versionOf [⟨7, 0⟩])) (some 1)

/-- The answer to its push. -/
def Answered.editPushed : Answered ReferenceBlob where
  origin := ⟨1, 2⟩
  vaultId := "v"
  frame := .of (.push [⟨9, 0⟩, ⟨8, 0⟩])
  response := .ack none none

theorem Answered.asked_mem_answers : Answered.asked ∈ editedConfig.shared.answers :=
  List.mem_of_getElem? (i := 1) rfl

theorem Answered.editPushed_mem_answers :
    Answered.editPushed ∈ editedConfig.shared.answers :=
  List.mem_of_getElem? (i := 2) rfl

/-- The edits of a peer form a chain in the reference graph. -/
theorem OpLog.reference_exchanges_reference :
    (OpLog.reference .reference).Exchanges := by
  apply OpLog.reference_exchanges
  intro peer counter counter' next
  have later : ¬ counter'.val = 0 := by omega
  have before : (⟨counter'.val - 1, by omega⟩ : Counter) = counter :=
    Fin.ext (by dsimp only; omega)
  simp only [EditGraph.dependencies, EditGraph.reference, EditGraph.chains, dif_neg later,
    before]
  exact List.mem_singleton_self _

/-- The second replica reports its vector. -/
theorem offlineVv_encodes :
    ∀ bytes ∈ some offlineVv,
      Encodes .flat ((Loro.reference .reference).oplogVv ⟨[⟨9, 0⟩], []⟩) bytes := by
  rintro bytes reported
  obtain rfl := Option.some.inj reported
  have written : offlineVv = vvToJsonBytes .flat (versionOf [⟨9, 0⟩]) := by decide +kernel
  exact ⟨_, List.Perm.refl _, written⟩

theorem sync_start_brings_asked :
    ∃ read, editedConfig.shared.entriesOf ⟨1, 1⟩ = [read] ∧
      Brings Settings.flat.toLibraries (OpLog.reference .reference) ⟨"v", "d"⟩
        (⟨[⟨9, 0⟩], []⟩ : ReferenceDoc) (.updates [⟨7, 0⟩])
        (vvToJsonBytes .flat (versionOf [⟨7, 0⟩])) (some 1) read := by
  have replica : (OpLog.reference .reference).Replica ⟨[⟨9, 0⟩], []⟩ :=
    OpLog.reference_replica (by decide)
  have lawful : (OpLog.reference .reference : OpLog Settings.flat.loro).Lawful :=
    OpLog.reference_lawful .reference
  exact (sync_start_brings lawful OpLog.reference_exchanges_reference
    SerdeJson.flat_faithful coherent_empty editedConfig_reachable
    Answered.asked_mem_answers rfl rfl replica offlineVv_encodes).2

/-! ## What a replica sends -/

section Rounds

variable {settings : Settings Blob} {log : OpLog settings.loro} {initial db : Db Blob}
variable {path : DocPath}

/-- The write of an acknowledged push. -/
theorem Recorded.stores_of_committed
    {server : Server Blob}
    (recorded : Recorded settings initial server)
    {pushed : Answered Blob}
    {docUuid peerId : String}
    {updates : Blob}
    {requestId echoed : Option String}
    {granted : Option Int}
    (member : pushed ∈ server.answers)
    (asked : pushed.frame.decoded = .ok (.syncPush docUuid updates peerId requestId))
    (acked : pushed.response = .ack granted echoed)
    {write : JournalEntry Blob}
    (own : write ∈ server.entriesOf pushed.origin)
    (written : write.committed.isSome = true) :
    write.Stores settings.loro ⟨pushed.vaultId, docUuid⟩ updates := by
  obtain ⟨_, broadcast, settled, _⟩ := recorded.reported pushed member
  rw [asked, acked] at settled
  generalize server.entriesOf pushed.origin = entries at own settled
  cases settled with
  | plain isPlain => exact isPlain.elim
  | deleted asked' => cases asked'
  | stored asked' submits readsFirst made stores reports =>
      obtain rfl := Except.ok.inj asked'
      obtain rfl := eq_of_committed readsFirst own written
      cases submits
      exact stores

/-- Along a history without commits to a path its row stays. -/
theorem documents_of_history
    {journal : List (JournalEntry Blob)}
    (history : History settings.toLibraries initial journal db)
    (untouched : ∀ entry ∈ journal, entry.committed ≠ some path) :
    db.documents.lookup path = initial.documents.lookup path :=
  history.preserves
    (motive := fun db => db.documents.lookup path = initial.documents.lookup path)
    (fun member same _ effect => (effect.documents_frame (untouched _ member)).trans same)
    rfl

/-- What the server stores after a push of what it had not reported, as long as
what it had reported is still stored. -/
theorem storedOps_of_push
    (lawful : log.Lawful)
    (exchanges : log.Exchanges)
    {now : Time}
    {write : JournalEntry Blob}
    (effect : DbCall.Effect settings.toLibraries now write.before write.call write.reply
      write.after)
    (coherent : Coherent log write.before)
    {doc : settings.loro.Doc}
    (replica : log.Replica doc)
    {known : Set OpId}
    {vv : VersionVector}
    {updates : Blob}
    (covers : ∀ op, vv.Covers op ↔ op ∈ known)
    (exported : settings.loro.exportUpdates doc vv = .ok updates)
    (knownStored : known ⊆ storedOps log write.before path)
    (stores : write.Stores settings.loro path updates) :
    storedOps log write.after path = storedOps log write.before path ∪ log.applied doc := by
  obtain ⟨ops, carried, integrated⟩ :=
    storedOps_of_stores lawful (coherent path) effect stores
  obtain ⟨blob, exports, changes⟩ := exchanges.export_updates doc vv
  obtain rfl := Except.ok.inj (exported.symm.trans exports)
  obtain rfl := Option.some.inj (changes.symm.trans carried)
  have rest : storedOps log write.before path ∪
      { op | op ∈ log.applied doc ∧ ¬ vv.Covers op } =
        storedOps log write.before path ∪ log.applied doc := by
    ext op
    constructor
    · rintro (stored | fresh)
      · exact Or.inl stored
      · exact Or.inr fresh.1
    · rintro (stored | held)
      · exact Or.inl stored
      · by_cases covered : vv.Covers op
        · exact Or.inl (knownStored ((covers op).mp covered))
        · exact Or.inr ⟨held, covered⟩
  rw [integrated, integrate_eq_union lawful.acyclic, rest]
  intro op fresh dependency needed
  rw [rest]
  exact Or.inr (replica.closed op fresh.1 needed)

/-- A replica has synchronized: it has imported the delta it was answered with,
may have been edited since, and has pushed what the reported vector does not
cover.  Unless a delete of the document commits in between, the server then
stores what the replica holds beside what was stored before, and the same as the
replica if nobody else has written to the document. -/
theorem sync_round_converges
    {config : (serverMachine settings).Config}
    (lawful : log.Lawful)
    (exchanges : log.Exchanges)
    (faithful : settings.json.Faithful)
    (coherent : Coherent log initial)
    (reachable : Reachable settings initial config)
    {started pushed : Answered Blob}
    {docUuid answeredUuid peerId : String}
    {clientVv : Option Bytes}
    {delta updates : Blob}
    {serverVv : Bytes}
    {vv : VersionVector}
    {incarnation granted : Option Int}
    {requestId echoed : Option String}
    {doc received edited : settings.loro.Doc}
    {front middle back : List (JournalEntry Blob)}
    {read write : JournalEntry Blob}
    (member : started ∈ config.shared.answers)
    (asked : started.frame.decoded = .ok (.syncStart docUuid clientVv))
    (delivered : started.response = .syncDelta answeredUuid delta serverVv incarnation)
    (replica : log.Replica doc)
    (reports : ∀ bytes ∈ clientVv,
      Encodes settings.json (settings.loro.oplogVv doc) bytes)
    (imports : settings.loro.importBlob doc delta = .ok received)
    (decodes : vvFromJsonBytes settings.json serverVv = .ok vv)
    (replica' : log.Replica edited)
    (edits : log.applied received ⊆ log.applied edited)
    (exported : settings.loro.exportUpdates edited vv = .ok updates)
    (member' : pushed ∈ config.shared.answers)
    (sameVault : pushed.vaultId = started.vaultId)
    (asked' : pushed.frame.decoded = .ok (.syncPush docUuid updates peerId requestId))
    (acked : pushed.response = .ack granted echoed)
    (journal : config.shared.journal = front ++ read :: (middle ++ write :: back))
    (reads : read.origin = some started.origin)
    (writes : write.origin = some pushed.origin)
    (written : write.committed.isSome = true)
    (spared : ∀ entry ∈ middle, ¬ entry.Deletes ⟨started.vaultId, docUuid⟩) :
    storedOps log write.after ⟨started.vaultId, docUuid⟩ =
        storedOps log write.before ⟨started.vaultId, docUuid⟩ ∪ log.applied edited ∧
      ((∀ entry ∈ middle, entry.committed ≠ some ⟨started.vaultId, docUuid⟩) →
        storedOps log write.after ⟨started.vaultId, docUuid⟩ = log.applied edited) := by
  have history := reachable.history
  rw [journal] at history
  obtain ⟨first, rest, _⟩ := history.at_entry
  obtain ⟨between, _, _, now, effect⟩ := rest.at_entry
  -- the one query for the first frame is the given entry
  have inJournal : read ∈ config.shared.journal := by simp [journal]
  obtain ⟨_, read', entries, coherentRead, ⟨_, executed⟩, syncs⟩ :=
    read_of_answered lawful coherent reachable member asked delivered
  have same : read = read' := by
    have own : read ∈ config.shared.entriesOf started.origin :=
      List.mem_filter.mpr ⟨inJournal, decide_eq_true reads⟩
    exact List.mem_singleton.mp (entries ▸ own)
  subst same
  have brings := syncs.brings lawful exchanges faithful executed coherentRead replica reports
  obtain ⟨snapshot, token, _, queries, _⟩ := syncs.found
  have unchanged := (row_of_query executed (List.singleton_inj.mp queries)).1
  rw [unchanged] at between
  obtain ⟨row, live, _⟩ := brings.token
  obtain ⟨applied, _⟩ := brings.joined received imports
  obtain ⟨vv', decodes', covers⟩ := brings.covers
  obtain rfl := Except.ok.inj (decodes.symm.trans decodes')
  have knownHeld : storedOps log read.before ⟨started.vaultId, docUuid⟩ ⊆
      log.applied edited := by
    rw [applied] at edits
    exact Set.subset_union_right.trans edits
  have knownStored := (storedOps_subset_of_history lawful rfl coherentRead between spared
    (by rw [live]; exact Option.some_ne_none row)).2
  have own : write ∈ config.shared.entriesOf pushed.origin :=
    List.mem_filter.mpr ⟨by simp [journal], decide_eq_true writes⟩
  have stores := reachable.recorded.stores_of_committed member' asked' acked own written
  rw [sameVault] at stores
  have after := storedOps_of_push lawful exchanges effect
    (coherentRead.history lawful between) replica' covers exported knownStored stores
  refine ⟨after, fun untouched => ?_⟩
  rw [after, storedOps_congr (documents_of_history between untouched)]
  exact Set.union_eq_self_of_subset_left knownHeld

end Rounds

theorem editedConfig_origins :
    editedConfig.shared.journal.map JournalEntry.origin =
      [some ⟨0, 0⟩, some ⟨0, 1⟩, some ⟨0, 1⟩, some ⟨0, 1⟩, some ⟨1, 0⟩, some ⟨1, 1⟩,
        some ⟨1, 2⟩, some ⟨1, 2⟩] := by
  decide +kernel

theorem editedConfig_committed :
    editedConfig.shared.journal.map JournalEntry.committed =
      [none, none, none, some ⟨"v", "d"⟩, none, none, none, some ⟨"v", "d"⟩] := by
  decide +kernel

theorem sync_round_converges_edited :
    ∃ write ∈ editedConfig.shared.journal, write.origin = some ⟨1, 2⟩ ∧
      storedOps (OpLog.reference .reference) write.after ⟨"v", "d"⟩ =
        { op | op ∈ ([⟨9, 0⟩, ⟨7, 0⟩, ⟨8, 0⟩] : List OpId) } := by
  have length : editedConfig.shared.journal.length = 8 := by
    simpa using congrArg List.length editedConfig_origins
  have origin := fun (i : Nat) => congrArg (fun origins => origins[i]?) editedConfig_origins
  have committed := fun (i : Nat) =>
    congrArg (fun committed => committed[i]?) editedConfig_committed
  have cut : editedConfig.shared.journal = editedConfig.shared.journal.take 5 ++
      editedConfig.shared.journal[5] :: ([editedConfig.shared.journal[6]] ++
        editedConfig.shared.journal[7] :: editedConfig.shared.journal.drop 8) := by
    rw [List.singleton_append, ← List.drop_eq_getElem_cons, ← List.drop_eq_getElem_cons,
      ← List.drop_eq_getElem_cons, List.take_append_drop]
  have reads : editedConfig.shared.journal[5].origin = some ⟨1, 1⟩ := by
    simpa [length] using origin 5
  have writes : editedConfig.shared.journal[7].origin = some ⟨1, 2⟩ := by
    simpa [length] using origin 7
  have written : editedConfig.shared.journal[7].committed = some ⟨"v", "d"⟩ := by
    simpa [length] using committed 7
  have untouched : editedConfig.shared.journal[6].committed = none := by
    simpa [length] using committed 6
  have received : (OpLog.reference .reference).Replica ⟨[⟨9, 0⟩], []⟩ :=
    OpLog.reference_replica (by decide)
  have edited : (OpLog.reference .reference).Replica ⟨[⟨9, 0⟩, ⟨7, 0⟩, ⟨8, 0⟩], []⟩ :=
    OpLog.reference_replica (by decide)
  have lawful : (OpLog.reference .reference : OpLog Settings.flat.loro).Lawful :=
    OpLog.reference_lawful .reference
  have decodes := vvFromJsonBytes_vvToJsonBytes SerdeJson.flat_faithful (versionOf [⟨7, 0⟩])
  have edits : (OpLog.reference .reference).applied ⟨[⟨9, 0⟩, ⟨7, 0⟩], []⟩ ⊆
      (OpLog.reference .reference).applied ⟨[⟨9, 0⟩, ⟨7, 0⟩, ⟨8, 0⟩], []⟩ :=
    fun op (member : op ∈ ([⟨9, 0⟩, ⟨7, 0⟩] : List OpId)) =>
      List.mem_append_left ([⟨8, 0⟩] : List OpId) member
  have spared : ∀ entry ∈ [editedConfig.shared.journal[6]],
      entry.committed ≠ some ⟨"v", "d"⟩ := by
    intro entry member
    rw [List.mem_singleton.mp member, untouched]
    exact (Option.some_ne_none _).symm
  refine ⟨editedConfig.shared.journal[7], List.getElem_mem _, writes, ?_⟩
  exact (sync_round_converges lawful OpLog.reference_exchanges_reference
    SerdeJson.flat_faithful coherent_empty editedConfig_reachable
    Answered.asked_mem_answers rfl rfl received offlineVv_encodes rfl decodes
    edited edits rfl Answered.editPushed_mem_answers rfl rfl rfl cut reads writes
    (by rw [written]; rfl) (fun entry member deletes => spared entry member deletes.1)).2
      spared

end VaultCrdtServer
