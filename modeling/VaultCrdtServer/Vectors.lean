import VaultCrdtServer.Broadcast
import VaultCrdtServer.Listing
import VaultCrdtServer.Sequential

/-!
# Version vectors

The vector of a document is stored beside its snapshot, and reported in three
places: a listing decodes the column, `SyncStart` imports the snapshot, and a
broadcast carries what the write has merged.  All of them tell the same vector.
-/

namespace VaultCrdtServer

open Interleaving

variable {Blob : Type}

/-! ## What the libraries keep -/

/-- Documents made by importing blobs one after the other. -/
inductive Loro.Built (loro : Loro Blob) : loro.Doc → Prop
  | new : Built loro loro.new
  | imported {doc doc' : loro.Doc} {blob : Blob}
      (base : Built loro doc)
      (imports : loro.importBlob doc blob = .ok doc') :
      Built loro doc'

/-- The documented behaviour of the libraries the vectors rest on. -/
structure Libraries.KeepVectors (libraries : Libraries Blob) : Prop where
  /-- `export(Snapshot)` followed by `import` preserves `oplog_vv`. -/
  exported : ∀ doc snapshot, libraries.loro.Built doc →
    libraries.loro.exportSnapshot doc = .ok snapshot →
      ∃ imported, libraries.loro.importBlob libraries.loro.new snapshot = .ok imported ∧
        libraries.loro.oplogVv imported = libraries.loro.oplogVv doc
  /-- `decode` undoes `encode`. -/
  decoded : ∀ vv, libraries.loro.decodeVv (libraries.loro.encodeVv vv) = .ok vv
  /-- `serde_json` writes a map as an object, from its opening brace on. -/
  objects : ∀ entries, (libraries.json.toVec entries).head? = some 123

/-- A merge ends in a document that was built by imports. -/
theorem Loro.Built.of_opens
    {loro : Loro Blob}
    {base : Option Blob}
    {doc : loro.Doc}
    (opens : loro.Opens base doc) :
    loro.Built doc := by
  cases base with
  | none =>
      obtain rfl := opens
      exact .new
  | some snapshot => exact .imported .new opens

section Rows

variable {libraries : Libraries Blob} {now : Time}
variable {db : Db Blob} {path : DocPath} {row : DocumentRow Blob} {vv : VersionVector}

/-- Both columns of a row tell the same version vector. -/
structure DocumentRow.Tells
    (libraries : Libraries Blob)
    (row : DocumentRow Blob)
    (vv : VersionVector) : Prop where
  snapshot : ∃ doc, libraries.loro.importBlob libraries.loro.new row.snapshotBlob = .ok doc ∧
    libraries.loro.oplogVv doc = vv
  vvBlob : libraries.loro.decodeVv row.vvBlob = .ok vv

/-- Every row of the database tells a version vector. -/
def Db.TellsVectors (libraries : Libraries Blob) (db : Db Blob) : Prop :=
  ∀ path row, db.documents.lookup path = some row → ∃ vv, row.Tells libraries vv

/-- A merged row tells the vector of the merge. -/
theorem Merges.tells
    (keeps : libraries.KeepVectors)
    {base : Option Blob}
    {incoming : Blob}
    (merges : Merges libraries.loro base incoming row.snapshotBlob row.vvBlob) :
    ∃ vv, row.Tells libraries vv := by
  obtain ⟨label, merged, merge, snapshot, vvBlob⟩ := merges
  obtain ⟨opened, doc, opens, imports, exported, vv⟩ := mergeSnapshot_eq_ok_iff.mp merge
  have built : libraries.loro.Built doc := .imported (.of_opens opens) imports
  obtain ⟨imported, importedFrom, same⟩ := keeps.exported doc _ built exported
  refine ⟨merged.vv, ⟨imported, ?_, same.trans vv.symm⟩, ?_⟩
  · rwa [snapshot]
  · rw [vvBlob, keeps.decoded]

/-- Every justified call keeps the columns together. -/
theorem Db.TellsVectors.step
    (keeps : libraries.KeepVectors)
    {entry : JournalEntry Blob}
    (tells : entry.before.TellsVectors libraries)
    (justified : DbCall.Justified libraries.loro entry.before entry.call)
    (effect : DbCall.Effect libraries now entry.before entry.call entry.reply
      entry.after) :
    entry.after.TellsVectors libraries := by
  intro path row live
  by_cases written : entry.committed = some path
  · rcases stores_or_removes justified effect written with ⟨incoming, stores⟩ | removed
    · obtain ⟨row', live', merges⟩ := row_of_stores effect stores
      obtain rfl := Option.some.inj (live.symm.trans live')
      exact merges.tells keeps
    · cases removed.symm.trans live
  · rw [effect.documents_frame written] at live
    exact tells path row live

/-- What is stored with a reported vector. -/
theorem row_of_reports
    {entry : JournalEntry Blob}
    {serverVv : Bytes}
    (effect : DbCall.Effect libraries now entry.before entry.call entry.reply entry.after)
    (reports : entry.Reports libraries serverVv)
    (committed : entry.committed = some path) :
    ∃ row vv, entry.after.documents.lookup path = some row ∧
      row.vvBlob = libraries.loro.encodeVv vv ∧
      serverVv = vvToJsonBytes libraries.json vv := by
  obtain ⟨origin, call, reply, before, after⟩ := entry
  obtain ⟨written, snapshot, vv, rfl, rfl | rfl⟩ := reports
  · change DbCall.Effect libraries now before
      (.storeSnapshotWithVv written snapshot _) reply after at effect
    cases committed
    cases effect with
    | read isRead => cases isRead
    | kept live => exact ⟨_, vv, AList.lookup_insert _, rfl, rfl⟩
    | established absent room => exact ⟨_, vv, AList.lookup_insert _, rfl, rfl⟩
  · change DbCall.Effect libraries now before
      (.storeSnapshotReplacingTombstone written snapshot _) reply after at effect
    cases committed
    cases effect with
    | read isRead => cases isRead
    | replaced room => exact ⟨_, vv, AList.lookup_insert _, rfl, rfl⟩

/-! ## Replies -/

/-- A path is listed with the vector of its row. -/
theorem DocumentRow.Tells.listed
    (tells : row.Tells libraries vv)
    (live : db.documents.lookup path = some row)
    {entry : DocEntry}
    (listed : entry ∈ db.listDocsWithVv libraries path.vault)
    (same : entry.docUuid = path.doc) :
    entry.serverVv = vvToJsonBytes libraries.json vv := by
  simp only [Db.listDocsWithVv, List.mem_map, Prod.exists, Table.mem_select_iff,
    decide_eq_true_eq] at listed
  obtain ⟨⟨vault, doc⟩, row', ⟨live', rfl⟩, rfl⟩ := listed
  obtain rfl : doc = path.doc := same
  obtain rfl := Option.some.inj (live.symm.trans live')
  simp only [tells.vvBlob]

/-- The sentinel is not among what is listed. -/
theorem Db.TellsVectors.unmarked
    (keeps : libraries.KeepVectors)
    (tells : db.TellsVectors libraries)
    {vault : String}
    {entry : DocEntry}
    (listed : entry ∈ db.listDocsWithVv libraries vault) :
    entry.serverVv ≠ invalidVvSentinelJson := by
  simp only [Db.listDocsWithVv, List.mem_map, Prod.exists, Table.mem_select_iff,
    decide_eq_true_eq] at listed
  obtain ⟨path, row, ⟨live, rfl⟩, rfl⟩ := listed
  obtain ⟨vv, tells⟩ := tells path row live
  simp only [tells.vvBlob]
  intro marked
  have brace := keeps.objects
    ((VersionVector.entries vv).map fun entry => (toString entry.1, entry.2))
  rw [← vvToJsonBytes, marked] at brace
  exact absurd brace (by decide +kernel)

/-- A frame alone: what its handler computes, and the request id echoed. -/
theorem processAlone_of_ok
    {frame : Frame Blob}
    {msg : ClientMsg Blob}
    (asked : frame.decoded = .ok msg)
    (vaultId : String)
    (connId : Nat) :
    (processAlone libraries now frame vaultId connId db).1 =
      finishAnswer (requestIdOf (.ok msg))
        ((processInner libraries msg vaultId connId).alone libraries now db).1 := by
  unfold processAlone processMessage
  rw [asked, Program.bind_eq_bind, Program.run_bind]
  rfl

/-- A listing alone shows the database it finds. -/
theorem requestDocList_alone
    {frame : Frame Blob}
    (asked : frame.decoded = .ok .requestDocList)
    (vaultId : String)
    (connId : Nat) :
    (processAlone libraries now frame vaultId connId db).1 =
      (.docList (db.listDocsWithVv libraries vaultId) (db.listTombstones vaultId)
        (db.listTombstonesWithHash vaultId), none) := by
  rw [processAlone_of_ok asked]
  rfl

/-- The read of a `SyncStart` alone finds the row. -/
theorem getSnapshot_alone
    (libraries : Libraries Blob)
    (now : Time)
    (live : db.documents.lookup path = some row) :
    Handler.alone (α := Option (Blob × Int)) libraries now
        (dbCall (.getSnapshotWithIncarnation path)) db =
      (.ok (some (row.snapshotBlob, row.incarnation)), db) := by
  have read : db.getSnapshotWithIncarnation path = some (row.snapshotBlob, row.incarnation) := by
    rw [Db.getSnapshotWithIncarnation, live, Option.map_some]
  rw [← read]
  rfl

/-- A `SyncStart` without a vector alone is answered with the snapshot and its
vector. -/
theorem DocumentRow.Tells.answered
    (tells : row.Tells libraries vv)
    (live : db.documents.lookup path = some row)
    {frame : Frame Blob}
    (asked : frame.decoded = .ok (.syncStart path.doc none))
    (short : path.doc.utf8ByteSize ≤ maxDocUuidBytes)
    {connId : Nat} :
    (processAlone libraries now frame path.vault connId db).1.1 =
      .syncDelta path.doc row.snapshotBlob (vvToJsonBytes libraries.json vv)
        (some row.incarnation) := by
  obtain ⟨doc, imports, rfl⟩ := tells.snapshot
  have identifiers :
      checkIdentifiers (.syncStart path.doc none : ClientMsg Blob) = .ok () :=
    if_neg (Nat.not_lt.mpr short)
  rw [processAlone_of_ok asked]
  unfold processInner
  simp only [alone_bind, alone_ofExcept, identifiers, handleSyncStart,
    getSnapshot_alone libraries now live, imports, labelled,
    alone_pure, finishAnswer]

/-- A `SyncStart` alone reports the vector of the snapshot it finds, whichever
delta it sends. -/
theorem DocumentRow.Tells.started
    (tells : row.Tells libraries vv)
    (live : db.documents.lookup path = some row)
    {frame : Frame Blob}
    {clientVv : Option Bytes}
    (asked : frame.decoded = .ok (.syncStart path.doc clientVv))
    {connId : Nat}
    {docUuid : String}
    {delta : Blob}
    {serverVv : Bytes}
    {incarnation : Option Int}
    (answered : (processAlone libraries now frame path.vault connId db).1.1 =
      .syncDelta docUuid delta serverVv incarnation) :
    serverVv = vvToJsonBytes libraries.json vv := by
  obtain ⟨doc, imports, rfl⟩ := tells.snapshot
  rw [processAlone_of_ok asked] at answered
  have queried := getSnapshot_alone libraries now live
  unfold processInner at answered
  rw [alone_bind, alone_ofExcept] at answered
  cases identifiers : checkIdentifiers (.syncStart path.doc clientVv : ClientMsg Blob) with
  | error error => simp [identifiers, finishAnswer] at answered
  | ok checked =>
      simp only [identifiers, handleSyncStart, alone_bind, queried, alone_ofExcept,
        imports, labelled] at answered
      cases clientVv with
      | none =>
          simp only [alone_pure, finishAnswer, ServerMsg.syncDelta.injEq] at answered
          exact answered.2.2.1.symm
      | some bytes =>
          simp only [alone_bind, alone_ofExcept] at answered
          cases decoded : vvFromJsonBytes libraries.json bytes with
          | error error => simp [decoded, finishAnswer] at answered
          | ok client =>
              cases exported : libraries.loro.exportUpdates doc client with
              | error reason => simp [decoded, exported, finishAnswer] at answered
              | ok delta' =>
                  simp only [decoded, exported, alone_pure, finishAnswer,
                    ServerMsg.syncDelta.injEq] at answered
                  exact answered.2.2.1.symm

end Rows

/-! ## Broadcasts -/

/-- The event sent for a store carries the vector the store has written. -/
theorem Recorded.carries_vector
    {settings : Settings Blob}
    {initial : Db Blob}
    {server : Server Blob}
    (recorded : Recorded settings initial server)
    {sent : Sent Blob}
    {id : FrameId}
    (announced : sent ∈ server.sentFor id)
    {entry : JournalEntry Blob}
    (own : entry ∈ server.entriesOf id)
    {path : DocPath}
    (committed : entry.committed = some path)
    (remains : ¬ entry.Deletes path) :
    ∃ blob peerId serverVv granted,
      sent.event = .delta path.vault path.doc blob peerId id.connId serverVv granted ∧
      entry.Reports settings.toLibraries serverVv := by
  obtain ⟨inChannel, sentFor⟩ := List.mem_filter.mp announced
  obtain ⟨answered, given⟩ := List.exists_mem_of_ne_nil _
    (recorded.sent sent inChannel id (by simpa using sentFor))
  have origin := Recorded.origin_of_mem_answersTo given
  obtain ⟨_, broadcast, settled, once⟩ :=
    recorded.reported answered (List.mem_of_mem_filter given)
  rw [origin] at settled once
  rcases once with unsent | ⟨event, rfl, sentOnce⟩
  · rw [unsent] at announced
    cases announced
  rw [sentOnce, List.mem_singleton] at announced
  rw [show sent.event = event from congrArg Sent.event announced]
  generalize server.entriesOf id = entries at settled own
  generalize answered.response = response at settled
  cases settled with
  | stored asked submits readsFirst made stores reports =>
      obtain rfl := eq_of_committed readsFirst own (by rw [committed]; rfl)
      obtain rfl := Option.some.inj (committed.symm.trans stores.committed)
      exact ⟨_, _, _, _, rfl, reports⟩
  | @deleted _ _ _ _ _ _ reads outcome before after asked readsFirst buried =>
      obtain rfl := eq_of_committed readsFirst own (by rw [committed]; rfl)
      cases outcome with
      | rejected live => cases buried
      | deleted | idempotentNoLive =>
          cases committed
          exact absurd ⟨rfl, _, _, rfl⟩ remains

/-- A delete leaves no row. -/
theorem absent_of_deletes
    {libraries : Libraries Blob}
    {now : Time}
    {entry : JournalEntry Blob}
    {path : DocPath}
    (effect : DbCall.Effect libraries now entry.before entry.call entry.reply entry.after)
    (deletes : entry.Deletes path) :
    entry.after.documents.lookup path = none := by
  obtain ⟨committed, deletedBy, expected, called⟩ := deletes
  obtain ⟨origin, call, reply, before, after⟩ := entry
  obtain rfl : call = .deleteDocGuarded path deletedBy expected := called
  change DbCall.Effect libraries now before (.deleteDocGuarded path deletedBy expected)
    reply after at effect
  cases effect with
  | read isRead => cases isRead
  | removed | absent => exact AList.lookup_erase path _
  | rejected => cases committed

/-- A path keeps its row while no call writes to it. -/
theorem History.documents_eq
    {libraries : Libraries Blob}
    {initial db : Db Blob}
    {journal : List (JournalEntry Blob)}
    {path : DocPath}
    (history : History libraries initial journal db)
    (unwritten : ∀ entry ∈ journal, entry.committed ≠ some path) :
    db.documents.lookup path = initial.documents.lookup path := by
  refine history.preserves
    (motive := fun db => db.documents.lookup path = initial.documents.lookup path) ?_ rfl
  intro entry now member same _ effect
  rw [effect.documents_frame (unwritten entry member)]
  exact same

/-! ## Agreement -/

/-- The call is the last one that has written to the path. -/
def LastWrite
    (path : DocPath)
    (entry : JournalEntry Blob)
    (journal : List (JournalEntry Blob)) : Prop :=
  ∃ front back, journal = front ++ entry :: back ∧ entry.committed = some path ∧
    ∀ later ∈ back, later.committed ≠ some path

/-- Everything the server says about the version vector of a path. -/
structure VectorsAgree
    (libraries : Libraries Blob)
    (server : Server Blob)
    (path : DocPath)
    (row : DocumentRow Blob)
    (vv : VersionVector) : Prop where
  /-- The column decodes to the vector of the snapshot. -/
  stored : row.Tells libraries vv
  /-- So `RequestDocList` lists it, and nothing it lists is marked invalid. -/
  listed : ∀ now (frame : Frame Blob) connId docs tombstones hashes,
    frame.decoded = .ok .requestDocList →
    (processAlone libraries now frame path.vault connId server.db).1.1 =
      .docList docs tombstones hashes →
    (∃ entry ∈ docs, entry.docUuid = path.doc) ∧
      ∀ entry ∈ docs, entry.serverVv ≠ invalidVvSentinelJson ∧
        (entry.docUuid = path.doc →
          entry.serverVv = vvToJsonBytes libraries.json vv)
  /-- `SyncStart` returns it, with and without a vector of the client's. -/
  started : ∀ now (frame : Frame Blob) connId clientVv docUuid delta serverVv incarnation,
    frame.decoded = .ok (.syncStart path.doc clientVv) →
    (processAlone libraries now frame path.vault connId server.db).1.1 =
      .syncDelta docUuid delta serverVv incarnation →
    serverVv = vvToJsonBytes libraries.json vv
  /-- Without a vector of the client's it always does. -/
  answered : ∀ now (frame : Frame Blob) connId,
    frame.decoded = .ok (.syncStart path.doc none) →
    path.doc.utf8ByteSize ≤ maxDocUuidBytes →
    (processAlone libraries now frame path.vault connId server.db).1.1 =
      .syncDelta path.doc row.snapshotBlob (vvToJsonBytes libraries.json vv)
        (some row.incarnation)
  /-- What was broadcast of the last write carries it. -/
  broadcast : ∀ entry, LastWrite path entry server.journal →
    ∀ id, entry.origin = some id → ∀ sent ∈ server.sentFor id,
      ∃ blob peerId granted, sent.event = .delta path.vault path.doc blob peerId
        id.connId (vvToJsonBytes libraries.json vv) granted

/-- In every reachable state of a server that started on an empty database each
document has one version vector, which its row stores and the server reports. -/
theorem version_vectors_agree
    {settings : Settings Blob}
    {config : (serverMachine settings).Config}
    (keeps : settings.KeepVectors)
    (reachable : Reachable settings Db.empty config)
    {path : DocPath}
    {row : DocumentRow Blob}
    (live : config.shared.db.documents.lookup path = some row) :
    ∃ vv, VectorsAgree settings.toLibraries config.shared path row vv := by
  have everyRow : config.shared.db.TellsVectors settings.toLibraries :=
    reachable.history.preserves
      (fun _ tells justified effect => tells.step keeps justified effect)
      fun _ _ found => nomatch found
  obtain ⟨vv, tells⟩ := everyRow path row live
  refine ⟨vv, tells, ?_, ?_, ?_, ?_⟩
  · intro now frame connId docs tombstones hashes asked answered
    rw [requestDocList_alone asked, ServerMsg.docList.injEq] at answered
    obtain ⟨rfl, _, _⟩ := answered
    refine ⟨?_, ?_⟩
    · exact exists_mem_listDocsWithVv_iff.mpr (by rw [live]; rfl)
    · intro entry listed
      exact ⟨everyRow.unmarked keeps listed, tells.listed live listed⟩
  · intro now frame connId clientVv docUuid delta serverVv incarnation asked answered
    exact tells.started live asked answered
  · exact fun now frame connId asked short => tells.answered live asked short
  · intro entry last id own sent announced
    obtain ⟨front, back, journal, committed, unwritten⟩ := last
    have history := reachable.history
    rw [journal] at history
    obtain ⟨_, since, _, _, effect⟩ := history.at_entry
    have kept := since.documents_eq unwritten
    rw [live] at kept
    have remains : ¬ entry.Deletes path := by
      intro deletes
      rw [absent_of_deletes effect deletes] at kept
      cases kept
    obtain ⟨blob, peerId, serverVv, granted, event, reports⟩ :=
      reachable.recorded.carries_vector announced
        (List.mem_filter.mpr ⟨by simp [journal], by simp [own]⟩) committed remains
    obtain ⟨row', vv', live', vvBlob, rfl⟩ := row_of_reports effect reports committed
    obtain rfl := Option.some.inj (kept.trans live')
    have decoded := tells.vvBlob
    rw [vvBlob, keeps.decoded, Except.ok.injEq] at decoded
    exact ⟨blob, peerId, granted, decoded ▸ event⟩

/-! ## The reference server -/

/-- Documents built by imports have applied a closed set of operations. -/
theorem OpLog.Lawful.closed_of_built
    {loro : Loro Blob}
    {log : OpLog loro}
    (lawful : log.Lawful)
    {doc : loro.Doc}
    (built : loro.Built doc) :
    CausalHistory.Closed log.deps (log.applied doc) := by
  induction built with
  | new =>
      rw [lawful.applied_new]
      exact CausalHistory.closed_empty
  | imported base imports inductionHypothesis =>
      obtain ⟨ops, _, applied, _⟩ := lawful.import_applies _ _ _ imports
      rw [applied]
      exact CausalHistory.integrate_closed inductionHypothesis

/-- A lawful library keeps the vector of what it exports. -/
theorem OpLog.Lawful.oplogVv_exported
    {loro : Loro Blob}
    {log : OpLog loro}
    (lawful : log.Lawful)
    {doc : loro.Doc}
    {snapshot : Blob}
    (built : loro.Built doc)
    (exported : loro.exportSnapshot doc = .ok snapshot) :
    ∃ imported, loro.importBlob loro.new snapshot = .ok imported ∧
      loro.oplogVv imported = loro.oplogVv doc := by
  obtain ⟨snapshot', exported', carries⟩ := lawful.export_snapshot doc
  obtain rfl := Except.ok.inj (exported.symm.trans exported')
  obtain ⟨imported, imports⟩ := lawful.import_succeeds loro.new snapshot _ carries
  refine ⟨imported, imports, lawful.oplogVv_congr ?_⟩
  obtain ⟨ops, carries', applied, _⟩ := lawful.applied_import_new imports
  obtain rfl := Option.some.inj (carries.symm.trans carries')
  rw [applied, CausalHistory.integrate_empty_of_closed lawful.acyclic
    (lawful.closed_of_built built)]

/-- The list of a byte array starts with what was taken first. -/
theorem head?_toList_loop
    (bytes : ByteArray)
    (index : Nat)
    (taken : List UInt8)
    (nonempty : taken ≠ []) :
    (ByteArray.toList.loop bytes index taken).head? = taken.getLast? := by
  fun_induction ByteArray.toList.loop bytes index taken with
  | case1 index taken inside inductionHypothesis =>
      rw [inductionHypothesis (by simp), List.getLast?_cons_of_ne_nil nonempty]
  | case2 index taken outside => rw [List.head?_reverse]

/-- The first byte of a text that starts with a brace. -/
theorem head?_toUTF8_brace (text : String) :
    ("\x7b" ++ text).toUTF8.toList.head? = some 123 := by
  have opened : ("\x7b" ++ text).toUTF8.data.toList = 123 :: text.toUTF8.data.toList := by
    rw [String.toUTF8_eq_toByteArray, String.toByteArray_append,
      ByteArray.toList_data_append]
    rfl
  have starts : ("\x7b" ++ text).toUTF8.get! 0 = 123 := by
    change ("\x7b" ++ text).toUTF8.data[0]! = 123
    rw [← Array.getElem!_toList, opened]
    rfl
  have size : 0 < ("\x7b" ++ text).toUTF8.size := by
    change 0 < ("\x7b" ++ text).toUTF8.data.size
    rw [← Array.length_toList, opened]
    simp
  unfold ByteArray.toList ByteArray.toList.loop
  rw [if_pos size, head?_toList_loop _ _ _ (by simp), starts]
  rfl

/-- The reference libraries behave as documented. -/
theorem Settings.reference_keepVectors : Settings.reference.KeepVectors where
  exported := fun _ _ built exported =>
    (OpLog.reference_lawful .reference).oplogVv_exported built exported
  decoded := fun _ => rfl
  objects := by
    intro entries
    simp only [Settings.reference, SerdeJson.reference, String.append_assoc]
    apply head?_toUTF8_brace

/-- A document is pushed by one connection and extended by another. -/
def Schedule.extended : Schedule :=
  connects 0 "a" ++ connects 1 "b" ++ serves 0 (.push [⟨1, 0⟩]) 7 ++
    serves 1 (.create [⟨1, 0⟩, ⟨1, 1⟩] false) 6

theorem Schedule.extended_enabled : Schedule.extended.Enabled := by
  decide +kernel

/-- The row of the extended document. -/
def DocumentRow.extended : DocumentRow ReferenceBlob where
  snapshotBlob := .updates [⟨1, 0⟩, ⟨1, 1⟩]
  vvBlob := .version (versionOf [⟨1, 0⟩, ⟨1, 1⟩])
  updatedAt := 0
  incarnation := 1

theorem version_vectors_agree_extended :
    ∃ vv, VectorsAgree Settings.reference.toLibraries
      (Schedule.extended.config Schedule.extended_enabled).shared ⟨"v", "d"⟩
      .extended vv :=
  version_vectors_agree Settings.reference_keepVectors
    (Schedule.reachable Schedule.extended_enabled) rfl

end VaultCrdtServer
