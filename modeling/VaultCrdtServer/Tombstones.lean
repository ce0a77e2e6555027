import VaultCrdtServer.Broadcast
import VaultCrdtServer.Merge

/-!
# Content hashes of tombstones

A tombstone proves which text was deleted: its hash is that of the snapshot
which the delete that created the tombstone removed.  Deletes of the path that
follow keep the hash, and every announcement of a delete carries it.
-/

namespace VaultCrdtServer

open Interleaving

variable {Blob : Type}

/-- The snapshots the server exports can be imported. -/
def Loro.ExportsImport (loro : Loro Blob) : Prop :=
  ∀ doc snapshot, loro.exportSnapshot doc = .ok snapshot →
    ∃ imported, loro.importBlob loro.new snapshot = .ok imported

/-- A lawful library imports what it exports. -/
theorem OpLog.Lawful.exportsImport
    {loro : Loro Blob}
    {log : OpLog loro}
    (lawful : log.Lawful) :
    loro.ExportsImport := by
  intro doc snapshot exported
  obtain ⟨snapshot', exported', carries⟩ := lawful.export_snapshot doc
  obtain rfl : snapshot' = snapshot := Except.ok.inj (exported'.symm.trans exported)
  exact lawful.import_succeeds _ _ _ carries

/-- The hash is that of the live document's text, or absent where no document
is live. -/
def Db.HashesLive
    (loro : Loro Blob)
    (db : Db Blob)
    (path : DocPath)
    (contentHash : Option String) : Prop :=
  match db.liveSnapshot path with
  | none => contentHash = none
  | some snapshot => ∃ imported, loro.importBlob loro.new snapshot = .ok imported ∧
      contentHash = some (fnv1a64Hex (loro.contentText imported))

/-- The hash a tombstone of the path stores. -/
def Db.StoresHash
    (db : Db Blob)
    (path : DocPath)
    (contentHash : Option String) : Prop :=
  ∃ row, db.tombstones.lookup path = some row ∧ row.contentHash = contentHash

/-- A delete has created the tombstone of a path with the given hash, the path
has been tombstoned ever since, and the hash is that of what was deleted. -/
def Buried
    (loro : Loro Blob)
    (path : DocPath)
    (contentHash : Option String)
    (journal : List (JournalEntry Blob)) : Prop :=
  ∃ front creating back, journal = front ++ creating :: back ∧
    creating.Deletes path ∧
    creating.before.tombstones.lookup path = none ∧
    (∀ later ∈ creating :: back, (later.after.tombstones.lookup path).isSome = true) ∧
    creating.before.HashesLive loro path contentHash

/-- What a server says about the hashes of its tombstones. -/
structure HashesProved (loro : Loro Blob) (server : Server Blob) : Prop where
  /-- A tombstone's hash is that of what its first delete removed. -/
  buried : ∀ path row, server.db.tombstones.lookup path = some row →
    Buried loro path row.contentHash server.journal
  /-- A delete of a path that is tombstoned keeps the hash. -/
  kept : ∀ entry ∈ server.journal, ∀ path contentHash, entry.Deletes path →
    entry.before.StoresHash path contentHash →
      entry.after.StoresHash path contentHash
  /-- The event sent for an accepted delete carries the hash it left. -/
  announced : ∀ entry ∈ server.journal, ∀ path id, entry.Deletes path →
    entry.origin = some id → ∀ sent ∈ server.sentFor id, ∃ contentHash,
      sent.event = .delete path.vault path.doc id.connId contentHash ∧
        entry.after.StoresHash path contentHash
  /-- So does every message a client has received. -/
  received : ∀ connId connection docUuid contentHash,
    server.connections connId = some connection →
    .docDeleted docUuid contentHash ∈ connection.wire →
      ∃ entry ∈ server.journal, entry.Deletes ⟨connection.vaultId, docUuid⟩ ∧
        entry.after.StoresHash ⟨connection.vaultId, docUuid⟩ contentHash

/-! ## Snapshots import -/

/-- Every live snapshot can be imported. -/
def Importable (loro : Loro Blob) (db : Db Blob) : Prop :=
  ∀ path snapshot, db.liveSnapshot path = some snapshot →
    ∃ imported, loro.importBlob loro.new snapshot = .ok imported

section Hashes

variable {settings : Settings Blob} {libraries : Libraries Blob} {now : Time}
variable {initial db db' : Db Blob} {journal : List (JournalEntry Blob)}
variable {call : DbCall Blob} {reply : call.Reply} {path : DocPath}
variable {server : Server Blob}

/-- What a store merges was exported. -/
theorem Merges.imports
    {loro : Loro Blob}
    (exportsImport : loro.ExportsImport)
    {base : Option Blob}
    {incoming snapshot vvBlob : Blob}
    (merges : Merges loro base incoming snapshot vvBlob) :
    ∃ imported, loro.importBlob loro.new snapshot = .ok imported := by
  obtain ⟨label, merged, merge, rfl, _⟩ := merges
  obtain ⟨_, doc, _, _, exported, _⟩ := mergeSnapshot_eq_ok_iff.mp merge
  exact exportsImport doc _ exported

/-- Rows that are written are exports, the others stay. -/
theorem Importable.step
    (exportsImport : libraries.loro.ExportsImport)
    (importable : Importable libraries.loro db)
    (justified : DbCall.Justified libraries.loro db call)
    (effect : DbCall.Effect libraries now db call reply db') :
    Importable libraries.loro db' := by
  intro path snapshot live
  by_cases written : call.committed reply = some path
  · cases effect with
    | kept =>
        cases written
        obtain ⟨⟨incoming, merges⟩, _⟩ := justified
        simp only [Db.liveSnapshot, Db.putDocument, AList.lookup_insert, Option.map_some,
          Option.some.injEq] at live
        exact live ▸ merges.imports exportsImport
    | established =>
        cases written
        obtain ⟨⟨incoming, merges⟩, _⟩ := justified
        simp only [Db.liveSnapshot, Db.putDocument, AList.lookup_insert, Option.map_some,
          Option.some.injEq] at live
        exact live ▸ merges.imports exportsImport
    | replaced =>
        cases written
        obtain ⟨incoming, merges⟩ := justified
        simp only [Db.liveSnapshot, Db.putDocument, AList.lookup_insert, Option.map_some,
          Option.some.injEq] at live
        exact live ▸ merges.imports exportsImport
    | removed | absent =>
        cases written
        simp [Db.liveSnapshot] at live
    | read isRead => exact importable path snapshot live
    | rejected | peerUpserted | tombstonesExpired | peersExpired => cases written
  · rw [Db.liveSnapshot, effect.documents_frame written] at live
    exact importable path snapshot live

/-! ## The delete that created a tombstone -/

/-- A live document's hash is the one a delete computes. -/
theorem hashesLive_of_live
    (importable : Importable libraries.loro db)
    {row : DocumentRow Blob}
    (live : db.documents.lookup path = some row) :
    db.HashesLive libraries.loro path
      (Db.contentHashFromSnapshotBlob libraries.loro row.snapshotBlob) := by
  have snapshot : db.liveSnapshot path = some row.snapshotBlob := by
    rw [Db.liveSnapshot, live, Option.map_some]
  obtain ⟨imported, imports⟩ := importable path _ snapshot
  unfold Db.HashesLive
  rw [snapshot]
  exact ⟨imported, imports, by rw [Db.contentHashFromSnapshotBlob, imports]⟩

/-- A path that stays tombstoned stays buried. -/
theorem Buried.concat
    {loro : Loro Blob}
    {contentHash : Option String}
    {entry : JournalEntry Blob}
    (buried : Buried loro path contentHash journal)
    (tombstoned : (entry.after.tombstones.lookup path).isSome = true) :
    Buried loro path contentHash (journal ++ [entry]) := by
  obtain ⟨front, creating, back, rfl, deletes, before, since, hashes⟩ := buried
  refine ⟨front, creating, back ++ [entry], by simp, deletes, before, ?_, hashes⟩
  intro later member
  rw [← List.cons_append, List.mem_append, List.mem_singleton] at member
  rcases member with earlier | rfl
  · exact since later earlier
  · exact tombstoned

/-- A delete buries a path that was not tombstoned. -/
theorem Buried.create
    {loro : Loro Blob}
    {contentHash : Option String}
    {entry : JournalEntry Blob}
    (deletes : entry.Deletes path)
    (before : entry.before.tombstones.lookup path = none)
    (after : (entry.after.tombstones.lookup path).isSome = true)
    (hashes : entry.before.HashesLive loro path contentHash) :
    Buried loro path contentHash (journal ++ [entry]) := by
  refine ⟨journal, entry, [], rfl, deletes, before, ?_, hashes⟩
  intro later member
  rw [List.mem_singleton] at member
  exact member ▸ after

/-- The deletes of a history have buried what is tombstoned. -/
theorem History.buried
    (exportsImport : libraries.loro.ExportsImport)
    (history : History libraries Db.empty journal db) :
    Exclusive db ∧ Importable libraries.loro db ∧
      ∀ path row, db.tombstones.lookup path = some row →
        Buried libraries.loro path row.contentHash journal := by
  induction history with
  | start => exact ⟨fun _ => Or.inl rfl, fun _ _ live => (nomatch live),
      fun _ _ tombstoned => (nomatch tombstoned)⟩
  | @commit journal db origin call reply db' now earlier justified executed
      inductionHypothesis =>
      obtain ⟨exclusive, importable, buried⟩ := inductionHypothesis
      have effect := DbCall.effect_of_exec executed
      refine ⟨exclusive.step justified effect,
        importable.step exportsImport justified effect, ?_⟩
      intro path row tombstoned
      have after : (db'.tombstones.lookup path).isSome = true := by
        rw [tombstoned, Option.isSome_some]
      by_cases written : call.committed reply = some path
      · cases effect with
        | read isRead => exact (buried path row tombstoned).concat after
        | kept live =>
            cases written
            have none := (exclusive path).resolve_left (by simp [live])
            cases none.symm.trans tombstoned
        | established absent =>
            cases written
            cases (justified.2 absent).symm.trans tombstoned
        | replaced =>
            cases written
            cases (AList.lookup_erase path _).symm.trans tombstoned
        | @removed _ _ _ removedRow hidden live matching tombstone =>
            cases written
            have none := (exclusive path).resolve_left (by simp [live])
            obtain rfl := Option.some.inj ((AList.lookup_insert _).symm.trans tombstoned)
            refine .create ⟨rfl, _, _, rfl⟩ none after ?_
            rw [tombstone, none]
            exact hashesLive_of_live importable live
        | @absent _ _ _ hidden absent matching tombstone =>
            cases written
            obtain rfl := Option.some.inj ((AList.lookup_insert _).symm.trans tombstoned)
            cases earlier : db.tombstones.lookup path with
            | none =>
                refine .create ⟨rfl, _, _, rfl⟩ earlier after ?_
                simp [Db.HashesLive, Db.liveSnapshot, absent, tombstone, earlier,
                  Db.buriedRow]
            | some old =>
                have same : hidden.contentHash = old.contentHash := by
                  simp [tombstone, earlier, Db.buriedRow]
                rw [same]
                exact (buried path old earlier).concat after
        | rejected | peerUpserted | tombstonesExpired | peersExpired => cases written
      · rcases effect.tombstones_frame written with same | expired
        · exact (buried path row (same.symm.trans tombstoned)).concat after
        · cases expired.symm.trans tombstoned

/-! ## Later deletes and announcements -/

/-- Where nothing is live a delete keeps the hash of the tombstone. -/
theorem Db.StoresHash.kept
    {contentHash : Option String}
    {deletedBy : String}
    {expected : Option Int}
    {outcome : DeleteOutcome}
    (stores : db.StoresHash path contentHash)
    (exclusive : Exclusive db)
    (effect : DbCall.Effect libraries now db (.deleteDocGuarded path deletedBy expected)
      outcome db') :
    db'.StoresHash path contentHash := by
  obtain ⟨row, tombstoned, rfl⟩ := stores
  cases effect with
  | read isRead => cases isRead
  | rejected => exact ⟨row, tombstoned, rfl⟩
  | removed live =>
      have none := (exclusive path).resolve_left (by simp [live])
      cases none.symm.trans tombstoned
  | absent absent matching tombstone =>
      refine ⟨_, AList.lookup_insert _, ?_⟩
      simp [tombstone, tombstoned, Db.buriedRow]

/-- A delete reports the hash it leaves. -/
theorem Db.StoresHash.of_delete
    {contentHash : Option String}
    {deletedBy : String}
    {expected : Option Int}
    {outcome : DeleteOutcome}
    (effect : DbCall.Effect libraries now db (.deleteDocGuarded path deletedBy expected)
      outcome db')
    (buried : outcome.buried = some contentHash) :
    db'.StoresHash path contentHash := by
  cases effect with
  | read isRead => cases isRead
  | rejected => cases buried
  | removed | absent =>
      cases buried
      exact ⟨_, AList.lookup_insert _, rfl⟩

/-- The event sent for a delete carries the hash the delete has left. -/
theorem Recorded.carries_hash
    (recorded : Recorded settings initial server)
    {id : FrameId}
    {entry : JournalEntry Blob}
    (member : entry ∈ server.entriesOf id)
    (deletes : entry.Deletes path)
    {sent : Sent Blob}
    (announced : sent ∈ server.sentFor id) :
    ∃ contentHash,
      sent.event = .delete path.vault path.doc id.connId contentHash ∧
        entry.after.StoresHash path contentHash := by
  obtain ⟨inChannel, origin⟩ := List.mem_filter.mp announced
  obtain ⟨answered, given⟩ := List.exists_mem_of_ne_nil _
    (recorded.sent sent inChannel id (by simpa using origin))
  have origin' := Recorded.origin_of_mem_answersTo given
  obtain ⟨_, broadcast, settled, once⟩ :=
    recorded.reported answered (List.mem_of_mem_filter given)
  rw [origin'] at settled once
  rcases once with unsent | ⟨event, rfl, sentOnce⟩
  · rw [unsent] at announced
    cases announced
  · rw [sentOnce, List.mem_singleton] at announced
    have made : sent.event = event := by rw [announced]
    have committed : entry.committed.isSome = true := by rw [deletes.1, Option.isSome_some]
    obtain ⟨_, deletedBy, expected, called⟩ := deletes
    generalize all : server.entriesOf id = entries at settled member
    generalize answered.response = response at settled
    cases settled with
    | @stored _ _ _ _ _ _ reads last asked submits readsFirst own stores =>
        obtain rfl := eq_of_committed readsFirst member committed
        obtain ⟨_, _, _, stores⟩ := stores
        simp [called] at stores
    | @deleted _ _ _ _ _ contentHash reads outcome before after asked readsFirst buried =>
        obtain rfl := eq_of_committed readsFirst member committed
        obtain ⟨rfl, rfl, rfl⟩ := DbCall.deleteDocGuarded.inj called
        have journaled : _ ∈ server.journal := List.mem_of_mem_filter (all ▸ member)
        obtain ⟨now, effect⟩ := recorded.history.effect_of_mem journaled
        exact ⟨contentHash, made, .of_delete effect buried⟩

/-- A deletion is made of the event of a delete in the client's vault. -/
theorem Server.event_of_docDeleted
    {connId : Nat}
    {connection : Connection Blob}
    {event : BroadcastEvent Blob}
    {docUuid : String}
    {contentHash : Option String}
    (made : Server.forwarded connId connection event =
      some (.docDeleted docUuid contentHash)) :
    ∃ senderConnId,
      event = .delete connection.vaultId docUuid senderConnId contentHash := by
  cases event with
  | delta | blobPathChanged => simp [Server.forwarded] at made
  | delete vaultId docUuid' senderConnId contentHash' =>
      simp only [Server.forwarded, Option.ite_none_right_eq_some, Option.some.injEq,
        ServerMsg.docDeleted.injEq] at made
      obtain ⟨⟨rfl, _⟩, rfl, rfl⟩ := made
      exact ⟨senderConnId, rfl⟩

/-- What a client has received was forwarded from the channel. -/
theorem Delivered.of_mem_wire
    {connId : Nat}
    {connection : Connection Blob}
    {channel : List (Sent Blob)}
    {message : ServerMsg Blob}
    (delivered : Delivered connId connection channel)
    (member : message ∈ connection.wire)
    (isBroadcast : message.isBroadcast = true) :
    ∃ sent ∈ channel, Server.forwarded connId connection sent.event = some message := by
  have passed : message ∈ connection.wire.filter ServerMsg.isBroadcast :=
    List.mem_filter.mpr ⟨member, isBroadcast⟩
  cases delivered with
  | unsubscribed receiving none =>
      rw [List.filter_append, List.append_eq_nil_iff] at none
      rw [none.1] at passed
      cases passed
  | subscribed receiving forwards bounded writing written =>
      obtain ⟨sent, heard, made⟩ := List.mem_filterMap.mp (written.subset passed)
      exact ⟨sent, List.mem_of_mem_take (List.mem_of_mem_drop heard), made⟩

/-- In every reachable state of a server that started on an empty database the
hashes of the tombstones are those of the texts that were deleted. -/
theorem tombstone_hashes_proved
    {config : (serverMachine settings).Config}
    (exportsImport : settings.loro.ExportsImport)
    (reachable : Reachable settings Db.empty config) :
    HashesProved settings.loro config.shared where
  buried := (reachable.history.buried exportsImport).2.2
  kept := by
    intro entry member path contentHash deletes stores
    obtain ⟨front, back, journal⟩ := List.append_of_mem member
    have history := reachable.history
    rw [journal] at history
    obtain ⟨first, _, _, now, effect⟩ := history.at_entry
    obtain ⟨_, deletedBy, expected, called⟩ := deletes
    obtain ⟨origin, call, reply, before, after⟩ := entry
    subst called
    exact stores.kept (first.buried exportsImport).1 effect
  announced := by
    intro entry member path id deletes own sent announced
    exact reachable.recorded.carries_hash
      (List.mem_filter.mpr ⟨member, by simp [own]⟩) deletes announced
  received := by
    intro connId connection docUuid contentHash registered member
    obtain ⟨sent, inChannel, made⟩ :=
      (reachable.receives connId connection registered).of_mem_wire member rfl
    obtain ⟨senderConnId, event⟩ := Server.event_of_docDeleted made
    obtain ⟨id, origin⟩ := reachable.recorded.origin_of_about inChannel
      (by simp [event, BroadcastEvent.about])
    obtain ⟨reads, entry, path, entries, _, _, about, isDelete⟩ :=
      reachable.recorded.announces inChannel origin
    rw [event] at about isDelete
    obtain rfl := Option.some.inj about
    have deletes := isDelete.mp trivial
    have own : entry ∈ config.shared.entriesOf id := by simp [entries]
    obtain ⟨stored, event', stores⟩ := reachable.recorded.carries_hash own deletes
      (List.mem_filter.mpr ⟨inChannel, by simp [origin]⟩)
    obtain ⟨_, _, _, rfl⟩ := BroadcastEvent.delete.inj (event.symm.trans event')
    exact ⟨entry, List.mem_of_mem_filter own, deletes, stores⟩

end Hashes

/-- A document is deleted, and the delete is sent again. -/
def Schedule.replayed : Schedule :=
  connects 0 "a" ++ connects 1 "b" ++ serves 0 (.push [⟨1, 0⟩]) 7 ++
    serves 0 (.delete none) 5 ++ serves 0 (.delete none) 5 ++
    [.environment (.forward 1), .environment (.forward 1), .environment (.forward 1),
      .environment (.write 1), .environment (.write 1), .environment (.write 1)]

theorem Schedule.replayed_enabled : Schedule.replayed.Enabled := by
  decide +kernel

theorem tombstone_hashes_replayed :
    HashesProved Settings.reference.loro
      (Schedule.replayed.config Schedule.replayed_enabled).shared :=
  tombstone_hashes_proved (OpLog.reference_lawful .reference).exportsImport
    (Schedule.reachable Schedule.replayed_enabled)

end VaultCrdtServer
