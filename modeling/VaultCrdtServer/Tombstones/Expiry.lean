import VaultCrdtServer.Foundation.Clock
import VaultCrdtServer.Sessions
import VaultCrdtServer.Tombstones

/-!
# Expiry of tombstones

A tombstone is removed once it is old and every peer of its vault has been seen
since the deletion.  `last_seen_at` is written when a peer connects, before it
is told anything, so a peer counts as soon as its connection has begun.  Where
no such connection is left without a `DocList` until the cleanup comes, every
peer has been told of a deletion when its tombstone is removed.
-/

namespace VaultCrdtServer

open Interleaving

variable {Blob : Type}

/-! ## What a peer has been told -/

/-- The message tells that a document is deleted. -/
def ServerMsg.TellsOf (docUuid : String) : ServerMsg Blob → Prop
  | .docList _ tombstones _ => docUuid ∈ tombstones
  | .docDeleted deleted _ => deleted = docUuid
  | _ => False

/-- A peer has been told of the deletion of a path: the call that deleted it last
was made on a connection of the peer, or a `DocList` with the path among its
tombstones, or a `DocDeleted` for it, has been written to a socket of the peer
since. -/
def Server.ToldOfDeletion (path : DocPath) (key : PeerKey) (server : Server Blob) : Prop :=
  ∃ front deletion back, server.journal = front ++ deletion :: back ∧
    deletion.Deletes path ∧ (∀ later ∈ back, ¬ later.Deletes path) ∧
    ((∃ connId, deletion.connId? = some connId ∧ server.peerOf connId = some key) ∨
      ∃ connId session, server.sessions connId = some session ∧ session.peer = key ∧
        ∃ written ∈ session.written, front.length < written.calls ∧
          written.message.TellsOf path.doc)

section Told

variable (settings : Settings Blob)

/-- Whenever a tombstone is removed by its expiry, every peer of the vault that
has a row has been told of the deletion. -/
def EveryoneTold (labels : List (serverMachine settings).Label) : Prop :=
  ∀ earlier circumstance later config config' path,
    labels = earlier ++ .environment (.expireTombstones circumstance) :: later →
    (serverMachine settings).run earlier (initialConfig settings Db.empty) =
      some config →
    (serverMachine settings).step (.environment (.expireTombstones circumstance)) config =
      some config' →
    (config.shared.db.tombstones.lookup path).isSome = true →
    config'.shared.db.tombstones.lookup path = none →
      ∀ key : PeerKey, key.vault = path.vault →
        (config'.shared.db.peers.lookup key).isSome = true →
          config.shared.ToldOfDeletion path key

end Told

/-! ## Connections that were left without a list -/

/-- The call has deleted the path, as a test. -/
def JournalEntry.deletes (path : DocPath) (entry : JournalEntry Blob) : Bool :=
  match entry.call with
  | .deleteDocGuarded .. => entry.committed = some path
  | _ => false

theorem JournalEntry.deletes_iff
    {path : DocPath}
    {entry : JournalEntry Blob} :
    entry.deletes path = true ↔ entry.Deletes path := by
  obtain ⟨origin, call, reply, before, after⟩ := entry
  cases call with
  | deleteDocGuarded path' deletedBy expected =>
      constructor
      · intro deletes
        have committed := of_decide_eq_true deletes
        obtain rfl : path' = path :=
          Option.some.inj ((DbCall.target_of_committed committed).symm.trans rfl).symm
        exact ⟨committed, _, _, rfl⟩
      · exact fun deletes => decide_eq_true deletes.1
  | _ =>
      refine iff_of_false (fun deletes => by cases deletes) ?_
      rintro ⟨_, _, _, called⟩
      cases called

namespace Server

/-- The peer that has deleted a path last. -/
def deletedFor (path : DocPath) (server : Server Blob) : Option PeerKey :=
  (server.journal.reverse.find? (JournalEntry.deletes path)).bind fun entry =>
    entry.connId?.bind fun connId => server.peerOf connId

/-- The connection that last refreshed a peer's row. -/
def refreshedBy (key : PeerKey) (server : Server Blob) : Option Nat :=
  (server.journal.reverse.find? (JournalEntry.refreshes key)).bind JournalEntry.connId?

/-- To the socket of the connection that last refreshed a peer's row a `DocList` has
been written. -/
def Listed (key : PeerKey) (server : Server Blob) : Prop :=
  ∃ connId ∈ server.refreshedBy key, ∃ session ∈ server.sessions connId,
    ∃ written ∈ session.written, written.message.tombstones?.isSome = true

instance (key : PeerKey) (server : Server Blob) : Decidable (server.Listed key) :=
  inferInstanceAs (Decidable (∃ connId ∈ server.refreshedBy key,
    ∃ session ∈ server.sessions connId, ∃ written ∈ session.written, _))

end Server

/-- When `expire_tombstones` runs, every peer that was seen after a deletion
whose tombstone is past its retention, and has not deleted the document itself,
has been written a `DocList` on the connection it was seen with. -/
def ListedBeforeExpiry
    {settings : Settings Blob} :
    (serverMachine settings).Label → (serverMachine settings).Config → Prop
  | .environment (.expireTombstones circumstance), config =>
      ∀ tombstone ∈ config.shared.db.tombstones.entries,
        ∀ peer ∈ config.shared.db.peers.entries,
          (Db.daysBefore circumstance.now settings.tombstoneDays).any
            (fun limit => tombstone.2.deletedAt < limit) = true →
          peer.1.vault = tombstone.1.vault →
          tombstone.2.deletedAt < peer.2.lastSeenAt →
          config.shared.deletedFor tombstone.1 ≠ some peer.1 →
            config.shared.Listed peer.1
  | _, _ => True

instance
    {settings : Settings Blob}
    (label : (serverMachine settings).Label)
    (config : (serverMachine settings).Config) :
    Decidable (ListedBeforeExpiry label config) :=
  match label with
  | .environment (.expireTombstones _) =>
      inferInstanceAs (Decidable (∀ tombstone ∈ _, ∀ peer ∈ _, _ → _ → _ → _ → _))
  | .environment (.expireStalePeers _) | .environment (.forward _)
  | .environment (.write _) | .environment (.writeFails _)
  | .environment (.blobPathChanged ..)
  | .act .. | .start .. | .finish _ | .abandon _ => isTrue trivial

/-! ## Deletions and connections in order -/

/-- The last call that deleted a path, and the row it has left since. -/
def DeletedLast
    (path : DocPath)
    (row : TombstoneRow)
    (deletion : JournalEntry Blob)
    (back : List (JournalEntry Blob)) : Prop :=
  deletion.Deletes path ∧ (∀ later ∈ back, ¬ later.Deletes path) ∧
    ∀ later ∈ deletion :: back, later.after.tombstones.lookup path = some row

/-- What is stored at a time lies in its past, and a peer seen after a deletion
was seen by a later call. -/
structure Clocked (now : Time) (journal : List (JournalEntry Blob)) (db : Db Blob) :
    Prop where
  lastSeen : ∀ key row, db.peers.lookup key = some row → row.lastSeenAt ≤ now
  deleted : ∀ path row, db.tombstones.lookup path = some row →
    row.deletedAt ≤ now ∧
      ∃ front deletion back, journal = front ++ deletion :: back ∧
        DeletedLast path row deletion back ∧
        ∀ key peer, db.peers.lookup key = some peer → row.deletedAt < peer.lastSeenAt →
          ∃ refresh ∈ back, refresh.refreshes key = true

section Clocked

variable {settings : Settings Blob} {libraries : Libraries Blob} {now : Time}
variable {journal : List (JournalEntry Blob)} {db db' : Db Blob} {path : DocPath}
variable {call : DbCall Blob} {reply : call.Reply} {origin : Option FrameId}

theorem Clocked.empty (now : Time) : Clocked now [] (Db.empty : Db Blob) where
  lastSeen := fun _ _ seen => nomatch seen
  deleted := fun _ _ tombstoned => nomatch tombstoned

/-- Time passes. -/
theorem Clocked.passes
    {later : Time}
    (clocked : Clocked now journal db)
    (passed : now ≤ later) :
    Clocked later journal db where
  lastSeen := fun key row seen => (clocked.lastSeen key row seen).trans passed
  deleted := by
    intro path row tombstoned
    obtain ⟨past, deleted⟩ := clocked.deleted path row tombstoned
    exact ⟨past.trans passed, deleted⟩

variable (origin) in
/-- A tombstone was there before and its path was not deleted again, or it has
just been written by a delete. -/
theorem tombstones_of_effect
    (effect : DbCall.Effect libraries now db call reply db')
    {row : TombstoneRow}
    (tombstoned : db'.tombstones.lookup path = some row) :
    (db.tombstones.lookup path = some row ∧
        ¬ JournalEntry.Deletes path ⟨origin, call, reply, db, db'⟩) ∨
      row.deletedAt = now ∧ JournalEntry.Deletes path ⟨origin, call, reply, db, db'⟩ := by
  by_cases written : call.committed reply = some path
  · cases effect with
    | read isRead =>
        have target := DbCall.target_of_committed written
        cases (DbCall.target_of_isRead isRead).symm.trans target
    | kept | established =>
        refine Or.inl ⟨tombstoned, ?_⟩
        rintro ⟨_, _, _, called⟩
        cases called
    | replaced =>
        cases written
        cases (AList.lookup_erase path _).symm.trans tombstoned
    | removed live matching buried | absent absent matching buried =>
        cases written
        obtain rfl := Option.some.inj ((AList.lookup_insert _).symm.trans tombstoned)
        refine Or.inr ⟨?_, rfl, _, _, rfl⟩
        rw [buried]
        cases db.tombstones.lookup path <;> rfl
    | rejected | peerUpserted | tombstonesExpired | peersExpired => cases written
  · refine Or.inl ⟨?_, fun deletes => written deletes.1⟩
    rcases effect.tombstones_frame written with same | expired
    · exact same.symm.trans tombstoned
    · cases expired.symm.trans tombstoned

/-- A call made now keeps what is stored in the past. -/
theorem Clocked.commit
    (clocked : Clocked now journal db)
    (effect : DbCall.Effect libraries now db call reply db') :
    Clocked now (journal ++ [⟨origin, call, reply, db, db'⟩]) db' where
  lastSeen := by
    intro key row seen
    rcases peers_of_effect effect seen with before | ⟨here, _⟩
    · exact clocked.lastSeen key row before
    · exact here.le
  deleted := by
    intro path row tombstoned
    rcases tombstones_of_effect origin effect tombstoned with
      ⟨before, kept⟩ | ⟨here, deletes⟩
    · obtain ⟨past, front, deletion, back, rfl, ⟨deletes, last, since⟩, seenSince⟩ :=
        clocked.deleted path row before
      refine ⟨past, front, deletion, back ++ [⟨origin, call, reply, db, db'⟩], by simp,
        ⟨deletes, ?_, ?_⟩, ?_⟩
      · intro later member
        rw [List.mem_append, List.mem_singleton] at member
        rcases member with earlier | rfl
        · exact last later earlier
        · exact kept
      · intro later member
        rw [← List.cons_append, List.mem_append, List.mem_singleton] at member
        rcases member with earlier | rfl
        · exact since later earlier
        · exact tombstoned
      · intro key peer seen after
        rcases peers_of_effect effect seen with before | ⟨_, deviceName, refreshed⟩
        · obtain ⟨refresh, member, refreshes⟩ := seenSince key peer before after
          exact ⟨refresh, List.mem_append_left _ member, refreshes⟩
        · subst refreshed
          exact ⟨_, List.mem_append_right _ (List.mem_singleton_self _),
            by simp [JournalEntry.refreshes]⟩
    · refine ⟨here.le, journal, _, [], rfl, ⟨deletes, ?_, ?_⟩, ?_⟩
      · exact fun _ member => nomatch member
      · intro later member
        rw [List.mem_singleton] at member
        exact member ▸ tombstoned
      · intro key peer seen after
        rcases peers_of_effect effect seen with before | ⟨_, _, refreshed⟩
        · have past := clocked.lastSeen key peer before
          exact absurd (here ▸ after) past.not_gt
        · obtain ⟨_, _, _, called⟩ := deletes
          cases refreshed.symm.trans called

variable (settings) in
/-- The order of deletions and connections is kept by every step. -/
theorem clocked_timed :
    Machine.Timed (timeOf settings) (fun _ _ => True) fun now config =>
      Clocked now config.shared.journal config.shared.db where
  passes := Clocked.passes
  step := by
    intro now label config config' clocked stamped _ stepped
    cases journals_of_steps stepped with
    | quiet journal db =>
        rw [journal, db]
        exact clocked
    | query time made cleans executed journal =>
        obtain rfl := stamped _ time
        rw [journal]
        exact clocked.commit (DbCall.effect_of_exec executed)

/-! ## Expiry -/

/-- What is done last comes after everything it has been done after. -/
theorem exists_of_find?_reverse
    {α : Type}
    {items front back : List α}
    {divider found : α}
    {p : α → Bool}
    (split : items = front ++ divider :: back)
    (last : items.reverse.find? p = some found)
    (after : ∃ item ∈ back, p item = true) :
    ∃ middle rest, back = middle ++ found :: rest := by
  obtain ⟨item, member, satisfies⟩ := after
  rw [split, List.reverse_append, List.reverse_cons, List.append_assoc,
    List.find?_append] at last
  have inBack : (back.reverse.find? p).isSome = true :=
    List.find?_isSome.mpr ⟨item, List.mem_reverse.mpr member, satisfies⟩
  obtain ⟨first, found'⟩ := Option.isSome_iff_exists.mp inBack
  rw [found', Option.some_or, Option.some.injEq] at last
  obtain ⟨middle, rest, rfl⟩ :=
    List.append_of_mem (List.mem_reverse.mp (List.mem_of_find?_eq_some found'))
  exact ⟨middle, rest, last ▸ rfl⟩

/-- A list that was written to a connection which has refreshed its peer's row since
a deletion shows what was found after that. -/
theorem Greeted.listing_after
    {server : Server Blob}
    {key : PeerKey}
    {connId : Nat}
    {session : Session Blob}
    {written : WrittenMsg Blob}
    {tombstones : List String}
    {front back : List (JournalEntry Blob)}
    {deletion : JournalEntry Blob}
    (greeted : Greeted server)
    (lists : ListsWritten server)
    (journal : server.journal = front ++ deletion :: back)
    (since : ∃ refresh ∈ back, refresh.refreshes key = true)
    (refreshed : server.refreshedBy key = some connId)
    (known : server.sessions connId = some session)
    (member : written ∈ session.written)
    (shown : tombstones ∈ written.message.tombstones?) :
    session.peer = key ∧ front.length < written.calls ∧
      ∃ listing ∈ back, tombstones = listing.after.listTombstones key.vault := by
  obtain ⟨refresh, found, own⟩ := Option.bind_eq_some_iff.mp refreshed
  have refreshes : refresh.refreshes key = true := List.find?_some found
  obtain ⟨middle, rest, rfl⟩ := exists_of_find?_reverse journal found since
  have peer : session.peer = key := by
    have known' := greeted.peer refresh (by simp [journal]) key connId refreshes own
    rw [Server.peerOf, known, Option.map_some, Option.some.injEq] at known'
    exact known'
  obtain ⟨listing, taken, onIt, listsIt, found⟩ :=
    lists connId session known written member tombstones shown
  -- nothing was listed on the connection before it refreshed the row
  have split : server.journal = (front ++ deletion :: middle ++ [refresh]) ++ rest := by
    rw [journal]
    simp
  have later : listing ∉ front ++ deletion :: middle ++ [refresh] := by
    intro earlier
    rcases List.mem_append.mp earlier with before | here
    · have order := greeted.first
      rw [split, List.append_assoc, List.pairwise_append] at order
      exact order.2.2 listing before refresh (List.mem_cons_self ..) key session.peer.vault
        connId refreshes own listsIt onIt
    · obtain rfl := List.mem_singleton.mp here
      revert refreshes listsIt
      unfold JournalEntry.refreshes JournalEntry.listsTombstones
      cases listing.call <;> simp
  have beyond : (front ++ deletion :: middle ++ [refresh]).length < written.calls := by
    by_contra short
    rw [split, List.take_append_of_le_length (Nat.not_lt.mp short)] at taken
    exact later (List.mem_of_mem_take taken)
  have inRest : listing ∈ rest := by
    have journaled := List.mem_of_mem_take taken
    rw [split, List.mem_append] at journaled
    exact journaled.resolve_left later
  refine ⟨peer, ?_, listing, by simp [inRest], peer ▸ found⟩
  simp only [List.length_append, List.length_cons, List.length_nil] at beyond
  omega

/-- The last deletion is that of the tombstone. -/
theorem Server.connId?_of_deletedFor
    {server : Server Blob}
    {path : DocPath}
    {key : PeerKey}
    {front back : List (JournalEntry Blob)}
    {deletion : JournalEntry Blob}
    (journal : server.journal = front ++ deletion :: back)
    (deletes : deletion.Deletes path)
    (last : ∀ later ∈ back, ¬ later.Deletes path)
    (own : server.deletedFor path = some key) :
    ∃ connId, deletion.connId? = some connId ∧ server.peerOf connId = some key := by
  have found : server.journal.reverse.find? (JournalEntry.deletes path) = some deletion := by
    have quiet : back.reverse.find? (JournalEntry.deletes path) = none := by
      refine List.find?_eq_none.mpr fun later member deletes' => ?_
      exact last later (List.mem_reverse.mp member) (JournalEntry.deletes_iff.mp deletes')
    rw [journal, List.reverse_append, List.reverse_cons, List.append_assoc,
      List.find?_append, quiet, Option.none_or]
    exact List.find?_cons_of_pos (JournalEntry.deletes_iff.mpr deletes)
  rw [Server.deletedFor, found, Option.bind_some] at own
  exact Option.bind_eq_some_iff.mp own

/-- What is removed by an expiry is past its retention, and every peer of its
vault was seen after the deletion. -/
theorem expired_of_step
    {circumstance : Circumstance}
    {config config' : (serverMachine settings).Config}
    {row : TombstoneRow}
    (stepped : (serverMachine settings).step
      (.environment (.expireTombstones circumstance)) config = some config')
    (before : config.shared.db.tombstones.lookup path = some row)
    (after : config'.shared.db.tombstones.lookup path = none) :
    config'.shared.db.peers = config.shared.db.peers ∧
      (Db.daysBefore circumstance.now settings.tombstoneDays).any
        (fun limit => row.deletedAt < limit) = true ∧
      config.shared.db.awaited path row = false := by
  simp only [Machine.step, serverMachine, Server.environment, Server.query,
    Option.map_some] at stepped
  obtain rfl := Option.some.inj stepped
  cases fault : circumstance.fault with
  | some error =>
      simp only [fault] at after
      cases before.symm.trans after
  | none =>
      simp only [fault, DbCall.exec, Server.commit, Db.expireTombstones] at after ⊢
      rw [Table.lookup_deleteWhere, before, Option.filter_eq_none_iff] at after
      have expired := after row rfl
      simp only [Bool.not_eq_true', Bool.not_eq_false, Bool.and_eq_true] at expired
      exact ⟨trivial, expired⟩

theorem ServerMsg.tellsOf_of_tombstones
    {message : ServerMsg Blob}
    {tombstones : List String}
    {docUuid : String}
    (shown : tombstones ∈ message.tombstones?)
    (member : docUuid ∈ tombstones) :
    message.TellsOf docUuid := by
  cases message with
  | docList =>
      obtain rfl := Option.some.inj shown
      exact member
  | _ => cases shown

/-- In a run whose clock never goes back, and in which no peer that was seen
after a deletion is left without a `DocList` until the cleanup comes, whoever is
still known when a tombstone expires has been told of the deletion. -/
theorem everyone_told_before_expiry
    {labels : List (serverMachine settings).Label}
    (chronological : Machine.Chronological (timeOf settings) labels)
    (admitted : Machine.Admits ListedBeforeExpiry labels
      (initialConfig settings Db.empty)) :
    EveryoneTold settings labels := by
  rintro earlier circumstance later config config' path rfl runs stepped tombstoned removed
    key vault known
  obtain ⟨row, tombstoned⟩ := Option.isSome_iff_exists.mp tombstoned
  obtain ⟨peers, due, seen⟩ := expired_of_step stepped tombstoned removed
  rw [peers] at known
  obtain ⟨peer, known⟩ := Option.isSome_iff_exists.mp known
  have after : row.deletedAt < peer.lastSeenAt := by
    have notAwaited := List.any_eq_false.mp seen _ (AList.mem_lookup_iff.mp known)
    simpa [vault] using notAwaited
  have clocked : Clocked circumstance.now config.shared.journal config.shared.db :=
    (clocked_timed settings).run (fun start => .empty start) chronological.first
      (Machine.Admits.of_forall _ _ fun _ _ => trivial) runs
      fun stamped member => chronological.before member (by simp [timeOf])
  obtain ⟨_, front, deletion, back, journal, ⟨deletes, last, since⟩, seenSince⟩ :=
    clocked.deleted path row tombstoned
  refine ⟨front, deletion, back, journal, deletes, last, ?_⟩
  by_cases own : config.shared.deletedFor path = some key
  · exact Or.inl (Server.connId?_of_deletedFor journal deletes last own)
  · obtain ⟨connId, refreshed, session, known', written, member, isList⟩ :=
      admitted.allowed runs ⟨path, row⟩ (AList.mem_lookup_iff.mp tombstoned) ⟨key, peer⟩
        (AList.mem_lookup_iff.mp known) due vault after own
    obtain ⟨tombstones, shown⟩ := Option.isSome_iff_exists.mp isList
    have reachable : Reachable settings Db.empty config := ⟨earlier, runs⟩
    obtain ⟨greeted, lists⟩ := reachable.greeted
    obtain ⟨belongs, written', listing, inBack, found⟩ :=
      greeted.listing_after lists journal (seenSince key peer known after) refreshed known'
        member shown
    refine Or.inr ⟨connId, session, known', belongs, written, member, written', ?_⟩
    have tells : path.doc ∈ tombstones := by
      rw [found, vault, mem_listTombstones_iff, since listing (List.mem_cons_of_mem _ inBack),
        Option.isSome_some]
    exact ServerMsg.tellsOf_of_tombstones shown tells

end Clocked

namespace Schedule

/-- A document is created and deleted. -/
def deletes : Schedule :=
  .start 0 (.connect "v" "" "" []) :: completes 0 1 ++ serves 0 (.push [⟨1, 0⟩]) 7 ++
    serves 0 (.delete none) 5

/-- The cleanup, an hour after the retention of what was deleted at the start. -/
def cleanup : (serverMachine Settings.reference).Label :=
  .environment (.expireTombstones ⟨90 * 86400 + 3600, none⟩)

/-- A day after a deletion a peer connects, is sent a list, and leaves. -/
def listed : Schedule :=
  deletes ++ (connects 1 "b" ++ serves 1 .requestDocList 4).at_ 86400 ++
    [.environment (.write 1), .abandon 1, cleanup]

end Schedule

theorem everyone_told_listed : EveryoneTold Settings.reference Schedule.listed :=
  everyone_told_before_expiry (by decide +kernel) (by decide +kernel)

namespace Schedule

/-- A day after a deletion a peer connects, and its connection breaks off. -/
def dropped : Schedule :=
  deletes ++ (connects 1 "b").at_ 86400 ++ [.abandon 1]

theorem dropped_enabled : dropped.Enabled := by
  decide +kernel

theorem dropped_cleanup_enabled : Enabled (dropped ++ [cleanup]) := by
  decide +kernel

end Schedule

/-- Nothing was written to any socket. -/
theorem Schedule.dropped_unwritten :
    ∀ connId, ∀ session ∈ (dropped.config dropped_enabled).shared.sessions connId,
      session.written = []
  | 0, _, known => by cases known; rfl
  | 1, _, known => by cases known; rfl
  | _ + 2, _, known => by cases known

/-- The tombstone expires although the peer was never told of the deletion. -/
theorem tombstone_expires_untold :
    Machine.Chronological (timeOf Settings.reference)
        (Schedule.dropped ++ [Schedule.cleanup]) ∧
      ¬ EveryoneTold Settings.reference (Schedule.dropped ++ [Schedule.cleanup]) := by
  refine ⟨by decide +kernel, fun everyone => ?_⟩
  obtain ⟨front, deletion, back, journal, deletes, _, told⟩ :=
    everyone Schedule.dropped _ [] _ _ ⟨"v", "d"⟩ rfl
      (Schedule.run_eq_config Schedule.dropped_enabled)
      (Schedule.step_config Schedule.dropped_enabled Schedule.dropped_cleanup_enabled)
      (by decide +kernel) (by decide +kernel) ⟨"v", "b"⟩ rfl (by decide +kernel)
  rcases told with ⟨connId, own, peer⟩ | ⟨connId, session, known, peer, written, member, _⟩
  · have others : ∀ entry ∈ (Schedule.dropped.config Schedule.dropped_enabled).shared.journal,
        entry.deletes ⟨"v", "d"⟩ = true → entry.connId? = some 0 := by
      decide +kernel
    have author := others deletion (by simp [journal]) (JournalEntry.deletes_iff.mpr deletes)
    obtain rfl := Option.some.inj (own.symm.trans author)
    have stranger : (Schedule.dropped.config Schedule.dropped_enabled).shared.peerOf 0 ≠
        some ⟨"v", "b"⟩ := by
      decide +kernel
    exact stranger peer
  · rw [Schedule.dropped_unwritten connId session known] at member
    cases member

end VaultCrdtServer
