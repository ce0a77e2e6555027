import VaultCrdtServer.Vaults.Threads

/-!
# The order of a session

A connection's handshake refreshes the row of its peer before anything is
listed for one of its frames, and whatever list of documents is written to its
socket shows what the query made for it has found.
-/

namespace VaultCrdtServer

open Interleaving

variable {Blob : Type}

/-- The call has refreshed a peer's row. -/
def JournalEntry.refreshes (key : PeerKey) (entry : JournalEntry Blob) : Bool :=
  match entry.call with
  | .upsertPeer key' _ => key' = key
  | _ => false

/-- The call has listed the tombstones of a vault. -/
def JournalEntry.listsTombstones (vault : String) (entry : JournalEntry Blob) : Bool :=
  match entry.call with
  | .listTombstones vault' => vault' = vault
  | _ => false

/-- The tombstones of a `DocList`. -/
def ServerMsg.tombstones? : ServerMsg Blob → Option (List String)
  | .docList _ tombstones _ => some tombstones
  | _ => none

/-- The connection a call was made on. -/
def JournalEntry.connId? (entry : JournalEntry Blob) : Option Nat :=
  entry.origin.map FrameId.connId

/-- The peer a connection was made for. -/
def Server.peerOf (connId : Nat) (server : Server Blob) : Option PeerKey :=
  (server.sessions connId).map Session.peer

section Calls

variable {peer key : PeerKey} {frames : List (Frame Blob)} {call : DbCall Blob}
variable {reply : call.Reply} {origin : Option FrameId} {before after : Db Blob}

/-- Before its first frame a connection refreshes the row of its own peer. -/
theorem ServerCall.Due.of_refreshes
    (due : (ServerCall.db call).Due peer frames)
    (refreshes : JournalEntry.refreshes key ⟨origin, call, reply, before, after⟩ = true) :
    frames = [] ∧ key = peer := by
  cases call with
  | upsertPeer key' deviceName =>
      obtain rfl : key' = key := of_decide_eq_true refreshes
      rw [ServerCall.Due] at due
      split at due
      · rename_i unserved
        obtain ⟨_, made⟩ := due
        exact ⟨List.getLast?_eq_none_iff.mp unserved, (DbCall.upsertPeer.inj made).1⟩
      · obtain ⟨_, _, serves⟩ := due
        cases serves
  | _ => cases refreshes

/-- It lists tombstones for a frame. -/
theorem ServerCall.Due.of_listsTombstones
    {vault : String}
    (due : (ServerCall.db call).Due peer frames)
    (lists : JournalEntry.listsTombstones vault ⟨origin, call, reply, before, after⟩ = true) :
    frames ≠ [] := by
  rintro rfl
  obtain ⟨_, made⟩ := due
  subst made
  cases lists

end Calls

section Steps

variable {settings : Settings Blob} {initial : Db Blob} {connId : Nat}
variable {server server' : Server Blob}
variable {label : (serverMachine settings).Label}
variable {config config' : (serverMachine settings).Config}

variable (settings) in
/-- The time a step is taken at, if it sees one. -/
def timeOf : (serverMachine settings).Label → Option Time
  | .act _ circumstance => some circumstance.now
  | .environment (.expireTombstones circumstance) => some circumstance.now
  | .environment (.expireStalePeers circumstance) => some circumstance.now
  | _ => none

/-- A step leaves the database and its journal alone, or makes one call at the
step's time, for a frame or for the cleanup. -/
inductive Journals
    (label : (serverMachine settings).Label)
    (config config' : (serverMachine settings).Config) : Prop
  | quiet
      (journal : config'.shared.journal = config.shared.journal)
      (db : config'.shared.db = config.shared.db)
  | query {now : Time} {origin : Option FrameId} {call : DbCall Blob} {reply : call.Reply}
      (time : timeOf settings label = some now)
      (made : ∀ id, origin = some id → ∃ circumstance next,
        label = .act id.connId circumstance ∧
          config.thread id.connId = some (.call (.db call) next) ∧
          config.shared.current id.connId = id)
      (cleans : origin = none → ∃ circumstance,
        label = .environment (.expireTombstones circumstance) ∧
            call = .expireTombstones settings.tombstoneDays ∨
          label = .environment (.expireStalePeers circumstance) ∧
            call = .expireStalePeers settings.peerDays)
      (executed : call.exec settings.toLibraries now config.shared.db =
        .ok (reply, config'.shared.db))
      (journal : config'.shared.journal = config.shared.journal ++
        [⟨origin, call, reply, config.shared.db, config'.shared.db⟩])

variable (server) in
/-- A query leaves the database and its journal alone, or takes effect. -/
theorem journal_of_query
    (libraries : Libraries Blob)
    (origin : Option FrameId)
    (call : DbCall Blob)
    (circumstance : Circumstance) :
    ((server.query libraries origin call circumstance).2.journal = server.journal ∧
        (server.query libraries origin call circumstance).2.db = server.db) ∨
      ∃ reply, call.exec libraries circumstance.now server.db =
          .ok (reply, (server.query libraries origin call circumstance).2.db) ∧
        (server.query libraries origin call circumstance).2.journal =
          server.journal ++ [⟨origin, call, reply, server.db,
            (server.query libraries origin call circumstance).2.db⟩] := by
  unfold Server.query
  cases circumstance.fault with
  | some error => exact Or.inl ⟨rfl, rfl⟩
  | none =>
      cases executed : call.exec libraries circumstance.now server.db with
      | error error => exact Or.inl ⟨rfl, rfl⟩
      | ok result => exact Or.inr ⟨_, rfl, rfl⟩

theorem journals_of_steps
    (stepped : Machine.Steps (serverMachine settings) label config config') :
    Journals label config config' := by
  cases stepped with
  | @act _ connId circumstance call next reply shared current effect =>
      cases call with
      | db call =>
          have result : (config.shared.query settings.toLibraries
              (some (config.shared.current connId)) call circumstance).2 = shared :=
            congrArg Prod.snd (Option.some.inj effect)
          subst result
          rcases journal_of_query config.shared settings.toLibraries
            (some (config.shared.current connId)) call circumstance with
            ⟨journal, db⟩ | ⟨reply, executed, journal⟩
          · exact .quiet journal db
          · refine .query rfl ?_ (fun own => by cases own) executed journal
            rintro id own
            obtain rfl := Option.some.inj own
            exact ⟨circumstance, next, rfl, current, rfl⟩
      | lock key =>
          cases free : config.shared.docLocks key with
          | some holder => simp [serverMachine, Server.exec, free] at effect
          | none =>
              simp only [serverMachine, Server.exec, free, Option.some.injEq,
                Prod.mk.injEq] at effect
              obtain ⟨_, rfl⟩ := effect
              exact .quiet rfl rfl
      | unlock key | publish event =>
          simp only [serverMachine, Server.exec, Option.some.injEq, Prod.mk.injEq]
            at effect
          obtain ⟨_, rfl⟩ := effect
          exact .quiet rfl rfl
      | respond frame response =>
          obtain ⟨_, _, ⟨_, _, _, _, _, _, rfl⟩ | ⟨_, _, rfl⟩⟩ := respond_cases effect
          · exact .quiet rfl rfl
          · exact .quiet rfl rfl
      | subscribe =>
          simp only [serverMachine, Server.exec, Server.subscribe, Option.bind_eq_bind,
            Option.map_eq_some_iff, Option.bind_eq_some_iff, Option.some.injEq,
            Prod.mk.injEq] at effect
          obtain ⟨_, ⟨_, _, rfl⟩, _, rfl⟩ := effect
          exact .quiet rfl rfl
  | @environment _ event shared effect =>
      cases event with
      | expireTombstones circumstance =>
          simp only [serverMachine, Server.environment, Option.some.injEq] at effect
          subst effect
          rcases journal_of_query config.shared settings.toLibraries none _ circumstance with
            ⟨journal, db⟩ | ⟨reply, executed, journal⟩
          · exact .quiet journal db
          · exact .query rfl (fun _ own => by cases own)
              (fun _ => ⟨circumstance, .inl ⟨rfl, rfl⟩⟩) executed journal
      | expireStalePeers circumstance =>
          simp only [serverMachine, Server.environment, Option.some.injEq] at effect
          subst effect
          rcases journal_of_query config.shared settings.toLibraries none _ circumstance with
            ⟨journal, db⟩ | ⟨reply, executed, journal⟩
          · exact .quiet journal db
          · exact .query rfl (fun _ own => by cases own)
              (fun _ => ⟨circumstance, .inr ⟨rfl, rfl⟩⟩) executed journal
      | forward connId =>
          obtain ⟨_, _, _, _, _, _, _, _, rfl, _⟩ := forward_cases effect
          exact .quiet rfl rfl
      | write connId =>
          simp only [serverMachine, Server.environment, Server.write, Option.bind_eq_bind,
            Option.bind_eq_some_iff] at effect
          obtain ⟨_, _, result⟩ := effect
          split at result
          · rw [← Option.some.inj result]
            exact .quiet rfl rfl
          · cases result
      | writeFails connId =>
          simp only [serverMachine, Server.environment, Server.writeFails,
            Option.bind_eq_bind, Option.bind_eq_some_iff, Option.some.injEq] at effect
          obtain ⟨_, _, rfl⟩ := effect
          exact .quiet rfl rfl
      | blobPathChanged vaultId pathKey seq =>
          simp only [serverMachine, Server.environment, Option.some.injEq] at effect
          subst effect
          exact .quiet rfl rfl
  | @start _ connId task program shared current effect =>
      obtain ⟨_, _, _, _, _, _, _, _, _, _, _, _, rfl⟩ | ⟨_, _, _, _, rfl⟩ :=
        start_cases effect
      · exact .quiet rfl rfl
      · exact .quiet rfl rfl
  | @finish _ connId flow current =>
      cases flow with
      | again => exact .quiet rfl rfl
      | stop => exact .quiet rfl rfl
  | abandon => exact .quiet rfl rfl

/-- The peer of a connection that has been made stays the same. -/
theorem peerOf_of_steps
    (stepped : Machine.Steps (serverMachine settings) label config config')
    (counted : connId < config.shared.connCounter) :
    config'.shared.peerOf connId = config.shared.peerOf connId := by
  have ofAgenda : ∀ server : Server Blob,
      server.peerOf connId = (server.agenda connId).map Prod.fst := by
    intro server
    rw [Server.peerOf, Server.agenda, Option.map_map]
    rfl
  cases stepped with
  | act current effect =>
      rw [Machine.Config.advance_shared, Server.peerOf, sessions_exec effect, Server.peerOf]
  | environment effect => rw [ofAgenda, ofAgenda, agenda_environment effect]
  | @start _ other task program shared current effect =>
      obtain ⟨_, _, _, _, _, fresh, _, _, _, _, _, _, rfl⟩ | ⟨frame, _, _, _, rfl⟩ :=
        start_cases effect
      · have different : connId ≠ other := (counted.trans_eq fresh.symm).ne
        simp [Server.peerOf, Function.update_of_ne different]
      · by_cases same : connId = other
        · subst same
          simp [Server.peerOf, Server.note, Server.setConnection, Function.comp_def]
        · simp [Server.peerOf, Server.note, Server.setConnection,
            Function.update_of_ne same]
  | @finish _ other flow current =>
      cases flow with
      | again => rfl
      | stop => rfl
  | abandon => rfl

/-! ## Handshakes come first -/

/-- A peer's row is refreshed on its own connections, and before tombstones are
listed there. -/
structure Greeted (server : Server Blob) : Prop where
  peer : ∀ entry ∈ server.journal, ∀ key connId, entry.refreshes key = true →
    entry.connId? = some connId → server.peerOf connId = some key
  number : ∀ entry ∈ server.journal, ∀ vault id, entry.listsTombstones vault = true →
    entry.origin = some id → 0 < id.number
  first : server.journal.Pairwise fun earlier later => ∀ key vault connId,
    later.refreshes key = true → later.connId? = some connId →
      earlier.listsTombstones vault = true → earlier.connId? ≠ some connId

/-- What was done for a frame was done on a connection that has been made, and has
received the frame. -/
theorem Recorded.used
    (recorded : Recorded settings initial server)
    {entry : JournalEntry Blob}
    {id : FrameId}
    (member : entry ∈ server.journal)
    (origin : entry.origin = some id) :
    ¬ server.Unused id := by
  intro unused
  have own : entry ∈ server.entriesOf id := List.mem_filter.mpr ⟨member, by simp [origin]⟩
  rw [(recorded.unused id unused).1] at own
  cases own

theorem Greeted.step
    (holds : (serverDiscipline settings False initial).Holds config)
    (attended : Attended config)
    (greeted : Greeted config.shared)
    (stepped : Machine.Steps (serverMachine settings) label config config') :
    Greeted config'.shared := by
  obtain ⟨numbered, recorded⟩ := holds.invariant
  have kept : ∀ entry ∈ config.shared.journal, ∀ key connId, entry.refreshes key = true →
      entry.connId? = some connId → config'.shared.peerOf connId = some key := by
    intro entry member key connId refreshes own
    obtain ⟨id, origin, rfl⟩ := Option.map_eq_some_iff.mp own
    have counted : id.connId < config.shared.connCounter := by
      by_contra unconnected
      exact recorded.used member origin (.inl (Nat.not_lt.mp unconnected))
    rw [peerOf_of_steps stepped counted]
    exact greeted.peer entry member key id.connId refreshes own
  cases journals_of_steps stepped with
  | quiet journal db =>
      refine ⟨?_, ?_, ?_⟩
      · rw [journal]
        exact kept
      · rw [journal]
        exact greeted.number
      · rw [journal]
        exact greeted.first
  | @query now origin call reply time made cleans executed journal =>
      -- what is due on the connection that makes the call
      have due : ∀ id, origin = some id → ∃ peer frames connection,
          config'.shared.peerOf id.connId = some peer ∧
            config.shared.connections id.connId = some connection ∧
            connection.received = frames.length ∧ id.number = frames.length ∧
            (ServerCall.db call).Due peer frames := by
        intro id own
        obtain ⟨_, next, _, runs, current⟩ := made id own
        have attached := numbered.attached id.connId (by rw [runs]; rfl)
        obtain ⟨connection, registered⟩ := Option.isSome_iff_exists.mp attached
        obtain ⟨peer, frames, known, _, working⟩ := attended.session id.connId
          connection.vaultId (by simp [Server.vaultOf, registered])
        refine ⟨peer, frames, connection, ?_, registered, ?_, ?_,
          (attended.due id.connId _ peer frames runs known).1⟩
        · rw [peerOf_of_steps stepped (numbered.registered id.connId attached)]
          obtain ⟨session, found, same⟩ := Option.map_eq_some_iff.mp known
          rw [Server.peerOf, found, Option.map_some, (Prod.mk.inj same).1]
        · simpa [Server.current, registered] using congrArg FrameId.number working
        · exact congrArg FrameId.number (current.symm.trans working)
      refine ⟨?_, ?_, ?_⟩
      · rw [journal]
        intro entry member key connId refreshes own
        rcases List.mem_append.mp member with earlier | last
        · exact kept entry earlier key connId refreshes own
        · obtain rfl := List.mem_singleton.mp last
          obtain ⟨id, made, rfl⟩ := Option.map_eq_some_iff.mp own
          obtain ⟨peer, _, _, known, _, _, _, due⟩ := due id made
          rw [(due.of_refreshes refreshes).2]
          exact known
      · rw [journal]
        intro entry member vault id lists own
        rcases List.mem_append.mp member with earlier | last
        · exact greeted.number entry earlier vault id lists own
        · obtain rfl := List.mem_singleton.mp last
          obtain ⟨_, frames, _, _, _, _, number, due⟩ := due id own
          rw [number]
          exact List.length_pos_iff.mpr (due.of_listsTombstones lists)
      · rw [journal, List.pairwise_append]
        refine ⟨greeted.first, List.pairwise_singleton _ _, ?_⟩
        intro earlier member later last key vault connId refreshes own lists before
        obtain rfl := List.mem_singleton.mp last
        obtain ⟨id, made, rfl⟩ := Option.map_eq_some_iff.mp own
        obtain ⟨_, _, connection, _, registered, received, _, due⟩ := due id made
        obtain ⟨id', origin', same⟩ := Option.map_eq_some_iff.mp before
        -- no frame has been received yet, so nothing was listed for one
        refine recorded.used member origin' (.inr ⟨connection, same ▸ registered, ?_⟩)
        rw [received, (due.of_refreshes refreshes).1]
        exact greeted.number earlier member vault id' lists origin'

/-! ## Lists that were written -/

/-- Every list that was written to a socket shows what a query for the
connection's vault has found before. -/
def ListsWritten (server : Server Blob) : Prop :=
  ∀ connId session, server.sessions connId = some session →
    ∀ written ∈ session.written, ∀ tombstones ∈ written.message.tombstones?,
      ∃ listing ∈ server.journal.take written.calls,
        listing.connId? = some connId ∧
          listing.listsTombstones session.peer.vault = true ∧
          tombstones = listing.after.listTombstones session.peer.vault

/-- A `DocList` carries what its query has found. -/
theorem Recorded.listing_of_tombstones
    {answered : Answered Blob}
    {tombstones : List String}
    (recorded : Recorded settings initial server)
    (member : answered ∈ server.answers)
    (listed : answered.response.tombstones? = some tombstones) :
    ∃ listing ∈ server.journal, listing.origin = some answered.origin ∧
      listing.listsTombstones answered.vaultId = true ∧
      tombstones = listing.after.listTombstones answered.vaultId := by
  obtain ⟨_, broadcast, settled, _⟩ := recorded.reported answered member
  have journaled : ∀ entry ∈ server.entriesOf answered.origin, entry ∈ server.journal :=
    fun entry own => List.mem_of_mem_filter own
  generalize server.entriesOf answered.origin = entries at settled journaled
  generalize answered.response = response at settled listed
  cases settled with
  | @plain response entries isPlain =>
      cases response with
      | docList => cases isPlain
      | _ => cases listed
  | stored | deleted | rejected => cases listed
  | listed asked =>
      cases listed
      refine ⟨_, journaled _ (List.mem_cons_of_mem _ (List.mem_cons_self ..)), rfl, ?_, rfl⟩
      exact decide_eq_true rfl

/-- What was written stays what the queries have found. -/
theorem ListsWritten.mono
    {more : List (JournalEntry Blob)}
    (lists : ListsWritten server)
    (journal : server'.journal = server.journal ++ more)
    (sessions : ∀ connId session', server'.sessions connId = some session' →
      session'.written = [] ∨ ∃ session, server.sessions connId = some session ∧
        session.peer = session'.peer ∧ session.written = session'.written) :
    ListsWritten server' := by
  intro connId session' found written member tombstones shown
  rcases sessions connId session' found with none | ⟨session, before, peer, same⟩
  · rw [none] at member
    cases member
  · obtain ⟨listing, earlier, own, listed⟩ :=
      lists connId session before written (same ▸ member) tombstones shown
    refine ⟨listing, ?_, own, peer ▸ listed⟩
    rw [journal, List.take_append]
    exact List.mem_append_left _ earlier

/-- What a connection with its answers writes next, if it is a list, shows what a
query has found. -/
theorem Responds.listing_of_queued
    {connection : Connection Blob}
    {message : ServerMsg Blob}
    {rest : List (ServerMsg Blob)}
    {tombstones : List String}
    (recorded : Recorded settings initial server)
    (responds : Responds connId connection (server.answersOn connId))
    (running : connection.writing = true)
    (queued : connection.writeQueue = message :: rest)
    (shown : tombstones ∈ message.tombstones?) :
    ∃ listing ∈ server.journal, listing.connId? = some connId ∧
      listing.listsTombstones connection.vaultId = true ∧
      tombstones = listing.after.listTombstones connection.vaultId := by
  have reply : message ∈ replies (connection.wire ++ connection.writeQueue) := by
    refine List.mem_filter.mpr ⟨by simp [queued], ?_⟩
    cases message with
    | docList => rfl
    | _ => cases shown
  rw [responds.writing running, List.mem_cons, List.mem_map] at reply
  rcases reply with rfl | ⟨answered, given, rfl⟩
  · cases shown
  · obtain ⟨member, own⟩ := List.mem_filter.mp given
    obtain ⟨listing, journaled, origin, lists⟩ :=
      recorded.listing_of_tombstones member shown
    rw [responds.vault answered given] at lists
    refine ⟨listing, journaled, ?_, lists⟩
    rw [JournalEntry.connId?, origin, Option.map_some]
    exact congrArg some (of_decide_eq_true own)

theorem ListsWritten.step
    (recorded : Recorded settings initial config.shared)
    (answers : Answering config.shared)
    (attended : Attended config)
    (lists : ListsWritten config.shared)
    (stepped : Machine.Steps (serverMachine settings) label config config') :
    ListsWritten config'.shared := by
  have grown : ∃ more, config'.shared.journal = config.shared.journal ++ more := by
    cases journals_of_steps stepped with
    | quiet journal => exact ⟨[], by rw [journal, List.append_nil]⟩
    | query _ _ _ _ journal => exact ⟨_, journal⟩
  obtain ⟨more, journal⟩ := grown
  have same : config'.shared.sessions = config.shared.sessions →
      ListsWritten config'.shared := fun sessions =>
    lists.mono journal fun connId session' found =>
      Or.inr ⟨session', sessions ▸ found, rfl, rfl⟩
  cases stepped with
  | act current effect => exact same (sessions_exec effect)
  | @environment _ event shared effect =>
      rcases sessions_environment effect with
        unchanged | ⟨connId, connection, message, rest, rfl, registered, running, queued, now⟩
      · exact same unchanged
      · intro other session' found written member tombstones shown
        rw [now] at found
        by_cases own : other = connId
        · subst own
          rw [Function.update_self] at found
          obtain ⟨session, before, rfl⟩ := Option.map_eq_some_iff.mp found
          rcases List.mem_append.mp member with earlier | last
          · obtain ⟨listing, taken, listed⟩ :=
              lists other session before written earlier tombstones shown
            refine ⟨listing, ?_, listed⟩
            rw [journal, List.take_append]
            exact List.mem_append_left _ taken
          · obtain rfl := List.mem_singleton.mp last
            obtain ⟨peer, _, known, vault, _⟩ := attended.session other connection.vaultId
              (by simp [Server.vaultOf, registered])
            have same : session.peer = peer := by
              simpa [Server.agenda, before] using congrArg (Option.map Prod.fst) known
            obtain ⟨listing, journaled, listed⟩ :=
              (answers other connection registered).listing_of_queued recorded running
                queued shown
            refine ⟨listing, ?_, ?_⟩
            · rw [journal, List.take_left]
              exact journaled
            · rw [same, vault]
              exact listed
        · rw [Function.update_of_ne own] at found
          obtain ⟨listing, taken, listed⟩ :=
            lists other session' found written member tombstones shown
          refine ⟨listing, ?_, listed⟩
          rw [journal, List.take_append]
          exact List.mem_append_left _ taken
  | @start _ connId task program shared current effect =>
      obtain ⟨_, _, _, _, _, _, _, _, _, _, _, _, rfl⟩ | ⟨frame, _, _, _, rfl⟩ :=
        start_cases effect
      · refine lists.mono journal fun other session' found => ?_
        by_cases own : other = connId
        · subst own
          simp only [Machine.Config.advance_shared, Function.update_self,
            Option.some.injEq] at found
          exact Or.inl (found ▸ rfl)
        · simp only [Machine.Config.advance_shared, Function.update_of_ne own] at found
          exact Or.inr ⟨session', found, rfl, rfl⟩
      · refine lists.mono journal fun other session' found => ?_
        by_cases own : other = connId
        · subst own
          simp only [Machine.Config.advance_shared, Server.note, Server.setConnection,
            Function.update_self, Option.map_eq_some_iff] at found
          obtain ⟨session, before, rfl⟩ := found
          exact Or.inr ⟨session, before, rfl, rfl⟩
        · simp only [Machine.Config.advance_shared, Server.note, Server.setConnection,
            Function.update_of_ne own] at found
          exact Or.inr ⟨session', found, rfl, rfl⟩
  | @finish _ connId flow current =>
      cases flow with
      | again => exact same rfl
      | stop => exact same rfl
  | abandon => exact same rfl

/-- In every reachable configuration handshakes come first, and the lists that were
written show what was found. -/
theorem Reachable.greeted
    (reachable : Reachable settings initial config) :
    Greeted config.shared ∧ ListsWritten config.shared := by
  have kept := reachable.induction
    (motive := fun config => Answering config.shared ∧ Attended config ∧
      Greeted config.shared ∧ ListsWritten config.shared)
    ⟨fun _ _ registered => (nomatch registered),
      ⟨fun _ _ registered => (by cases registered), fun _ _ _ _ runs => (by cases runs)⟩,
      ⟨fun _ member => (nomatch member), fun _ member => (nomatch member), .nil⟩,
      fun _ _ found => (nomatch found)⟩
    fun holds kept stepped =>
      ⟨answers_step (fun current => holds.pre current) holds.invariant.2 kept.1 stepped,
        kept.2.1.step stepped, kept.2.2.1.step holds kept.2.1 stepped,
        kept.2.2.2.step holds.invariant.2 kept.1 kept.2.1 stepped⟩
  exact kept.2.2

end Steps

end VaultCrdtServer
