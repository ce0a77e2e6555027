import VaultCrdtServer.Broadcast.Announced

/-!
# The order of announcements

Changes of one document are committed under its lock, but announced after the
lock was released.  Announcements follow the order of the commits in runs where
no change of the document commits while another one is yet to be announced.
-/

namespace VaultCrdtServer

open Interleaving

variable {Blob : Type}

/-- The frames that have written to a path, in the order of their commits. -/
def commitsOf (path : DocPath) (journal : List (JournalEntry Blob)) : List FrameId :=
  journal.filterMap fun entry =>
    if entry.committed = some path then entry.origin else none

/-- The frames that have announced something about a path, in the order of the
channel. -/
def announcedOf (path : DocPath) (channel : List (Sent Blob)) : List FrameId :=
  channel.filterMap fun sent =>
    if sent.event.about = some path then sent.origin else none

theorem mem_commitsOf_iff
    {path : DocPath}
    {journal : List (JournalEntry Blob)}
    {id : FrameId} :
    id ∈ commitsOf path journal ↔
      ∃ entry ∈ journal, entry.committed = some path ∧ entry.origin = some id := by
  simp [commitsOf]

theorem mem_announcedOf_iff
    {path : DocPath}
    {channel : List (Sent Blob)}
    {id : FrameId} :
    id ∈ announcedOf path channel ↔
      ∃ sent ∈ channel, sent.event.about = some path ∧ sent.origin = some id := by
  simp [announcedOf]

/-- The step commits a change of a path. -/
def Commits
    {settings : Settings Blob}
    (path : DocPath)
    (label : (serverMachine settings).Label)
    (config : (serverMachine settings).Config) : Prop :=
  ∃ config' entry, (serverMachine settings).step label config = some config' ∧
    config'.shared.journal = config.shared.journal ++ [entry] ∧
    entry.committed = some path

/-- No change of a path commits while a connection is yet to announce another
one. -/
def Separated
    {settings : Settings Blob}
    (path : DocPath)
    (label : (serverMachine settings).Label)
    (config : (serverMachine settings).Config) : Prop :=
  Commits path label config → ∀ connId, config.shared.Owes connId →
    ∀ entry ∈ config.shared.entriesOf (config.shared.current connId),
      entry.committed ≠ some path

/-- The announcements follow the commits, and at most the last one is missing. -/
def InOrder (path : DocPath) (server : Server Blob) : Prop :=
  commitsOf path server.journal = announcedOf path server.channel ∨
    ∃ id, commitsOf path server.journal = announcedOf path server.channel ++ [id] ∧
      server.sentFor id = []

section InOrder

variable {settings : Settings Blob} {initial : Db Blob} {path : DocPath}
variable {server server' : Server Blob}

/-- A frame that has sent nothing has announced nothing. -/
theorem not_mem_announcedOf
    {id : FrameId}
    (unsent : server.sentFor id = []) :
    id ∉ announcedOf path server.channel := by
  rw [mem_announcedOf_iff]
  rintro ⟨sent, member, _, origin⟩
  have own : sent ∈ server.sentFor id := List.mem_filter.mpr ⟨member, by simp [origin]⟩
  rw [unsent] at own
  cases own

/-- A frame that has committed and not announced its change is unannounced. -/
theorem unannounced_of_mem_commitsOf
    {id : FrameId}
    (member : id ∈ commitsOf path server.journal)
    (unsent : server.sentFor id = []) :
    server.Unannounced id ∧
      ∃ entry ∈ server.entriesOf id, entry.committed = some path := by
  obtain ⟨entry, journaled, committed, origin⟩ := mem_commitsOf_iff.mp member
  have own : entry ∈ server.entriesOf id :=
    List.mem_filter.mpr ⟨journaled, by simp [origin]⟩
  exact ⟨⟨⟨entry, own, by rw [committed]; rfl⟩, unsent⟩, entry, own, committed⟩

/-- Announcements stay in order if nothing is missing when a change commits. -/
theorem inOrder_of_move
    (moves : Move settings server server')
    (caughtUp : ∀ entry, server'.journal = server.journal ++ [entry] →
      entry.committed = some path →
        commitsOf path server.journal = announcedOf path server.channel)
    (inOrder : InOrder path server) :
    InOrder path server' := by
  cases moves with
  | quiet db journal answers channel received =>
      have sentFor : ∀ id, server'.sentFor id = server.sentFor id := by
        simp [Server.sentFor, channel]
      rw [InOrder, journal, channel]
      simp only [sentFor]
      exact inOrder
  | @query origin call reply db now unowned registered open_ justified executed =>
      by_cases committed : call.committed reply = some path
      · cases origin with
        | none =>
            cases (unowned rfl).symm.trans (DbCall.target_of_committed committed)
        | some id =>
            refine Or.inr ⟨id, ?_, (open_ id rfl).2.2⟩
            have before := caughtUp ⟨some id, call, reply, server.db, db⟩ rfl committed
            simp only [Server.commit, commitsOf, List.filterMap_append] at before ⊢
            rw [before]
            simp [JournalEntry.committed, committed]
      · have same : commitsOf path (server.commit origin call reply db).journal =
            commitsOf path server.journal := by
          simp [commitsOf, Server.commit, JournalEntry.committed, committed]
        rw [InOrder, same]
        exact inOrder
  | reply => exact inOrder
  | @announce connId event answered used unsent answers settled =>
      obtain ⟨reads, entry, about, entries, readsFirst, committed, isAbout, _⟩ :=
        settled.announces
      have own : entry ∈ server.entriesOf (server.current connId) := by
        rw [entries]
        simp
      obtain ⟨journaled, origin⟩ := List.mem_filter.mp own
      by_cases same : about = path
      · subst same
        -- the connection's change is the one that is missing
        have member : server.current connId ∈ commitsOf about server.journal :=
          mem_commitsOf_iff.mpr ⟨entry, journaled, committed, by simpa using origin⟩
        rcases inOrder with complete | ⟨id, missing, _⟩
        · rw [complete] at member
          exact absurd member (not_mem_announcedOf unsent)
        · rw [missing, List.mem_append, List.mem_singleton] at member
          obtain rfl := member.resolve_left (not_mem_announcedOf unsent)
          refine Or.inl (missing.trans ?_)
          simp [announcedOf, Server.publish, isAbout]
      · have unchanged : announcedOf path (server.publish connId event).channel =
            announcedOf path server.channel := by
          have elsewhere : event.about ≠ some path := by
            rw [isAbout]
            exact fun equal => same (Option.some.inj equal)
          simp [announcedOf, Server.publish, elsewhere]
        rw [InOrder, unchanged]
        rcases inOrder with complete | ⟨id, missing, silent⟩
        · exact Or.inl complete
        · refine Or.inr ⟨id, missing, ?_⟩
          have different : server.current connId ≠ id := by
            rintro rfl
            obtain ⟨_, other, otherOwn, otherCommitted⟩ :=
              unannounced_of_mem_commitsOf (by rw [missing]; simp) silent
            rw [entries] at otherOwn
            obtain rfl := eq_of_committed readsFirst otherOwn (by rw [otherCommitted]; rfl)
            exact same (Option.some.inj (committed.symm.trans otherCommitted))
          rw [Server.sentFor] at silent
          simp [Server.sentFor, Server.publish, silent, different]
  | blobPathChanged vaultId pathKey seq =>
      simpa [InOrder, announcedOf, Server.sentFor, BroadcastEvent.about] using inOrder

/-- What is missing keeps its connection running. -/
theorem Orderly.commitsOf_eq
    {config : (serverMachine settings).Config}
    (orderly : Orderly settings initial config)
    (inOrder : InOrder path config.shared) :
    commitsOf path config.shared.journal = announcedOf path config.shared.channel ∨
      ∃ id, commitsOf path config.shared.journal =
          announcedOf path config.shared.channel ++ [id] ∧
        (config.thread id.connId).isSome = true ∧
        config.shared.current id.connId = id ∧ config.shared.Owes id.connId ∧
        ∃ entry ∈ config.shared.entriesOf id, entry.committed = some path := by
  rcases inOrder with complete | ⟨id, missing, unsent⟩
  · exact Or.inl complete
  · obtain ⟨unannounced, entry⟩ :=
      unannounced_of_mem_commitsOf (by rw [missing]; simp) unsent
    obtain ⟨running, current, owes⟩ := orderly.running unannounced
    exact Or.inr ⟨id, missing, running, current, owes, entry⟩

/-- Announcements stay in order in steps that keep changes separated. -/
theorem inOrder_step
    {label : (serverMachine settings).Label}
    {config config' : (serverMachine settings).Config}
    (orderly : Orderly settings initial config)
    (separated : Separated path label config)
    (inOrder : InOrder path config.shared)
    (stepped : Machine.Steps (serverMachine settings) label config config') :
    InOrder path config'.shared := by
  have moves := move_of_steps orderly.holds.invariant.1
    (fun current => orderly.holds.pre current) stepped
  refine inOrder_of_move moves ?_ inOrder
  intro entry journal committed
  rcases orderly.commitsOf_eq inOrder with complete | ⟨id, _, _, current, owes, other, own,
    otherCommitted⟩
  · exact complete
  · have commits : Commits path label config :=
      ⟨config', entry, Machine.step_eq_some_iff.mpr stepped, journal, committed⟩
    refine absurd otherCommitted (separated commits id.connId owes other ?_)
    rw [current]
    exact own

end InOrder

/-! ## The last announcement -/

/-- The last item that is kept. -/
theorem exists_of_getLast?_filterMap
    {α β : Type}
    {f : α → Option β}
    {items : List α}
    {kept : β}
    (last : (items.filterMap f).getLast? = some kept) :
    ∃ front item back, items = front ++ item :: back ∧ f item = some kept ∧
      ∀ other ∈ back, f other = none := by
  obtain ⟨before, split⟩ := List.getLast?_eq_some_iff.mp last
  obtain ⟨front, rest, rfl, _, single⟩ := List.filterMap_eq_append_iff.mp split
  obtain ⟨skipped, item, back, rfl, _, found, nothing⟩ :=
    List.filterMap_eq_cons_iff.mp single
  exact ⟨front ++ skipped, item, back, by simp, found,
    List.filterMap_eq_nil_iff.mp nothing⟩

/-- After a change the row is gone exactly when the change was a delete. -/
theorem lookup_eq_none_iff_deletes
    {libraries : Libraries Blob}
    {now : Time}
    {entry : JournalEntry Blob}
    {path : DocPath}
    (effect : DbCall.Effect libraries now entry.before entry.call entry.reply entry.after)
    (committed : entry.committed = some path) :
    entry.after.documents.lookup path = none ↔ entry.Deletes path := by
  obtain ⟨origin, call, reply, before, after⟩ := entry
  change DbCall.Effect libraries now before call reply after at effect
  cases effect with
  | read isRead =>
      rw [JournalEntry.committed_of_isRead isRead] at committed
      cases committed
  | kept | established | replaced =>
      cases committed
      simp [Db.putDocument, JournalEntry.Deletes]
  | removed | absent =>
      cases committed
      exact iff_of_true (AList.lookup_erase path _) ⟨rfl, _, _, rfl⟩
  | rejected | peerUpserted | tombstonesExpired | peersExpired => cases committed

/-- When everything is announced, the last announcement of a path tells whether
it is live. -/
theorem Recorded.last_announcement
    {settings : Settings Blob}
    {initial : Db Blob}
    {server : Server Blob}
    {path : DocPath}
    (recorded : Recorded settings initial server)
    (complete : commitsOf path server.journal = announcedOf path server.channel)
    {sent : Sent Blob}
    (last : (server.channel.filter fun sent => sent.event.about = some path).getLast? =
      some sent) :
    sent.event.IsDelete ↔ server.db.documents.lookup path = none := by
  have inChannel : sent ∈ server.channel :=
    List.mem_of_mem_filter (List.mem_of_getLast? last)
  have about : sent.event.about = some path := by
    simpa using (List.mem_filter.mp (List.mem_of_getLast? last)).2
  obtain ⟨id, sentFor⟩ := recorded.origin_of_about inChannel (by simp [about])
  have lastAnnounced : (announcedOf path server.channel).getLast? = some id := by
    have same : announcedOf path server.channel =
        (server.channel.filter fun sent => sent.event.about = some path).filterMap
          Sent.origin := by
      simp [announcedOf, List.filterMap_filter]
    obtain ⟨earlier, split⟩ := List.getLast?_eq_some_iff.mp last
    rw [same, split, List.filterMap_append]
    simp [sentFor]
  rw [← complete] at lastAnnounced
  obtain ⟨front, entry, back, journal, found, quiet⟩ :=
    exists_of_getLast?_filterMap lastAnnounced
  rw [Option.ite_none_right_eq_some] at found
  obtain ⟨committed, origin⟩ := found
  -- the event announces that last change
  obtain ⟨reads, only, about, entries, readsFirst, onlyCommitted, _, kind⟩ :=
    recorded.announces inChannel sentFor
  have own : entry ∈ server.entriesOf id := by
    refine List.mem_filter.mpr ⟨?_, by simp [origin]⟩
    rw [journal]
    simp
  rw [entries] at own
  obtain rfl := eq_of_committed readsFirst own (by rw [committed]; rfl)
  obtain rfl := Option.some.inj (committed.symm.trans onlyCommitted)
  -- and nothing has changed the row since
  have history := recorded.history
  rw [journal] at history
  obtain ⟨_, rest, _, now, effect⟩ := history.at_entry
  have same : server.db.documents.lookup path = entry.after.documents.lookup path := by
    refine rest.preserves (motive := fun db =>
      db.documents.lookup path = entry.after.documents.lookup path) ?_ rfl
    intro later now member same _ effect
    have elsewhere : later.committed ≠ some path := by
      intro written
      have skipped := quiet later member
      rw [if_pos written] at skipped
      have journaled : later ∈ server.journal := by
        rw [journal]
        simp [member]
      cases written.symm.trans (recorded.owned later journaled skipped)
    exact (effect.documents_frame elsewhere).trans same
  rw [kind, same, lookup_eq_none_iff_deletes effect committed]

/-! ## Broadcasts in order -/

/-- The message is about a document. -/
def ServerMsg.isAbout (docUuid : String) : ServerMsg Blob → Bool
  | .deltaBroadcast uuid .. => uuid = docUuid
  | .docDeleted uuid _ => uuid = docUuid
  | _ => false

/-- The message reports a delete. -/
def ServerMsg.IsDeletion : ServerMsg Blob → Prop
  | .docDeleted .. => True
  | _ => False

instance : DecidablePred (@ServerMsg.IsDeletion Blob) := fun message => by
  induction message using ServerMsg.casesOn with
  | docDeleted => exact isTrue trivial
  | _ => exact isFalse id

/-- The announcements about a document follow its commits, on the channel and to
every connection, and when all connections are idle the last one tells whether
the document is live. -/
structure BroadcastsInOrder
    {settings : Settings Blob}
    (path : DocPath)
    (config : (serverMachine settings).Config) : Prop where
  /-- At most the last commit is not announced yet. -/
  announced : commitsOf path config.shared.journal =
      announcedOf path config.shared.channel ∨
    ∃ id, commitsOf path config.shared.journal =
        announcedOf path config.shared.channel ++ [id] ∧
      (config.thread id.connId).isSome = true ∧ config.shared.current id.connId = id
  /-- Each connection is sent the channel's events in their order. -/
  delivered : Receives config.shared
  idle : (∀ connId, config.thread connId = none) →
    commitsOf path config.shared.journal = announcedOf path config.shared.channel ∧
      ∀ sent, (config.shared.channel.filter fun sent =>
          sent.event.about = some path).getLast? = some sent →
        (sent.event.IsDelete ↔ config.shared.db.documents.lookup path = none)
  /-- An observer has caught up and has not made the last change itself. -/
  observed : (∀ connId, config.thread connId = none) →
    ∀ {connId connection subscribed},
      config.shared.connections connId = some connection →
      connection.vaultId = path.vault →
      connection.writing = true →
      connection.broadcastRx = some (subscribed, config.shared.channel.length) →
      (∀ sent, ((config.shared.channel.drop subscribed).filter fun sent =>
          sent.event.about = some path).getLast? = some sent →
        (Server.forwarded connId connection sent.event).isSome = true) →
      ∀ message, ((connection.wire ++ connection.writeQueue).filter
          (ServerMsg.isAbout path.doc)).getLast? = some message →
        (message.IsDeletion ↔ config.shared.db.documents.lookup path = none)

section Observers

variable {settings : Settings Blob} {initial : Db Blob} {path : DocPath}
variable {connId : Nat} {connection : Connection Blob} {message : ServerMsg Blob}

/-- Messages about documents are broadcasts. -/
theorem ServerMsg.isBroadcast_of_isAbout
    {docUuid : String}
    (isAbout : message.isAbout docUuid = true) :
    message.isBroadcast = true := by
  cases message <;> first | rfl | cases isAbout

/-- A message tells what its event tells. -/
theorem Server.isAbout_of_forwarded
    {event : BroadcastEvent Blob}
    (observes : connection.vaultId = path.vault)
    (made : Server.forwarded connId connection event = some message) :
    (message.isAbout path.doc = true ↔ event.about = some path) ∧
      (message.IsDeletion ↔ event.IsDelete) := by
  obtain ⟨vault, doc⟩ := path
  cases event <;> simp only [Server.forwarded, Option.ite_none_right_eq_some,
    Option.some.injEq] at made <;> obtain ⟨⟨rfl, _⟩, rfl⟩ := made
  · simp_all [ServerMsg.isAbout, BroadcastEvent.about, ServerMsg.IsDeletion,
      BroadcastEvent.IsDelete]
  · simp_all [ServerMsg.isAbout, BroadcastEvent.about, ServerMsg.IsDeletion,
      BroadcastEvent.IsDelete]
  · simp [ServerMsg.isAbout, BroadcastEvent.about, ServerMsg.IsDeletion,
      BroadcastEvent.IsDelete]

/-- The last message a connection was sent about a document passes the last
event on, if that was for the connection. -/
theorem Delivered.last_about
    {channel : List (Sent Blob)}
    {subscribed : Nat}
    (delivered : Delivered connId connection channel)
    (observes : connection.vaultId = path.vault)
    (running : connection.writing = true)
    (receiving : connection.broadcastRx = some (subscribed, channel.length))
    (concerned : ∀ sent, ((channel.drop subscribed).filter fun sent =>
        sent.event.about = some path).getLast? = some sent →
      (Server.forwarded connId connection sent.event).isSome = true)
    (last : ((connection.wire ++ connection.writeQueue).filter
      (ServerMsg.isAbout path.doc)).getLast? = some message) :
    ∃ sent, (channel.filter fun sent => sent.event.about = some path).getLast? =
        some sent ∧ (message.IsDeletion ↔ sent.event.IsDelete) := by
  cases delivered with
  | unsubscribed unreceiving => cases receiving.symm.trans unreceiving
  | subscribed receiving' _ _ writing _ =>
      obtain ⟨rfl, rfl⟩ :=
        Prod.mk.inj (Option.some.inj (receiving.symm.trans receiving'))
      have broadcasts : (connection.wire ++ connection.writeQueue).filter
          (ServerMsg.isAbout path.doc) =
          ((connection.wire ++ connection.writeQueue).filter
            ServerMsg.isBroadcast).filter (ServerMsg.isAbout path.doc) := by
        rw [List.filter_filter]
        refine List.filter_congr fun message _ => ?_
        cases isAbout : message.isAbout path.doc with
        | false => rfl
        | true => exact (ServerMsg.isBroadcast_of_isAbout isAbout).symm
      rw [broadcasts, writing running, Server.heard, List.take_length,
        List.filter_filterMap] at last
      obtain ⟨front, sent, back, heard, passed, silent⟩ :=
        exists_of_getLast?_filterMap last
      obtain ⟨made, isAbout⟩ := Option.filter_eq_some_iff.mp passed
      have tells := Server.isAbout_of_forwarded observes made
      -- nothing later was about the document, for that would have been passed on
      have nothing : (back.filter fun sent => sent.event.about = some path) = [] := by
        cases later : (back.filter fun sent => sent.event.about = some path).getLast? with
        | none => exact List.getLast?_eq_none_iff.mp later
        | some other =>
            have forwarded := concerned other (by
              rw [heard, List.filter_append, List.filter_cons_of_pos (by simp [tells.1.mp isAbout]),
                List.getLast?_append, List.getLast?_cons, later]
              rfl)
            obtain ⟨message', made'⟩ := Option.isSome_iff_exists.mp forwarded
            obtain ⟨member, about⟩ := List.mem_filter.mp (List.mem_of_getLast? later)
            have passed' := silent other member
            rw [made', Option.filter_some, if_pos] at passed'
            · cases passed'
            · exact (Server.isAbout_of_forwarded observes made').1.mpr (by simpa using about)
      refine ⟨sent, ?_, tells.2⟩
      rw [← List.take_append_drop subscribed channel, heard, List.filter_append,
        List.filter_append, List.filter_cons_of_pos (by simp [tells.1.mp isAbout]), nothing]
      simp

theorem Orderly.broadcastsInOrder
    {config : (serverMachine settings).Config}
    (orderly : Orderly settings initial config)
    (inOrder : InOrder path config.shared) :
    BroadcastsInOrder path config := by
  have idle : (∀ connId, config.thread connId = none) →
      commitsOf path config.shared.journal = announcedOf path config.shared.channel := by
    intro resting
    rcases orderly.commitsOf_eq inOrder with complete | ⟨id, _, running, _⟩
    · exact complete
    · rw [resting id.connId] at running
      cases running
  refine ⟨?_, orderly.receives, ?_, ?_⟩
  · rcases orderly.commitsOf_eq inOrder with complete | ⟨id, missing, running, current, _⟩
    · exact Or.inl complete
    · exact Or.inr ⟨id, missing, running, current⟩
  · intro resting
    exact ⟨idle resting, fun sent last =>
      orderly.recorded.last_announcement (idle resting) last⟩
  · intro resting connId connection subscribed registered observes running receiving
      concerned message last
    obtain ⟨sent, lastSent, tells⟩ :=
      (orderly.receives connId connection registered).last_about observes running
        receiving concerned last
    exact tells.trans (orderly.recorded.last_announcement (idle resting) lastSent)

end Observers

/-- In every uninterrupted run in which no change of a document commits while
another one is yet to be announced, the document's broadcasts follow the order
of its commits. -/
theorem broadcasts_in_order
    {settings : Settings Blob}
    {initial : Db Blob}
    {labels : List (serverMachine settings).Label}
    {config : (serverMachine settings).Config}
    {path : DocPath}
    (encodes : ∀ response : ServerMsg Blob, response.IsAck →
      settings.encodes response = true)
    (admitted : Machine.Admits
      (fun label config => Uninterrupted label config ∧ Separated path label config)
      labels (initialConfig settings initial))
    (runs : (serverMachine settings).run labels (initialConfig settings initial) =
      some config) :
    BroadcastsInOrder path config := by
  have kept := Machine.run_induction
    (motive := fun config =>
      Orderly settings initial config ∧ InOrder path config.shared)
    (fun invariant allowed stepped =>
      ⟨invariant.1.step encodes allowed.1 stepped,
        inOrder_step invariant.1 allowed.2 invariant.2 stepped⟩)
    ⟨.start, Or.inl rfl⟩ admitted runs
  exact kept.1.broadcastsInOrder kept.2

/-- A step keeps changes separated if everything was announced before. -/
theorem Separated.of_announced
    {settings : Settings Blob}
    {label : (serverMachine settings).Label}
    {config : (serverMachine settings).Config}
    {path : DocPath}
    (announced : commitsOf path config.shared.journal =
      announcedOf path config.shared.channel) :
    Separated path label config := by
  intro _ connId owes entry own committed
  have written : config.shared.current connId ∈ commitsOf path config.shared.journal := by
    obtain ⟨journaled, origin⟩ := List.mem_filter.mp own
    exact mem_commitsOf_iff.mpr ⟨entry, journaled, committed, by simpa using origin⟩
  rw [announced] at written
  exact not_mem_announcedOf owes.2.2 written

/-- A step keeps changes separated if it makes no call to the database. -/
theorem Separated.of_journal
    {settings : Settings Blob}
    {label : (serverMachine settings).Label}
    {config : (serverMachine settings).Config}
    {path : DocPath}
    (unchanged : ((serverMachine settings).step label config).all fun config' =>
      config'.shared.journal.length = config.shared.journal.length) :
    Separated path label config := by
  rintro ⟨config', entry, stepped, journal, _⟩
  simp [stepped, journal] at unchanged

/-- A document is created, and deleted by another connection after that. -/
def Schedule.announcedInTurn : Schedule :=
  connects 0 "a" ++ connects 1 "b" ++ serves 0 (.push [⟨1, 0⟩]) 7 ++
    [.environment (.forward 1), .environment (.write 1)] ++ serves 1 (.delete none) 5

theorem Schedule.announcedInTurn_enabled : Schedule.announcedInTurn.Enabled := by
  decide +kernel

theorem broadcasts_in_order_announcedInTurn :
    BroadcastsInOrder ⟨"v", "d"⟩
      (Schedule.announcedInTurn.config Schedule.announcedInTurn_enabled) := by
  have admitted : Machine.Admits
      (fun label config => Uninterrupted label config ∧
        (commitsOf ⟨"v", "d"⟩ config.shared.journal =
            announcedOf ⟨"v", "d"⟩ config.shared.channel ∨
          ((serverMachine Settings.reference).step label config).all fun config' =>
            config'.shared.journal.length = config.shared.journal.length))
      Schedule.announcedInTurn (initialConfig Settings.reference Db.empty) := by
    decide +kernel
  exact broadcasts_in_order (fun _ _ => rfl)
    (admitted.mono fun _ _ kept => ⟨kept.1, kept.2.elim .of_announced .of_journal⟩)
    (Schedule.run_eq_config Schedule.announcedInTurn_enabled)

/-- A document is deleted after it was created, but the delete is announced
first. -/
def Schedule.overtaken : Schedule :=
  connects 0 "a" ++ connects 1 "b" ++ connects 2 "c" ++
    receives 0 (.push [⟨1, 0⟩]) 5 ++ serves 1 (.delete none) 5 ++ completes 0 2 ++
    [.environment (.forward 2), .environment (.forward 2), .environment (.write 2),
      .environment (.write 2)]

theorem Schedule.overtaken_enabled : Schedule.overtaken.Enabled := by
  decide +kernel

theorem Schedule.overtaken_resting :
    ∀ connId, (overtaken.config overtaken_enabled).thread connId = none
  | 0 => rfl
  | 1 => rfl
  | 2 => rfl
  | _ + 3 => rfl

/-- The connection that listens. -/
def Connection.observer : Connection ReferenceBlob :=
  ((Schedule.overtaken.config Schedule.overtaken_enabled).shared.connections 2).get
    (by decide +kernel)

/-- The last it gets about the deleted document is a delta. -/
theorem delete_overtaken :
    Reachable Settings.reference Db.empty
        (Schedule.overtaken.config Schedule.overtaken_enabled) ∧
      ¬ BroadcastsInOrder ⟨"v", "d"⟩
        (Schedule.overtaken.config Schedule.overtaken_enabled) := by
  refine ⟨Schedule.reachable Schedule.overtaken_enabled, fun inOrder => ?_⟩
  have registered : (Schedule.overtaken.config
      Schedule.overtaken_enabled).shared.connections 2 = some .observer :=
    (Option.some_get _).symm
  have concerned : (((Schedule.overtaken.config
      Schedule.overtaken_enabled).shared.channel.drop 0).filter fun sent =>
        sent.event.about = some ⟨"v", "d"⟩).getLast?.all (fun sent =>
          (Server.forwarded 2 .observer sent.event).isSome) = true := by
    decide +kernel
  have delta : ((Connection.observer.wire ++ Connection.observer.writeQueue).filter
      (ServerMsg.isAbout "d")).getLast?.any (fun message =>
        ¬ message.IsDeletion) = true := by
    decide +kernel
  obtain ⟨message, last, kept⟩ := (Option.any_eq_true _ _).mp delta
  have receiving : Connection.observer.broadcastRx = some (0, (Schedule.overtaken.config
      Schedule.overtaken_enabled).shared.channel.length) := by
    decide +kernel
  have told := inOrder.observed Schedule.overtaken_resting registered
    (by decide +kernel) (by decide +kernel) receiving
    ((Option.all_eq_true _ _).mp concerned) message last
  exact of_decide_eq_true kept
    (told.mpr (Option.isNone_iff_eq_none.mp (by decide +kernel)))

end VaultCrdtServer
