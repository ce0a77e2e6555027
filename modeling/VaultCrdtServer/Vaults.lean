import VaultCrdtServer.Foundation.Purge
import VaultCrdtServer.Vaults.Views

/-!
# Vaults are isolated

Connections of different vaults share the server, its channel and its tables.
What is stored for a vault, and what its connections are sent, depends on their
own steps, on the cleanup and on the order in which connections are made, and on
nothing the connections of other vaults do.
-/

namespace VaultCrdtServer

open Interleaving
open Server (Mirrors member_eq_some_iff ofVault_eq ofVault_congr)

variable {Blob : Type}

section Calls

variable {settings : Settings Blob} {vault : String} {connId : Nat}
variable {full full' part : Server Blob} {connection : Connection Blob}

/-- A write queue does not depend on the channel. -/
theorem enqueue_narrow (message : ServerMsg Blob) (channel : List (Sent Blob)) :
    Server.enqueue message (connection.narrow vault channel) =
      (Server.enqueue message connection).map
        (Prod.map id (Connection.narrow vault channel)) := by
  by_cases running : connection.writing = true
  · by_cases room : connection.writeQueue.length < writeQueueCapacity
    · simp [Server.enqueue, Connection.narrow, running, room]
    · simp [Server.enqueue, Connection.narrow, running, room]
  · simp [Server.enqueue, Connection.narrow, running]

/-- The event that is due is for the vault of its frame. -/
theorem Settled.event_vaultId
    {libraries : Libraries Blob}
    {id : FrameId}
    {vaultId : String}
    {decoded : Except String (ClientMsg Blob)}
    {response : ServerMsg Blob}
    {event : BroadcastEvent Blob}
    {entries : List (JournalEntry Blob)}
    (settled : Settled libraries id vaultId decoded (response, some event) entries) :
    event.vaultId = vaultId := by
  cases settled with
  | stored | deleted => rfl

/-- A connection publishes for its vault. -/
theorem publish_vaultId
    {event : BroadcastEvent Blob}
    (answers : Answering full)
    (pre : serverPre settings connId (.publish event) full)
    (registered : full.connections connId = some connection) :
    event.vaultId = connection.vaultId := by
  obtain ⟨_, answered, only, settled⟩ := pre
  have given : answered ∈ full.answersTo (full.current connId) := by
    rw [only]
    exact List.mem_singleton_self answered
  have origin : answered.origin.connId = connId :=
    congrArg FrameId.connId (Recorded.origin_of_mem_answersTo given)
  have own : answered ∈ full.answersOn connId :=
    List.mem_filter.mpr ⟨List.mem_of_mem_filter given, decide_eq_true origin⟩
  exact settled.event_vaultId.trans ((answers connId connection registered).vault answered own)

/-- A call of a connection of the vault has the same reply in the mirror. -/
theorem Server.Mirrors.exec
    {call : ServerCall Blob}
    {circumstance : Circumstance}
    {reply : call.Reply}
    (mirrors : full.Mirrors vault part)
    (receives : Receives full)
    (answers : Answering full)
    (pre : serverPre settings connId call full)
    (within : call.Within vault)
    (registered : full.connections connId = some connection)
    (home : connection.vaultId = vault)
    (executed : Server.exec settings connId call circumstance full =
      some (reply, full')) :
    ∃ part', Server.exec settings connId call circumstance part = some (reply, part') ∧
      full'.Mirrors vault part' := by
  have ours := mirrors.registered registered home
  have own : full.ofVault vault connId = true :=
    (ofVault_eq registered).trans (decide_eq_true home)
  cases call with
  | db call =>
      have result : full.query settings.toLibraries (some (full.current connId)) call
          circumstance = (reply, full') := Option.some.inj executed
      obtain ⟨same, mirrored⟩ := mirrors.query settings within
        (some (full.current connId)) circumstance
      rw [result] at same mirrored
      refine ⟨_, ?_, mirrored⟩
      simp only [Server.exec, mirrors.current registered home]
      exact congrArg some (Prod.ext same rfl)
  | lock key =>
      cases free : full.docLocks key with
      | some holder => simp [Server.exec, free] at executed
      | none =>
          simp only [Server.exec, free, Option.some.injEq, Prod.mk.injEq] at executed
          obtain ⟨_, rfl⟩ := executed
          have free' : part.docLocks key = none := by
            rw [mirrors.docLocks key, free, Option.filter_none]
          refine ⟨part.setLock key (some connId), ?_, mirrors.setLock ?_ key⟩
          · simp [Server.exec, free']
          · simp [Option.filter, own]
  | unlock key =>
      simp only [Server.exec, Option.some.injEq, Prod.mk.injEq] at executed
      obtain ⟨_, rfl⟩ := executed
      exact ⟨part.setLock key none, rfl, mirrors.setLock rfl key⟩
  | respond frame response =>
      obtain ⟨connection', registered', ⟨rfl, after, vaultId, _, _, queued, rfl⟩ |
        ⟨rfl, ended, rfl⟩⟩ := respond_cases executed
      · obtain rfl := Option.some.inj (registered.symm.trans registered')
        refine ⟨{ part.setConnection connId (after.narrow vault full.channel) with
          answers := part.answers ++
            [⟨full.current connId, connection.vaultId, frame, response⟩] }, ?_, ?_⟩
        · simp only [Server.exec, Server.respond, ours, Option.bind_eq_bind,
            Option.bind_some, enqueue_narrow, queued, Option.map_some, Prod.map_apply,
            id_eq, ↓reduceIte, mirrors.current registered home]
          rfl
        · exact (mirrors.setConnection registered home vaultId).answer home
      · obtain rfl := Option.some.inj (registered.symm.trans registered')
        refine ⟨part, ?_, mirrors⟩
        simp [Server.exec, Server.respond, ours, Server.enqueue, Connection.narrow, ended]
  | publish event =>
      simp only [Server.exec, Option.some.injEq, Prod.mk.injEq] at executed
      obtain ⟨_, rfl⟩ := executed
      have about := (publish_vaultId answers pre registered).trans home
      refine ⟨_, rfl, ?_⟩
      have sent := mirrors.send receives [⟨some (full.current connId), event⟩]
      have kept : eventsOf vault [(⟨some (full.current connId), event⟩ : Sent Blob)] =
          [⟨some (part.current connId), event⟩] := by
        simp [eventsOf, about, mirrors.current registered home]
      rw [kept] at sent
      exact sent
  | subscribe =>
      simp only [Server.exec, Server.subscribe, Option.bind_eq_bind,
        Option.map_eq_some_iff, Option.bind_eq_some_iff, Option.some.injEq,
        Prod.mk.injEq] at executed
      obtain ⟨_, ⟨connection', registered', rfl⟩, _, rfl⟩ := executed
      obtain rfl := Option.some.inj (registered.symm.trans registered')
      refine ⟨_, ?_, mirrors.setConnection registered home (by rfl)⟩
      simp [Server.exec, Server.subscribe, ours, Connection.narrow, positionIn_length,
        mirrors.channel]

/-- A call of another connection is not seen in the mirror. -/
theorem Server.Mirrors.execElsewhere
    {call : ServerCall Blob}
    {circumstance : Circumstance}
    {reply : call.Reply}
    (mirrors : full.Mirrors vault part)
    (receives : Receives full)
    (answers : Answering full)
    (pre : serverPre settings connId call full)
    (within : call.Within connection.vaultId)
    (registered : full.connections connId = some connection)
    (different : connection.vaultId ≠ vault)
    (executed : Server.exec settings connId call circumstance full =
      some (reply, full')) :
    full'.Mirrors vault part := by
  have foreign : full.ofVault vault connId = false :=
    (ofVault_eq registered).trans (decide_eq_false different)
  cases call with
  | db call =>
      have result : full.query settings.toLibraries (some (full.current connId)) call
          circumstance = (reply, full') := Option.some.inj executed
      have unseen := mirrors.queryElsewhere settings within different
        (some (full.current connId)) circumstance
      rw [result] at unseen
      exact unseen
  | lock key =>
      cases free : full.docLocks key with
      | some holder => simp [Server.exec, free] at executed
      | none =>
          simp only [Server.exec, free, Option.some.injEq, Prod.mk.injEq] at executed
          obtain ⟨_, rfl⟩ := executed
          apply mirrors.setLockElsewhere
          · rw [free, Option.filter_none]
          · simp [Option.filter, foreign]
  | unlock key =>
      simp only [Server.exec, Option.some.injEq, Prod.mk.injEq] at executed
      obtain ⟨_, rfl⟩ := executed
      have held : full.docLocks key = some connId := pre
      apply mirrors.setLockElsewhere
      · simp [Option.filter, held, foreign]
      · rfl
  | respond frame response =>
      obtain ⟨connection', registered', ⟨_, after, vaultId, _, _, _, rfl⟩ |
        ⟨_, _, rfl⟩⟩ := respond_cases executed
      · obtain rfl := Option.some.inj (registered.symm.trans registered')
        exact (mirrors.setElsewhere registered different vaultId).answerElsewhere different
      · exact mirrors
  | publish event =>
      simp only [Server.exec, Option.some.injEq, Prod.mk.injEq] at executed
      obtain ⟨_, rfl⟩ := executed
      have about : event.vaultId ≠ vault := by
        rw [publish_vaultId answers pre registered]
        exact different
      have sent := mirrors.send receives [⟨some (full.current connId), event⟩]
      have dropped : eventsOf vault [(⟨some (full.current connId), event⟩ : Sent Blob)] =
          [] := by
        simp [eventsOf, about]
      rw [dropped, List.append_nil] at sent
      exact sent
  | subscribe =>
      simp only [Server.exec, Server.subscribe, Option.bind_eq_bind,
        Option.map_eq_some_iff, Option.bind_eq_some_iff, Option.some.injEq,
        Prod.mk.injEq] at executed
      obtain ⟨_, ⟨connection', registered', rfl⟩, _, rfl⟩ := executed
      obtain rfl := Option.some.inj (registered.symm.trans registered')
      exact mirrors.setElsewhere registered different (by rfl)

end Calls

/-! ## Events -/

/-- The event a connection receives next. -/
def Server.upcoming (connId : Nat) (server : Server Blob) : Option (Sent Blob) := do
  let connection ← server.connections connId
  let (_, cursor) ← connection.broadcastRx
  server.channel[cursor]?

/-- What happens besides the programs concerns a vault when it happens on a
connection of the vault, and does not pass over an event for another one, or to
a path of its blobs.  The cleanup concerns all vaults. -/
def ServerEvent.concerns (vault : String) (server : Server Blob) : ServerEvent → Bool
  | .expireTombstones _ | .expireStalePeers _ => true
  | .forward connId =>
      server.ofVault vault connId &&
        (server.upcoming connId).any fun sent => sent.event.vaultId = vault
  | .write connId | .writeFails connId => server.ofVault vault connId
  | .blobPathChanged vaultId _ _ => vaultId = vault

section Events

variable {settings : Settings Blob} {vault : String} {connId : Nat}
variable {full full' part : Server Blob} {connection : Connection Blob}

/-- Where the connection and the event are the vault's, an event is received in
both. -/
theorem Server.Mirrors.forward
    {sent : Sent Blob}
    (mirrors : full.Mirrors vault part)
    (registered : full.connections connId = some connection)
    (home : connection.vaultId = vault)
    (upcoming : full.upcoming connId = some sent)
    (about : sent.event.vaultId = vault)
    (forwards : full.forward settings connId = some full') :
    ∃ part', part.forward settings connId = some part' ∧ full'.Mirrors vault part' := by
  have ours := mirrors.registered registered home
  simp only [Server.forward, Option.bind_eq_bind, Option.bind_eq_some_iff,
    Prod.exists] at forwards
  obtain ⟨connection', registered', subscribed, cursor, receiving, sent', next, result⟩ :=
    forwards
  obtain rfl := Option.some.inj (registered.symm.trans registered')
  have same : sent' = sent := by
    simp only [Server.upcoming, registered, receiving, Option.bind_eq_bind,
      Option.bind_some, next, Option.some.injEq] at upcoming
    exact upcoming
  subst same
  have receiving' : (connection.narrow vault full.channel).broadcastRx =
      some (positionIn vault full.channel subscribed,
        positionIn vault full.channel cursor) := by
    rw [Connection.narrow, receiving]
    rfl
  have next' : part.channel[positionIn vault full.channel cursor]? = some sent' := by
    rw [mirrors.channel]
    exact getElem?_eventsOf next about
  have made' : Server.forwarded connId
      { connection.narrow vault full.channel with
        broadcastRx := some (positionIn vault full.channel subscribed,
          positionIn vault full.channel cursor + 1) } sent'.event =
      Server.forwarded connId
        { connection with broadcastRx := some (subscribed, cursor + 1) } sent'.event := by
    cases sent'.event <;> rfl
  have narrowed : Connection.narrow vault full.channel
      { connection with broadcastRx := some (subscribed, cursor + 1) } =
      { connection.narrow vault full.channel with
        broadcastRx := some (positionIn vault full.channel subscribed,
          positionIn vault full.channel cursor + 1) } := by
    rw [Connection.narrow, Option.map_some, Prod.map_apply, positionIn_succ next,
      if_pos about]
    rfl
  have inTime : ¬ broadcastCapacity <
      part.channel.length - positionIn vault full.channel cursor := by
    split_ifs at result with lagged
    have fewer : (eventsOf vault full.channel).length -
        positionIn vault full.channel cursor ≤ full.channel.length - cursor :=
      length_eventsOf_sub_le
    rw [mirrors.channel]
    omega
  split_ifs at result with lagged
  simp only [Server.forward, ours, receiving', next', Option.bind_eq_bind,
    Option.bind_some, if_neg inTime, made']
  cases made : Server.forwarded connId
      { connection with broadcastRx := some (subscribed, cursor + 1) } sent'.event with
  | none =>
      rw [made] at result
      obtain rfl := Option.some.inj result
      refine ⟨_, rfl, ?_⟩
      rw [← narrowed]
      exact mirrors.setConnection registered home (by rfl)
  | some message =>
      rw [made] at result
      dsimp only at result ⊢
      split_ifs at result ⊢ with encodes
      rw [← narrowed, enqueue_narrow]
      cases queued : Server.enqueue message
          { connection with broadcastRx := some (subscribed, cursor + 1) } with
      | none =>
          rw [queued] at result
          cases result
      | some arrived =>
          obtain ⟨arrives, after⟩ := arrived
          rw [queued] at result
          cases arrives with
          | false => cases result
          | true =>
              obtain rfl := Option.some.inj result
              have vaultId := (enqueue_frame queued).1
              exact ⟨_, rfl, mirrors.setConnection registered home vaultId⟩

/-- An event for another vault is passed over, and that is not seen. -/
theorem Server.Mirrors.forwardElsewhere
    {sent : Sent Blob}
    (mirrors : full.Mirrors vault part)
    (registered : full.connections connId = some connection)
    (home : connection.vaultId = vault)
    (upcoming : full.upcoming connId = some sent)
    (about : sent.event.vaultId ≠ vault)
    (forwards : full.forward settings connId = some full') :
    full'.Mirrors vault part := by
  have ours := mirrors.registered registered home
  obtain ⟨connection', subscribed, cursor, sent', after, registered', receiving, next, rfl,
    result⟩ := forward_cases forwards
  obtain rfl := Option.some.inj (registered.symm.trans registered')
  have same : sent' = sent := by
    simp only [Server.upcoming, registered, receiving, Option.bind_eq_bind,
      Option.bind_some, next, Option.some.injEq] at upcoming
    exact upcoming
  subst same
  rcases result with ⟨_, rfl⟩ | ⟨message, made, _, _⟩
  · have narrowed : Connection.narrow vault full.channel
        { connection with broadcastRx := some (subscribed, cursor + 1) } =
        connection.narrow vault full.channel := by
      rw [Connection.narrow, Connection.narrow, receiving, Option.map_some, Option.map_some,
        Prod.map_apply, Prod.map_apply, positionIn_succ next, if_neg about]
    have same : ({ connection with broadcastRx := some (subscribed, cursor + 1) } :
        Connection Blob).vaultId = connection.vaultId := rfl
    have moved := mirrors.setConnection registered home same
    rw [narrowed] at moved
    have still : part.setConnection connId (connection.narrow vault full.channel) = part := by
      rw [Server.setConnection, ← ours, Function.update_eq_self]
    rw [still] at moved
    exact moved
  · have foreign : sent'.event.vaultId ≠ connection.vaultId := by
      rw [home]
      exact about
    cases event : sent'.event with
    | delta | delete | blobPathChanged =>
        rw [event] at made foreign
        simp only [Server.forwarded, Option.ite_none_right_eq_some] at made
        exact absurd made.1.1 foreign

/-- What concerns the vault happens in both. -/
theorem Server.Mirrors.environment
    {event : ServerEvent}
    (mirrors : full.Mirrors vault part)
    (receives : Receives full)
    (concerns : event.concerns vault full = true)
    (stepped : full.environment settings event = some full') :
    ∃ part', part.environment settings event = some part' ∧ full'.Mirrors vault part' := by
  cases event with
  | expireTombstones circumstance =>
      simp only [Server.environment, Option.some.injEq] at stepped
      subst stepped
      exact ⟨_, rfl, mirrors.cleanup
        (fun _ => ⟨_, _, _, _, rfl, rfl, mirrors.db.expireTombstones _⟩) circumstance⟩
  | expireStalePeers circumstance =>
      simp only [Server.environment, Option.some.injEq] at stepped
      subst stepped
      exact ⟨_, rfl, mirrors.cleanup
        (fun _ => ⟨_, _, _, _, rfl, rfl, mirrors.db.expireStalePeers _⟩) circumstance⟩
  | forward connId =>
      obtain ⟨connection, subscribed, cursor, sent, _, registered, receiving, next, _⟩ :=
        forward_cases stepped
      have upcoming : full.upcoming connId = some sent := by
        simp [Server.upcoming, registered, receiving, next]
      simp only [ServerEvent.concerns, upcoming, ofVault_eq registered, Option.any_some,
        Bool.and_eq_true, decide_eq_true_eq] at concerns
      exact mirrors.forward registered concerns.1 upcoming concerns.2 stepped
  | write connId =>
      simp only [Server.environment, Server.write, Option.bind_eq_bind,
        Option.bind_eq_some_iff] at stepped
      obtain ⟨connection, registered, result⟩ := stepped
      have home : connection.vaultId = vault := by
        simp only [ServerEvent.concerns, ofVault_eq registered] at concerns
        exact of_decide_eq_true concerns
      have ours := mirrors.registered registered home
      split at result
      · rename_i message rest running queued
        simp only [Option.some.injEq] at result
        subst result
        have kept : ({ connection with
            writeQueue := rest, wire := connection.wire ++ [message] } :
              Connection Blob).vaultId = connection.vaultId := rfl
        refine ⟨_, ?_, (mirrors.setConnection registered home kept).note _
          fun session =>
            { session with
              written := session.written ++ [⟨message, part.journal.length⟩] }⟩
        simp [Server.environment, Server.write, ours, Connection.narrow, running, queued]
      · cases result
  | writeFails connId =>
      simp only [Server.environment, Server.writeFails, Option.bind_eq_bind,
        Option.bind_eq_some_iff, Option.some.injEq] at stepped
      obtain ⟨connection, registered, rfl⟩ := stepped
      have home : connection.vaultId = vault := by
        simp only [ServerEvent.concerns, ofVault_eq registered] at concerns
        exact of_decide_eq_true concerns
      have ours := mirrors.registered registered home
      refine ⟨_, ?_, mirrors.setConnection registered home (by rfl)⟩
      simp [Server.environment, Server.writeFails, ours, Connection.narrow]
  | blobPathChanged vaultId pathKey seq =>
      simp only [Server.environment, Option.some.injEq] at stepped
      subst stepped
      have home : vaultId = vault := of_decide_eq_true concerns
      have sent := mirrors.send receives [⟨none, .blobPathChanged vaultId pathKey seq⟩]
      have kept : eventsOf vault
          [(⟨none, .blobPathChanged vaultId pathKey seq⟩ : Sent Blob)] =
          [⟨none, .blobPathChanged vaultId pathKey seq⟩] := by
        simp [eventsOf, BroadcastEvent.vaultId, home]
      rw [kept] at sent
      exact ⟨_, rfl, sent⟩

/-- What does not concern the vault is not seen. -/
theorem Server.Mirrors.environmentElsewhere
    {event : ServerEvent}
    (mirrors : full.Mirrors vault part)
    (receives : Receives full)
    (unconcerned : event.concerns vault full = false)
    (stepped : full.environment settings event = some full') :
    full'.Mirrors vault part := by
  cases event with
  | expireTombstones | expireStalePeers => cases unconcerned
  | forward connId =>
      obtain ⟨connection, subscribed, cursor, sent, after, registered, receiving, next, changed,
        result⟩ := forward_cases stepped
      have upcoming : full.upcoming connId = some sent := by
        simp [Server.upcoming, registered, receiving, next]
      by_cases home : connection.vaultId = vault
      · refine mirrors.forwardElsewhere registered home upcoming ?_ stepped
        simpa [ServerEvent.concerns, upcoming, ofVault_eq registered, home] using unconcerned
      · rw [changed]
        refine mirrors.setElsewhere registered home ?_
        rcases result with ⟨_, rfl⟩ | ⟨_, _, _, rfl⟩
        · rfl
        · rfl
  | write connId =>
      simp only [Server.environment, Server.write, Option.bind_eq_bind,
        Option.bind_eq_some_iff] at stepped
      obtain ⟨connection, registered, result⟩ := stepped
      have different : connection.vaultId ≠ vault := by
        simp only [ServerEvent.concerns, ofVault_eq registered] at unconcerned
        exact of_decide_eq_false unconcerned
      split at result
      · simp only [Option.some.injEq] at result
        subst result
        apply Server.Mirrors.noteElsewhere
        exact mirrors.setElsewhere registered different (by rfl)
      · cases result
  | writeFails connId =>
      simp only [Server.environment, Server.writeFails, Option.bind_eq_bind,
        Option.bind_eq_some_iff, Option.some.injEq] at stepped
      obtain ⟨connection, registered, rfl⟩ := stepped
      have different : connection.vaultId ≠ vault := by
        simp only [ServerEvent.concerns, ofVault_eq registered] at unconcerned
        exact of_decide_eq_false unconcerned
      exact mirrors.setElsewhere registered different (by rfl)
  | blobPathChanged vaultId pathKey seq =>
      simp only [Server.environment, Option.some.injEq] at stepped
      subst stepped
      have different : vaultId ≠ vault := of_decide_eq_false unconcerned
      have sent := mirrors.send receives [⟨none, .blobPathChanged vaultId pathKey seq⟩]
      have dropped : eventsOf vault
          [(⟨none, .blobPathChanged vaultId pathKey seq⟩ : Sent Blob)] = [] := by
        simp [eventsOf, BroadcastEvent.vaultId, different]
      rw [dropped, List.append_nil] at sent
      exact sent

end Events

/-! ## Runs -/

/-- The steps that concern a vault: those of its connections and of the cleanup.
That a connection is made concerns every vault, as the ids are handed out in
order. -/
def concerns
    {settings : Settings Blob}
    (vault : String) :
    (serverMachine settings).Label → (serverMachine settings).Config → Bool
  | .act connId _, config | .finish connId, config | .abandon connId, config
  | .start connId (.frame _), config => config.shared.ofVault vault connId
  | .start _ (.connect ..), _ => true
  | .environment event, config => ServerEvent.concerns vault config.shared event

section Runs

variable {settings : Settings Blob} {vault : String} {connId : Nat}

theorem Reachable.step
    {initial : Db Blob}
    {label : (serverMachine settings).Label}
    {config config' : (serverMachine settings).Config}
    (reachable : Reachable settings initial config)
    (stepped : Machine.Steps (serverMachine settings) label config config') :
    Reachable settings initial config' := by
  have runs : (serverMachine settings).run [label] config = some config' := by
    simp [Machine.run, Machine.step_eq_some_iff.mpr stepped]
  exact reachable.run runs

/-- A connection that has ended is of no vault. -/
theorem ofVault_disconnect {server : Server Blob} :
    (server.disconnect connId).ofVault vault connId = false := by
  simp [Server.ofVault, Server.vaultOf, Server.disconnect]

/-- One run mirrors another in a vault: the threads of its connections are the
same, too. -/
structure Mirrored (vault : String) (full part : (serverMachine settings).Config) : Prop where
  reached : ∃ initial, Reachable settings initial full
  reached' : ∃ initial, Reachable settings initial part
  shared : full.shared.Mirrors vault part.shared
  threads : ∀ connId, full.shared.ofVault vault connId = true →
    part.thread connId = full.thread connId

variable {label : (serverMachine settings).Label}
variable {full full' part : (serverMachine settings).Config}

/-- The threads of a vault's connections stay the same when one goes on in
both. -/
theorem Mirrored.advance
    {rest : Option (Program (serverSignature Blob) (serverMachine settings).Outcome)}
    {server server' : Server Blob}
    (mirrored : Mirrored vault full part)
    (others : ∀ other, other ≠ connId →
      server.vaultOf other = full.shared.vaultOf other)
    (other : Nat)
    (home : server.ofVault vault other = true) :
    (part.advance connId rest server').thread other =
      (full.advance connId rest server).thread other := by
  by_cases same : other = connId
  · subst same
    rw [full.advance_thread_self, part.advance_thread_self]
  · rw [full.advance_thread_other same, part.advance_thread_other same]
    exact mirrored.threads other ((ofVault_congr (others other same)).symm.trans home)

/-- So do they when another connection goes on. -/
theorem Mirrored.advanceElsewhere
    {rest : Option (Program (serverSignature Blob) (serverMachine settings).Outcome)}
    {server : Server Blob}
    (mirrored : Mirrored vault full part)
    (others : ∀ other, other ≠ connId →
      server.vaultOf other = full.shared.vaultOf other)
    (foreign : server.ofVault vault connId = false)
    (other : Nat)
    (home : server.ofVault vault other = true) :
    part.thread other = (full.advance connId rest server).thread other := by
  have different : other ≠ connId := by
    rintro rfl
    rw [foreign] at home
    cases home
  rw [full.advance_thread_other different]
  exact mirrored.threads other ((ofVault_congr (others other different)).symm.trans home)

/-- A step that concerns the vault is taken in both. -/
theorem Mirrored.matched
    (mirrored : Mirrored vault full part)
    (stepped : Machine.Steps (serverMachine settings) label full full')
    (concerned : concerns vault label full = true) :
    ∃ part', Machine.Steps (serverMachine settings) label part part' ∧
      Mirrored vault full' part' := by
  obtain ⟨⟨initial, reached⟩, ⟨initial', reached'⟩, mirrors, threads⟩ := mirrored
  have again : ∀ {part'}, Machine.Steps (serverMachine settings) label part part' →
      full'.shared.Mirrors vault part'.shared →
      (∀ other, full'.shared.ofVault vault other = true →
        part'.thread other = full'.thread other) →
      ∃ part', Machine.Steps (serverMachine settings) label part part' ∧
        Mirrored vault full' part' := fun stepped' mirrors threads =>
    ⟨_, stepped', ⟨initial, reached.step stepped⟩, ⟨initial', reached'.step stepped'⟩,
      mirrors, threads⟩
  have here : Mirrored vault full part :=
    ⟨⟨initial, reached⟩, ⟨initial', reached'⟩, mirrors, threads⟩
  have numbered := reached.holds.invariant.1
  cases stepped with
  | @act _ connId circumstance call next reply shared current effect =>
      have own : full.shared.ofVault vault connId = true := concerned
      obtain ⟨connection, registered⟩ := Option.isSome_iff_exists.mp
        (numbered.attached connId (by rw [current]; rfl))
      have home : connection.vaultId = vault := by
        rw [ofVault_eq registered] at own
        exact of_decide_eq_true own
      have within : call.Within vault :=
        (reached.confined connId _ vault current (of_decide_eq_true own)).1
      obtain ⟨shared', effect', mirrors'⟩ := mirrors.exec (reached.receives)
        reached.answers (reached.holds.pre current) within registered home effect
      exact again (.act ((threads connId own).trans current) effect') mirrors'
        (here.advance fun other _ => vaultOf_exec effect other)
  | @environment _ event shared effect =>
      obtain ⟨shared', effect', mirrors'⟩ := mirrors.environment reached.receives concerned effect
      refine again (.environment effect') mirrors' ?_
      intro other home
      exact threads other ((ofVault_congr (vaultOf_environment effect other)).symm.trans home)
  | @start _ connId task program shared current effect =>
      cases task with
      | connect vaultId peerId deviceName features =>
          have unlocked : full.shared.Unlocked connId := (reached.holds.idle current).1
          have started : Server.start settings connId
              (.connect vaultId peerId deviceName features) full.shared =
              some (program, shared) := effect
          simp only [Server.start] at started
          split_ifs at started with allowed
          obtain ⟨rfl, rfl⟩ := Prod.mk.inj (Option.some.inj started)
          have idle : part.thread connId = none := by
            refine Option.eq_none_iff_forall_ne_some.mpr fun program runs => ?_
            have numbered' := reached'.holds.invariant.1
            have counted := numbered'.registered connId
              (numbered'.attached connId (by rw [runs]; rfl))
            rw [mirrors.connCounter, ← allowed.1] at counted
            exact absurd counted (Nat.lt_irrefl _)
          refine again (.start idle ?_)
            (mirrors.accept unlocked (by rfl) _ (Function.update part.shared.sessions connId
              (some ⟨⟨vaultId, peerId⟩, [], []⟩)))
            (here.advance ?_)
          · rw [← mirrors.connCounter] at allowed
            exact if_pos allowed
          · intro other different
            simp [Server.vaultOf, Server.setConnection, Function.update_of_ne different]
      | frame frame =>
          have own : full.shared.ofVault vault connId = true := concerned
          obtain ⟨connection, registered, started⟩ := Option.map_eq_some_iff.mp effect
          obtain ⟨rfl, rfl⟩ := Prod.mk.inj started
          have home : connection.vaultId = vault := by
            rw [ofVault_eq registered] at own
            exact of_decide_eq_true own
          have kept : ({ connection with received := connection.received + 1 } :
              Connection Blob).vaultId = connection.vaultId := rfl
          refine again (.start ((threads connId own).trans current) ?_)
            ((mirrors.setConnection registered home kept).note _
              fun session => { session with frames := session.frames ++ [frame] })
            (here.advance fun other _ => vaultOf_setConnection registered kept other)
          have ours := mirrors.registered registered home
          have started' : Server.start settings connId (.frame frame) part.shared =
              some (serveFrame settings connection.vaultId connId frame,
                (part.shared.setConnection connId (Connection.narrow vault full.shared.channel
                  { connection with received := connection.received + 1 })).note connId
                    fun session => { session with frames := session.frames ++ [frame] }) := by
            simp only [Server.start, ours, Option.map_some]
            rfl
          exact started'
  | @finish _ connId flow current =>
      have own : full.shared.ofVault vault connId = true := concerned
      cases flow with
      | again =>
          exact again (.finish ((threads connId own).trans current)) mirrors
            (here.advance fun _ _ => rfl)
      | stop =>
          exact again (.finish ((threads connId own).trans current)) mirrors.disconnect
            (here.advance fun _ => vaultOf_disconnect)
  | abandon =>
      exact again .abandon mirrors.disconnect (here.advance fun _ => vaultOf_disconnect)

/-- A step that does not concern the vault is not seen. -/
theorem Mirrored.unseen
    (mirrored : Mirrored vault full part)
    (stepped : Machine.Steps (serverMachine settings) label full full')
    (unconcerned : concerns vault label full = false) :
    Mirrored vault full' part := by
  obtain ⟨⟨initial, reached⟩, reached', mirrors, threads⟩ := mirrored
  have here : Mirrored vault full part := ⟨⟨initial, reached⟩, reached', mirrors, threads⟩
  have numbered := reached.holds.invariant.1
  suffices seen : full'.shared.Mirrors vault part.shared ∧
      ∀ other, full'.shared.ofVault vault other = true →
        part.thread other = full'.thread other from
    ⟨⟨initial, reached.step stepped⟩, reached', seen.1, seen.2⟩
  cases stepped with
  | @act _ connId circumstance call next reply shared current effect =>
      have foreign : full.shared.ofVault vault connId = false := unconcerned
      obtain ⟨connection, registered⟩ := Option.isSome_iff_exists.mp
        (numbered.attached connId (by rw [current]; rfl))
      have different : connection.vaultId ≠ vault := by
        rw [ofVault_eq registered] at foreign
        exact of_decide_eq_false foreign
      have within : call.Within connection.vaultId :=
        (reached.confined connId _ _ current (by simp [Server.vaultOf, registered])).1
      refine ⟨mirrors.execElsewhere reached.receives reached.answers
        (reached.holds.pre current) within registered different effect, ?_⟩
      exact here.advanceElsewhere (fun other _ => vaultOf_exec effect other)
        ((ofVault_congr (vaultOf_exec effect connId)).trans foreign)
  | @environment _ event shared effect =>
      refine ⟨mirrors.environmentElsewhere reached.receives unconcerned effect, ?_⟩
      intro other home
      exact threads other ((ofVault_congr (vaultOf_environment effect other)).symm.trans home)
  | @start _ connId task program shared current effect =>
      cases task with
      | connect => cases unconcerned
      | frame frame =>
          have foreign : full.shared.ofVault vault connId = false := unconcerned
          obtain ⟨connection, registered, started⟩ := Option.map_eq_some_iff.mp effect
          obtain ⟨rfl, rfl⟩ := Prod.mk.inj started
          have different : connection.vaultId ≠ vault := by
            rw [ofVault_eq registered] at foreign
            exact of_decide_eq_false foreign
          have kept : ({ connection with received := connection.received + 1 } :
              Connection Blob).vaultId = connection.vaultId := rfl
          have same := vaultOf_setConnection registered kept
          exact ⟨(mirrors.setElsewhere registered different kept).noteElsewhere _,
            here.advanceElsewhere (fun other _ => same other)
              ((ofVault_congr (same connId)).trans foreign)⟩
  | @finish _ connId flow current =>
      have foreign : full.shared.ofVault vault connId = false := unconcerned
      cases flow with
      | again => exact ⟨mirrors, here.advanceElsewhere (fun _ _ => rfl) foreign⟩
      | stop =>
          exact ⟨mirrors.disconnectElsewhere foreign,
            here.advanceElsewhere (fun _ => vaultOf_disconnect) ofVault_disconnect⟩
  | @abandon _ connId =>
      have foreign : full.shared.ofVault vault connId = false := unconcerned
      exact ⟨mirrors.disconnectElsewhere foreign,
        here.advanceElsewhere (fun _ => vaultOf_disconnect) ofVault_disconnect⟩

/-- Leaving out what does not concern the vault is not seen in it. -/
theorem mirrored_unwinds (vault : String) :
    Machine.Unwinds (M := serverMachine settings) (concerns vault) (Mirrored vault) where
  matched := fun mirrored stepped concerned => mirrored.matched stepped concerned
  unseen := fun mirrored stepped unconcerned => mirrored.unseen stepped unconcerned

/-- Servers that are started on databases that agree on the vault. -/
theorem mirrored_initial
    {initial initial' : Db Blob}
    (agree : initial.AgreeOn vault initial') :
    Mirrored vault (initialConfig settings initial) (initialConfig settings initial') where
  reached := ⟨initial, [], rfl⟩
  reached' := ⟨initial', [], rfl⟩
  shared := ⟨agree, rfl, fun _ => rfl, fun _ => rfl, rfl, rfl⟩
  threads := fun _ _ => rfl

/-- What a connection has been sent, and what is waiting to be sent on it. -/
structure Socket (Blob : Type) where
  wire : List (ServerMsg Blob)
  writeQueue : List (ServerMsg Blob)
  writing : Bool

/-- The socket of a connection of the vault. -/
def Server.socket
    (vault : String)
    (connId : Nat)
    (server : Server Blob) : Option (Socket Blob) :=
  (server.member vault connId).map fun connection =>
    ⟨connection.wire, connection.writeQueue, connection.writing⟩

/-- Two servers cannot be told apart in a vault. -/
structure Server.AgreeOn (vault : String) (server server' : Server Blob) : Prop where
  rows : server.db.AgreeOn vault server'.db
  answers : (server.answers.filter fun answered => answered.vaultId = vault) =
    server'.answers.filter fun answered => answered.vaultId = vault
  events : eventsOf vault server.channel = eventsOf vault server'.channel
  sockets : ∀ connId, server.socket vault connId = server'.socket vault connId

theorem Server.Mirrors.socket
    {full part : Server Blob}
    (mirrors : full.Mirrors vault part)
    (connId : Nat) :
    part.socket vault connId = full.socket vault connId := by
  unfold Server.socket
  rw [mirrors.connections connId, Option.map_map]
  rfl

/-- Two runs take the same steps where they concern a vault.  Then neither the
rows of the vault nor the sockets of its connections tell them apart. -/
theorem vaults_isolated
    {initial initial' : Db Blob}
    {labels labels' : List (serverMachine settings).Label}
    {config config' : (serverMachine settings).Config}
    (agree : initial.AgreeOn vault initial')
    (runs : (serverMachine settings).run labels (initialConfig settings initial) =
      some config)
    (runs' : (serverMachine settings).run labels' (initialConfig settings initial') =
      some config')
    (same : Machine.purge (concerns vault) labels (initialConfig settings initial) =
      Machine.purge (concerns vault) labels' (initialConfig settings initial')) :
    config.shared.AgreeOn vault config'.shared := by
  obtain ⟨part, _, first, second⟩ := (mirrored_unwinds vault).determines runs runs'
    (mirrored_initial agree) (mirrored_initial (.refl vault initial')) same
  have mirrors := first.shared
  have mirrors' := second.shared
  exact
    { rows := mirrors.db.trans mirrors'.db.symm
      answers := mirrors.answers.symm.trans mirrors'.answers
      events := mirrors.channel.symm.trans mirrors'.channel
      sockets := fun connId => (mirrors.socket connId).symm.trans (mirrors'.socket connId) }

end Runs

/-- A connection to the vault "w" is made, and does nothing yet. -/
def Schedule.neighbour : Schedule :=
  connects 0 "a" ++ [.start 1 (.connect "w" "b" "" [])]

/-- It does nothing while a document is pushed to the vault "v". -/
def Schedule.quiet : Schedule :=
  neighbour ++ serves 0 (.push [⟨1, 0⟩]) 7

/-- It pushes a document itself, and the other connection hears of that. -/
def Schedule.busy : Schedule :=
  neighbour ++ completes 1 2 ++ receives 0 (.push [⟨1, 0⟩]) 4 ++
    serves 1 (.push [⟨2, 0⟩]) 7 ++ [.environment (.forward 0)] ++ completes 0 3

theorem Schedule.quiet_enabled : Schedule.quiet.Enabled := by
  decide +kernel

theorem Schedule.busy_enabled : Schedule.busy.Enabled := by
  decide +kernel

theorem Schedule.quiet_marks :
    Machine.marks (concerns "v") Schedule.quiet (initialConfig Settings.reference Db.empty) =
      List.replicate 14 true := by
  decide +kernel

theorem Schedule.busy_marks :
    Machine.marks (concerns "v") Schedule.busy (initialConfig Settings.reference Db.empty) =
      List.replicate 5 true ++ List.replicate 3 false ++ List.replicate 5 true ++
        List.replicate 10 false ++ List.replicate 4 true := by
  decide +kernel

theorem vaults_isolated_neighbour :
    (Schedule.busy.config Schedule.busy_enabled).shared.AgreeOn "v"
      (Schedule.quiet.config Schedule.quiet_enabled).shared := by
  have same : Machine.purge (concerns "v") Schedule.busy
        (initialConfig Settings.reference Db.empty) =
      Machine.purge (concerns "v") Schedule.quiet
        (initialConfig Settings.reference Db.empty) := by
    rw [Machine.purge_eq_filterMap, Machine.purge_eq_filterMap, Schedule.busy_marks,
      Schedule.quiet_marks]
    rfl
  exact vaults_isolated (.refl "v" Db.empty) (Schedule.run_eq_config _)
    (Schedule.run_eq_config _) same

end VaultCrdtServer
