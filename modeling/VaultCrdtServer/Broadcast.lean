import VaultCrdtServer.History

/-!
# Broadcasts

What an event on the channel is about, and what a connection has received of
the channel.  Broadcasts reach the socket in the order of the channel, from the
subscription on, without a gap.
-/

namespace VaultCrdtServer

open Interleaving

variable {Blob : Type}

/-! ## Events -/

/-- The document an event is about. -/
def BroadcastEvent.about : BroadcastEvent Blob → Option DocPath
  | .delta vaultId docUuid .. => some ⟨vaultId, docUuid⟩
  | .delete vaultId docUuid .. => some ⟨vaultId, docUuid⟩
  | .blobPathChanged .. => none

/-- The event announces a delete. -/
def BroadcastEvent.IsDelete : BroadcastEvent Blob → Prop
  | .delete .. => True
  | _ => False

/-- The message passes an event on. -/
def ServerMsg.isBroadcast : ServerMsg Blob → Bool
  | .deltaBroadcast .. | .docDeleted .. | .blobPathChanged .. => true
  | _ => false

/-- Events are passed on as broadcasts. -/
theorem Server.isBroadcast_of_forwarded
    {connId : Nat}
    {connection : Connection Blob}
    {event : BroadcastEvent Blob}
    {message : ServerMsg Blob}
    (made : Server.forwarded connId connection event = some message) :
    message.isBroadcast = true := by
  cases event <;> simp only [Server.forwarded, Option.ite_none_right_eq_some,
    Option.some.injEq] at made <;> obtain ⟨_, rfl⟩ := made <;> rfl

namespace Settled

variable {libraries : Libraries Blob} {id : FrameId} {vaultId : String}
variable {decoded : Except String (ClientMsg Blob)} {answer : Answer Blob}
variable {entries : List (JournalEntry Blob)}

/-- A frame is not answered with a broadcast. -/
theorem response_isBroadcast
    (settled : Settled libraries id vaultId decoded answer entries) :
    answer.1.isBroadcast = false := by
  cases settled with
  | @plain response entries isPlain reads => cases response <;> first | rfl | cases isPlain
  | listed | stored | deleted | rejected => rfl

/-- The event that is due is about the document the frame has written to. -/
theorem announces
    {response : ServerMsg Blob}
    {event : BroadcastEvent Blob}
    (settled : Settled libraries id vaultId decoded (response, some event) entries) :
    ∃ reads entry path, entries = reads ++ [entry] ∧
      (∀ entry ∈ reads, entry.call.isRead = true) ∧
      entry.committed = some path ∧ event.about = some path ∧
      (event.IsDelete ↔ entry.Deletes path) := by
  cases settled with
  | @stored _ _ _ _ _ _ reads entry asked submits readsFirst made stores reports =>
      refine ⟨reads, entry, _, rfl, readsFirst, stores.committed, rfl, ?_⟩
      refine iff_of_false (fun isDelete => isDelete) ?_
      rintro ⟨_, deletedBy, expected, deletes⟩
      obtain ⟨_, _, _, stores⟩ := stores
      simp [deletes] at stores
  | @deleted _ _ _ _ _ _ reads outcome before after asked readsFirst buried =>
      refine ⟨reads, _, _, rfl, readsFirst, ?_, rfl, ?_⟩
      · cases outcome with
        | rejected live => cases buried
        | deleted | idempotentNoLive => rfl
      · refine iff_of_true trivial ⟨?_, _, _, rfl⟩
        cases outcome with
        | rejected live => cases buried
        | deleted | idempotentNoLive => rfl

end Settled

/-- The one call a frame has committed. -/
theorem eq_of_committed
    {reads : List (JournalEntry Blob)}
    {entry other : JournalEntry Blob}
    (readsFirst : ∀ entry ∈ reads, entry.call.isRead = true)
    (member : other ∈ reads ++ [entry])
    (committed : other.committed.isSome = true) :
    other = entry := by
  rw [List.mem_append, List.mem_singleton] at member
  rcases member with read | same
  · simp [JournalEntry.committed_of_isRead (readsFirst other read)] at committed
  · exact same

/-- What is sent about a document is sent for a frame. -/
theorem Recorded.origin_of_about
    {settings : Settings Blob}
    {initial : Db Blob}
    {server : Server Blob}
    (recorded : Recorded settings initial server)
    {sent : Sent Blob}
    (member : sent ∈ server.channel)
    (about : sent.event.about ≠ none) :
    ∃ id, sent.origin = some id := by
  cases origin : sent.origin with
  | some id => exact ⟨id, rfl⟩
  | none =>
      obtain ⟨_, _, _, event⟩ := recorded.foreign sent member origin
      rw [event] at about
      exact absurd rfl about

/-- An event that was sent for a frame announces the one call the frame has
committed. -/
theorem Recorded.announces
    {settings : Settings Blob}
    {initial : Db Blob}
    {server : Server Blob}
    (recorded : Recorded settings initial server)
    {sent : Sent Blob}
    {id : FrameId}
    (member : sent ∈ server.channel)
    (origin : sent.origin = some id) :
    ∃ reads entry path, server.entriesOf id = reads ++ [entry] ∧
      (∀ entry ∈ reads, entry.call.isRead = true) ∧
      entry.committed = some path ∧ sent.event.about = some path ∧
      (sent.event.IsDelete ↔ entry.Deletes path) := by
  obtain ⟨answered, given⟩ :=
    List.exists_mem_of_ne_nil _ (recorded.sent sent member id origin)
  have answers := Recorded.origin_of_mem_answersTo given
  obtain ⟨_, broadcast, settled, announced⟩ :=
    recorded.reported answered (List.mem_of_mem_filter given)
  rw [answers] at settled announced
  have own : sent ∈ server.sentFor id := List.mem_filter.mpr ⟨member, by simp [origin]⟩
  rcases announced with unsent | ⟨event, rfl, sentOnce⟩
  · rw [unsent] at own
    cases own
  · rw [sentOnce, List.mem_singleton] at own
    rw [own]
    exact settled.announces

/-! ## Delivery -/

/-- The broadcasts a connection is to make of a part of the channel. -/
def Server.heard
    (connId : Nat)
    (connection : Connection Blob)
    (channel : List (Sent Blob))
    (subscribed cursor : Nat) : List (ServerMsg Blob) :=
  ((channel.take cursor).drop subscribed).filterMap fun sent =>
    Server.forwarded connId connection sent.event

/-- A connection has been sent what it was to make of the channel, from its
subscription up to its cursor.  When its writer has ended it was sent a prefix
of that. -/
inductive Delivered
    (connId : Nat)
    (connection : Connection Blob)
    (channel : List (Sent Blob)) : Prop
  | unsubscribed
      (receiving : connection.broadcastRx = none)
      (none : (connection.wire ++ connection.writeQueue).filter
        ServerMsg.isBroadcast = [])
  | subscribed {subscribed cursor : Nat}
      (receiving : connection.broadcastRx = some (subscribed, cursor))
      (forwards : subscribed ≤ cursor)
      (bounded : cursor ≤ channel.length)
      (writing : connection.writing = true →
        (connection.wire ++ connection.writeQueue).filter ServerMsg.isBroadcast =
          Server.heard connId connection channel subscribed cursor)
      (written : connection.wire.filter ServerMsg.isBroadcast <+:
        Server.heard connId connection channel subscribed cursor)

/-- Every connection has been sent what it was to make of the channel. -/
def Receives (server : Server Blob) : Prop :=
  ∀ connId connection, server.connections connId = some connection →
    Delivered connId connection server.channel

section Delivery

variable {connId : Nat} {connection connection' : Connection Blob}
variable {channel : List (Sent Blob)} {server server' : Server Blob}

/-- What is sent later does not count yet. -/
theorem Delivered.append
    (delivered : Delivered connId connection channel)
    (later : List (Sent Blob)) :
    Delivered connId connection (channel ++ later) := by
  cases delivered with
  | unsubscribed receiving none => exact .unsubscribed receiving none
  | @subscribed subscribed cursor receiving forwards bounded writing written =>
      have same : Server.heard connId connection (channel ++ later) subscribed cursor =
          Server.heard connId connection channel subscribed cursor := by
        simp only [Server.heard, List.take_append_of_le_length bounded]
      refine .subscribed receiving forwards ?_ ?_ ?_
      · rw [List.length_append]
        omega
      · rwa [same]
      · rwa [same]

/-- Messages that are not broadcasts do not count. -/
theorem Delivered.enqueue
    {response : ServerMsg Blob}
    (delivered : Delivered connId connection channel)
    (plain : response.isBroadcast = false) :
    Delivered connId
      { connection with writeQueue := connection.writeQueue ++ [response] } channel := by
  have same : (connection.wire ++ (connection.writeQueue ++ [response])).filter
      ServerMsg.isBroadcast =
      (connection.wire ++ connection.writeQueue).filter ServerMsg.isBroadcast := by
    simp [List.filter_append, plain]
  cases delivered with
  | unsubscribed receiving none => exact .unsubscribed receiving (same.trans none)
  | subscribed receiving forwards bounded writing written =>
      exact .subscribed receiving forwards bounded
        (fun running => same.trans (writing running)) written

/-- A subscription starts at the end of the channel. -/
theorem Delivered.subscribe
    (delivered : Delivered connId connection channel)
    (receiving : connection.broadcastRx = none) :
    Delivered connId
      { connection with broadcastRx := some (channel.length, channel.length) }
      channel := by
  cases delivered with
  | subscribed receiving' => cases receiving.symm.trans receiving'
  | unsubscribed _ none =>
      have nothing : ∀ connection : Connection Blob,
          Server.heard connId connection channel channel.length channel.length = [] := by
        simp [Server.heard]
      refine .subscribed rfl (Nat.le_refl _) (Nat.le_refl _) ?_ ?_
      · exact fun _ => none.trans (nothing _).symm
      · rw [List.filter_append, List.append_eq_nil_iff] at none
        exact none.1 ▸ List.nil_prefix

variable (connId connection) in
/-- The cursor has moved over one event. -/
theorem heard_succ
    {subscribed cursor : Nat}
    {sent : Sent Blob}
    (forwards : subscribed ≤ cursor)
    (next : channel[cursor]? = some sent) :
    Server.heard connId connection channel subscribed (cursor + 1) =
      Server.heard connId connection channel subscribed cursor ++
        (Server.forwarded connId connection sent.event).toList := by
  have bounded : cursor < channel.length := (List.getElem?_eq_some_iff.mp next).1
  have reached : subscribed ≤ (channel.take cursor).length := by
    rw [List.length_take]
    omega
  simp only [Server.heard, List.take_add_one, next, Option.toList_some,
    List.drop_append_of_le_length reached, List.filterMap_append]
  cases made : Server.forwarded connId connection sent.event <;> simp [made]

/-- One round of `broadcast_fwd`. -/
theorem Delivered.forward
    {subscribed cursor : Nat}
    {sent : Sent Blob}
    (delivered : Delivered connId connection channel)
    (receiving : connection.broadcastRx = some (subscribed, cursor))
    (next : channel[cursor]? = some sent)
    (made : Server.forwarded connId connection sent.event = none ∧
        connection' = { connection with broadcastRx := some (subscribed, cursor + 1) } ∨
      ∃ message, Server.forwarded connId connection sent.event = some message ∧
        connection.writing = true ∧
        connection' = { connection with
          broadcastRx := some (subscribed, cursor + 1)
          writeQueue := connection.writeQueue ++ [message] }) :
    Delivered connId connection' channel := by
  have bounded : cursor < channel.length := (List.getElem?_eq_some_iff.mp next).1
  cases delivered with
  | unsubscribed unreceiving => cases receiving.symm.trans unreceiving
  | subscribed receiving' forwards _ writing written =>
      obtain ⟨rfl, rfl⟩ := Prod.mk.inj (Option.some.inj (receiving.symm.trans receiving'))
      have grown := heard_succ connId connection forwards next
      rcases made with ⟨skipped, rfl⟩ | ⟨message, made, running, rfl⟩
      · rw [skipped, Option.toList_none, List.append_nil] at grown
        refine .subscribed rfl (by omega) bounded ?_ ?_
        · exact fun running => (writing running).trans grown.symm
        · exact grown ▸ written
      · rw [made, Option.toList_some] at grown
        refine .subscribed rfl (by omega) bounded ?_ ?_
        · intro _
          have broadcast := Server.isBroadcast_of_forwarded made
          change (connection.wire ++ (connection.writeQueue ++ [message])).filter
            ServerMsg.isBroadcast = _
          rw [← List.append_assoc, List.filter_append, writing running,
            List.filter_singleton, broadcast]
          exact grown.symm
        · change connection.wire.filter ServerMsg.isBroadcast <+: Server.heard connId
            connection channel subscribed (cursor + 1)
          rw [grown]
          exact written.trans (List.prefix_append _ _)

/-- One round of `ws_writer`. -/
theorem Delivered.write
    {message : ServerMsg Blob}
    {rest : List (ServerMsg Blob)}
    (delivered : Delivered connId connection channel)
    (running : connection.writing = true)
    (queued : connection.writeQueue = message :: rest) :
    Delivered connId
      { connection with writeQueue := rest, wire := connection.wire ++ [message] }
      channel := by
  have same : (connection.wire ++ [message]) ++ rest =
      connection.wire ++ connection.writeQueue := by
    rw [queued, List.append_assoc, List.singleton_append]
  cases delivered with
  | unsubscribed receiving none =>
      exact .unsubscribed receiving ((congrArg _ same).trans none)
  | subscribed receiving forwards bounded writing written =>
      have all := (congrArg (List.filter ServerMsg.isBroadcast) same).trans
        (writing running)
      refine .subscribed receiving forwards bounded (fun _ => all) ?_
      rw [List.filter_append] at all
      exact all ▸ List.prefix_append _ _

/-- The writer ends, and the queue with it. -/
theorem Delivered.writeFails (delivered : Delivered connId connection channel) :
    Delivered connId { connection with writing := false, writeQueue := [] } channel := by
  cases delivered with
  | unsubscribed receiving none =>
      rw [List.filter_append, List.append_eq_nil_iff] at none
      refine .unsubscribed receiving ?_
      rw [List.append_nil]
      exact none.1
  | subscribed receiving forwards bounded writing written =>
      exact .subscribed receiving forwards bounded (fun running => nomatch running) written

/-- A connection is replaced by one that has been sent what it should. -/
theorem Receives.setConnection
    (receives : Receives server)
    (delivered : Delivered connId connection server.channel) :
    Receives (server.setConnection connId connection) := by
  intro other otherConnection registered
  by_cases same : other = connId
  · subst same
    simp only [Server.setConnection, Function.update_self, Option.some.injEq]
      at registered
    exact registered ▸ delivered
  · simp only [Server.setConnection, Function.update_of_ne same] at registered
    exact receives other otherConnection registered

/-- What is noted of a session is delivered to nobody. -/
theorem Receives.note
    (receives : Receives server)
    (passed : Session Blob → Session Blob) :
    Receives (server.note connId passed) := receives

/-- The connections are the same, and the channel has at most grown. -/
theorem Receives.of_connections
    (receives : Receives server)
    (connections : ∀ connId connection, server'.connections connId = some connection →
      server.connections connId = some connection)
    (later : List (Sent Blob))
    (channel : server'.channel = server.channel ++ later) :
    Receives server' := by
  intro connId connection registered
  rw [channel]
  exact (receives connId connection (connections connId connection registered)).append
    later

end Delivery

section Steps

variable {settings : Settings Blob} {connId : Nat} {server server' : Server Blob}

/-- A database call leaves connections and channel alone. -/
theorem Receives.query
    (receives : Receives server)
    (origin : Option FrameId)
    (call : DbCall Blob)
    (circumstance : Circumstance) :
    Receives (server.query settings.toLibraries origin call circumstance).2 := by
  unfold Server.query
  cases circumstance.fault with
  | some error => exact receives
  | none =>
      cases call.exec settings.toLibraries circumstance.now server.db with
      | error error => exact receives
      | ok result => exact receives

/-- A call delivers nothing but responses. -/
theorem receives_exec
    {call : ServerCall Blob}
    {circumstance : Circumstance}
    {reply : call.Reply}
    (receives : Receives server)
    (pre : serverPre settings connId call server)
    (executed : Server.exec settings connId call circumstance server =
      some (reply, server')) :
    Receives server' := by
  cases call with
  | db call =>
      have result : (server.query settings.toLibraries
          (some (server.current connId)) call circumstance).2 = server' :=
        congrArg Prod.snd (Option.some.inj executed)
      rw [← result]
      exact receives.query _ call circumstance
  | lock key =>
      cases free : server.docLocks key with
      | some holder => simp [Server.exec, free] at executed
      | none =>
          simp only [Server.exec, free, Option.some.injEq, Prod.mk.injEq] at executed
          obtain ⟨_, rfl⟩ := executed
          exact receives
  | unlock key =>
      simp only [Server.exec, Option.some.injEq, Prod.mk.injEq] at executed
      obtain ⟨_, rfl⟩ := executed
      exact receives
  | respond frame response =>
      obtain ⟨connection, registered,
        ⟨_, connection', _, _, _, queued, rfl⟩ | ⟨_, _, rfl⟩⟩ :=
        respond_cases executed
      · obtain ⟨_, settled⟩ := pre.2.2 connection registered
        have delivered := (receives connId connection registered).enqueue
          settled.response_isBroadcast
        simp only [Server.enqueue] at queued
        split_ifs at queued with writing room
        · obtain rfl := (Prod.mk.inj (Option.some.inj queued)).2
          exact receives.setConnection delivered
        · cases queued
      · exact receives
  | publish event =>
      simp only [Server.exec, Option.some.injEq, Prod.mk.injEq] at executed
      obtain ⟨_, rfl⟩ := executed
      exact receives.of_connections (fun _ _ => id) [_] rfl
  | subscribe =>
      simp only [Server.exec, Server.subscribe, Option.bind_eq_bind,
        Option.map_eq_some_iff, Option.bind_eq_some_iff, Option.some.injEq,
        Prod.mk.injEq] at executed
      obtain ⟨_, ⟨connection, registered, rfl⟩, _, rfl⟩ := executed
      have unsubscribed : server.Unsubscribed connId := pre
      simp only [Server.Unsubscribed, registered, Option.map_some, Option.some.injEq,
        Option.isSome_eq_false_iff, Option.isNone_iff_eq_none] at unsubscribed
      exact receives.setConnection
        ((receives connId connection registered).subscribe unsubscribed)

/-- The socket tasks deliver the channel. -/
theorem receives_environment
    {event : ServerEvent}
    (receives : Receives server)
    (stepped : server.environment settings event = some server') :
    Receives server' := by
  cases event with
  | expireTombstones circumstance | expireStalePeers circumstance =>
      simp only [Server.environment, Option.some.injEq] at stepped
      rw [← stepped]
      exact receives.query none _ circumstance
  | forward connId =>
      obtain ⟨connection, subscribed, cursor, sent, connection', registered, receiving,
        next, rfl, made⟩ := forward_cases stepped
      exact receives.setConnection
        ((receives connId connection registered).forward receiving next made)
  | write connId =>
      simp only [Server.environment, Server.write, Option.bind_eq_bind,
        Option.bind_eq_some_iff] at stepped
      obtain ⟨connection, registered, result⟩ := stepped
      split at result
      · rename_i message rest running queued
        simp only [Option.some.injEq] at result
        rw [← result]
        exact (receives.setConnection
          ((receives connId connection registered).write running queued)).note _
      · simp at result
  | writeFails connId =>
      simp only [Server.environment, Server.writeFails, Option.bind_eq_bind,
        Option.bind_eq_some_iff, Option.some.injEq] at stepped
      obtain ⟨connection, registered, rfl⟩ := stepped
      exact receives.setConnection (receives connId connection registered).writeFails
  | blobPathChanged vaultId pathKey seq =>
      simp only [Server.environment, Option.some.injEq] at stepped
      rw [← stepped]
      exact receives.of_connections (fun _ _ => id) [_] rfl

/-- A connection that ends receives nothing any more. -/
theorem Receives.disconnect (receives : Receives server) :
    Receives (server.disconnect connId) := by
  refine receives.of_connections ?_ [] (List.append_nil _).symm
  intro other connection registered
  by_cases same : other = connId
  · subst same
    simp [Server.disconnect] at registered
  · simpa only [Server.disconnect, Function.update_of_ne same] using registered

/-- Every step delivers what it should. -/
theorem receives_step
    {label : (serverMachine settings).Label}
    {config config' : (serverMachine settings).Config}
    (pre : ∀ {connId : Nat} {call : ServerCall Blob} {next},
      config.thread connId = some (.call call next) →
        serverPre settings connId call config.shared)
    (receives : Receives config.shared)
    (stepped : Machine.Steps (serverMachine settings) label config config') :
    Receives config'.shared := by
  cases stepped with
  | act current effect => exact receives_exec receives (pre current) effect
  | environment effect => exact receives_environment receives effect
  | start current effect =>
      obtain ⟨_, _, _, connection, _, _, _, _, receiving, _, queue, wire, rfl⟩ |
        ⟨frame, connection, registered, _, rfl⟩ := start_cases effect
      · refine receives.setConnection (.unsubscribed receiving ?_)
        rw [queue, wire]
        rfl
      · refine Receives.note (receives.setConnection ?_) _
        cases receives _ connection registered with
        | unsubscribed receiving none => exact .unsubscribed receiving none
        | subscribed receiving forwards bounded writing written =>
            exact .subscribed receiving forwards bounded writing written
  | @finish _ connId flow current =>
      cases flow with
      | again => exact receives
      | stop => exact receives.disconnect
  | abandon => exact receives.disconnect

end Steps

/-- In every reachable configuration the connections have been sent what they
were to make of the channel. -/
theorem Reachable.receives
    {settings : Settings Blob}
    {initial : Db Blob}
    {config : (serverMachine settings).Config}
    (reachable : Reachable settings initial config) :
    Receives config.shared := by
  obtain ⟨labels, runs⟩ := reachable
  have admitted : Machine.Admits (serverDiscipline settings False initial).allowed labels
      (initialConfig settings initial) :=
    Machine.Admits.of_forall labels _ fun _ _ => False.elim
  have kept := Machine.run_induction
    (motive := fun config =>
      (serverDiscipline settings False initial).Holds config ∧ Receives config.shared)
    (fun invariant allowed stepped =>
      ⟨(serverDiscipline_sound False.elim).step invariant.1 allowed stepped,
        receives_step (fun current => invariant.1.pre current) invariant.2 stepped⟩)
    ⟨serverDiscipline_initial, fun _ _ registered => (nomatch registered)⟩
    admitted runs
  exact kept.2

end VaultCrdtServer
