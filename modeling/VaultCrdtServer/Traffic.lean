import VaultCrdtServer.Broadcast.Announced

/-!
# Socket traffic

What a connection has put on its socket.  Responses and broadcasts share one
write queue.  Among the messages of a connection the responses are those to its
frames, in the order of the frames and one for a frame, and the broadcasts are
those of the channel in its order.
-/

namespace VaultCrdtServer

open Interleaving

variable {Blob : Type}

/-- The responses given on a connection, oldest first. -/
def Server.answersOn (connId : Nat) (server : Server Blob) : List (Answered Blob) :=
  server.answers.filter fun answered => answered.origin.connId = connId

/-- The answer to a successful handshake. -/
def authOk : ServerMsg Blob := .authOk protocolVersion (some ["delete_incarnation"])

/-- The messages that are no broadcasts. -/
def replies (messages : List (ServerMsg Blob)) : List (ServerMsg Blob) :=
  messages.filter fun message => !message.isBroadcast

theorem replies_append (first second : List (ServerMsg Blob)) :
    replies (first ++ second) = replies first ++ replies second :=
  List.filter_append ..

theorem replies_singleton (message : ServerMsg Blob) :
    replies [message] = if message.isBroadcast then [] else [message] := by
  cases broadcast : message.isBroadcast <;> simp [replies, broadcast]

/-- A connection has been sent its answers in the order of its frames.  When its
writer has ended it was sent a prefix of that. -/
structure Responds
    (connId : Nat)
    (connection : Connection Blob)
    (answers : List (Answered Blob)) : Prop where
  inOrder : (answers.map fun answered => answered.origin.number).Pairwise (· < ·)
  received : ∀ answered ∈ answers, answered.origin.number ≤ connection.received
  vault : ∀ answered ∈ answers, answered.vaultId = connection.vaultId
  greeted : connection.wire.head? = some authOk
  writing : connection.writing = true →
    replies (connection.wire ++ connection.writeQueue) =
      authOk :: answers.map Answered.response
  written : replies connection.wire <+: authOk :: answers.map Answered.response

/-- Every connection has been sent its answers. -/
def Answering (server : Server Blob) : Prop :=
  ∀ connId connection, server.connections connId = some connection →
    Responds connId connection (server.answersOn connId)

section Connections

variable {connId : Nat} {connection : Connection Blob}
variable {answers : List (Answered Blob)}

/-- A connection that has just been accepted. -/
theorem Responds.accepted
    (wire : connection.wire = [authOk])
    (queue : connection.writeQueue = []) :
    Responds connId connection [] where
  inOrder := .nil
  received := fun _ member => by cases member
  vault := fun _ member => by cases member
  greeted := by rw [wire, List.head?_cons]
  writing := fun _ => by
    rw [wire, queue]
    rfl
  written := by
    rw [wire]
    exact List.prefix_rfl

/-- A frame is answered. -/
theorem Responds.respond
    (responds : Responds connId connection answers)
    (answered : Answered Blob)
    (plain : answered.response.isBroadcast = false)
    (current : answered.origin.number = connection.received)
    (vault : answered.vaultId = connection.vaultId)
    (unanswered : ∀ earlier ∈ answers, earlier.origin.number ≠ connection.received)
    (running : connection.writing = true) :
    Responds connId
      { connection with writeQueue := connection.writeQueue ++ [answered.response] }
      (answers ++ [answered]) where
  inOrder := by
    rw [List.map_append, List.map_singleton, List.pairwise_append]
    refine ⟨responds.inOrder, List.pairwise_singleton _ _, ?_⟩
    intro number member number' last
    obtain ⟨earlier, given, rfl⟩ := List.mem_map.mp member
    obtain rfl := List.mem_singleton.mp last
    rw [current]
    exact lt_of_le_of_ne (responds.received earlier given) (unanswered earlier given)
  received := by
    intro other member
    rcases List.mem_append.mp member with earlier | last
    · exact responds.received other earlier
    · rw [List.mem_singleton.mp last, current]
  vault := by
    intro other member
    rcases List.mem_append.mp member with earlier | last
    · exact responds.vault other earlier
    · rw [List.mem_singleton.mp last, vault]
  greeted := responds.greeted
  writing := by
    intro _
    have before := responds.writing running
    rw [← List.append_assoc, replies_append, before, replies_singleton, plain,
      List.map_append]
    rfl
  written := by
    rw [List.map_append]
    exact responds.written.trans (List.prefix_append _ _)

/-- A broadcast is queued, or an event is passed over. -/
theorem Responds.forward
    {queue : List (ServerMsg Blob)}
    (responds : Responds connId connection answers)
    (broadcastRx : Option (Nat × Nat))
    (broadcasts : replies queue = []) :
    Responds connId
      { connection with
        broadcastRx := broadcastRx, writeQueue := connection.writeQueue ++ queue }
      answers where
  inOrder := responds.inOrder
  received := responds.received
  vault := responds.vault
  greeted := responds.greeted
  writing := by
    intro running
    have before := responds.writing running
    rw [← List.append_assoc, replies_append, before, broadcasts, List.append_nil]
  written := responds.written

/-- One round of `ws_writer`. -/
theorem Responds.write
    {message : ServerMsg Blob}
    {rest : List (ServerMsg Blob)}
    (responds : Responds connId connection answers)
    (running : connection.writing = true)
    (queued : connection.writeQueue = message :: rest) :
    Responds connId
      { connection with writeQueue := rest, wire := connection.wire ++ [message] }
      answers := by
  have same : (connection.wire ++ [message]) ++ rest =
      connection.wire ++ connection.writeQueue := by
    rw [queued, List.append_assoc, List.singleton_append]
  have all : replies ((connection.wire ++ [message]) ++ rest) =
      authOk :: answers.map Answered.response :=
    (congrArg replies same).trans (responds.writing running)
  refine
    { inOrder := responds.inOrder
      received := responds.received
      vault := responds.vault
      greeted := ?_
      writing := fun _ => all
      written := ?_ }
  · rw [List.head?_append, responds.greeted]
    rfl
  · rw [replies_append] at all
    exact all ▸ List.prefix_append _ _

/-- The writer ends, and the queue with it. -/
theorem Responds.writeFails (responds : Responds connId connection answers) :
    Responds connId { connection with writing := false, writeQueue := [] } answers where
  inOrder := responds.inOrder
  received := responds.received
  vault := responds.vault
  greeted := responds.greeted
  writing := fun running => by cases running
  written := responds.written

/-- Another frame is received. -/
theorem Responds.receive (responds : Responds connId connection answers) :
    Responds connId { connection with received := connection.received + 1 } answers where
  inOrder := responds.inOrder
  received := fun answered member => Nat.le_succ_of_le (responds.received answered member)
  vault := responds.vault
  greeted := responds.greeted
  writing := responds.writing
  written := responds.written

end Connections

section Steps

variable {settings : Settings Blob} {connId : Nat} {server server' : Server Blob}

/-- One connection is replaced, and at most its own answers change. -/
theorem Answering.replace
    {connection : Connection Blob}
    (answers : Answering server)
    (connections : server'.connections =
      Function.update server.connections connId (some connection))
    (others : ∀ other, other ≠ connId → server'.answersOn other = server.answersOn other)
    (responds : Responds connId connection (server'.answersOn connId)) :
    Answering server' := by
  intro other otherConnection registered
  rw [connections] at registered
  by_cases same : other = connId
  · subst same
    rw [Function.update_self, Option.some.injEq] at registered
    exact registered ▸ responds
  · rw [Function.update_of_ne same] at registered
    rw [others other same]
    exact answers other otherConnection registered

/-- No answer is given, and connections at most end. -/
theorem Answering.of_connections
    (answers : Answering server)
    (connections : ∀ connId connection, server'.connections connId = some connection →
      server.connections connId = some connection)
    (same : server'.answers = server.answers) :
    Answering server' := by
  intro connId connection registered
  have given : server'.answersOn connId = server.answersOn connId := by
    unfold Server.answersOn
    rw [same]
  rw [given]
  exact answers connId connection (connections connId connection registered)

/-- A database call is not seen on the sockets. -/
theorem Answering.query
    (answers : Answering server)
    (origin : Option FrameId)
    (call : DbCall Blob)
    (circumstance : Circumstance) :
    Answering (server.query settings.toLibraries origin call circumstance).2 := by
  unfold Server.query
  cases circumstance.fault with
  | some error => exact answers
  | none =>
      cases call.exec settings.toLibraries circumstance.now server.db with
      | error error => exact answers
      | ok result => exact answers

/-- A response goes to the connection whose frame it answers. -/
theorem Answering.respond
    {frame : Frame Blob}
    {response : ServerMsg Blob}
    {sent : Bool}
    (answers : Answering server)
    (plain : response.isBroadcast = false)
    (unanswered : server.answersTo (server.current connId) = [])
    (responded : server.respond connId frame response = some (sent, server')) :
    Answering server' := by
  obtain ⟨connection, registered, ⟨_, connection', _, _, _, queued, rfl⟩ | ⟨_, _, rfl⟩⟩ :=
    respond_cases responded
  · have current : (server.current connId).number = connection.received := by
      simp [Server.current, registered]
    simp only [Server.enqueue] at queued
    split_ifs at queued with running room
    · obtain rfl := (Prod.mk.inj (Option.some.inj queued)).2
      refine answers.replace rfl ?_ ?_
      · intro other different
        have foreign : (server.current connId).connId ≠ other := Ne.symm different
        simp [Server.answersOn, List.filter_append, foreign]
      · have own : Server.answersOn connId
            { server.setConnection connId
                { connection with writeQueue := connection.writeQueue ++ [response] } with
              answers := server.answers ++
                [⟨server.current connId, connection.vaultId, frame, response⟩] } =
            server.answersOn connId ++
              [⟨server.current connId, connection.vaultId, frame, response⟩] := by
          have same : (server.current connId).connId = connId := rfl
          simp [Server.answersOn, List.filter_append, same]
        rw [own]
        refine (answers connId connection registered).respond
          ⟨server.current connId, connection.vaultId, frame, response⟩
          plain current rfl ?_ running
        intro earlier given number
        obtain ⟨member, origin⟩ := List.mem_filter.mp given
        have again : earlier ∈ server.answersTo (server.current connId) := by
          refine List.mem_filter.mpr ⟨member, decide_eq_true ?_⟩
          change (⟨earlier.origin.connId, earlier.origin.number⟩ : FrameId) = _
          rw [of_decide_eq_true origin, number, ← current]
          rfl
        rw [unanswered] at again
        cases again
    · cases queued
  · exact answers

/-- A call gives its own frame's answer, if any. -/
theorem answers_exec
    {call : ServerCall Blob}
    {circumstance : Circumstance}
    {reply : call.Reply}
    (answers : Answering server)
    (pre : serverPre settings connId call server)
    (executed : Server.exec settings connId call circumstance server =
      some (reply, server')) :
    Answering server' := by
  cases call with
  | db call =>
      have result : (server.query settings.toLibraries
          (some (server.current connId)) call circumstance).2 = server' :=
        congrArg Prod.snd (Option.some.inj executed)
      rw [← result]
      exact answers.query _ call circumstance
  | lock key =>
      cases free : server.docLocks key with
      | some holder => simp [Server.exec, free] at executed
      | none =>
          simp only [Server.exec, free, Option.some.injEq, Prod.mk.injEq] at executed
          obtain ⟨_, rfl⟩ := executed
          exact answers
  | unlock key =>
      simp only [Server.exec, Option.some.injEq, Prod.mk.injEq] at executed
      obtain ⟨_, rfl⟩ := executed
      exact answers
  | respond frame response =>
      obtain ⟨connection, registered, _⟩ := respond_cases executed
      obtain ⟨_, settled⟩ := pre.2.2 connection registered
      exact answers.respond settled.response_isBroadcast pre.1 executed
  | publish event =>
      simp only [Server.exec, Option.some.injEq, Prod.mk.injEq] at executed
      obtain ⟨_, rfl⟩ := executed
      exact answers
  | subscribe =>
      simp only [Server.exec, Server.subscribe, Option.bind_eq_bind,
        Option.map_eq_some_iff, Option.bind_eq_some_iff, Option.some.injEq,
        Prod.mk.injEq] at executed
      obtain ⟨_, ⟨connection, registered, rfl⟩, _, rfl⟩ := executed
      refine answers.replace rfl (fun _ _ => rfl) ?_
      have responds := answers connId connection registered
      exact { responds with }

/-- The socket tasks write what is queued. -/
theorem answers_environment
    {event : ServerEvent}
    (answers : Answering server)
    (stepped : server.environment settings event = some server') :
    Answering server' := by
  cases event with
  | expireTombstones circumstance | expireStalePeers circumstance =>
      simp only [Server.environment, Option.some.injEq] at stepped
      rw [← stepped]
      exact answers.query none _ circumstance
  | forward connId =>
      obtain ⟨connection, subscribed, cursor, sent, connection', registered, _, _,
        rfl, ⟨_, rfl⟩ | ⟨message, made, _, rfl⟩⟩ := forward_cases stepped
      · refine answers.replace rfl (fun _ _ => rfl) ?_
        have responds := answers connId connection registered
        exact { responds with }
      · refine answers.replace rfl (fun _ _ => rfl) ?_
        refine (answers connId connection registered).forward _ ?_
        rw [replies_singleton, Server.isBroadcast_of_forwarded made]
        rfl
  | write connId =>
      simp only [Server.environment, Server.write, Option.bind_eq_bind,
        Option.bind_eq_some_iff] at stepped
      obtain ⟨connection, registered, result⟩ := stepped
      split at result
      · rename_i message rest running queued
        simp only [Option.some.injEq] at result
        rw [← result]
        exact answers.replace (by rfl) (fun _ _ => by rfl)
          ((answers connId connection registered).write running queued)
      · simp at result
  | writeFails connId =>
      simp only [Server.environment, Server.writeFails, Option.bind_eq_bind,
        Option.bind_eq_some_iff, Option.some.injEq] at stepped
      obtain ⟨connection, registered, rfl⟩ := stepped
      exact answers.replace rfl (fun _ _ => rfl)
        (answers connId connection registered).writeFails
  | blobPathChanged vaultId pathKey seq =>
      simp only [Server.environment, Option.some.injEq] at stepped
      rw [← stepped]
      exact answers

/-- A connection that ends is sent nothing any more. -/
theorem Answering.disconnect (answers : Answering server) :
    Answering (server.disconnect connId) := by
  refine answers.of_connections ?_ rfl
  intro other connection registered
  by_cases same : other = connId
  · subst same
    simp [Server.disconnect] at registered
  · simpa only [Server.disconnect, Function.update_of_ne same] using registered

/-- Every step answers as it should. -/
theorem answers_step
    {initial : Db Blob}
    {label : (serverMachine settings).Label}
    {config config' : (serverMachine settings).Config}
    (pre : ∀ {connId : Nat} {call : ServerCall Blob} {next},
      config.thread connId = some (.call call next) →
        serverPre settings connId call config.shared)
    (recorded : Recorded settings initial config.shared)
    (answers : Answering config.shared)
    (stepped : Machine.Steps (serverMachine settings) label config config') :
    Answering config'.shared := by
  cases stepped with
  | act current effect => exact answers_exec answers (pre current) effect
  | environment effect => exact answers_environment answers effect
  | @start _ connId _ _ _ current effect =>
      obtain ⟨_, _, _, connection, _, counted, _, _, _, _, queue, wire, rfl⟩ |
        ⟨frame, connection, registered, _, rfl⟩ := start_cases effect
      · refine answers.replace rfl (fun _ _ => rfl) ?_
        have none : config.shared.answersOn connId = [] := by
          refine List.filter_eq_nil_iff.mpr fun answered member origin => ?_
          have unused : config.shared.Unused answered.origin :=
            .inl (by rw [of_decide_eq_true origin, counted])
          have reported := (recorded.reported answered member).1
          rw [(recorded.unused _ unused).2.1] at reported
          cases reported
        change Responds connId connection (config.shared.answersOn connId)
        rw [none]
        exact .accepted wire queue
      · exact answers.replace rfl (fun _ _ => rfl)
          (answers _ connection registered).receive
  | @finish _ connId flow current =>
      cases flow with
      | again => exact answers
      | stop => exact answers.disconnect
  | abandon => exact answers.disconnect

end Steps

/-- In every reachable configuration the connections have been sent the answers
to their frames. -/
theorem Reachable.answers
    {settings : Settings Blob}
    {initial : Db Blob}
    {config : (serverMachine settings).Config}
    (reachable : Reachable settings initial config) :
    Answering config.shared := by
  refine reachable.induction (motive := fun config => Answering config.shared) ?_ ?_
  · exact fun _ _ registered => nomatch registered
  · exact fun holds answers stepped =>
      answers_step (fun current => holds.pre current) holds.invariant.2 answers stepped

/-! ## What a connection has been sent -/

/-- What is passed on about a document is about one of the connection's vault. -/
theorem Server.vault_of_forwarded
    {connId : Nat}
    {connection : Connection Blob}
    {event : BroadcastEvent Blob}
    {message : ServerMsg Blob}
    {path : DocPath}
    (made : Server.forwarded connId connection event = some message)
    (about : event.about = some path) :
    path.vault = connection.vaultId := by
  cases event with
  | delta | delete =>
      simp only [Server.forwarded, Option.ite_none_right_eq_some] at made
      obtain rfl := Option.some.inj about
      exact made.1.1
  | blobPathChanged => cases about

/-- The event that is due is for the other connections of the vault. -/
theorem Settled.addressed
    {libraries : Libraries Blob}
    {id : FrameId}
    {vaultId : String}
    {decoded : Except String (ClientMsg Blob)}
    {response message : ServerMsg Blob}
    {event : BroadcastEvent Blob}
    {entries : List (JournalEntry Blob)}
    {connId : Nat}
    {connection : Connection Blob}
    (settled : Settled libraries id vaultId decoded (response, some event) entries)
    (made : Server.forwarded connId connection event = some message) :
    vaultId = connection.vaultId ∧ id.connId ≠ connId := by
  cases settled with
  | stored | deleted =>
      simp only [Server.forwarded, Option.ite_none_right_eq_some] at made
      exact made.1

/-- An event that was sent for a frame is passed on within the vault of the frame,
to other connections. -/
theorem Recorded.forwarded
    {settings : Settings Blob}
    {initial : Db Blob}
    {server : Server Blob}
    {connId : Nat}
    {connection : Connection Blob}
    {message : ServerMsg Blob}
    (recorded : Recorded settings initial server)
    {sent : Sent Blob}
    {id : FrameId}
    (member : sent ∈ server.channel)
    (origin : sent.origin = some id)
    (made : Server.forwarded connId connection sent.event = some message) :
    id.connId ≠ connId ∧
      ∃ answered ∈ server.answersTo id, answered.vaultId = connection.vaultId := by
  obtain ⟨answered, given⟩ :=
    List.exists_mem_of_ne_nil _ (recorded.sent sent member id origin)
  have own : sent ∈ server.sentFor id := List.mem_filter.mpr ⟨member, by simp [origin]⟩
  obtain ⟨_, broadcast, settled, announced⟩ :=
    recorded.reported answered (List.mem_of_mem_filter given)
  rw [Recorded.origin_of_mem_answersTo given] at settled announced
  rcases announced with unsent | ⟨event, rfl, sentOnce⟩
  · rw [unsent] at own
    cases own
  · rw [sentOnce, List.mem_singleton] at own
    rw [own] at made
    obtain ⟨vault, other⟩ := settled.addressed made
    exact ⟨other, answered, given, vault⟩

/-- What is passed on to a connection: an event about a document of its vault,
sent for a frame of another connection that has been answered, or a path of its
vault's blobs, if it knows of blobs. -/
inductive PassedOn
    (connId : Nat)
    (connection : Connection Blob)
    (server : Server Blob)
    (sent : Sent Blob)
    (message : ServerMsg Blob) : Prop
  | document {id : FrameId} {answered : Answered Blob} {path : DocPath}
      (origin : sent.origin = some id)
      (other : id.connId ≠ connId)
      (given : answered ∈ server.answersTo id)
      (vault : answered.vaultId = connection.vaultId)
      (about : sent.event.about = some path)
      (home : path.vault = connection.vaultId)
  | blobPath {pathKey : String} {seq : Int}
      (origin : sent.origin = none)
      (event : sent.event = .blobPathChanged connection.vaultId pathKey seq)
      (feature : connection.hasBlobFeature = true)
      (made : message = .blobPathChanged pathKey seq)

/-- Whatever is passed on is one of these. -/
theorem Recorded.passedOn
    {settings : Settings Blob}
    {initial : Db Blob}
    {server : Server Blob}
    {connId : Nat}
    {connection : Connection Blob}
    {message : ServerMsg Blob}
    (recorded : Recorded settings initial server)
    {sent : Sent Blob}
    (member : sent ∈ server.channel)
    (made : Server.forwarded connId connection sent.event = some message) :
    PassedOn connId connection server sent message := by
  cases origin : sent.origin with
  | some id =>
      obtain ⟨other, answered, given, vault⟩ := recorded.forwarded member origin made
      obtain ⟨_, _, path, _, _, _, about, _⟩ := recorded.announces member origin
      exact .document origin other given vault about (Server.vault_of_forwarded made about)
  | none =>
      obtain ⟨vaultId, pathKey, seq, event⟩ := recorded.foreign sent member origin
      rw [event] at made
      simp only [Server.forwarded, Option.ite_none_right_eq_some, Option.some.injEq] at made
      obtain ⟨⟨rfl, feature⟩, rfl⟩ := made
      exact .blobPath origin event feature rfl

/-- The messages of a connection, on its socket and in its queue, are the answer
to its handshake, the responses to its frames and the broadcasts it was to make
of the channel. -/
structure SocketTraffic
    (connId : Nat)
    (connection : Connection Blob)
    (server : Server Blob) : Prop where
  /-- Frames are answered in their order, and none twice. -/
  responds : Responds connId connection (server.answersOn connId)
  /-- Broadcasts follow the channel from the subscription on. -/
  delivered : Delivered connId connection server.channel
  /-- What is passed on was sent for another connection of the same vault, or is a
  path of its blobs. -/
  foreign : ∀ sent ∈ server.channel, ∀ message,
    Server.forwarded connId connection sent.event = some message →
      PassedOn connId connection server sent message

/-- In every reachable configuration every connection has been sent the answers
to its frames and its share of the channel, and nothing else. -/
theorem socket_traffic
    {settings : Settings Blob}
    {initial : Db Blob}
    {config : (serverMachine settings).Config}
    {connId : Nat}
    {connection : Connection Blob}
    (reachable : Reachable settings initial config)
    (registered : config.shared.connections connId = some connection) :
    SocketTraffic connId connection config.shared where
  responds := reachable.answers connId connection registered
  delivered := reachable.receives connId connection registered
  foreign := fun _ member _ made => reachable.recorded.passedOn member made

/-- A connection that has been sent a broadcast of either kind asks for a pong. -/
def Schedule.answered : Schedule :=
  connects 0 "a" ++ .start 1 (.connect "v" "b" "" ["blobs"]) :: completes 1 2 ++
    serves 0 (.push [⟨1, 0⟩]) 7 ++
    [.environment (.blobPathChanged "v" "a.png" 1), .environment (.forward 1),
      .environment (.forward 1), .environment (.write 1), .environment (.write 1)] ++
    serves 1 .ping 1

theorem Schedule.answered_enabled : Schedule.answered.Enabled := by
  decide +kernel

theorem socket_traffic_answered :
    ∃ connection,
      (Schedule.answered.config Schedule.answered_enabled).shared.connections 1 =
          some connection ∧
        SocketTraffic 1 connection
          (Schedule.answered.config Schedule.answered_enabled).shared := by
  have connected : ((Schedule.answered.config
      Schedule.answered_enabled).shared.connections 1).isSome = true := by
    decide +kernel
  obtain ⟨connection, registered⟩ := Option.isSome_iff_exists.mp connected
  exact ⟨connection, registered,
    socket_traffic (Schedule.reachable Schedule.answered_enabled) registered⟩

end VaultCrdtServer
