import VaultCrdtServer.Server.Contract

/-!
# Interference between connections

Whatever one connection, the cleanup task or the socket tasks do is
interference every other connection tolerates.
-/

namespace VaultCrdtServer

open Interleaving

variable {Blob : Type} {settings : Settings Blob}
variable {connId other : Nat} {server server' : Server Blob}

/-! ## One operation at a time -/

/-- A database call for someone else that writes to no path locked here. -/
theorem rely_query
    {libraries : Libraries Blob}
    {origin : Option FrameId}
    {call : DbCall Blob}
    {circumstance : Circumstance}
    (foreign : ∀ number, origin ≠ some ⟨other, number⟩)
    (elsewhere : ∀ path, call.target = some path →
      server.docLocks (lockKey path) ≠ some other) :
    Rely other server (server.query libraries origin call circumstance).2 := by
  unfold Server.query
  cases circumstance.fault with
  | some error => exact Rely.refl other server
  | none =>
      cases executed : call.exec libraries circumstance.now server.db with
      | error error => exact Rely.refl other server
      | ok result =>
          obtain ⟨reply, db⟩ := result
          have effect := DbCall.effect_of_exec executed
          have spared : ∀ path, server.docLocks (lockKey path) = some other →
              call.committed reply ≠ some path := by
            intro path held committed
            exact elsewhere path (DbCall.target_of_committed committed) held
          exact {
            locks := fun _ => Iff.rfl
            documents := fun path held => effect.documents_frame (spared path held)
            tombstones := fun path held => effect.tombstones_frame (spared path held)
            entries := by
              intro number
              simp [Server.entriesOf, Server.commit, foreign number]
            answers := fun _ => rfl
            sent := fun _ => rfl
            connection := rfl
            subscribed := rfl }

/-- A lock changes hands between others. -/
theorem rely_setLock
    {key : String}
    {holder : Option Nat}
    (notHeld : server.docLocks key ≠ some other)
    (notGiven : holder ≠ some other) :
    Rely other server (server.setLock key holder) where
  locks := by
    intro key'
    by_cases same : key' = key
    · subst same
      simp [Server.setLock, notHeld, notGiven]
    · simp [Server.setLock, Function.update_of_ne same]
  documents := fun _ _ => rfl
  tombstones := fun _ _ => Or.inl rfl
  entries := fun _ => rfl
  answers := fun _ => rfl
  sent := fun _ => rfl
  connection := rfl
  subscribed := rfl

/-- A connection changes in a way that is not its task's doing. -/
theorem rely_setConnection
    {connection connection' : Connection Blob}
    (registered : server.connections connId = some connection)
    (vaultId : connection'.vaultId = connection.vaultId)
    (received : connection'.received = connection.received)
    (subscribed : connection'.broadcastRx.isSome = connection.broadcastRx.isSome) :
    Rely other server (server.setConnection connId connection') where
  locks := fun _ => Iff.rfl
  documents := fun _ _ => rfl
  tombstones := fun _ _ => Or.inl rfl
  entries := fun _ => rfl
  answers := fun _ => rfl
  sent := fun _ => rfl
  connection := by
    by_cases same : other = connId
    · subst same
      simp [Server.setConnection, registered, vaultId, received]
    · simp [Server.setConnection, Function.update_of_ne same]
  subscribed := by
    by_cases same : other = connId
    · subst same
      simp [Server.setConnection, registered, subscribed]
    · simp [Server.setConnection, Function.update_of_ne same]

/-- What is noted of a session is no interference. -/
theorem Rely.note
    (tolerated : Rely other server server')
    (passed : Session Blob → Session Blob) :
    Rely other server (server'.note connId passed) :=
  { tolerated with }

/-- The handler of a blob request sends its event. -/
theorem rely_blobPathChanged (vaultId pathKey : String) (seq : Int) :
    Rely other server
      { server with
        channel := server.channel ++ [⟨none, .blobPathChanged vaultId pathKey seq⟩] } where
  locks := fun _ => Iff.rfl
  documents := fun _ _ => rfl
  tombstones := fun _ _ => Or.inl rfl
  entries := fun _ => rfl
  answers := fun _ => rfl
  sent := by
    intro number
    simp [Server.sentFor]
  connection := rfl
  subscribed := rfl

/-- Another connection is replaced or removed. -/
theorem rely_of_connections
    (different : other ≠ connId)
    (connections : server'.connections =
      Function.update server.connections connId (server'.connections connId))
    (db : server'.db = server.db)
    (docLocks : ∀ key, server'.docLocks key = some other ↔
      server.docLocks key = some other)
    (journal : server'.journal = server.journal)
    (answers : ∀ number,
      server'.answersTo ⟨other, number⟩ = server.answersTo ⟨other, number⟩)
    (channel : server'.channel = server.channel) :
    Rely other server server' where
  locks := docLocks
  documents := fun _ _ => by rw [db]
  tombstones := fun _ _ => Or.inl (by rw [db])
  entries := fun _ => by rw [Server.entriesOf, Server.entriesOf, journal]
  answers := answers
  sent := fun _ => by rw [Server.sentFor, Server.sentFor, channel]
  connection := by
    rw [connections, Function.update_of_ne different]
  subscribed := by
    rw [connections, Function.update_of_ne different]

/-- Another connection publishes. -/
theorem rely_publish
    {event : BroadcastEvent Blob}
    (different : other ≠ connId) :
    Rely other server (server.publish connId event) where
  locks := fun _ => Iff.rfl
  documents := fun _ _ => rfl
  tombstones := fun _ _ => Or.inl rfl
  entries := fun _ => rfl
  answers := fun _ => rfl
  sent := by
    intro number
    simp [Server.sentFor, Server.publish, Server.current, different.symm]
  connection := rfl
  subscribed := rfl

/-- Another connection's tasks end. -/
theorem rely_disconnect (different : other ≠ connId) :
    Rely other server (server.disconnect connId) := by
  apply rely_of_connections different
  · simp [Server.disconnect]
  · rfl
  · intro key
    simp only [Server.disconnect]
    split_ifs with held
    · simp [held, different.symm]
    · rfl
  · rfl
  · exact fun _ => rfl
  · rfl

/-! ## Write queues -/

/-- A message queued or not, a connection keeps its identity. -/
theorem enqueue_frame
    {message : ServerMsg Blob}
    {connection connection' : Connection Blob}
    {sent : Bool}
    (queued : Server.enqueue message connection = some (sent, connection')) :
    connection'.vaultId = connection.vaultId ∧
      connection'.received = connection.received ∧
      connection'.broadcastRx = connection.broadcastRx ∧
      sent = connection.writing := by
  unfold Server.enqueue at queued
  cases writing : connection.writing with
  | false =>
      simp only [writing, Bool.false_eq_true, ↓reduceIte, Option.some.injEq,
        Prod.mk.injEq] at queued
      obtain ⟨rfl, rfl⟩ := queued
      exact ⟨rfl, rfl, rfl, rfl⟩
  | true =>
      simp only [writing, ↓reduceIte, Option.ite_none_right_eq_some,
        Option.some.injEq, Prod.mk.injEq] at queued
      obtain ⟨_, rfl, rfl⟩ := queued
      exact ⟨rfl, rfl, rfl, rfl⟩

/-- What a reply did: it was queued and recorded, or the writer had ended. -/
theorem respond_cases
    {frame : Frame Blob}
    {response : ServerMsg Blob}
    {sent : Bool}
    (responded : server.respond connId frame response = some (sent, server')) :
    ∃ connection, server.connections connId = some connection ∧
      ((sent = true ∧ ∃ connection',
          connection'.vaultId = connection.vaultId ∧
          connection'.received = connection.received ∧
          connection'.broadcastRx = connection.broadcastRx ∧
          Server.enqueue response connection = some (true, connection') ∧
          server' = { server.setConnection connId connection' with
            answers := server.answers ++
              [⟨server.current connId, connection.vaultId, frame, response⟩] }) ∨
        (sent = false ∧ connection.writing = false ∧ server' = server)) := by
  unfold Server.respond at responded
  simp only [Option.bind_eq_bind, Option.bind_eq_some_iff, Prod.exists] at responded
  obtain ⟨connection, registered, queued, connection', enqueued, result⟩ := responded
  obtain ⟨vaultId, received, broadcastRx, writing⟩ := enqueue_frame enqueued
  refine ⟨connection, registered, ?_⟩
  cases queued with
  | true =>
      simp only [↓reduceIte, Option.some.injEq, Prod.mk.injEq] at result
      obtain ⟨rfl, rfl⟩ := result
      exact Or.inl ⟨rfl, connection', vaultId, received, broadcastRx, enqueued, rfl⟩
  | false =>
      simp only [Bool.false_eq_true, ↓reduceIte, Option.some.injEq,
        Prod.mk.injEq] at result
      obtain ⟨rfl, rfl⟩ := result
      exact Or.inr ⟨rfl, writing.symm, rfl⟩

/-- Another connection replies. -/
theorem rely_respond
    {frame : Frame Blob}
    {response : ServerMsg Blob}
    {sent : Bool}
    (different : other ≠ connId)
    (responded : server.respond connId frame response = some (sent, server')) :
    Rely other server server' := by
  obtain ⟨connection, _, ⟨_, connection', _, _, _, _, rfl⟩ | ⟨_, _, rfl⟩⟩ :=
    respond_cases responded
  · apply rely_of_connections different
    · simp [Server.setConnection]
    · rfl
    · exact fun _ => Iff.rfl
    · rfl
    · intro number
      simp [Server.answersTo, Server.current, different.symm]
    · rfl
  · exact Rely.refl other server'

/-! ## Steps of the server -/

/-- A connection's call is tolerated by the others. -/
theorem rely_exec
    {reliable : Prop}
    {call : ServerCall Blob}
    {reply : call.Reply}
    (pre : serverPre settings connId call server)
    (executed : serverExec settings reliable connId call server reply server')
    (different : other ≠ connId) :
    Rely other server server' := by
  cases call with
  | db call =>
      obtain ⟨circumstance, executed⟩ := executed
      have result : (server.query settings.toLibraries
          (some (server.current connId)) call circumstance).2 = server' :=
        congrArg Prod.snd (Option.some.inj executed)
      rw [← result]
      apply rely_query
      · intro number
        simp [Server.current, different.symm]
      · intro path target held
        have own := (pre.2.2 path target).1
        rw [own, Option.some.injEq] at held
        exact different held.symm
  | lock key =>
      obtain ⟨circumstance, executed⟩ := executed
      cases free : server.docLocks key with
      | some holder => simp [Server.exec, free] at executed
      | none =>
          simp only [Server.exec, free, Option.some.injEq, Prod.mk.injEq] at executed
          obtain ⟨_, rfl⟩ := executed
          exact rely_setLock (by simp [free]) (by simp [different.symm])
  | unlock key =>
      obtain ⟨circumstance, executed⟩ := executed
      simp only [Server.exec, Option.some.injEq, Prod.mk.injEq] at executed
      obtain ⟨_, rfl⟩ := executed
      have own : server.docLocks key = some connId := pre
      exact rely_setLock (by simp [own, different.symm]) (by simp)
  | respond frame response =>
      obtain ⟨⟨circumstance, executed⟩, _⟩ := executed
      exact rely_respond different executed
  | publish event =>
      obtain ⟨circumstance, executed⟩ := executed
      simp only [Server.exec, Option.some.injEq, Prod.mk.injEq] at executed
      obtain ⟨_, rfl⟩ := executed
      exact rely_publish different
  | subscribe =>
      obtain ⟨circumstance, executed⟩ := executed
      simp only [Server.exec, Server.subscribe, Option.bind_eq_bind,
        Option.map_eq_some_iff, Option.bind_eq_some_iff, Option.some.injEq,
        Prod.mk.injEq] at executed
      obtain ⟨_, ⟨connection, _, rfl⟩, _, rfl⟩ := executed
      apply rely_of_connections different
      · simp [Server.setConnection]
      · rfl
      · exact fun _ => Iff.rfl
      · rfl
      · exact fun _ => rfl
      · rfl

/-- What `broadcast_fwd` did: it received the next event and queued the message
it makes of it, if any. -/
theorem forward_cases
    (forwarded : server.forward settings connId = some server') :
    ∃ connection subscribed cursor sent connection',
      server.connections connId = some connection ∧
      connection.broadcastRx = some (subscribed, cursor) ∧
      server.channel[cursor]? = some sent ∧
      server' = server.setConnection connId connection' ∧
      ((Server.forwarded connId connection sent.event = none ∧
          connection' = { connection with
            broadcastRx := some (subscribed, cursor + 1) }) ∨
        ∃ message, Server.forwarded connId connection sent.event = some message ∧
          connection.writing = true ∧
          connection' = { connection with
            broadcastRx := some (subscribed, cursor + 1)
            writeQueue := connection.writeQueue ++ [message] }) := by
  unfold Server.forward at forwarded
  simp only [Option.bind_eq_bind, Option.bind_eq_some_iff, Prod.exists] at forwarded
  obtain ⟨connection, registered, subscribed, cursor, receiving, sent, next, result⟩ :=
    forwarded
  split_ifs at result with lagged
  cases made : Server.forwarded connId connection sent.event with
  | none =>
      have made' : Server.forwarded connId
          { connection with broadcastRx := some (subscribed, cursor + 1) }
          sent.event = none := made
      simp only [made', Option.some.injEq] at result
      exact ⟨connection, subscribed, cursor, sent, _, registered, receiving, next,
        result.symm, Or.inl ⟨made, rfl⟩⟩
  | some message =>
      have made' : Server.forwarded connId
          { connection with broadcastRx := some (subscribed, cursor + 1) }
          sent.event = some message := made
      simp only [made', Server.enqueue] at result
      split_ifs at result with encodes writing room
      simp only [Option.some.injEq] at result
      exact ⟨connection, subscribed, cursor, sent, _, registered, receiving, next,
        result.symm, Or.inr ⟨message, made, writing, rfl⟩⟩

/-- The tasks beside the handlers are tolerated by every connection. -/
theorem rely_environment
    {event : ServerEvent}
    (stepped : server.environment settings event = some server') :
    Rely other server server' := by
  cases event with
  | expireTombstones circumstance | expireStalePeers circumstance =>
      simp only [Server.environment, Option.some.injEq] at stepped
      rw [← stepped]
      exact rely_query (by simp) (by simp [DbCall.target])
  | forward connId =>
      obtain ⟨connection, subscribed, cursor, sent, connection', registered, receiving, _,
        rfl, ⟨_, rfl⟩ | ⟨message, _, _, rfl⟩⟩ := forward_cases stepped
      · exact rely_setConnection registered rfl rfl (by rw [receiving]; rfl)
      · exact rely_setConnection registered rfl rfl (by rw [receiving]; rfl)
  | write connId =>
      simp only [Server.environment, Server.write, Option.bind_eq_bind,
        Option.bind_eq_some_iff] at stepped
      obtain ⟨connection, registered, result⟩ := stepped
      split at result
      · simp only [Option.some.injEq] at result
        rw [← result]
        apply Rely.note
        exact rely_setConnection registered rfl rfl rfl
      · simp at result
  | writeFails connId =>
      simp only [Server.environment, Server.writeFails, Option.bind_eq_bind,
        Option.bind_eq_some_iff, Option.some.injEq] at stepped
      obtain ⟨connection, registered, rfl⟩ := stepped
      exact rely_setConnection registered rfl rfl rfl
  | blobPathChanged vaultId pathKey seq =>
      simp only [Server.environment, Option.some.injEq] at stepped
      rw [← stepped]
      exact rely_blobPathChanged vaultId pathKey seq

/-- What starts a task: a handshake under a new connection id, or a frame. -/
theorem start_cases
    {task : Task Blob}
    {program : Program (serverSignature Blob) Flow}
    (started : server.start settings connId task = some (program, server')) :
    (∃ vaultId peerId deviceName connection,
        program = handshake vaultId peerId deviceName ∧
        connId = server.connCounter ∧
        connection.vaultId = vaultId ∧ connection.received = 0 ∧
        connection.broadcastRx = none ∧ connection.writing = true ∧
        connection.writeQueue = [] ∧
        connection.wire =
          [.authOk protocolVersion (some ["delete_incarnation"])] ∧
        server' = { server.setConnection connId connection with
          connCounter := server.connCounter + 1
          sessions := Function.update server.sessions connId
            (some ⟨⟨vaultId, peerId⟩, [], []⟩) }) ∨
      ∃ frame connection, server.connections connId = some connection ∧
        program = serveFrame settings connection.vaultId connId frame ∧
        server' = (server.setConnection connId
          { connection with received := connection.received + 1 }).note connId
            fun session => { session with frames := session.frames ++ [frame] } := by
  cases task with
  | connect vaultId peerId deviceName features =>
      simp only [Server.start] at started
      split_ifs at started with allowed
      simp only [Option.some.injEq, Prod.mk.injEq] at started
      obtain ⟨rfl, rfl⟩ := started
      exact Or.inl ⟨vaultId, peerId, deviceName, _, rfl, allowed.1, rfl, rfl, rfl, rfl,
        rfl, rfl, rfl⟩
  | frame frame =>
      simp only [Server.start, Option.map_eq_some_iff, Prod.mk.injEq] at started
      obtain ⟨connection, registered, rfl, rfl⟩ := started
      exact Or.inr ⟨frame, connection, registered, rfl, rfl⟩

/-- A task that starts is tolerated by the others. -/
theorem rely_start
    {task : Task Blob}
    {program : Program (serverSignature Blob) Flow}
    (started : server.start settings connId task = some (program, server'))
    (different : other ≠ connId) :
    Rely other server server' := by
  obtain ⟨_, _, _, connection, _, _, _, _, _, _, _, _, rfl⟩ |
    ⟨frame, connection, _, _, rfl⟩ := start_cases started
  · apply rely_of_connections different
    · simp [Server.setConnection]
    · rfl
    · exact fun _ => Iff.rfl
    · rfl
    · exact fun _ => rfl
    · rfl
  · apply rely_of_connections different
    · simp [Server.setConnection, Server.note]
    · rfl
    · exact fun _ => Iff.rfl
    · rfl
    · exact fun _ => rfl
    · rfl

end VaultCrdtServer
