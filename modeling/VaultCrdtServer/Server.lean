import VaultCrdtServer.Handlers
import VaultCrdtServer.Foundation.Interleaving

/-!
# The server

The state the connection tasks share, what each of their calls does to it, and
the tasks themselves (`handle_socket` in `src/ws.rs`, the hourly cleanup in
`src/main.rs`).  The tasks of all connections are interleaved by a machine: one
database call, one lock operation, one queue or channel operation at a time.

A task can be dropped whenever it waits: `select!` drops `client_read` when
`broadcast_fwd` ends, and the socket's runtime task may end altogether.

`journal`, `answers`, `sessions` and the origins in `channel` record what has
happened.  No program reads them.
-/

namespace VaultCrdtServer

open Interleaving

/-- A frame of a connection.  Number zero stands for the handshake. -/
structure FrameId where
  connId : Nat
  number : Nat
  deriving DecidableEq

/-- A database call that has taken effect. -/
structure JournalEntry (Blob : Type) where
  /-- The frame it was made for, `none` for the cleanup task. -/
  origin : Option FrameId
  call : DbCall Blob
  reply : call.Reply
  before : Db Blob
  after : Db Blob

/-- A response that has been put into its connection's write queue. -/
structure Answered (Blob : Type) where
  origin : FrameId
  vaultId : String
  frame : Frame Blob
  response : ServerMsg Blob

/-- An event on the broadcast channel. -/
structure Sent (Blob : Type) where
  /-- The frame it was sent for, `none` for the handler of a blob request. -/
  origin : Option FrameId
  event : BroadcastEvent Blob

/-- A message that has been written to a socket. -/
structure WrittenMsg (Blob : Type) where
  message : ServerMsg Blob
  /-- Number of database calls that had taken effect. -/
  calls : Nat

/-- What has passed on a connection. -/
structure Session (Blob : Type) where
  /-- The vault and the peer of the handshake. -/
  peer : PeerKey
  /-- Every frame received, oldest first. -/
  frames : List (Frame Blob)
  /-- Every message written since the handshake, oldest first. -/
  written : List (WrittenMsg Blob)

/-- A connection past its authentication. -/
structure Connection (Blob : Type) where
  vaultId : String
  hasBlobFeature : Bool
  /-- Number of frames received so far. -/
  received : Nat
  /-- `write_tx`, up to 64 messages. -/
  writeQueue : List (ServerMsg Blob)
  /-- The writer task still takes messages from the queue. -/
  writing : Bool
  /-- Messages written to the socket. -/
  wire : List (ServerMsg Blob)
  /-- Channel position of the subscription, and of the next event to receive. -/
  broadcastRx : Option (Nat × Nat)

/-- What the tasks share. -/
structure Server (Blob : Type) where
  db : Db Blob
  /-- The connection that holds a document lock. -/
  docLocks : String → Option Nat
  connections : Nat → Option (Connection Blob)
  /-- `CONN_COUNTER` -/
  connCounter : Nat
  /-- Every event sent on `broadcast_tx`, for documents and for blob paths,
  oldest first. -/
  channel : List (Sent Blob)
  /-- Every database call that took effect, oldest first. -/
  journal : List (JournalEntry Blob)
  /-- Every response queued, oldest first. -/
  answers : List (Answered Blob)
  /-- The sessions of all connections, also of those that have ended. -/
  sessions : Nat → Option (Session Blob)

/-- The libraries and settings the server runs with. -/
structure Settings (Blob : Type) extends Libraries Blob where
  /-- Whether `rmp_serde::to_vec_named` succeeds. -/
  encodes : ServerMsg Blob → Bool
  /-- `VAULTCRDT_TOMBSTONE_DAYS` -/
  tombstoneDays : Int
  /-- `VAULTCRDT_PEER_RETENTION_DAYS` -/
  peerDays : Int

/-- What is left open when a call is executed: the time a database call sees,
and whether SQLite fails, which rolls its transaction back. -/
structure Circumstance where
  now : Time
  fault : Option ServerError

/-- Capacity of `write_tx`. -/
def writeQueueCapacity : Nat := 64

/-- Capacity of `broadcast_tx`. -/
def broadcastCapacity : Nat := 256

namespace Server

variable {Blob : Type}

/-- A server that has just been started on a database. -/
def started (db : Db Blob) : Server Blob where
  db := db
  docLocks := fun _ => none
  connections := fun _ => none
  connCounter := 0
  channel := []
  journal := []
  answers := []
  sessions := fun _ => none

/-- The frame a connection is working on. -/
def current (connId : Nat) (server : Server Blob) : FrameId where
  connId := connId
  number := ((server.connections connId).map Connection.received).getD 0

/-- Replace a connection. -/
def setConnection
    (connId : Nat)
    (connection : Connection Blob)
    (server : Server Blob) : Server Blob :=
  { server with
    connections := Function.update server.connections connId (some connection) }

/-- Something has passed on a connection. -/
def note
    (connId : Nat)
    (passed : Session Blob → Session Blob)
    (server : Server Blob) : Server Blob :=
  { server with
    sessions := Function.update server.sessions connId
      ((server.sessions connId).map passed) }

/-- A database call has taken effect. -/
def commit
    (origin : Option FrameId)
    (call : DbCall Blob)
    (reply : call.Reply)
    (db : Db Blob)
    (server : Server Blob) : Server Blob :=
  { server with
    db := db
    journal := server.journal ++ [⟨origin, call, reply, server.db, db⟩] }

/-- One database call, for a frame or for the cleanup task. -/
def query
    (libraries : Libraries Blob)
    (origin : Option FrameId)
    (call : DbCall Blob)
    (circumstance : Circumstance)
    (server : Server Blob) :
    Except ServerError call.Reply × Server Blob :=
  match circumstance.fault with
  | some error => (.error error, server)
  | none =>
      match call.exec libraries circumstance.now server.db with
      | .ok (reply, db) => (.ok reply, server.commit origin call reply db)
      | .error error => (.error error, server)

/-- Hand a document lock over. -/
def setLock
    (key : String)
    (holder : Option Nat)
    (server : Server Blob) : Server Blob :=
  { server with docLocks := Function.update server.docLocks key holder }

/-- Put a message into a write queue: `none` while the queue is full, `false`
when the writer task has ended. -/
def enqueue
    (message : ServerMsg Blob)
    (connection : Connection Blob) : Option (Bool × Connection Blob) :=
  if connection.writing then
    if connection.writeQueue.length < writeQueueCapacity then
      some (true,
        { connection with
          writeQueue := connection.writeQueue ++ [message] })
    else
      none
  else
    some (false, connection)

/-- `write_tx.send(bytes).await` -/
def respond
    (connId : Nat)
    (frame : Frame Blob)
    (response : ServerMsg Blob)
    (server : Server Blob) : Option (Bool × Server Blob) := do
  let connection ← server.connections connId
  let (sent, connection') ← enqueue response connection
  if sent then
    some (true,
      { server.setConnection connId connection' with
        answers := server.answers ++
          [⟨server.current connId, connection.vaultId, frame, response⟩] })
  else
    some (false, server)

/-- `broadcast_tx.send(event)` -/
def publish
    (connId : Nat)
    (event : BroadcastEvent Blob)
    (server : Server Blob) : Server Blob :=
  { server with channel := server.channel ++ [⟨some (server.current connId), event⟩] }

/-- `broadcast_tx.subscribe()` -/
def subscribe
    (connId : Nat)
    (server : Server Blob) : Option (Server Blob) := do
  let connection ← server.connections connId
  some (server.setConnection connId
    { connection with
      broadcastRx := some (server.channel.length, server.channel.length) })

/-- One call of a connection's task, or `none` while it waits. -/
def exec
    (settings : Settings Blob)
    (connId : Nat) :
    (call : ServerCall Blob) → Circumstance → Server Blob →
      Option (call.Reply × Server Blob)
  | .db call, circumstance, server =>
      some (server.query settings.toLibraries (some (server.current connId))
        call circumstance)
  | .lock key, _, server =>
      match server.docLocks key with
      | none => some ((), server.setLock key (some connId))
      | some _ => none
  | .unlock key, _, server => some ((), server.setLock key none)
  | .respond frame response, _, server => server.respond connId frame response
  | .publish event, _, server => some ((), server.publish connId event)
  | .subscribe, _, server => (server.subscribe connId).map fun server => ((), server)

/-- The tasks of a connection end: the guard it may hold is dropped, the writer
is aborted and the connection is unregistered. -/
def disconnect (connId : Nat) (server : Server Blob) : Server Blob :=
  { server with
    docLocks := fun key =>
      if server.docLocks key = some connId then none else server.docLocks key
    connections := Function.update server.connections connId none }

/-! ## The tasks beside the handlers -/

/-- The message `broadcast_fwd` makes of an event, if the event is for this
connection. -/
def forwarded
    (connId : Nat)
    (connection : Connection Blob) : BroadcastEvent Blob → Option (ServerMsg Blob)
  | .delta vaultId docUuid delta peerId senderConnId serverVv incarnation =>
      if vaultId = connection.vaultId ∧ senderConnId ≠ connId then
        some (.deltaBroadcast docUuid delta peerId serverVv incarnation)
      else
        none
  | .delete vaultId docUuid senderConnId contentHash =>
      if vaultId = connection.vaultId ∧ senderConnId ≠ connId then
        some (.docDeleted docUuid contentHash)
      else
        none
  | .blobPathChanged vaultId pathKey seq =>
      if vaultId = connection.vaultId ∧ connection.hasBlobFeature then
        some (.blobPathChanged pathKey seq)
      else
        none

/-- One round of `broadcast_fwd`.  It does not get past a lag, a message that
does not serialize or a writer that has ended: then its loop breaks. -/
def forward
    (settings : Settings Blob)
    (connId : Nat)
    (server : Server Blob) : Option (Server Blob) := do
  let connection ← server.connections connId
  let (subscribed, cursor) ← connection.broadcastRx
  let sent ← server.channel[cursor]?
  if broadcastCapacity < server.channel.length - cursor then
    none
  else
    let connection := { connection with broadcastRx := some (subscribed, cursor + 1) }
    match forwarded connId connection sent.event with
    | none => some (server.setConnection connId connection)
    | some message =>
        if settings.encodes message then
          match enqueue message connection with
          | some (true, connection) =>
              some (server.setConnection connId connection)
          | _ => none
        else
          none

/-- One round of `ws_writer`. -/
def write (connId : Nat) (server : Server Blob) : Option (Server Blob) := do
  let connection ← server.connections connId
  match connection.writing, connection.writeQueue with
  | true, message :: rest =>
      some ((server.setConnection connId
        { connection with
          writeQueue := rest, wire := connection.wire ++ [message] }).note connId
        fun session =>
          { session with
            written := session.written ++ [⟨message, server.journal.length⟩] })
  | _, _ => none

/-- The socket fails and `ws_writer` ends, and the queue with it. -/
def writeFails (connId : Nat) (server : Server Blob) : Option (Server Blob) := do
  let connection ← server.connections connId
  some (server.setConnection connId
    { connection with writing := false, writeQueue := [] })

end Server

/-- What happens besides the connections' programs. -/
inductive ServerEvent
  | expireTombstones (circumstance : Circumstance)
  | expireStalePeers (circumstance : Circumstance)
  | forward (connId : Nat)
  | write (connId : Nat)
  | writeFails (connId : Nat)
  /-- `post_blob_path` has stored a path and sends its event. -/
  | blobPathChanged (vaultId pathKey : String) (seq : Int)

/-- Effect of an event. -/
def Server.environment
    {Blob : Type}
    (settings : Settings Blob) :
    ServerEvent → Server Blob → Option (Server Blob)
  | .expireTombstones circumstance, server =>
      some (server.query settings.toLibraries none
        (.expireTombstones settings.tombstoneDays) circumstance).2
  | .expireStalePeers circumstance, server =>
      some (server.query settings.toLibraries none
        (.expireStalePeers settings.peerDays) circumstance).2
  | .forward connId, server => server.forward settings connId
  | .write connId, server => server.write connId
  | .writeFails connId, server => server.writeFails connId
  | .blobPathChanged vaultId pathKey seq, server =>
      some { server with
        channel := server.channel ++ [⟨none, .blobPathChanged vaultId pathKey seq⟩] }

/-! ## The connection task -/

/-- Whether `client_read` goes on after a frame. -/
inductive Flow
  | again
  | stop
  deriving DecidableEq

/-- What a connection can be given to do. -/
inductive Task (Blob : Type)
  /-- An authenticated handshake. -/
  | connect (vaultId peerId deviceName : String) (features : List String)
  /-- A binary frame. -/
  | frame (frame : Frame Blob)

/-- `PROTOCOL_VERSION` -/
def protocolVersion : Nat := 1

/-- `MAX_WS_MSG_BYTES` -/
def maxWsMsgBytes : Nat := 50 * 1024 * 1024

section Programs

variable {Blob : Type} (settings : Settings Blob)

/-- The end of the handshake: the peer is persisted if it has an id, and the
connection subscribes to the broadcasts. -/
def handshake
    (vaultId peerId deviceName : String) :
    Program (serverSignature Blob) Flow := do
  if peerId ≠ "" then
    let _ ← Program.perform (S := serverSignature Blob)
      (.db (.upsertPeer ⟨vaultId, peerId⟩ deviceName))
  Program.perform (S := serverSignature Blob) .subscribe
  return .again

/-- Error for a frame above the size limit. -/
def frameTooLarge (frame : Frame Blob) : ServerMsg Blob :=
  .error "frame_too_large"
    s!"frame too large ({frame.length} bytes, limit 50 MiB) — document not synced"
    none

/-- Reply to a frame, then broadcast. -/
def deliver
    (frame : Frame Blob)
    (answer : Answer Blob) : Program (serverSignature Blob) Flow := do
  if settings.encodes answer.1 then
    let sent ← Program.perform (S := serverSignature Blob)
      (.respond frame answer.1)
    if sent then
      match answer.2 with
      | some event =>
          Program.perform (S := serverSignature Blob) (.publish event)
          return .again
      | none => return .again
    else
      return .stop
  else
    return .stop

/-- The binary arm of `client_read`. -/
def serveFrame
    (vaultId : String)
    (connId : Nat)
    (frame : Frame Blob) : Program (serverSignature Blob) Flow := do
  if maxWsMsgBytes < frame.length then
    if settings.encodes (frameTooLarge frame) then
      let _ ← Program.perform (S := serverSignature Blob)
        (.respond frame (frameTooLarge frame))
    return .again
  else
    let answer ← processMessage settings.toLibraries frame vaultId connId
    deliver settings frame answer

/-- A connection starts its handshake with the next connection id, and takes
one frame after the other. -/
def Server.start
    (connId : Nat) :
    Task Blob → Server Blob → Option (Program (serverSignature Blob) Flow × Server Blob)
  | .connect vaultId peerId deviceName features, server =>
      if connId = server.connCounter ∧ peerId.utf8ByteSize ≤ maxPeerIdBytes ∧
          deviceName.utf8ByteSize ≤ maxPeerIdBytes then
        some (handshake vaultId peerId deviceName,
          { server.setConnection connId
              { vaultId := vaultId
                hasBlobFeature := features.contains "blobs"
                received := 0
                writeQueue := []
                writing := true
                wire := [.authOk protocolVersion (some ["delete_incarnation"])]
                broadcastRx := none } with
            connCounter := server.connCounter + 1
            sessions := Function.update server.sessions connId
              (some ⟨⟨vaultId, peerId⟩, [], []⟩) })
      else
        none
  | .frame frame, server =>
      (server.connections connId).map fun connection =>
        (serveFrame settings connection.vaultId connId frame,
          (server.setConnection connId
            { connection with received := connection.received + 1 }).note connId
            fun session => { session with frames := session.frames ++ [frame] })

/-- The server as a machine whose threads are the connections. -/
def serverMachine : Machine (serverSignature Blob) (Server Blob) where
  Choice := Circumstance
  exec := Server.exec settings
  Event := ServerEvent
  environment := Server.environment settings
  Task := Task Blob
  Outcome := Flow
  start := Server.start settings
  finish := fun connId flow server =>
    match flow with
    | .again => server
    | .stop => server.disconnect connId
  abandon := Server.disconnect

/-- No connection has been made. -/
def initialConfig (db : Db Blob) : (serverMachine settings).Config where
  shared := Server.started db
  thread := fun _ => none

/-- Some schedule leads to the configuration. -/
def Reachable (db : Db Blob) (config : (serverMachine settings).Config) : Prop :=
  ∃ labels, (serverMachine settings).run labels (initialConfig settings db) =
    some config

end Programs

end VaultCrdtServer
