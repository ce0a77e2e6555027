import VaultCrdtServer.Foundation.Footprint
import VaultCrdtServer.Traffic
import VaultCrdtServer.Vaults.Rows

/-!
# The calls of a connection

Whatever a frame asks for, and whatever the calls reply, the database calls of a
connection are for the vault it was authenticated for, and for the frame it has
received last.
-/

namespace VaultCrdtServer

open Interleaving

variable {Blob : Type}

/-- A database call is for the vault. -/
def ServerCall.Within (vault : String) : ServerCall Blob → Prop
  | .db call => call.vault? = some vault
  | _ => True

/-- A database call that is made for a message in the vault.  Only a create that
asks for it replaces a tombstone, and peers are persisted by handshakes. -/
def DbCall.Serves (vault : String) (msg : ClientMsg Blob) : DbCall Blob → Prop
  | .storeSnapshotReplacingTombstone path _ _ =>
      path.vault = vault ∧ ∃ snapshot peerId requestId,
        msg = .docCreate path.doc snapshot peerId true requestId
  | .upsertPeer .. => False
  | call => call.vault? = some vault

theorem DbCall.Serves.vault?_eq
    {vault : String}
    {msg : ClientMsg Blob}
    {call : DbCall Blob}
    (serves : call.Serves vault msg) :
    call.vault? = some vault := by
  cases call with
  | storeSnapshotReplacingTombstone => exact congrArg some serves.1
  | upsertPeer => cases serves
  | getSnapshotWithVv | getSnapshotWithIncarnation | isTombstoned | storeSnapshotWithVv
  | deleteDocGuarded | listDocsWithVv | listTombstones | listTombstonesWithHash
  | expireTombstones | expireStalePeers => exact serves

/-- A call of a handler for a message in the vault: the database and the document
locks. -/
def ServerCall.Handles (vault : String) (msg : ClientMsg Blob) : ServerCall Blob → Prop
  | .db call => call.Serves vault msg
  | .lock _ | .unlock _ => True
  | _ => False

/-- A call of a connection of the peer that has received the frames. -/
def ServerCall.Due (peer : PeerKey) (frames : List (Frame Blob)) : ServerCall Blob → Prop
  | .db call =>
      match frames.getLast? with
      | none => ∃ deviceName, call = .upsertPeer peer deviceName
      | some frame => ∃ msg, frame.decoded = .ok msg ∧ call.Serves peer.vault msg
  | _ => True

theorem ServerCall.Handles.due
    {peer : PeerKey}
    {frames : List (Frame Blob)}
    {frame : Frame Blob}
    {msg : ClientMsg Blob}
    {call : ServerCall Blob}
    (handles : call.Handles peer.vault msg)
    (last : frames.getLast? = some frame)
    (decoded : frame.decoded = .ok msg) :
    call.Due peer frames := by
  cases call with
  | db call =>
      rw [ServerCall.Due, last]
      exact ⟨msg, decoded, handles⟩
  | lock | unlock | respond | publish | subscribe => trivial

theorem ServerCall.Due.within
    {peer : PeerKey}
    {frames : List (Frame Blob)}
    {call : ServerCall Blob}
    (due : call.Due peer frames) :
    call.Within peer.vault := by
  cases call with
  | db call =>
      rw [ServerCall.Due] at due
      split at due
      · obtain ⟨_, rfl⟩ := due
        exact rfl
      · obtain ⟨_, _, serves⟩ := due
        exact serves.vault?_eq
  | lock | unlock | respond | publish | subscribe => trivial

section Programs

variable {settings : Settings Blob} {vault : String} {msg : ClientMsg Blob}

theorem dbCall_handles
    {call : DbCall Blob}
    (serves : call.Serves vault msg) :
    (dbCall call).run.Only (ServerCall.Handles vault msg) :=
  (Program.only_perform _).mpr serves

theorem ofExcept_handles {α : Type} (result : Except ServerError α) :
    (ofExcept result : Handler Blob α).run.Only (ServerCall.Handles vault msg) := trivial

theorem pure_handles {α : Type} (value : α) :
    (pure value : Handler Blob α).run.Only (ServerCall.Handles vault msg) := trivial

theorem pure_bind_handler
    {α β : Type}
    (value : α)
    (continuation : α → Handler Blob β) :
    ((pure value : Handler Blob α) >>= continuation) = continuation value := rfl

theorem ite_handles
    {α : Type}
    {condition : Prop}
    [Decidable condition]
    {first second : Handler Blob α}
    (left : first.run.Only (ServerCall.Handles vault msg))
    (right : second.run.Only (ServerCall.Handles vault msg)) :
    (if condition then first else second).run.Only (ServerCall.Handles vault msg) := by
  split_ifs
  · exact left
  · exact right

theorem withLock_handles
    {α : Type}
    {path : DocPath}
    {block : Handler Blob α}
    (within : block.run.Only (ServerCall.Handles vault msg)) :
    (withLock path block).run.Only (ServerCall.Handles vault msg) :=
  ⟨trivial, fun _ => within.bind fun _ => ⟨trivial, fun _ => trivial⟩⟩

theorem handleSyncStart_handles (doc : String) (clientVv : Option Bytes) :
    (handleSyncStart settings.toLibraries ⟨vault, doc⟩ clientVv).run.Only
      (ServerCall.Handles vault msg) := by
  refine Program.Only.bind_fallible (dbCall_handles rfl) fun existing => ?_
  cases existing with
  | none => exact pure_handles _
  | some row =>
      refine Program.Only.bind_fallible (ofExcept_handles _) fun document => ?_
      cases clientVv with
      | none => exact pure_handles _
      | some bytes =>
          refine Program.Only.bind_fallible (ofExcept_handles _) fun clientVv => ?_
          exact Program.Only.bind_fallible (ofExcept_handles _) fun _ => pure_handles _

theorem handleSyncPush_handles
    (doc : String)
    (delta : Blob)
    (peerId : String)
    (connId : Nat) :
    (handleSyncPush settings.toLibraries ⟨vault, doc⟩ delta peerId connId).run.Only
      (ServerCall.Handles vault msg) := by
  refine Program.Only.bind_fallible (dbCall_handles rfl) fun existing => ?_
  refine Program.Only.bind_fallible (ite_handles (dbCall_handles rfl) (pure_handles _))
    fun tombstoned => ?_
  refine ite_handles (pure_handles _) ?_
  refine Program.Only.bind_fallible (ofExcept_handles _) fun disjoint => ?_
  refine ite_handles (pure_handles _) ?_
  refine Program.Only.bind_fallible (ofExcept_handles _) fun merged => ?_
  exact Program.Only.bind_fallible (dbCall_handles rfl) fun _ => pure_handles _

theorem handleDocCreate_handles
    (doc : String)
    (snapshot : Blob)
    (peerId : String)
    (connId : Nat)
    (replaceTombstone : Bool)
    (requestId : Option String) :
    (handleDocCreate settings.toLibraries ⟨vault, doc⟩ snapshot peerId connId
      replaceTombstone).run.Only
        (ServerCall.Handles vault
          (.docCreate doc snapshot peerId replaceTombstone requestId)) := by
  refine Program.Only.bind_fallible (dbCall_handles rfl) fun existing => ?_
  refine Program.Only.bind_fallible (ite_handles (dbCall_handles rfl) (pure_handles _))
    fun wasTombstoned => ?_
  refine ite_handles (pure_handles _) ?_
  -- without the flag no tombstone counts as stale, and none is replaced
  cases replaceTombstone with
  | false =>
      simp only [Bool.false_and, Bool.and_false, Bool.or_self, Bool.false_eq_true, ↓reduceIte,
        pure_bind_handler]
      refine Program.Only.bind_fallible (ofExcept_handles _) fun disjoint => ?_
      refine ite_handles (pure_handles _) ?_
      refine Program.Only.bind_fallible (ofExcept_handles _) fun merged => ?_
      exact Program.Only.bind_fallible (dbCall_handles rfl) fun _ => pure_handles _
  | true =>
      refine Program.Only.bind_fallible (ite_handles (dbCall_handles rfl) (pure_handles _))
        fun clearStaleTombstone => ?_
      refine Program.Only.bind_fallible (ite_handles (pure_handles _) (ofExcept_handles _))
        fun disjoint => ?_
      refine ite_handles (pure_handles _) ?_
      refine Program.Only.bind_fallible (ofExcept_handles _) fun merged => ?_
      exact Program.Only.bind_fallible
        (ite_handles (dbCall_handles ⟨rfl, _, _, _, rfl⟩) (dbCall_handles rfl))
        fun _ => pure_handles _

theorem handleDocDelete_handles
    (doc peerId : String)
    (connId : Nat)
    (expected : Option Int)
    (intentId requestId : Option String) :
    (handleDocDelete ⟨vault, doc⟩ peerId connId expected intentId
      requestId : Handler Blob (Answer Blob)).run.Only (ServerCall.Handles vault msg) := by
  refine Program.Only.bind_fallible (dbCall_handles rfl) fun outcome => ?_
  cases outcome with
  | deleted | idempotentNoLive | rejected => exact pure_handles _

theorem processInner_handles (msg : ClientMsg Blob) (connId : Nat) :
    (processInner settings.toLibraries msg vault connId).run.Only
      (ServerCall.Handles vault msg) := by
  refine Program.Only.bind_fallible (ofExcept_handles _) fun _ => ?_
  cases msg with
  | auth => exact ofExcept_handles _
  | ping => exact pure_handles _
  | requestDocList =>
      refine Program.Only.bind_fallible (dbCall_handles rfl) fun _ => ?_
      refine Program.Only.bind_fallible (dbCall_handles rfl) fun _ => ?_
      exact Program.Only.bind_fallible (dbCall_handles rfl) fun _ => pure_handles _
  | syncStart doc clientVv => exact handleSyncStart_handles doc clientVv
  | syncPush doc delta peerId => exact withLock_handles (handleSyncPush_handles ..)
  | docCreate doc snapshot peerId => exact withLock_handles (handleDocCreate_handles ..)
  | docDelete doc peerId => exact withLock_handles (handleDocDelete_handles ..)

theorem processMessage_handles (frame : Frame Blob) (connId : Nat) :
    (processMessage settings.toLibraries frame vault connId).Only fun call : ServerCall Blob =>
      ∃ msg, frame.decoded = .ok msg ∧ call.Handles vault msg := by
  refine Program.Only.bind ?_ fun _ => trivial
  cases decoded : frame.decoded with
  | ok msg => exact (processInner_handles msg connId).mono fun _ handles => ⟨msg, rfl, handles⟩
  | error => trivial

variable {peer : PeerKey} {frames : List (Frame Blob)}

theorem deliver_due (frame : Frame Blob) (answer : Answer Blob) :
    (deliver settings frame answer).Only (ServerCall.Due peer frames) := by
  unfold deliver
  split_ifs
  · refine Program.Only.bind ((Program.only_perform _).mpr trivial) fun sent => ?_
    split_ifs
    · cases answer.2 with
      | none => trivial
      | some event =>
          exact Program.Only.bind ((Program.only_perform _).mpr trivial) fun _ => trivial
    · trivial
  · trivial

theorem serveFrame_due
    {frame : Frame Blob}
    (last : frames.getLast? = some frame)
    (connId : Nat) :
    (serveFrame settings peer.vault connId frame).Only (ServerCall.Due peer frames) := by
  unfold serveFrame
  split_ifs
  · exact Program.Only.bind ((Program.only_perform _).mpr trivial) fun _ => trivial
  · trivial
  · refine Program.Only.bind ?_ fun answer => deliver_due frame answer
    refine (processMessage_handles frame connId).mono fun _ made => ?_
    obtain ⟨msg, decoded, handles⟩ := made
    exact handles.due last decoded

theorem handshake_due (peerId deviceName : String) :
    (handshake vault peerId deviceName : Program (serverSignature Blob) Flow).Only
      (ServerCall.Due ⟨vault, peerId⟩ []) := by
  have subscribes : ((Program.perform (S := serverSignature Blob) .subscribe).bind
      fun _ => .done Flow.again).Only (@ServerCall.Due Blob ⟨vault, peerId⟩ []) :=
    ⟨trivial, fun _ => trivial⟩
  unfold handshake
  split_ifs
  · exact Program.Only.bind ((Program.only_perform _).mpr ⟨_, rfl⟩) fun _ => subscribes
  · exact subscribes

end Programs

/-! ## Runs -/

/-- The vault a connection is authenticated for. -/
def Server.vaultOf (connId : Nat) (server : Server Blob) : Option String :=
  (server.connections connId).map Connection.vaultId

section Steps

variable {settings : Settings Blob} {connId : Nat} {server server' : Server Blob}

/-- A connection is replaced by one of the same vault. -/
theorem vaultOf_setConnection
    {connection connection' : Connection Blob}
    (registered : server.connections connId = some connection)
    (same : connection'.vaultId = connection.vaultId)
    (other : Nat) :
    (server.setConnection connId connection').vaultOf other = server.vaultOf other := by
  by_cases own : other = connId
  · subst own
    simp [Server.vaultOf, Server.setConnection, registered, same]
  · simp [Server.vaultOf, Server.setConnection, Function.update_of_ne own]

theorem vaultOf_query
    (origin : Option FrameId)
    (call : DbCall Blob)
    (circumstance : Circumstance)
    (other : Nat) :
    (server.query settings.toLibraries origin call circumstance).2.vaultOf other =
      server.vaultOf other := by
  unfold Server.query
  cases circumstance.fault with
  | some error => rfl
  | none =>
      cases call.exec settings.toLibraries circumstance.now server.db with
      | error error => rfl
      | ok result => rfl

/-- No call changes the vault of a connection. -/
theorem vaultOf_exec
    {call : ServerCall Blob}
    {circumstance : Circumstance}
    {reply : call.Reply}
    (executed : Server.exec settings connId call circumstance server =
      some (reply, server'))
    (other : Nat) :
    server'.vaultOf other = server.vaultOf other := by
  cases call with
  | db call =>
      have result : (server.query settings.toLibraries
          (some (server.current connId)) call circumstance).2 = server' :=
        congrArg Prod.snd (Option.some.inj executed)
      rw [← result]
      exact vaultOf_query _ call circumstance other
  | lock key =>
      cases free : server.docLocks key with
      | some holder => simp [Server.exec, free] at executed
      | none =>
          simp only [Server.exec, free, Option.some.injEq, Prod.mk.injEq] at executed
          rw [← executed.2]
          rfl
  | unlock key | publish event =>
      simp only [Server.exec, Option.some.injEq, Prod.mk.injEq] at executed
      rw [← executed.2]
      rfl
  | respond frame response =>
      obtain ⟨connection, registered,
        ⟨_, connection', vault, _, _, _, rfl⟩ | ⟨_, _, rfl⟩⟩ := respond_cases executed
      · exact vaultOf_setConnection registered vault other
      · rfl
  | subscribe =>
      simp only [Server.exec, Server.subscribe, Option.bind_eq_bind,
        Option.map_eq_some_iff, Option.bind_eq_some_iff, Option.some.injEq,
        Prod.mk.injEq] at executed
      obtain ⟨_, ⟨connection, registered, rfl⟩, _, rfl⟩ := executed
      exact vaultOf_setConnection registered (by rfl) other

/-- Nor does an event. -/
theorem vaultOf_environment
    {event : ServerEvent}
    (stepped : server.environment settings event = some server')
    (other : Nat) :
    server'.vaultOf other = server.vaultOf other := by
  cases event with
  | expireTombstones circumstance | expireStalePeers circumstance =>
      simp only [Server.environment, Option.some.injEq] at stepped
      rw [← stepped]
      exact vaultOf_query none _ circumstance other
  | forward connId =>
      obtain ⟨connection, subscribed, cursor, sent, connection', registered, _, _,
        rfl, ⟨_, rfl⟩ | ⟨message, _, _, rfl⟩⟩ := forward_cases stepped
      · exact vaultOf_setConnection registered (by rfl) other
      · exact vaultOf_setConnection registered (by rfl) other
  | write connId =>
      simp only [Server.environment, Server.write, Option.bind_eq_bind,
        Option.bind_eq_some_iff] at stepped
      obtain ⟨connection, registered, result⟩ := stepped
      split at result
      · simp only [Option.some.injEq] at result
        rw [← result]
        exact vaultOf_setConnection registered (by rfl) other
      · simp at result
  | writeFails connId =>
      simp only [Server.environment, Server.writeFails, Option.bind_eq_bind,
        Option.bind_eq_some_iff, Option.some.injEq] at stepped
      obtain ⟨connection, registered, rfl⟩ := stepped
      exact vaultOf_setConnection registered (by rfl) other
  | blobPathChanged vaultId pathKey seq =>
      simp only [Server.environment, Option.some.injEq] at stepped
      rw [← stepped]
      rfl

theorem vaultOf_disconnect
    {other : Nat}
    (different : other ≠ connId) :
    (server.disconnect connId).vaultOf other = server.vaultOf other := by
  simp [Server.vaultOf, Server.disconnect, Function.update_of_ne different]

/-! ## Sessions -/

/-- The peer of a connection's handshake, and the frames received from it. -/
def Server.agenda (connId : Nat) (server : Server Blob) : Option (PeerKey × List (Frame Blob)) :=
  (server.sessions connId).map fun session => (session.peer, session.frames)

theorem sessions_query
    (origin : Option FrameId)
    (call : DbCall Blob)
    (circumstance : Circumstance) :
    (server.query settings.toLibraries origin call circumstance).2.sessions =
      server.sessions := by
  unfold Server.query
  cases circumstance.fault with
  | some error => rfl
  | none =>
      cases call.exec settings.toLibraries circumstance.now server.db with
      | error error => rfl
      | ok result => rfl

/-- No call of a program passes anything on a connection. -/
theorem sessions_exec
    {call : ServerCall Blob}
    {circumstance : Circumstance}
    {reply : call.Reply}
    (executed : Server.exec settings connId call circumstance server =
      some (reply, server')) :
    server'.sessions = server.sessions := by
  cases call with
  | db call =>
      have result : (server.query settings.toLibraries
          (some (server.current connId)) call circumstance).2 = server' :=
        congrArg Prod.snd (Option.some.inj executed)
      rw [← result]
      exact sessions_query _ call circumstance
  | lock key =>
      cases free : server.docLocks key with
      | some holder => simp [Server.exec, free] at executed
      | none =>
          simp only [Server.exec, free, Option.some.injEq, Prod.mk.injEq] at executed
          rw [← executed.2]
          rfl
  | unlock key | publish event =>
      simp only [Server.exec, Option.some.injEq, Prod.mk.injEq] at executed
      rw [← executed.2]
      rfl
  | respond frame response =>
      obtain ⟨_, _, ⟨_, _, _, _, _, _, rfl⟩ | ⟨_, _, rfl⟩⟩ := respond_cases executed
      · rfl
      · rfl
  | subscribe =>
      simp only [Server.exec, Server.subscribe, Option.bind_eq_bind,
        Option.map_eq_some_iff, Option.bind_eq_some_iff, Option.some.injEq,
        Prod.mk.injEq] at executed
      obtain ⟨_, ⟨_, _, rfl⟩, _, rfl⟩ := executed
      rfl

/-- An event changes the sessions only by what is written to a socket. -/
theorem sessions_environment
    {event : ServerEvent}
    (stepped : server.environment settings event = some server') :
    server'.sessions = server.sessions ∨
      ∃ connId connection message rest, event = .write connId ∧
        server.connections connId = some connection ∧ connection.writing = true ∧
        connection.writeQueue = message :: rest ∧
        server'.sessions = Function.update server.sessions connId
          ((server.sessions connId).map fun session =>
            { session with
              written := session.written ++ [⟨message, server.journal.length⟩] }) := by
  cases event with
  | expireTombstones circumstance | expireStalePeers circumstance =>
      simp only [Server.environment, Option.some.injEq] at stepped
      rw [← stepped]
      exact Or.inl (sessions_query none _ circumstance)
  | forward connId =>
      obtain ⟨_, _, _, _, _, _, _, _, rfl, _⟩ := forward_cases stepped
      exact Or.inl rfl
  | write connId =>
      simp only [Server.environment, Server.write, Option.bind_eq_bind,
        Option.bind_eq_some_iff] at stepped
      obtain ⟨connection, registered, result⟩ := stepped
      split at result
      · rename_i message rest running queued
        simp only [Option.some.injEq] at result
        rw [← result]
        exact Or.inr ⟨connId, connection, message, rest, rfl, registered, running, queued, rfl⟩
      · simp at result
  | writeFails connId =>
      simp only [Server.environment, Server.writeFails, Option.bind_eq_bind,
        Option.bind_eq_some_iff, Option.some.injEq] at stepped
      obtain ⟨_, _, rfl⟩ := stepped
      exact Or.inl rfl
  | blobPathChanged vaultId pathKey seq =>
      simp only [Server.environment, Option.some.injEq] at stepped
      rw [← stepped]
      exact Or.inl rfl

theorem agenda_environment
    {event : ServerEvent}
    (stepped : server.environment settings event = some server')
    (other : Nat) :
    server'.agenda other = server.agenda other := by
  rcases sessions_environment stepped with same | ⟨connId, _, _, _, _, _, _, _, written⟩
  · rw [Server.agenda, same, Server.agenda]
  · rw [Server.agenda, written]
    by_cases own : other = connId
    · subst own
      rw [Function.update_self, Option.map_map]
      rfl
    · rw [Function.update_of_ne own]
      rfl

/-- Every registered connection has a session of its vault, with the frames it has
received, and makes the calls that are due. -/
structure Attended (config : (serverMachine settings).Config) : Prop where
  session : ∀ connId vault, config.shared.vaultOf connId = some vault →
    ∃ peer frames, config.shared.agenda connId = some (peer, frames) ∧
      peer.vault = vault ∧ config.shared.current connId = ⟨connId, frames.length⟩
  due : ∀ connId program peer frames, config.thread connId = some program →
    config.shared.agenda connId = some (peer, frames) →
      program.Only (ServerCall.Due peer frames)

/-- The programs of the connections stay in their vaults. -/
def Confined (config : (serverMachine settings).Config) : Prop :=
  ∀ connId program vault, config.thread connId = some program →
    config.shared.vaultOf connId = some vault → program.Only (ServerCall.Within vault)

variable {label : (serverMachine settings).Label}
variable {config config' : (serverMachine settings).Config}

/-- One connection goes on, and the others keep their sessions. -/
theorem Attended.advance
    {rest : Option (Program (serverSignature Blob) (serverMachine settings).Outcome)}
    (attended : Attended config)
    (session : ∀ vault, server'.vaultOf connId = some vault →
      ∃ peer frames, server'.agenda connId = some (peer, frames) ∧
        peer.vault = vault ∧ server'.current connId = ⟨connId, frames.length⟩)
    (due : ∀ program peer frames, rest = some program →
      server'.agenda connId = some (peer, frames) →
        program.Only (ServerCall.Due peer frames))
    (others : ∀ other, other ≠ connId →
      server'.vaultOf other = config.shared.vaultOf other ∧
        server'.agenda other = config.shared.agenda other ∧
        server'.current other = config.shared.current other) :
    Attended (config.advance connId rest server') where
  session := by
    intro other vault registered
    by_cases same : other = connId
    · subst same
      exact session vault registered
    · obtain ⟨vaultOf, agenda, current⟩ := others other same
      rw [config.advance_shared] at registered ⊢
      rw [vaultOf] at registered
      rw [agenda, current]
      exact attended.session other vault registered
  due := by
    intro other program peer frames runs known
    by_cases same : other = connId
    · subst same
      rw [config.advance_thread_self] at runs
      exact due program peer frames runs known
    · rw [config.advance_thread_other same] at runs
      exact attended.due other program peer frames runs ((others other same).2.1 ▸ known)

theorem Attended.disconnect (attended : Attended config) :
    Attended (config.advance connId none (config.shared.disconnect connId)) := by
  refine attended.advance ?_ (fun _ _ _ rest => by cases rest) ?_
  · intro vault registered
    simp [Server.vaultOf, Server.disconnect] at registered
  · intro other different
    exact ⟨vaultOf_disconnect different, rfl,
      by simp [Server.current, Server.disconnect, Function.update_of_ne different]⟩

theorem Attended.step
    (attended : Attended config)
    (stepped : Machine.Steps (serverMachine settings) label config config') :
    Attended config' := by
  cases stepped with
  | @act _ connId circumstance call next reply shared current effect =>
      have vaultOf := vaultOf_exec effect
      have agenda : ∀ other, shared.agenda other = config.shared.agenda other := fun _ => by
        rw [Server.agenda, sessions_exec effect, Server.agenda]
      have same := sameConnections_exec effect
      refine attended.advance ?_ ?_ fun other _ => ⟨vaultOf other, agenda other, same.current other⟩
      · intro vault registered
        rw [agenda, same.current]
        exact attended.session connId vault ((vaultOf connId).symm.trans registered)
      · intro program peer frames rest known
        obtain rfl := Option.some.inj rest
        exact (attended.due connId _ peer frames current ((agenda connId).symm.trans known)).2 _
  | environment effect =>
      refine ⟨?_, ?_⟩
      · intro connId vault registered
        rw [vaultOf_environment effect] at registered
        rw [agenda_environment effect, (sameConnections_environment effect).current]
        exact attended.session connId vault registered
      · intro connId program peer frames runs known
        rw [agenda_environment effect] at known
        exact attended.due connId program peer frames runs known
  | @start _ connId task program shared current effect =>
      obtain ⟨vaultId, peerId, deviceName, connection, rfl, _, rfl, received, _, _, _, _, rfl⟩ |
        ⟨frame, connection, registered, rfl, rfl⟩ := start_cases effect
      · refine attended.advance ?_ ?_ ?_
        · intro vault registered
          simp only [Server.vaultOf, Server.setConnection, Function.update_self,
            Option.map_some, Option.some.injEq] at registered
          subst registered
          refine ⟨⟨connection.vaultId, peerId⟩, [], ?_, rfl, ?_⟩
          · simp [Server.agenda]
          · simp [Server.current, Server.setConnection, received]
        · intro program peer frames rest known
          obtain rfl := Option.some.inj rest
          simp only [Server.agenda, Function.update_self, Option.map_some,
            Option.some.injEq, Prod.mk.injEq] at known
          obtain ⟨rfl, rfl⟩ := known
          exact handshake_due peerId deviceName
        · intro other different
          refine ⟨?_, ?_, ?_⟩
          · simp [Server.vaultOf, Server.setConnection, Function.update_of_ne different]
          · simp [Server.agenda, Function.update_of_ne different]
          · simp [Server.current, Server.setConnection, Function.update_of_ne different]
      · obtain ⟨peer, frames, known, vault, working⟩ := attended.session connId
          connection.vaultId (by simp [Server.vaultOf, registered])
        have number : connection.received = frames.length := by
          simpa [Server.current, registered] using working
        have after : Server.agenda connId
            ((config.shared.setConnection connId
              { connection with received := connection.received + 1 }).note connId
                fun session => { session with frames := session.frames ++ [frame] }) =
            some (peer, frames ++ [frame]) := by
          obtain ⟨session, found, same⟩ := Option.map_eq_some_iff.mp known
          obtain ⟨rfl, rfl⟩ := Prod.mk.inj same
          simp [Server.agenda, Server.note, Server.setConnection, found]
        refine attended.advance ?_ ?_ ?_
        · intro vault' home
          simp only [Server.vaultOf, Server.note, Server.setConnection, Function.update_self,
            Option.map_some, Option.some.injEq] at home
          refine ⟨peer, frames ++ [frame], after, vault.trans home, ?_⟩
          simp [Server.current, Server.note, Server.setConnection, number]
        · intro program peer' frames' rest known'
          obtain rfl := Option.some.inj rest
          obtain ⟨rfl, rfl⟩ := Prod.mk.inj (Option.some.inj (after.symm.trans known'))
          rw [← vault]
          exact serveFrame_due List.getLast?_concat connId
        · intro other different
          refine ⟨?_, ?_, ?_⟩
          · simp [Server.vaultOf, Server.note, Server.setConnection,
              Function.update_of_ne different]
          · simp [Server.agenda, Server.note, Server.setConnection,
              Function.update_of_ne different]
          · simp [Server.current, Server.note, Server.setConnection,
              Function.update_of_ne different]
  | @finish _ connId flow current =>
      cases flow with
      | again =>
          exact attended.advance (attended.session connId) (fun _ _ _ rest => by cases rest)
            fun _ _ => ⟨rfl, rfl, rfl⟩
      | stop => exact attended.disconnect
  | abandon => exact attended.disconnect

/-- In every reachable configuration the connections are attended to. -/
theorem Reachable.attended
    {initial : Db Blob}
    (reachable : Reachable settings initial config) :
    Attended config :=
  reachable.induction (motive := Attended)
    ⟨fun _ _ registered => (by cases registered), fun _ _ _ _ runs => (by cases runs)⟩
    fun _ attended stepped => attended.step stepped

/-- In every reachable configuration the connections stay in their vaults. -/
theorem Reachable.confined
    {initial : Db Blob}
    (reachable : Reachable settings initial config) :
    Confined config := by
  intro connId program vault runs registered
  obtain ⟨peer, frames, known, rfl, _⟩ := reachable.attended.session connId vault registered
  exact (reachable.attended.due connId program peer frames runs known).mono
    fun _ => ServerCall.Due.within

end Steps

end VaultCrdtServer
