import VaultCrdtServer.Foundation.Transcript
import VaultCrdtServer.Vaults.Threads

/-!
# Answers and replies

What a connection answers to a frame depends on the frame and on the replies to
the database calls that were made for it.  A relation between them that holds of
the program of every frame holds of every answer of a run.
-/

namespace VaultCrdtServer

open Interleaving

variable {Blob : Type}

/-- A database call that took effect, and its reply. -/
abbrev Query (Blob : Type) := (call : DbCall Blob) × call.Reply

/-- What a journal entry replies. -/
def JournalEntry.query (entry : JournalEntry Blob) : Query Blob := ⟨entry.call, entry.reply⟩

/-- What a call adds to the transcript of its frame. -/
def ServerCall.queried : (call : ServerCall Blob) → call.Reply → List (Query Blob)
  | .db call, .ok reply => [⟨call, reply⟩]
  | _, _ => []

/-- An answer fits its frame and these queries. -/
def ServerCall.Fits
    (fits : Frame Blob → ServerMsg Blob → List (Query Blob) → Prop) :
    ServerCall Blob → List (Query Blob) → Prop
  | .respond frame response, queries => fits frame response queries
  | _, _ => True

/-- The queries made for a frame. -/
def Server.queriesOf (id : FrameId) (server : Server Blob) : List (Query Blob) :=
  (server.entriesOf id).map JournalEntry.query

section Steps

variable {settings : Settings Blob} {connId : Nat} {server server' : Server Blob}

theorem queriesOf_commit
    (origin : Option FrameId)
    (call : DbCall Blob)
    (reply : call.Reply)
    (db : Db Blob)
    (id : FrameId) :
    (server.commit origin call reply db).queriesOf id =
      if origin = some id then server.queriesOf id ++ [⟨call, reply⟩]
      else server.queriesOf id := by
  split_ifs with own
  · simp [Server.queriesOf, Server.entriesOf, Server.commit, List.filter_append, own,
      JournalEntry.query]
  · simp [Server.queriesOf, Server.entriesOf, Server.commit, List.filter_append, own]

/-- A call adds its reply to the transcript of its frame. -/
theorem queriesOf_exec
    {call : ServerCall Blob}
    {circumstance : Circumstance}
    {reply : call.Reply}
    (executed : Server.exec settings connId call circumstance server =
      some (reply, server'))
    (id : FrameId) :
    server'.queriesOf id =
      if id = server.current connId then server.queriesOf id ++ call.queried reply
      else server.queriesOf id := by
  cases call with
  | db call =>
      have result : server.query settings.toLibraries (some (server.current connId)) call
          circumstance = (reply, server') := Option.some.inj executed
      unfold Server.query at result
      cases fault : circumstance.fault with
      | some error =>
          rw [fault] at result
          obtain ⟨rfl, rfl⟩ := Prod.mk.inj result
          simp [ServerCall.queried]
      | none =>
          rw [fault] at result
          cases executed : call.exec settings.toLibraries circumstance.now server.db with
          | error error =>
              rw [executed] at result
              obtain ⟨rfl, rfl⟩ := Prod.mk.inj result
              simp [ServerCall.queried]
          | ok pair =>
              rw [executed] at result
              obtain ⟨rfl, rfl⟩ := Prod.mk.inj result
              rw [queriesOf_commit]
              by_cases own : id = server.current connId
              · simp [own, ServerCall.queried]
              · simp [own, Ne.symm own]
  | lock key =>
      cases free : server.docLocks key with
      | some holder => simp [Server.exec, free] at executed
      | none =>
          simp only [Server.exec, free, Option.some.injEq, Prod.mk.injEq] at executed
          rw [← executed.2]
          simp [ServerCall.queried, Server.queriesOf, Server.entriesOf, Server.setLock]
  | unlock key | publish event =>
      simp only [Server.exec, Option.some.injEq, Prod.mk.injEq] at executed
      rw [← executed.2]
      simp [ServerCall.queried, Server.queriesOf, Server.entriesOf, Server.setLock,
        Server.publish]
  | respond frame response =>
      obtain ⟨connection, registered,
        ⟨_, connection', _, _, _, _, rfl⟩ | ⟨_, _, rfl⟩⟩ := respond_cases executed
      · simp [ServerCall.queried, Server.queriesOf, Server.entriesOf, Server.setConnection]
      · simp [ServerCall.queried]
  | subscribe =>
      simp only [Server.exec, Server.subscribe, Option.bind_eq_bind,
        Option.map_eq_some_iff, Option.bind_eq_some_iff, Option.some.injEq,
        Prod.mk.injEq] at executed
      obtain ⟨_, ⟨connection, registered, rfl⟩, _, rfl⟩ := executed
      simp [ServerCall.queried, Server.queriesOf, Server.entriesOf, Server.setConnection]

/-- Database calls give no answers. -/
theorem answers_query
    (origin : Option FrameId)
    (call : DbCall Blob)
    (circumstance : Circumstance) :
    (server.query settings.toLibraries origin call circumstance).2.answers =
      server.answers := by
  unfold Server.query
  cases circumstance.fault with
  | some error => rfl
  | none =>
      cases call.exec settings.toLibraries circumstance.now server.db with
      | error error => rfl
      | ok result => rfl

/-- An event is of no frame. -/
theorem queriesOf_environment
    {event : ServerEvent}
    (stepped : server.environment settings event = some server')
    (id : FrameId) :
    server'.queriesOf id = server.queriesOf id := by
  have cleanup : ∀ call circumstance,
      (server.query settings.toLibraries none call circumstance).2.queriesOf id =
        server.queriesOf id := by
    intro call circumstance
    unfold Server.query
    cases circumstance.fault with
    | some error => rfl
    | none =>
        cases call.exec settings.toLibraries circumstance.now server.db with
        | error error => rfl
        | ok result =>
            rw [queriesOf_commit]
            simp
  cases event with
  | expireTombstones circumstance | expireStalePeers circumstance =>
      simp only [Server.environment, Option.some.injEq] at stepped
      rw [← stepped]
      exact cleanup _ circumstance
  | forward connId =>
      obtain ⟨connection, subscribed, cursor, sent, connection', registered, _, _,
        rfl, _⟩ := forward_cases stepped
      rfl
  | write connId =>
      simp only [Server.environment, Server.write, Option.bind_eq_bind,
        Option.bind_eq_some_iff] at stepped
      obtain ⟨connection, registered, result⟩ := stepped
      split at result
      · simp only [Option.some.injEq] at result
        rw [← result]
        rfl
      · simp at result
  | writeFails connId =>
      simp only [Server.environment, Server.writeFails, Option.bind_eq_bind,
        Option.bind_eq_some_iff, Option.some.injEq] at stepped
      obtain ⟨connection, registered, rfl⟩ := stepped
      rfl
  | blobPathChanged vaultId pathKey seq =>
      simp only [Server.environment, Option.some.injEq] at stepped
      rw [← stepped]
      rfl

/-- A call gives at most the answer to its frame. -/
theorem answer_of_exec
    {call : ServerCall Blob}
    {circumstance : Circumstance}
    {reply : call.Reply}
    (executed : Server.exec settings connId call circumstance server =
      some (reply, server'))
    {answered : Answered Blob}
    (given : answered ∈ server'.answers) :
    answered ∈ server.answers ∨
      call = .respond answered.frame answered.response ∧
        answered.origin = server.current connId ∧
        server.vaultOf connId = some answered.vaultId := by
  cases call with
  | db call =>
      have result : (server.query settings.toLibraries
          (some (server.current connId)) call circumstance).2 = server' :=
        congrArg Prod.snd (Option.some.inj executed)
      rw [← result] at given
      exact .inl (answers_query _ call circumstance ▸ given)
  | lock key =>
      cases free : server.docLocks key with
      | some holder => simp [Server.exec, free] at executed
      | none =>
          simp only [Server.exec, free, Option.some.injEq, Prod.mk.injEq] at executed
          rw [← executed.2] at given
          exact .inl given
  | unlock key | publish event =>
      simp only [Server.exec, Option.some.injEq, Prod.mk.injEq] at executed
      rw [← executed.2] at given
      exact .inl given
  | respond frame response =>
      obtain ⟨connection, registered,
        ⟨_, connection', _, _, _, _, rfl⟩ | ⟨_, _, rfl⟩⟩ := respond_cases executed
      · rcases List.mem_append.mp given with earlier | last
        · exact .inl earlier
        · obtain rfl := List.mem_singleton.mp last
          exact .inr ⟨rfl, rfl, by simp [Server.vaultOf, registered]⟩
      · exact .inl given
  | subscribe =>
      simp only [Server.exec, Server.subscribe, Option.bind_eq_bind,
        Option.map_eq_some_iff, Option.bind_eq_some_iff, Option.some.injEq,
        Prod.mk.injEq] at executed
      obtain ⟨_, ⟨connection, registered, rfl⟩, _, rfl⟩ := executed
      exact .inl given

/-- Events give no answers. -/
theorem answers_environment_eq
    {event : ServerEvent}
    (stepped : server.environment settings event = some server') :
    server'.answers = server.answers := by
  cases event with
  | expireTombstones circumstance | expireStalePeers circumstance =>
      simp only [Server.environment, Option.some.injEq] at stepped
      rw [← stepped]
      exact answers_query none _ circumstance
  | forward connId =>
      obtain ⟨connection, subscribed, cursor, sent, connection', registered, _, _,
        rfl, _⟩ := forward_cases stepped
      rfl
  | write connId =>
      simp only [Server.environment, Server.write, Option.bind_eq_bind,
        Option.bind_eq_some_iff] at stepped
      obtain ⟨connection, registered, result⟩ := stepped
      split at result
      · simp only [Option.some.injEq] at result
        rw [← result]
        rfl
      · simp at result
  | writeFails connId =>
      simp only [Server.environment, Server.writeFails, Option.bind_eq_bind,
        Option.bind_eq_some_iff, Option.some.injEq] at stepped
      obtain ⟨connection, registered, rfl⟩ := stepped
      rfl
  | blobPathChanged vaultId pathKey seq =>
      simp only [Server.environment, Option.some.injEq] at stepped
      rw [← stepped]

end Steps

/-! ## Runs -/

/-- A handshake answers no frame. -/
theorem handshake_quiet
    {fits : Frame Blob → ServerMsg Blob → List (Query Blob) → Prop}
    (vaultId peerId deviceName : String) :
    (handshake vaultId peerId deviceName : Program (serverSignature Blob) Flow).Only
      fun call => ∀ queries, ServerCall.Fits fits call queries := by
  have subscribes : ((Program.perform (S := serverSignature Blob) .subscribe).bind
      fun _ => .done Flow.again).Only fun call : ServerCall Blob =>
        ∀ queries, call.Fits fits queries :=
    ⟨fun _ => trivial, fun _ => trivial⟩
  unfold handshake
  split_ifs
  · exact Program.Only.bind ((Program.only_perform _).mpr fun _ => trivial)
      fun _ => subscribes
  · exact subscribes

/-- In every program the answer will fit, and so does every answer that was
given. -/
structure Vouched
    {settings : Settings Blob}
    (fits : String → Frame Blob → ServerMsg Blob → List (Query Blob) → Prop)
    (config : (serverMachine settings).Config) : Prop where
  threads : ∀ connId program vault, config.thread connId = some program →
    config.shared.vaultOf connId = some vault →
      program.Accounts ServerCall.queried (ServerCall.Fits (fits vault)) (fun _ _ => True)
        (config.shared.queriesOf (config.shared.current connId))
  answers : ∀ answered ∈ config.shared.answers,
    fits answered.vaultId answered.frame answered.response
      (config.shared.queriesOf answered.origin)

section Runs

variable {settings : Settings Blob} {connId : Nat} {server' : Server Blob}
variable {fits : String → Frame Blob → ServerMsg Blob → List (Query Blob) → Prop}
variable {label : (serverMachine settings).Label}
variable {config config' : (serverMachine settings).Config}

/-- One connection goes on, and nothing is recorded of the others. -/
theorem Vouched.advance
    {rest : Option (Program (serverSignature Blob) (serverMachine settings).Outcome)}
    (vouched : Vouched fits config)
    (goes : ∀ program vault, rest = some program → server'.vaultOf connId = some vault →
      program.Accounts ServerCall.queried (ServerCall.Fits (fits vault)) (fun _ _ => True)
        (server'.queriesOf (server'.current connId)))
    (others : ∀ other, other ≠ connId →
      server'.vaultOf other = config.shared.vaultOf other ∧
        server'.queriesOf (server'.current other) =
          config.shared.queriesOf (config.shared.current other))
    (answers : ∀ answered ∈ server'.answers,
      fits answered.vaultId answered.frame answered.response
        (server'.queriesOf answered.origin)) :
    Vouched fits (config.advance connId rest server') where
  threads := by
    intro other program vault current registered
    by_cases same : other = connId
    · subst same
      rw [config.advance_thread_self] at current
      exact goes program vault current registered
    · rw [config.advance_thread_other same] at current
      obtain ⟨home, queries⟩ := others other same
      rw [config.advance_shared, queries]
      exact vouched.threads other program vault current (home.symm.trans registered)
  answers := answers

/-- A connection that ends leaves no record. -/
theorem Vouched.disconnect (vouched : Vouched fits config) :
    Vouched fits (config.advance connId none (config.shared.disconnect connId)) := by
  refine vouched.advance (fun _ _ rest => by cases rest) ?_ vouched.answers
  intro other different
  refine ⟨vaultOf_disconnect different, ?_⟩
  have current : (config.shared.disconnect connId).current other =
      config.shared.current other := by
    simp [Server.current, Server.disconnect, Function.update_of_ne different]
  rw [current]
  rfl

theorem Vouched.step
    {initial : Db Blob}
    (serves : ∀ vaultId connId frame,
      (serveFrame settings vaultId connId frame).Accounts ServerCall.queried
        (ServerCall.Fits (fits vaultId)) (fun _ _ => True) [])
    (holds : (serverDiscipline settings False initial).Holds config)
    (vouched : Vouched fits config)
    (stepped : Machine.Steps (serverMachine settings) label config config') :
    Vouched fits config' := by
  obtain ⟨numbered, recorded⟩ := holds.invariant
  cases stepped with
  | @act _ connId circumstance call next reply shared current effect =>
      have queries := queriesOf_exec effect
      have same := sameConnections_exec effect
      refine vouched.advance ?_ ?_ ?_
      · intro program vault rest registered
        obtain rfl := Option.some.inj rest
        rw [vaultOf_exec effect] at registered
        rw [same.current, queries, if_pos rfl]
        exact (vouched.threads connId _ vault current registered).2 reply
      · intro other different
        refine ⟨vaultOf_exec effect other, ?_⟩
        have foreign : config.shared.current other ≠ config.shared.current connId :=
          fun equal => different (congrArg FrameId.connId equal)
        rw [same.current, queries, if_neg foreign]
      · intro answered given
        rcases answer_of_exec effect given with earlier | ⟨rfl, origin, home⟩
        · rw [queries]
          split_ifs with own
          · have answers : answered ∈ config.shared.answersTo
                (config.shared.current connId) :=
              List.mem_filter.mpr ⟨earlier, decide_eq_true own⟩
            have silent : call.queried reply = [] := by
              have pre := holds.pre current
              cases call with
              | db call => exact absurd pre.1 (List.ne_nil_of_mem answers)
              | respond | lock | unlock | publish | subscribe => rfl
            rw [silent, List.append_nil]
            exact vouched.answers answered earlier
          · exact vouched.answers answered earlier
        · rw [queries, if_pos origin, origin]
          simp only [ServerCall.queried, List.append_nil]
          exact (vouched.threads connId _ answered.vaultId current home).1
  | environment effect =>
      have queries := queriesOf_environment effect
      have same := sameConnections_environment effect
      refine ⟨?_, ?_⟩
      · intro connId program vault current registered
        rw [vaultOf_environment effect] at registered
        rw [same.current, queries]
        exact vouched.threads connId program vault current registered
      · intro answered given
        rw [answers_environment_eq effect] at given
        rw [queries]
        exact vouched.answers answered given
  | @start _ connId task program shared current effect =>
      have others : ∀ {connection : Connection Blob} (other : Nat), other ≠ connId →
          (config.shared.setConnection connId connection).current other =
            config.shared.current other := by
        intro connection other different
        simp [Server.current, Server.setConnection, Function.update_of_ne different]
      obtain ⟨vaultId, peerId, deviceName, connection, rfl, _, _, _, _, _, _, _, rfl⟩ |
        ⟨frame, connection, registered, rfl, rfl⟩ := start_cases effect
      · refine vouched.advance ?_ ?_ vouched.answers
        · intro program vault rest _
          obtain rfl := Option.some.inj rest
          exact Program.Accounts.of_only (handshake_quiet vaultId peerId deviceName)
            (fun _ _ => trivial) _
        · intro other different
          refine ⟨?_, congrArg (fun id => config.shared.queriesOf id)
            (others other different)⟩
          simp [Server.vaultOf, Server.setConnection, Function.update_of_ne different]
      · have vaultOf : ∀ other, Server.vaultOf other
            ((config.shared.setConnection connId
              { connection with received := connection.received + 1 }).note connId
                fun session => { session with frames := session.frames ++ [frame] }) =
            config.shared.vaultOf other := vaultOf_setConnection registered (by rfl)
        refine vouched.advance ?_ ?_ vouched.answers
        · intro program vault rest home
          obtain rfl := Option.some.inj rest
          rw [vaultOf, Server.vaultOf, registered] at home
          obtain rfl := Option.some.inj home
          have fresh := (recorded.unused ⟨connId, connection.received + 1⟩
            (.inr ⟨connection, registered, Nat.lt_succ_self _⟩)).1
          have id : Server.current connId
              ((config.shared.setConnection connId
                { connection with received := connection.received + 1 }).note connId
                  fun session => { session with frames := session.frames ++ [frame] }) =
              ⟨connId, connection.received + 1⟩ := by
            simp [Server.current, Server.note, Server.setConnection]
          have nothing : Server.queriesOf ⟨connId, connection.received + 1⟩ config.shared =
              [] := List.map_eq_nil_iff.mpr fresh
          rw [id]
          change Program.Accounts _ _ _ _ (config.shared.queriesOf _)
          rw [nothing]
          exact serves connection.vaultId connId frame
        · intro other different
          exact ⟨vaultOf other,
            congrArg (fun id => config.shared.queriesOf id) (others other different)⟩
  | @finish _ connId flow current =>
      cases flow with
      | again =>
          exact vouched.advance (fun _ _ rest => by cases rest) (fun _ _ => ⟨rfl, rfl⟩)
            vouched.answers
      | stop => exact vouched.disconnect
  | abandon => exact vouched.disconnect

/-- What fits in the program of every frame fits in every run. -/
theorem Reachable.vouched
    {initial : Db Blob}
    (serves : ∀ vaultId connId frame,
      (serveFrame settings vaultId connId frame).Accounts ServerCall.queried
        (ServerCall.Fits (fits vaultId)) (fun _ _ => True) [])
    (reachable : Reachable settings initial config) :
    Vouched fits config :=
  reachable.induction (motive := Vouched fits)
    ⟨fun _ _ _ current => (nomatch current), fun _ given => (nomatch given)⟩
    fun holds vouched stepped => vouched.step serves holds stepped

end Runs

end VaultCrdtServer
