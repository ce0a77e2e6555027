import VaultCrdtServer.Server.Tasks

/-!
# Runs of the server

In every run all connections keep their contracts.  From this the record of a
run follows: the journal is a history, and every answer that was given, and
every event that was sent, reports what was done for its frame.
-/

namespace VaultCrdtServer

open Interleaving

variable {Blob : Type}

/-! ## Frames not yet received -/

/-- No frame with this identity has been received yet. -/
def Server.Unused (id : FrameId) (server : Server Blob) : Prop :=
  server.connCounter ≤ id.connId ∨
    ∃ connection, server.connections id.connId = some connection ∧
      connection.received < id.number

/-- The frame a connection works on has been received. -/
theorem Server.not_unused_current
    {server : Server Blob}
    {connId : Nat}
    (counted : connId < server.connCounter) :
    ¬ server.Unused (server.current connId) := by
  rintro (unconnected | ⟨connection, registered, fewer⟩)
  · exact absurd counted (Nat.not_lt.mpr unconnected)
  · have registered' : server.connections connId = some connection := registered
    simp [Server.current, registered'] at fewer

/-- Replacing a connection by one that has received as many frames. -/
theorem Server.unused_of_setConnection
    {server : Server Blob}
    {connId : Nat}
    {connection connection' : Connection Blob}
    (registered : server.connections connId = some connection)
    (received : connection.received ≤ connection'.received)
    {id : FrameId}
    (unused : (server.setConnection connId connection').Unused id) :
    server.Unused id := by
  rcases unused with unconnected | ⟨later, registered', fewer⟩
  · exact Or.inl unconnected
  · by_cases same : id.connId = connId
    · subst same
      simp only [Server.setConnection, Function.update_self, Option.some.injEq]
        at registered'
      subst registered'
      exact Or.inr ⟨connection, registered, by omega⟩
    · simp only [Server.setConnection, Function.update_of_ne same] at registered'
      exact Or.inr ⟨later, registered', fewer⟩

/-- Only registered connections run, and their ids are handed out in order. -/
structure Numbered
    {settings : Settings Blob}
    (config : (serverMachine settings).Config) : Prop where
  attached : ∀ connId, (config.thread connId).isSome = true →
    (config.shared.connections connId).isSome = true
  registered : ∀ connId, (config.shared.connections connId).isSome = true →
    connId < config.shared.connCounter

/-- What a run has recorded about frames. -/
structure Recorded
    (settings : Settings Blob)
    (initial : Db Blob)
    (server : Server Blob) : Prop where
  unused : ∀ id, server.Unused id →
    server.entriesOf id = [] ∧ server.answersTo id = [] ∧ server.sentFor id = []
  history : History settings.toLibraries initial server.journal server.db
  /-- A frame is answered once, its answer reports what was done for it, and
  nothing but the announcement that is due follows. -/
  reported : ∀ answered ∈ server.answers,
    server.answersTo answered.origin = [answered] ∧
      ∃ broadcast, Settled settings.toLibraries answered.origin answered.vaultId
          answered.frame.decoded (answered.response, broadcast)
          (server.entriesOf answered.origin) ∧
        (server.sentFor answered.origin = [] ∨
          ∃ event, broadcast = some event ∧
            server.sentFor answered.origin = [⟨some answered.origin, event⟩])
  /-- Only what was answered is announced. -/
  sent : ∀ sent ∈ server.channel, ∀ id, sent.origin = some id → server.answersTo id ≠ []
  /-- What is announced for no frame is a path of the blob lane. -/
  foreign : ∀ sent ∈ server.channel, sent.origin = none →
    ∃ vaultId pathKey seq, sent.event = .blobPathChanged vaultId pathKey seq
  /-- Documents are written for frames only. -/
  owned : ∀ entry ∈ server.journal, entry.origin = none → entry.committed = none

/-- What one step can do to the record. -/
inductive Move (settings : Settings Blob) : Server Blob → Server Blob → Prop
  | quiet {server server' : Server Blob}
      (db : server'.db = server.db)
      (journal : server'.journal = server.journal)
      (answers : server'.answers = server.answers)
      (channel : server'.channel = server.channel)
      (received : ∀ id, server'.Unused id → server.Unused id) :
      Move settings server server'
  | query {server : Server Blob} {origin : Option FrameId} {call : DbCall Blob}
      {reply : call.Reply} {db : Db Blob} {now : Time}
      (unowned : origin = none → call.target = none)
      (registered : ∀ id, origin = some id →
        (server.connections id.connId).isSome = true ∧ server.current id.connId = id)
      (open_ : ∀ id, origin = some id → ¬ server.Unused id ∧
        server.answersTo id = [] ∧ server.sentFor id = [])
      (justified : DbCall.Justified settings.loro server.db call)
      (executed : call.exec settings.toLibraries now server.db = .ok (reply, db)) :
      Move settings server (server.commit origin call reply db)
  | reply {server : Server Blob} {connId : Nat}
      {connection connection' : Connection Blob} {frame : Frame Blob}
      {answer : Answer Blob}
      (registered : server.connections connId = some connection)
      (received : connection'.received = connection.received)
      (used : ¬ server.Unused (server.current connId))
      (unanswered : server.answersTo (server.current connId) = [])
      (unsent : server.sentFor (server.current connId) = [])
      (settled : Settled settings.toLibraries (server.current connId)
        connection.vaultId frame.decoded answer
        (server.entriesOf (server.current connId))) :
      Move settings server
        { server.setConnection connId connection' with
          answers := server.answers ++
            [⟨server.current connId, connection.vaultId, frame, answer.1⟩] }
  | announce {server : Server Blob} {connId : Nat} {event : BroadcastEvent Blob}
      {answered : Answered Blob}
      (used : ¬ server.Unused (server.current connId))
      (unsent : server.sentFor (server.current connId) = [])
      (answers : server.answersTo (server.current connId) = [answered])
      (settled : Settled settings.toLibraries (server.current connId)
        answered.vaultId answered.frame.decoded (answered.response, some event)
        (server.entriesOf (server.current connId))) :
      Move settings server (server.publish connId event)
  | blobPathChanged {server : Server Blob} (vaultId pathKey : String) (seq : Int) :
      Move settings server
        { server with
          channel := server.channel ++ [⟨none, .blobPathChanged vaultId pathKey seq⟩] }

namespace Recorded

variable {settings : Settings Blob} {initial : Db Blob}
variable {server server' : Server Blob}

theorem of_started : Recorded settings initial (Server.started initial) where
  unused := fun _ _ => ⟨rfl, rfl, rfl⟩
  history := .start
  reported := fun _ member => nomatch member
  sent := fun _ member => nomatch member
  foreign := fun _ member => nomatch member
  owned := fun _ member => nomatch member

/-- An answer that is given has the origin it is given to. -/
theorem origin_of_mem_answersTo
    {id : FrameId}
    {answered : Answered Blob}
    (member : answered ∈ server.answersTo id) :
    answered.origin = id := by
  simpa using (List.mem_filter.mp member).2

/-- The record survives every move. -/
theorem move
    (recorded : Recorded settings initial server)
    (moves : Move settings server server') :
    Recorded settings initial server' := by
  cases moves with
  | quiet db journal answers channel received =>
      have entriesOf : ∀ id, server'.entriesOf id = server.entriesOf id := by
        simp [Server.entriesOf, journal]
      have answersTo : ∀ id, server'.answersTo id = server.answersTo id := by
        simp [Server.answersTo, answers]
      have sentFor : ∀ id, server'.sentFor id = server.sentFor id := by
        simp [Server.sentFor, channel]
      refine ⟨?_, ?_, ?_, ?_, channel ▸ recorded.foreign, ?_⟩
      · intro id unused
        rw [entriesOf, answersTo, sentFor]
        exact recorded.unused id (received id unused)
      · rw [db, journal]
        exact recorded.history
      · intro answered member
        rw [entriesOf, answersTo, sentFor]
        exact recorded.reported answered (answers ▸ member)
      · intro sent member id origin
        rw [answersTo]
        exact recorded.sent sent (channel ▸ member) id origin
      · exact fun entry member => recorded.owned entry (journal ▸ member)
  | @query origin call reply db now unowned _ open_ justified executed =>
      have spared : ∀ id, server.Unused id ∨ server.answersTo id ≠ [] →
          (server.commit origin call reply db).entriesOf id =
            server.entriesOf id := by
        intro id closed
        have foreign : origin ≠ some id := by
          intro own
          obtain ⟨used, unanswered, _⟩ := open_ id own
          exact closed.elim used (absurd unanswered)
        simp [Server.entriesOf, Server.commit, foreign]
      refine ⟨?_, recorded.history.commit justified executed, ?_, recorded.sent,
        recorded.foreign, ?_⟩
      · intro id unused
        rw [spared id (Or.inl unused)]
        exact recorded.unused id unused
      · intro answered member
        have reported := recorded.reported answered member
        rw [spared answered.origin (Or.inr (by rw [reported.1]; simp))]
        exact reported
      · intro entry member none
        rw [Server.commit, List.mem_append, List.mem_singleton] at member
        rcases member with earlier | rfl
        · exact recorded.owned entry earlier none
        · cases written : call.committed reply with
          | none => exact written
          | some path =>
              cases (unowned none).symm.trans (DbCall.target_of_committed written)
  | @reply connId connection connection' frame answer registered received used
      unanswered unsent settled =>
      have spared : ∀ id, id ≠ server.current connId →
          Server.answersTo id
            { server.setConnection connId connection' with
              answers := server.answers ++
                [⟨server.current connId, connection.vaultId, frame, answer.1⟩] } =
            server.answersTo id := by
        intro id other
        simp [Server.answersTo, List.filter_append, Ne.symm other]
      have answered : Server.answersTo (server.current connId)
          { server.setConnection connId connection' with
            answers := server.answers ++
              [⟨server.current connId, connection.vaultId, frame, answer.1⟩] } =
          [⟨server.current connId, connection.vaultId, frame, answer.1⟩] := by
        rw [Server.answersTo] at unanswered
        simp [Server.answersTo, List.filter_append, unanswered]
      refine ⟨?_, recorded.history, ?_, ?_, recorded.foreign, recorded.owned⟩
      · intro id unused
        have before := Server.unused_of_setConnection registered received.ge unused
        rw [spared id fun same => used (same ▸ before)]
        exact recorded.unused id before
      · intro other member
        rw [List.mem_append, List.mem_singleton] at member
        rcases member with earlier | rfl
        · have reported := recorded.reported other earlier
          rw [spared other.origin fun same => by
            rw [same, unanswered] at reported
            cases reported.1]
          exact reported
        · exact ⟨answered, answer.2, settled, Or.inl unsent⟩
      · intro sent member id origin
        by_cases same : id = server.current connId
        · rw [same, answered]
          simp
        · rw [spared id same]
          exact recorded.sent sent member id origin
  | @announce connId event answered used unsent answers settled =>
      have spared : ∀ id, id ≠ server.current connId →
          (server.publish connId event).sentFor id = server.sentFor id := by
        intro id other
        simp [Server.sentFor, Server.publish, Ne.symm other]
      refine ⟨?_, recorded.history, ?_, ?_, ?_, recorded.owned⟩
      · intro id unused
        rw [spared id fun same => used (same ▸ unused)]
        exact recorded.unused id unused
      · intro other member
        by_cases same : other.origin = server.current connId
        · have only : other ∈ server.answersTo (server.current connId) :=
            List.mem_filter.mpr ⟨member, by simp [same]⟩
          rw [answers, List.mem_singleton] at only
          subst only
          rw [same]
          refine ⟨answers, some event, settled, Or.inr ⟨event, rfl, ?_⟩⟩
          rw [Server.sentFor] at unsent
          simp [Server.sentFor, Server.publish, unsent]
        · rw [spared other.origin same]
          exact recorded.reported other member
      · intro sent member id origin
        rw [Server.publish, List.mem_append, List.mem_singleton] at member
        rcases member with earlier | rfl
        · exact recorded.sent sent earlier id origin
        · obtain rfl := Option.some.inj origin
          change server.answersTo (server.current connId) ≠ []
          rw [answers]
          simp
      · intro sent member unowned
        rw [Server.publish, List.mem_append, List.mem_singleton] at member
        rcases member with earlier | rfl
        · exact recorded.foreign sent earlier unowned
        · cases unowned
  | blobPathChanged vaultId pathKey seq =>
      have sentFor : ∀ id, Server.sentFor id
          { server with
            channel := server.channel ++ [⟨none, .blobPathChanged vaultId pathKey seq⟩] } =
          server.sentFor id := by
        simp [Server.sentFor]
      refine ⟨?_, recorded.history, ?_, ?_, ?_, recorded.owned⟩
      · intro id unused
        rw [sentFor]
        exact recorded.unused id unused
      · intro answered member
        rw [sentFor]
        exact recorded.reported answered member
      · intro sent member id origin
        rw [List.mem_append, List.mem_singleton] at member
        rcases member with earlier | rfl
        · exact recorded.sent sent earlier id origin
        · cases origin
      · intro sent member unowned
        rw [List.mem_append, List.mem_singleton] at member
        rcases member with earlier | rfl
        · exact recorded.foreign sent earlier unowned
        · exact ⟨vaultId, pathKey, seq, rfl⟩

end Recorded

/-! ## Steps -/

/-- No connection is dropped, and none sees its writer end, while it owes an
announcement. -/
def Uninterrupted
    {settings : Settings Blob} :
    (serverMachine settings).Label → (serverMachine settings).Config → Prop
  | .act connId _, config =>
      ∀ frame response next,
        config.thread connId = some (.call (.respond frame response) next) →
        config.shared.Owes connId →
          ∀ connection, config.shared.connections connId = some connection →
            connection.writing = true
  | .abandon connId, config => ¬ config.shared.Owes connId
  | _, _ => True

instance
    {settings : Settings Blob}
    (label : (serverMachine settings).Label)
    (config : (serverMachine settings).Config) :
    Decidable (Uninterrupted label config) :=
  match label with
  | .act connId choice =>
      match current : config.thread connId with
      | some (.call (.respond ..) _) =>
          decidable_of_iff
            (config.shared.Owes connId →
              (config.shared.connections connId).all Connection.writing = true)
            (by simp [Uninterrupted, current, Option.all_eq_true])
      | some (.call (.db _) _) | some (.call (.lock _) _) | some (.call (.unlock _) _)
      | some (.call (.publish _) _) | some (.call .subscribe _) | some (.done _)
      | none => isTrue (by simp [Uninterrupted, current])
  | .abandon connId => inferInstanceAs (Decidable (¬ config.shared.Owes connId))
  | .environment _ | .start .. | .finish _ => isTrue trivial

section Steps

variable {settings : Settings Blob} {reliable : Prop} {initial : Db Blob}
variable {server server' : Server Blob} {connId : Nat}

/-- A connection whose tasks have ended rests. -/
theorem rests_disconnect : Rests reliable connId (server.disconnect connId) := by
  constructor
  · intro key held
    simp only [Server.disconnect] at held
    split_ifs at held with own
    exact own held
  · rintro _ ⟨registered, _⟩
    simp [Server.disconnect] at registered

/-- An allowed call has the effect its contract states. -/
theorem serverExec_of_exec
    {config : (serverMachine settings).Config}
    {circumstance : Circumstance}
    {call : ServerCall Blob}
    {next : call.Reply → Program (serverSignature Blob) Flow}
    {reply : call.Reply}
    (allowed : reliable →
      @Uninterrupted Blob settings (.act connId circumstance) config)
    (current : config.thread connId = some (.call call next))
    (executed : Server.exec settings connId call circumstance config.shared =
      some (reply, server')) :
    serverExec settings reliable connId call config.shared reply server' := by
  cases call with
  | respond frame response =>
      refine ⟨⟨circumstance, executed⟩, ?_⟩
      intro reliably owes
      obtain ⟨connection, registered, ⟨arrived, _⟩ | ⟨_, ended, _⟩⟩ :=
        respond_cases executed
      · exact arrived
      · have writing :=
          allowed reliably frame response next current owes connection registered
        rw [ended] at writing
        cases writing
  | db | lock | unlock | publish | subscribe => exact ⟨circumstance, executed⟩

/-- A connection that starts working on a frame it has not received before. -/
theorem working_of_fresh
    {id : FrameId}
    (connection : Connection Blob)
    (unlocked : server.Unlocked id.connId)
    (answers : server.answersTo id = [])
    (sent : server.sentFor id = [])
    (received : connection.received = id.number) :
    Working id connection.vaultId none (server.setConnection id.connId connection) where
  connection := by simp [Server.setConnection, received]
  locks := fun key => ⟨fun held => absurd held (unlocked key), fun held => nomatch held⟩
  answers := answers
  sent := sent

/-- A task keeps its contract from the start. -/
theorem start_meets
    {task : Task Blob}
    {program : Program (serverSignature Blob) Flow}
    (encodes : reliable → ∀ response : ServerMsg Blob, response.IsAck →
      settings.encodes response = true)
    (recorded : Recorded settings initial server)
    (rests : Rests reliable connId server)
    (started : server.start settings connId task = some (program, server')) :
    program.Meets (serverContract settings reliable connId)
      (fun _ later => Rests reliable connId later) server' := by
  obtain ⟨vaultId, peerId, deviceName, connection, rfl, counted, rfl, received,
    unsubscribed, _, _, _, rfl⟩ | ⟨frame, connection, registered, rfl, rfl⟩ :=
    start_cases started
  · have fresh := recorded.unused ⟨connId, 0⟩ (Or.inl counted.ge)
    have working : Working ⟨connId, 0⟩ connection.vaultId none
        { server.setConnection connId connection with
          connCounter := server.connCounter + 1
          sessions := Function.update server.sessions connId
            (some ⟨⟨connection.vaultId, peerId⟩, [], []⟩) } := by
      obtain ⟨connected, locks, answers, sent⟩ :=
        working_of_fresh connection rests.1 fresh.2.1 fresh.2.2 received
      exact ⟨connected, locks, answers, sent⟩
    exact handshake_meets working fresh.1
      (by simp [Server.Unsubscribed, Server.setConnection, unsubscribed])
  · have fresh := recorded.unused ⟨connId, connection.received + 1⟩
      (Or.inr ⟨connection, registered, Nat.lt_succ_self _⟩)
    have working : Working ⟨connId, connection.received + 1⟩ connection.vaultId none
        ((server.setConnection connId
          { connection with received := connection.received + 1 }).note connId
            fun session => { session with frames := session.frames ++ [frame] }) := by
      obtain ⟨connected, locks, answers, sent⟩ :=
        working_of_fresh { connection with received := connection.received + 1 }
          rests.1 fresh.2.1 fresh.2.2 rfl
      exact ⟨connected, locks, answers, sent⟩
    exact serveFrame_meets encodes working fresh.1

/-- A connection that changes beside its frames. -/
theorem move_setConnection
    {connection connection' : Connection Blob}
    (registered : server.connections connId = some connection)
    (received : connection.received ≤ connection'.received) :
    Move settings server (server.setConnection connId connection') :=
  .quiet rfl rfl rfl rfl fun _ => Server.unused_of_setConnection registered received

/-- What is noted of a session is not seen in the record. -/
theorem move_note
    {connection connection' : Connection Blob}
    (registered : server.connections connId = some connection)
    (received : connection.received ≤ connection'.received)
    (passed : Session Blob → Session Blob) :
    Move settings server ((server.setConnection connId connection').note connId passed) :=
  .quiet rfl rfl rfl rfl fun _ => Server.unused_of_setConnection registered received

/-- Every database call for a frame is a move. -/
theorem move_of_query
    {origin : Option FrameId}
    {call : DbCall Blob}
    {circumstance : Circumstance}
    (unowned : origin = none → call.target = none)
    (registered : ∀ id, origin = some id →
      (server.connections id.connId).isSome = true ∧ server.current id.connId = id)
    (open_ : ∀ id, origin = some id → ¬ server.Unused id ∧
      server.answersTo id = [] ∧ server.sentFor id = [])
    (justified : DbCall.Justified settings.loro server.db call) :
    Move settings server
      (server.query settings.toLibraries origin call circumstance).2 := by
  unfold Server.query
  cases circumstance.fault with
  | some error => exact .quiet rfl rfl rfl rfl fun _ => id
  | none =>
      cases executed : call.exec settings.toLibraries circumstance.now server.db with
      | error error => exact .quiet rfl rfl rfl rfl fun _ => id
      | ok result => exact .query unowned registered open_ justified executed

/-- A connection's call moves the record on. -/
theorem move_of_exec
    {call : ServerCall Blob}
    {reply : call.Reply}
    (attached : (server.connections connId).isSome = true)
    (counted : connId < server.connCounter)
    (pre : serverPre settings connId call server)
    (executed : serverExec settings reliable connId call server reply server') :
    Move settings server server' := by
  have used := Server.not_unused_current counted
  cases call with
  | db call =>
      obtain ⟨circumstance, executed⟩ := executed
      have result : (server.query settings.toLibraries
          (some (server.current connId)) call circumstance).2 = server' :=
        congrArg Prod.snd (Option.some.inj executed)
      rw [← result]
      apply move_of_query
      · exact fun unowned => nomatch unowned
      · rintro id same
        rw [Option.some.injEq] at same
        subst same
        exact ⟨attached, rfl⟩
      · rintro id same
        rw [Option.some.injEq] at same
        subst same
        exact ⟨used, pre.1, pre.2.1⟩
      · cases target : call.target with
        | some path => exact (pre.2.2 path target).2.1
        | none => cases call <;> simp_all [DbCall.target, DbCall.Justified]
  | lock key =>
      obtain ⟨circumstance, executed⟩ := executed
      cases free : server.docLocks key with
      | some holder => simp [Server.exec, free] at executed
      | none =>
          simp only [Server.exec, free, Option.some.injEq, Prod.mk.injEq] at executed
          obtain ⟨_, rfl⟩ := executed
          exact .quiet rfl rfl rfl rfl fun _ => id
  | unlock key =>
      obtain ⟨circumstance, executed⟩ := executed
      simp only [Server.exec, Option.some.injEq, Prod.mk.injEq] at executed
      obtain ⟨_, rfl⟩ := executed
      exact .quiet rfl rfl rfl rfl fun _ => id
  | respond frame response =>
      obtain ⟨⟨circumstance, responded⟩, _⟩ := executed
      obtain ⟨connection, registered,
        ⟨_, connection', _, received, _, _, rfl⟩ | ⟨_, _, rfl⟩⟩ :=
        respond_cases responded
      · obtain ⟨unanswered, unsent, settled⟩ := pre
        obtain ⟨broadcast, settled⟩ := settled connection registered
        exact .reply registered received used unanswered unsent settled
      · exact .quiet rfl rfl rfl rfl fun _ => id
  | publish event =>
      obtain ⟨circumstance, executed⟩ := executed
      simp only [Server.exec, Option.some.injEq, Prod.mk.injEq] at executed
      obtain ⟨_, rfl⟩ := executed
      obtain ⟨unsent, answered, answers, settled⟩ := pre
      exact .announce used unsent answers settled
  | subscribe =>
      obtain ⟨circumstance, executed⟩ := executed
      simp only [Server.exec, Server.subscribe, Option.bind_eq_bind,
        Option.map_eq_some_iff, Option.bind_eq_some_iff, Option.some.injEq,
        Prod.mk.injEq] at executed
      obtain ⟨_, ⟨connection, registered, rfl⟩, _, rfl⟩ := executed
      exact move_setConnection registered (Nat.le_refl _)

/-- So does an event of the environment. -/
theorem move_of_environment
    {event : ServerEvent}
    (stepped : server.environment settings event = some server') :
    Move settings server server' := by
  cases event with
  | expireTombstones circumstance | expireStalePeers circumstance =>
      simp only [Server.environment, Option.some.injEq] at stepped
      rw [← stepped]
      exact move_of_query (fun _ => rfl) (fun _ own => by cases own)
        (fun _ own => by cases own) trivial
  | forward connId =>
      obtain ⟨connection, subscribed, cursor, sent, connection', registered, _, _,
        rfl, ⟨_, rfl⟩ | ⟨message, _, _, rfl⟩⟩ := forward_cases stepped
      · exact move_setConnection registered (Nat.le_refl _)
      · exact move_setConnection registered (Nat.le_refl _)
  | write connId =>
      simp only [Server.environment, Server.write, Option.bind_eq_bind,
        Option.bind_eq_some_iff] at stepped
      obtain ⟨connection, registered, result⟩ := stepped
      split at result
      · simp only [Option.some.injEq] at result
        rw [← result]
        apply move_note registered
        exact Nat.le_refl _
      · simp at result
  | writeFails connId =>
      simp only [Server.environment, Server.writeFails, Option.bind_eq_bind,
        Option.bind_eq_some_iff, Option.some.injEq] at stepped
      obtain ⟨connection, registered, rfl⟩ := stepped
      exact move_setConnection registered (Nat.le_refl _)
  | blobPathChanged vaultId pathKey seq =>
      simp only [Server.environment, Option.some.injEq] at stepped
      rw [← stepped]
      exact .blobPathChanged vaultId pathKey seq

/-- So does a task that starts. -/
theorem move_of_start
    {task : Task Blob}
    {program : Program (serverSignature Blob) Flow}
    (started : server.start settings connId task = some (program, server')) :
    Move settings server server' := by
  obtain ⟨_, _, _, connection, _, counted, _, received, _, _, _, _, rfl⟩ |
    ⟨frame, connection, registered, _, rfl⟩ := start_cases started
  · refine .quiet rfl rfl rfl rfl ?_
    rintro id (unconnected | ⟨later, registered, fewer⟩)
    · exact Or.inl (Nat.le_of_succ_le unconnected)
    · by_cases same : id.connId = connId
      · exact Or.inl (by omega)
      · simp only [Server.setConnection, Function.update_of_ne same] at registered
        exact Or.inr ⟨later, registered, fewer⟩
  · apply move_note registered
    exact Nat.le_succ _

/-- So does a connection that ends. -/
theorem move_disconnect : Move settings server (server.disconnect connId) := by
  refine .quiet rfl rfl rfl rfl ?_
  rintro id (unconnected | ⟨later, registered, fewer⟩)
  · exact Or.inl unconnected
  · by_cases same : id.connId = connId
    · subst same
      simp [Server.disconnect] at registered
    · simp only [Server.disconnect, Function.update_of_ne same] at registered
      exact Or.inr ⟨later, registered, fewer⟩

/-- What one step of a run does to the record. -/
theorem move_of_steps
    {label : (serverMachine settings).Label}
    {config config' : (serverMachine settings).Config}
    (numbered : Numbered config)
    (pre : ∀ {connId : Nat} {call : ServerCall Blob} {next},
      config.thread connId = some (.call call next) →
        serverPre settings connId call config.shared)
    (stepped : Machine.Steps (serverMachine settings) label config config') :
    Move settings config.shared config'.shared := by
  cases stepped with
  | @act _ connId circumstance call next reply shared current effect =>
      have attached := numbered.attached connId (by rw [current]; rfl)
      have executed : serverExec settings False connId call config.shared reply shared :=
        serverExec_of_exec (fun reliable => reliable.elim) current effect
      exact move_of_exec attached (numbered.registered connId attached) (pre current)
        executed
  | environment effect => exact move_of_environment effect
  | start current effect => exact move_of_start effect
  | @finish _ connId flow current =>
      cases flow with
      | again => exact .quiet rfl rfl rfl rfl fun _ => id
      | stop => exact move_disconnect
  | abandon => exact move_disconnect

/-- The same connections are registered and work on the same frames. -/
structure SameConnections (server server' : Server Blob) : Prop where
  counter : server'.connCounter = server.connCounter
  received : ∀ connId, (server'.connections connId).map Connection.received =
    (server.connections connId).map Connection.received

theorem SameConnections.isSome
    (same : SameConnections server server')
    (connId : Nat) :
    (server'.connections connId).isSome = (server.connections connId).isSome := by
  have isSome := congrArg Option.isSome (same.received connId)
  simpa only [Option.isSome_map] using isSome

theorem SameConnections.current
    (same : SameConnections server server')
    (connId : Nat) :
    server'.current connId = server.current connId := by
  simp only [Server.current, same.received connId]

theorem SameConnections.note
    (same : SameConnections server server')
    (passed : Session Blob → Session Blob) :
    SameConnections server (server'.note connId passed) :=
  { same with }

theorem sameConnections_setConnection
    {connection connection' : Connection Blob}
    (registered : server.connections connId = some connection)
    (received : connection'.received = connection.received) :
    SameConnections server (server.setConnection connId connection') := by
  refine ⟨rfl, ?_⟩
  intro other
  by_cases same : other = connId
  · subst same
    simp [Server.setConnection, registered, received]
  · simp [Server.setConnection, Function.update_of_ne same]

theorem sameConnections_query
    (origin : Option FrameId)
    (call : DbCall Blob)
    (circumstance : Circumstance) :
    SameConnections server
      (server.query settings.toLibraries origin call circumstance).2 := by
  unfold Server.query
  cases circumstance.fault with
  | some error => exact ⟨rfl, fun _ => rfl⟩
  | none =>
      cases call.exec settings.toLibraries circumstance.now server.db with
      | error error => exact ⟨rfl, fun _ => rfl⟩
      | ok result => exact ⟨rfl, fun _ => rfl⟩

/-- Calls register nobody and drop nobody. -/
theorem sameConnections_exec
    {call : ServerCall Blob}
    {circumstance : Circumstance}
    {reply : call.Reply}
    (executed : Server.exec settings connId call circumstance server =
      some (reply, server')) :
    SameConnections server server' := by
  cases call with
  | db call =>
      have result : (server.query settings.toLibraries
          (some (server.current connId)) call circumstance).2 = server' :=
        congrArg Prod.snd (Option.some.inj executed)
      rw [← result]
      exact sameConnections_query _ call circumstance
  | lock key =>
      cases free : server.docLocks key with
      | some holder => simp [Server.exec, free] at executed
      | none =>
          simp only [Server.exec, free, Option.some.injEq, Prod.mk.injEq] at executed
          obtain ⟨_, rfl⟩ := executed
          exact ⟨rfl, fun _ => rfl⟩
  | unlock key | publish event =>
      simp only [Server.exec, Option.some.injEq, Prod.mk.injEq] at executed
      obtain ⟨_, rfl⟩ := executed
      exact ⟨rfl, fun _ => rfl⟩
  | respond frame response =>
      obtain ⟨connection, registered,
        ⟨_, connection', _, received, _, _, rfl⟩ | ⟨_, _, rfl⟩⟩ :=
        respond_cases executed
      · obtain ⟨_, same⟩ := sameConnections_setConnection registered received
        exact ⟨rfl, same⟩
      · exact ⟨rfl, fun _ => rfl⟩
  | subscribe =>
      simp only [Server.exec, Server.subscribe, Option.bind_eq_bind,
        Option.map_eq_some_iff, Option.bind_eq_some_iff, Option.some.injEq,
        Prod.mk.injEq] at executed
      obtain ⟨_, ⟨connection, registered, rfl⟩, _, rfl⟩ := executed
      exact sameConnections_setConnection registered rfl

/-- Nor do the events of the environment. -/
theorem sameConnections_environment
    {event : ServerEvent}
    (stepped : server.environment settings event = some server') :
    SameConnections server server' := by
  cases event with
  | expireTombstones circumstance | expireStalePeers circumstance =>
      simp only [Server.environment, Option.some.injEq] at stepped
      rw [← stepped]
      exact sameConnections_query ..
  | forward connId =>
      obtain ⟨connection, subscribed, cursor, sent, connection', registered, _, _,
        rfl, ⟨_, rfl⟩ | ⟨message, _, _, rfl⟩⟩ := forward_cases stepped
      · exact sameConnections_setConnection registered rfl
      · exact sameConnections_setConnection registered rfl
  | write connId =>
      simp only [Server.environment, Server.write, Option.bind_eq_bind,
        Option.bind_eq_some_iff] at stepped
      obtain ⟨connection, registered, result⟩ := stepped
      split at result
      · simp only [Option.some.injEq] at result
        rw [← result]
        apply SameConnections.note
        exact sameConnections_setConnection registered rfl
      · simp at result
  | writeFails connId =>
      simp only [Server.environment, Server.writeFails, Option.bind_eq_bind,
        Option.bind_eq_some_iff, Option.some.injEq] at stepped
      obtain ⟨connection, registered, rfl⟩ := stepped
      exact sameConnections_setConnection registered rfl
  | blobPathChanged vaultId pathKey seq =>
      simp only [Server.environment, Option.some.injEq] at stepped
      rw [← stepped]
      exact ⟨rfl, fun _ => rfl⟩

/-- A thread steps to a server that counts it and registers nobody else. -/
theorem numbered_advance
    {config : (serverMachine settings).Config}
    {rest : Option (Program (serverSignature Blob) (serverMachine settings).Outcome)}
    (numbered : Numbered config)
    (counter : config.shared.connCounter ≤ server'.connCounter)
    (attached : rest.isSome = true → (server'.connections connId).isSome = true)
    (counted : (server'.connections connId).isSome = true →
      connId < server'.connCounter)
    (others : ∀ other, other ≠ connId →
      (server'.connections other).isSome = (config.shared.connections other).isSome) :
    Numbered (config.advance connId rest server') where
  attached := by
    intro other
    by_cases same : other = connId
    · subst same
      rw [config.advance_thread_self]
      exact attached
    · rw [config.advance_thread_other same]
      exact fun runs => (others other same).trans (numbered.attached other runs)
  registered := by
    intro other
    by_cases same : other = connId
    · subst same
      exact counted
    · exact fun connected =>
        (numbered.registered other ((others other same).symm.trans connected)).trans_le
          counter

/-- A connection that ends is no longer registered. -/
theorem numbered_disconnect
    {config : (serverMachine settings).Config}
    (numbered : Numbered config) :
    Numbered (config.advance connId none (config.shared.disconnect connId)) := by
  refine numbered_advance numbered (Nat.le_refl _) (by simp) ?_ ?_
  · simp [Server.disconnect]
  · intro other different
    simp [Server.disconnect, Function.update_of_ne different]

/-- Connections stay registered, or are registered under the next id. -/
theorem numbered_step
    {label : (serverMachine settings).Label}
    {config config' : (serverMachine settings).Config}
    (numbered : Numbered config)
    (stepped : Machine.Steps (serverMachine settings) label config config') :
    Numbered config' := by
  cases stepped with
  | @act _ connId circumstance call next reply shared current effect =>
      have attached := numbered.attached connId (by rw [current]; rfl)
      have same := sameConnections_exec effect
      exact numbered_advance numbered same.counter.ge
        (fun _ => (same.isSome connId).trans attached)
        (fun _ => same.counter ▸ numbered.registered connId attached)
        fun other _ => same.isSome other
  | environment effect =>
      have same := sameConnections_environment effect
      refine ⟨?_, ?_⟩
      · intro connId runs
        exact (same.isSome connId).trans (numbered.attached connId runs)
      · intro connId connected
        exact (numbered.registered connId
          ((same.isSome connId).symm.trans connected)).trans_le same.counter.ge
  | @start _ connId task program shared current effect =>
      obtain ⟨_, _, _, connection, _, counted, _, _, _, _, _, _, rfl⟩ |
        ⟨frame, connection, registered, _, rfl⟩ := start_cases effect
      · refine numbered_advance numbered (Nat.le_succ _) ?_ ?_ ?_
        · exact fun _ => by simp [Server.setConnection]
        · exact fun _ => Nat.lt_succ_of_le counted.le
        · intro other different
          simp [Server.setConnection, Function.update_of_ne different]
      · refine numbered_advance numbered (Nat.le_refl _) ?_ ?_ ?_
        · exact fun _ => by simp [Server.setConnection, Server.note]
        · exact fun _ => numbered.registered connId (by rw [registered]; rfl)
        · intro other different
          simp [Server.setConnection, Server.note, Function.update_of_ne different]
  | @finish _ connId flow current =>
      cases flow with
      | again =>
          exact numbered_advance numbered (Nat.le_refl _) (by simp)
            (numbered.registered connId) fun _ _ => rfl
      | stop => exact numbered_disconnect numbered
  | abandon => exact numbered_disconnect numbered

end Steps

/-! ## The discipline -/

/-- The discipline of the connections.  Where replies are reliable, only
uninterrupted steps are considered, and a connection at rest owes nothing. -/
def serverDiscipline
    (settings : Settings Blob)
    (reliable : Prop)
    (initial : Db Blob) : Discipline (serverMachine settings) where
  contract := serverContract settings reliable
  idle := Rests reliable
  post := fun connId _ server => Rests reliable connId server
  allowed := fun label config => reliable → Uninterrupted label config
  invariant := fun config =>
    Numbered config ∧ Recorded settings initial config.shared

section Discipline

variable {settings : Settings Blob} {reliable : Prop} {initial : Db Blob}

/-- The contracts of the connections fit together. -/
theorem serverDiscipline_sound
    (encodes : reliable → ∀ response : ServerMsg Blob, response.IsAck →
      settings.encodes response = true) :
    (serverDiscipline settings reliable initial).Sound where
  exec := fun _ allowed current effect => serverExec_of_exec allowed current effect
  exec_frame := fun pre executed different => rely_exec pre executed different
  environment_frame := fun effect => rely_environment effect
  idle_stable := Rests.stable
  start := fun invariant rests started =>
    start_meets encodes invariant.2 rests started
  start_frame := fun started different => rely_start started different
  finish := by
    intro connId flow server rests
    cases flow with
    | again => exact rests
    | stop => exact rests_disconnect
  finish_frame := by
    intro connId other flow server different
    cases flow with
    | again => exact Rely.refl other server
    | stop => exact rely_disconnect different
  abandon := fun _ => rests_disconnect
  abandon_frame := rely_disconnect
  invariant := by
    intro label config config' holds allowed stepped
    obtain ⟨numbered, recorded⟩ := holds.invariant
    exact ⟨numbered_step numbered stepped, recorded.move
      (move_of_steps numbered (fun current => holds.pre current) stepped)⟩

/-- At the start nobody is connected. -/
theorem serverDiscipline_initial :
    (serverDiscipline settings reliable initial).Holds
      (initialConfig settings initial) where
  invariant := ⟨⟨fun _ runs => (nomatch runs), fun _ connected => (nomatch connected)⟩,
    .of_started⟩
  threads := fun _ => ⟨fun _ held => (nomatch held),
    fun _ owes => (nomatch owes.1)⟩

/-- In every reachable configuration every connection is within its contract. -/
theorem Reachable.holds
    {config : (serverMachine settings).Config}
    (reachable : Reachable settings initial config) :
    (serverDiscipline settings False initial).Holds config := by
  obtain ⟨labels, runs⟩ := reachable
  refine (serverDiscipline_sound False.elim).run serverDiscipline_initial ?_ runs
  exact Machine.Admits.of_forall labels _ fun _ _ => False.elim

/-- What the steps preserve while the connections are within their contracts
holds of every reachable configuration. -/
theorem Reachable.induction
    {motive : (serverMachine settings).Config → Prop}
    {config : (serverMachine settings).Config}
    (reachable : Reachable settings initial config)
    (start : motive (initialConfig settings initial))
    (step : ∀ {label config config'},
      (serverDiscipline settings False initial).Holds config → motive config →
        Machine.Steps (serverMachine settings) label config config' → motive config') :
    motive config := by
  obtain ⟨labels, runs⟩ := reachable
  have admitted : Machine.Admits (serverDiscipline settings False initial).allowed labels
      (initialConfig settings initial) :=
    Machine.Admits.of_forall labels _ fun _ _ => False.elim
  have kept := Machine.run_induction
    (motive := fun config =>
      (serverDiscipline settings False initial).Holds config ∧ motive config)
    (fun invariant allowed stepped =>
      ⟨(serverDiscipline_sound False.elim).step invariant.1 allowed stepped,
        step invariant.1 invariant.2 stepped⟩)
    ⟨serverDiscipline_initial, start⟩ admitted runs
  exact kept.2

/-- What a run leads to from a reachable configuration is reachable. -/
theorem Reachable.run
    {labels : List (serverMachine settings).Label}
    {config config' : (serverMachine settings).Config}
    (reachable : Reachable settings initial config)
    (runs : (serverMachine settings).run labels config = some config') :
    Reachable settings initial config' := by
  obtain ⟨before, reached⟩ := reachable
  refine ⟨before ++ labels, ?_⟩
  rw [Machine.run_append, reached, Option.bind_some, runs]

/-- In every reachable configuration the record is right. -/
theorem Reachable.recorded
    {config : (serverMachine settings).Config}
    (reachable : Reachable settings initial config) :
    Recorded settings initial config.shared :=
  reachable.holds.invariant.2

/-- The journal of a reachable configuration is a history. -/
theorem Reachable.history
    {config : (serverMachine settings).Config}
    (reachable : Reachable settings initial config) :
    History settings.toLibraries initial config.shared.journal config.shared.db :=
  reachable.recorded.history

end Discipline

end VaultCrdtServer
