import VaultCrdtServer.Broadcast

/-!
# Announcements

A connection commits a change, replies, and then broadcasts.  Between the first
and the last of these it can be dropped, and it does not get to the broadcast
when the reply fails.  In runs where neither happens every change is announced.
-/

namespace VaultCrdtServer

open Interleaving

variable {Blob : Type}

/-- A frame has committed something that was not announced. -/
def Server.Unannounced (id : FrameId) (server : Server Blob) : Prop :=
  (∃ entry ∈ server.entriesOf id, entry.committed.isSome = true) ∧
    server.sentFor id = []

/-- What is not announced is what a registered connection works on. -/
def Pending (server : Server Blob) : Prop :=
  ∀ id, server.Unannounced id →
    (server.connections id.connId).isSome = true ∧ server.current id.connId = id

section Pending

variable {settings : Settings Blob} {initial : Db Blob}
variable {server server' : Server Blob} {id : FrameId}
variable {label : (serverMachine settings).Label}
variable {config config' : (serverMachine settings).Config}

/-- A connection owes the announcement of the frame it works on. -/
theorem Server.Unannounced.owes
    (unannounced : server.Unannounced id)
    (registered : (server.connections id.connId).isSome = true)
    (current : server.current id.connId = id) :
    server.Owes id.connId := by
  refine ⟨registered, ?_, ?_⟩
  · rw [current]
    exact unannounced.1
  · rw [current]
    exact unannounced.2

/-- Only the frame a connection works on can become unannounced. -/
theorem unannounced_of_move
    (moves : Move settings server server')
    (unannounced : server'.Unannounced id) :
    server.Unannounced id ∨
      (server'.connections id.connId).isSome = true ∧ server'.current id.connId = id := by
  cases moves with
  | quiet db journal answers channel received =>
      rw [Server.Unannounced, Server.entriesOf, Server.sentFor, journal, channel]
        at unannounced
      exact Or.inl unannounced
  | @query origin call reply db now unowned registered open_ justified executed =>
      by_cases own : origin = some id
      · exact Or.inr (registered id own)
      · rw [Server.Unannounced, Server.entriesOf, Server.commit,
          List.filter_append] at unannounced
        simp only [List.filter_cons, own, decide_false, Bool.false_eq_true,
          ↓reduceIte, List.filter_nil, List.append_nil] at unannounced
        exact Or.inl unannounced
  | reply => exact Or.inl unannounced
  | announce =>
      refine Or.inl ⟨unannounced.1, ?_⟩
      have unsent := unannounced.2
      rw [Server.sentFor, Server.publish, List.filter_append,
        List.append_eq_nil_iff] at unsent
      exact unsent.1
  | blobPathChanged =>
      refine Or.inl ⟨unannounced.1, ?_⟩
      have unsent := unannounced.2
      rw [Server.sentFor, List.filter_append, List.append_eq_nil_iff] at unsent
      exact unsent.1

/-- A connection that owes an announcement is not interrupted. -/
theorem owes_kept
    {connId : Nat}
    (holds : (serverDiscipline settings True initial).Holds config)
    (allowed : Uninterrupted label config)
    (stepped : Machine.Steps (serverMachine settings) label config config')
    (owes : config.shared.Owes connId) :
    (config'.shared.connections connId).isSome = true ∧
      config'.shared.current connId = config.shared.current connId := by
  have untouched : ∀ {server' : Server Blob},
      server'.connections connId = config.shared.connections connId →
      (server'.connections connId).isSome = true ∧
        server'.current connId = config.shared.current connId := by
    intro server' same
    refine ⟨by rw [same]; exact owes.1, ?_⟩
    simp only [Server.current, same]
  have disconnected : ∀ other, ¬ config.shared.Owes other →
      ((config.shared.disconnect other).connections connId).isSome = true ∧
        (config.shared.disconnect other).current connId =
          config.shared.current connId := by
    intro other rests
    have different : connId ≠ other := fun same => rests (same ▸ owes)
    exact untouched (by simp [Server.disconnect, Function.update_of_ne different])
  cases stepped with
  | act current effect =>
      have same := sameConnections_exec effect
      exact ⟨(same.isSome connId).trans owes.1, same.current connId⟩
  | environment effect =>
      have same := sameConnections_environment effect
      exact ⟨(same.isSome connId).trans owes.1, same.current connId⟩
  | @start _ other task program shared current effect =>
      have rests : Rests True other config.shared := holds.idle current
      have different : connId ≠ other := fun same => rests.2 trivial (same ▸ owes)
      obtain ⟨_, _, _, _, _, _, _, _, _, _, _, _, rfl⟩ | ⟨_, _, _, _, rfl⟩ :=
        start_cases effect
      · exact untouched (by simp [Server.setConnection, Function.update_of_ne different])
      · exact untouched
          (by simp [Server.setConnection, Server.note, Function.update_of_ne different])
  | @finish _ other flow current =>
      have rests : Rests True other config.shared := (holds.meets current).post_of_done
      cases flow with
      | again => exact untouched rfl
      | stop => exact disconnected other (rests.2 trivial)
  | @abandon _ other => exact disconnected other allowed

/-- What is not announced stays what a registered connection works on. -/
theorem pending_step
    (holds : (serverDiscipline settings True initial).Holds config)
    (allowed : Uninterrupted label config)
    (pending : Pending config.shared)
    (stepped : Machine.Steps (serverMachine settings) label config config') :
    Pending config'.shared := by
  intro id unannounced
  have moves := move_of_steps holds.invariant.1 (fun current => holds.pre current) stepped
  rcases unannounced_of_move moves unannounced with before | working
  · obtain ⟨registered, current⟩ := pending id before
    obtain ⟨registered', current'⟩ :=
      owes_kept holds allowed stepped (before.owes registered current)
    exact ⟨registered', current'.trans current⟩
  · exact working

end Pending

/-! ## Uninterrupted runs -/

/-- What holds throughout an uninterrupted run. -/
structure Orderly
    (settings : Settings Blob)
    (initial : Db Blob)
    (config : (serverMachine settings).Config) : Prop where
  holds : (serverDiscipline settings True initial).Holds config
  pending : Pending config.shared
  receives : Receives config.shared

namespace Orderly

variable {settings : Settings Blob} {initial : Db Blob}
variable {label : (serverMachine settings).Label}
variable {config config' : (serverMachine settings).Config}

theorem start : Orderly settings initial (initialConfig settings initial) where
  holds := serverDiscipline_initial
  pending := fun _ unannounced =>
    (nomatch (unannounced.1 : ∃ entry ∈ ([] : List (JournalEntry Blob)), _))
  receives := fun _ _ registered => nomatch registered

theorem step
    (orderly : Orderly settings initial config)
    (encodes : ∀ response : ServerMsg Blob, response.IsAck →
      settings.encodes response = true)
    (allowed : Uninterrupted label config)
    (stepped : Machine.Steps (serverMachine settings) label config config') :
    Orderly settings initial config' where
  holds := (serverDiscipline_sound fun _ => encodes).step orderly.holds
    (fun _ => allowed) stepped
  pending := pending_step orderly.holds allowed orderly.pending stepped
  receives := receives_step (fun current => orderly.holds.pre current) orderly.receives
    stepped

theorem recorded (orderly : Orderly settings initial config) :
    Recorded settings initial config.shared :=
  orderly.holds.invariant.2

/-- What is not announced is owed by a connection that is still running. -/
theorem running
    (orderly : Orderly settings initial config)
    {id : FrameId}
    (unannounced : config.shared.Unannounced id) :
    (config.thread id.connId).isSome = true ∧ config.shared.current id.connId = id ∧
      config.shared.Owes id.connId := by
  obtain ⟨registered, current⟩ := orderly.pending id unannounced
  have owes := unannounced.owes registered current
  refine ⟨?_, current, owes⟩
  cases runs : config.thread id.connId with
  | some program => rfl
  | none =>
      have rests : Rests True id.connId config.shared := orderly.holds.idle runs
      exact absurd owes (rests.2 trivial)

end Orderly

/-! ## Every change is announced -/

/-- Every committed change was announced, or its connection is still working on
the frame, and connections that have caught up were sent what was announced. -/
structure CommitsAnnounced
    {settings : Settings Blob}
    (config : (serverMachine settings).Config) : Prop where
  announced : ∀ entry ∈ config.shared.journal, ∀ path, entry.committed = some path →
    ∃ id, entry.origin = some id ∧
      ((∃ sent ∈ config.shared.channel, sent.origin = some id ∧
          sent.event.about = some path ∧
          (sent.event.IsDelete ↔ entry.Deletes path)) ∨
        (config.thread id.connId).isSome = true ∧ config.shared.current id.connId = id)
  received : ∀ {connId connection subscribed},
    config.shared.connections connId = some connection →
    connection.writing = true →
    connection.broadcastRx = some (subscribed, config.shared.channel.length) →
    ∀ sent ∈ config.shared.channel.drop subscribed, ∀ message,
      Server.forwarded connId connection sent.event = some message →
        message ∈ connection.wire ++ connection.writeQueue

theorem Orderly.commitsAnnounced
    {settings : Settings Blob}
    {initial : Db Blob}
    {config : (serverMachine settings).Config}
    (orderly : Orderly settings initial config) :
    CommitsAnnounced config where
  announced := by
    intro entry member path committed
    have recorded := orderly.recorded
    cases origin : entry.origin with
    | none => cases committed.symm.trans (recorded.owned entry member origin)
    | some id =>
        refine ⟨id, rfl, ?_⟩
        have own : entry ∈ config.shared.entriesOf id :=
          List.mem_filter.mpr ⟨member, by simp [origin]⟩
        by_cases unsent : config.shared.sentFor id = []
        · have unannounced : config.shared.Unannounced id :=
            ⟨⟨entry, own, by rw [committed]; rfl⟩, unsent⟩
          obtain ⟨running, current, _⟩ := orderly.running unannounced
          exact Or.inr ⟨running, current⟩
        · obtain ⟨sent, sentMember⟩ := List.exists_mem_of_ne_nil _ unsent
          obtain ⟨inChannel, sentOrigin⟩ := List.mem_filter.mp sentMember
          have sentOrigin : sent.origin = some id := by simpa using sentOrigin
          obtain ⟨reads, only, path', entries, readsFirst, committed', about, kind⟩ :=
            recorded.announces inChannel sentOrigin
          rw [entries] at own
          obtain rfl := eq_of_committed readsFirst own (by rw [committed]; rfl)
          obtain rfl := Option.some.inj (committed.symm.trans committed')
          exact Or.inl ⟨sent, inChannel, sentOrigin, about, kind⟩
  received := by
    intro connId connection subscribed registered running receiving sent member message
      made
    cases orderly.receives connId connection registered with
    | unsubscribed unreceiving => cases receiving.symm.trans unreceiving
    | subscribed receiving' _ _ writing _ =>
        obtain ⟨rfl, rfl⟩ :=
          Prod.mk.inj (Option.some.inj (receiving.symm.trans receiving'))
        have heard : message ∈ Server.heard connId connection config.shared.channel
            subscribed config.shared.channel.length := by
          rw [Server.heard, List.take_length]
          exact List.mem_filterMap.mpr ⟨sent, member, made⟩
        rw [← writing running] at heard
        exact List.mem_of_mem_filter heard

/-- In every uninterrupted run a committed change is announced before its
connection's tasks end. -/
theorem commits_announced
    {settings : Settings Blob}
    {initial : Db Blob}
    {labels : List (serverMachine settings).Label}
    {config : (serverMachine settings).Config}
    (encodes : ∀ response : ServerMsg Blob, response.IsAck →
      settings.encodes response = true)
    (admitted : Machine.Admits Uninterrupted labels (initialConfig settings initial))
    (runs : (serverMachine settings).run labels (initialConfig settings initial) =
      some config) :
    CommitsAnnounced config :=
  (Machine.run_induction (motive := Orderly settings initial)
    (fun orderly allowed stepped => orderly.step encodes allowed stepped)
    .start admitted runs).commitsAnnounced

/-- A write is served while another connection of the vault listens. -/
def Schedule.heard : Schedule :=
  connects 0 "a" ++ connects 1 "b" ++ serves 0 (.push [⟨1, 0⟩]) 7 ++
    [.environment (.forward 1), .environment (.write 1)]

theorem Schedule.heard_enabled : Schedule.heard.Enabled := by
  decide +kernel

theorem commits_announced_heard :
    CommitsAnnounced (Schedule.heard.config Schedule.heard_enabled) :=
  commits_announced (fun _ _ => rfl) (by decide +kernel)
    (Schedule.run_eq_config Schedule.heard_enabled)

/-- The writer of a connection ends between the commit of a push and its reply. -/
def Schedule.interrupted : Schedule :=
  connects 0 "a" ++ connects 1 "b" ++ receives 0 (.push [⟨1, 0⟩]) 5 ++
    [.environment (.writeFails 0)] ++ completes 0 1

theorem Schedule.interrupted_enabled : Schedule.interrupted.Enabled := by
  decide +kernel

/-- The push has committed, its connection has ended, and nothing was sent. -/
theorem commit_not_announced :
    Reachable Settings.reference Db.empty
        (Schedule.interrupted.config Schedule.interrupted_enabled) ∧
      ¬ CommitsAnnounced (Schedule.interrupted.config Schedule.interrupted_enabled) := by
  refine ⟨Schedule.reachable Schedule.interrupted_enabled, fun announced => ?_⟩
  obtain ⟨id, origin, ⟨sent, inChannel, _⟩ | ⟨running, _⟩⟩ :=
    announced.announced _ (List.mem_of_getElem? (i := 4) rfl) ⟨"v", "d"⟩ rfl
  · cases inChannel
  · obtain rfl : (⟨0, 1⟩ : FrameId) = id := Option.some.inj origin
    cases running

end VaultCrdtServer
