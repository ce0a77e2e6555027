import VaultCrdtServer.Vaults.Threads

/-!
# The view of a vault

One server mirrors another in a vault when it has the vault's rows, connections,
locks, events and answers, and possibly nothing else.  What a connection of the
vault does is mirrored, and what another connection does is not seen.
-/

namespace VaultCrdtServer

open Interleaving

variable {Blob : Type}

/-! ## The channel -/

/-- The vault an event is for. -/
def BroadcastEvent.vaultId : BroadcastEvent Blob → String
  | .delta vaultId .. | .delete vaultId .. | .blobPathChanged vaultId .. => vaultId

/-- The events for a vault. -/
def eventsOf (vault : String) (channel : List (Sent Blob)) : List (Sent Blob) :=
  channel.filter fun sent => sent.event.vaultId = vault

/-- A channel position, counted in the events for a vault. -/
def positionIn (vault : String) (channel : List (Sent Blob)) (position : Nat) : Nat :=
  (eventsOf vault (channel.take position)).length

section Channel

variable {vault : String} {channel : List (Sent Blob)} {position : Nat} {sent : Sent Blob}

theorem positionIn_append
    (bounded : position ≤ channel.length)
    (later : List (Sent Blob)) :
    positionIn vault (channel ++ later) position = positionIn vault channel position := by
  unfold positionIn
  rw [List.take_append_of_le_length bounded]

theorem positionIn_length :
    positionIn vault channel channel.length = (eventsOf vault channel).length := by
  unfold positionIn
  rw [List.take_length]

theorem positionIn_succ (next : channel[position]? = some sent) :
    positionIn vault channel (position + 1) =
      if sent.event.vaultId = vault then positionIn vault channel position + 1
      else positionIn vault channel position := by
  simp only [positionIn, eventsOf, List.take_add_one, next, Option.toList_some,
    List.filter_append, List.length_append]
  split_ifs with own
  · simp [own]
  · simp [own]

/-- The events for the vault, before and after a position. -/
theorem eventsOf_split (position : Nat) :
    eventsOf vault channel =
      eventsOf vault (channel.take position) ++ eventsOf vault (channel.drop position) := by
  unfold eventsOf
  rw [← List.filter_append, List.take_append_drop]

/-- The next event is the next of the vault's, if it is one. -/
theorem getElem?_eventsOf
    (next : channel[position]? = some sent)
    (own : sent.event.vaultId = vault) :
    (eventsOf vault channel)[positionIn vault channel position]? = some sent := by
  obtain ⟨inside, rfl⟩ := List.getElem?_eq_some_iff.mp next
  have kept : eventsOf vault (channel.drop position) =
      channel[position] :: eventsOf vault (channel.drop (position + 1)) := by
    rw [List.drop_eq_getElem_cons inside, eventsOf, List.filter_cons_of_pos (by simpa using own)]
    rfl
  rw [eventsOf_split position, kept, positionIn,
    List.getElem?_append_right (Nat.le_refl _), Nat.sub_self, List.getElem?_cons_zero]

/-- No more events of the vault are waiting than of all vaults. -/
theorem length_eventsOf_sub_le :
    (eventsOf vault channel).length - positionIn vault channel position ≤
      channel.length - position := by
  rw [eventsOf_split position, List.length_append, positionIn,
    Nat.add_sub_cancel_left, ← List.length_drop]
  exact List.length_filter_le ..

end Channel

/-- A connection whose channel positions are counted in the vault's events. -/
def Connection.narrow
    (vault : String)
    (channel : List (Sent Blob))
    (connection : Connection Blob) : Connection Blob :=
  { connection with
    broadcastRx := connection.broadcastRx.map
      (Prod.map (positionIn vault channel) (positionIn vault channel)) }

/-! ## Mirrors -/

namespace Server

/-- A connection, if it is one of the vault's. -/
def member
    (vault : String)
    (connId : Nat)
    (server : Server Blob) : Option (Connection Blob) :=
  (server.connections connId).filter fun connection => connection.vaultId = vault

/-- The connection is one of the vault's. -/
def ofVault (vault : String) (server : Server Blob) (connId : Nat) : Bool :=
  decide (server.vaultOf connId = some vault)

/-- What a server does for a vault, another server does, too. -/
structure Mirrors (vault : String) (full part : Server Blob) : Prop where
  db : full.db.AgreeOn vault part.db
  connCounter : part.connCounter = full.connCounter
  connections : ∀ connId, part.member vault connId =
    (full.member vault connId).map (Connection.narrow vault full.channel)
  docLocks : ∀ key, part.docLocks key = (full.docLocks key).filter (full.ofVault vault)
  channel : part.channel = eventsOf vault full.channel
  answers : part.answers = full.answers.filter fun answered => answered.vaultId = vault

variable {vault : String} {connId : Nat} {connection : Connection Blob}
variable {server full part : Server Blob}

theorem member_eq_some_iff :
    server.member vault connId = some connection ↔
      server.connections connId = some connection ∧ connection.vaultId = vault := by
  simp [member, Option.filter_eq_some_iff]

theorem member_eq_none
    (registered : server.connections connId = some connection)
    (different : connection.vaultId ≠ vault) :
    server.member vault connId = none := by
  simp [member, registered, Option.filter, different]

theorem ofVault_eq
    (registered : server.connections connId = some connection) :
    server.ofVault vault connId = decide (connection.vaultId = vault) := by
  simp [ofVault, vaultOf, registered]

theorem ofVault_congr
    {server' : Server Blob}
    (same : server'.vaultOf connId = server.vaultOf connId) :
    server'.ofVault vault connId = server.ofVault vault connId := by
  rw [ofVault, ofVault, same]

end Server

open Server

section Changes

variable {settings : Settings Blob} {vault : String} {connId : Nat}
variable {full part : Server Blob} {connection connection' : Connection Blob}

/-- The vault's connections are found in the mirror. -/
theorem Server.Mirrors.registered
    (mirrors : full.Mirrors vault part)
    (registered : full.connections connId = some connection)
    (home : connection.vaultId = vault) :
    part.connections connId = some (connection.narrow vault full.channel) := by
  have found := mirrors.connections connId
  rw [member_eq_some_iff.mpr ⟨registered, home⟩, Option.map_some] at found
  exact (member_eq_some_iff.mp found).1

theorem Server.Mirrors.current
    (mirrors : full.Mirrors vault part)
    (registered : full.connections connId = some connection)
    (home : connection.vaultId = vault) :
    part.current connId = full.current connId := by
  simp [Server.current, mirrors.registered registered home, registered, Connection.narrow]

/-- The connections and the locks are as before, up to one connection. -/
theorem member_setConnection (connection' : Connection Blob) (other : Nat)
    (server : Server Blob) :
    (server.setConnection connId connection').member vault other =
      if other = connId then (some connection').filter fun connection =>
        connection.vaultId = vault
      else server.member vault other := by
  split_ifs with same
  · subst same
    simp [Server.member, Server.setConnection]
  · simp [Server.member, Server.setConnection, Function.update_of_ne same]

/-- A connection of the vault is replaced. -/
theorem Server.Mirrors.setConnection
    (mirrors : full.Mirrors vault part)
    (registered : full.connections connId = some connection)
    (home : connection.vaultId = vault)
    (same : connection'.vaultId = connection.vaultId) :
    (full.setConnection connId connection').Mirrors vault
      (part.setConnection connId (connection'.narrow vault full.channel)) where
  db := mirrors.db
  connCounter := mirrors.connCounter
  connections := by
    intro other
    rw [member_setConnection, member_setConnection]
    split_ifs with own
    · simp [Option.filter, Connection.narrow, same, home, Server.setConnection]
    · exact mirrors.connections other
  docLocks := by
    intro key
    have unchanged : (full.setConnection connId connection').ofVault vault =
        full.ofVault vault := by
      funext other
      exact ofVault_congr (vaultOf_setConnection registered same other)
    rw [unchanged]
    exact mirrors.docLocks key
  channel := mirrors.channel
  answers := mirrors.answers

/-- Another connection is replaced. -/
theorem Server.Mirrors.setElsewhere
    (mirrors : full.Mirrors vault part)
    (registered : full.connections connId = some connection)
    (different : connection.vaultId ≠ vault)
    (same : connection'.vaultId = connection.vaultId) :
    (full.setConnection connId connection').Mirrors vault part where
  db := mirrors.db
  connCounter := mirrors.connCounter
  connections := by
    intro other
    rw [mirrors.connections other, member_setConnection]
    split_ifs with own
    · subst own
      simp [member_eq_none registered different, Option.filter, same, different]
    · rfl
  docLocks := by
    intro key
    have unchanged : (full.setConnection connId connection').ofVault vault =
        full.ofVault vault := by
      funext other
      exact ofVault_congr (vaultOf_setConnection registered same other)
    rw [unchanged]
    exact mirrors.docLocks key
  channel := mirrors.channel
  answers := mirrors.answers

/-- What is noted of a session is not seen. -/
theorem Server.Mirrors.note
    (mirrors : full.Mirrors vault part)
    (passed passed' : Session Blob → Session Blob) :
    (full.note connId passed).Mirrors vault (part.note connId passed') :=
  { mirrors with }

theorem Server.Mirrors.noteElsewhere
    (mirrors : full.Mirrors vault part)
    (passed : Session Blob → Session Blob) :
    (full.note connId passed).Mirrors vault part :=
  { mirrors with }

/-- A connection without locks is accepted. -/
theorem Server.Mirrors.accept
    (mirrors : full.Mirrors vault part)
    (unlocked : full.Unlocked connId)
    (unsubscribed : connection.broadcastRx = none)
    (sessions sessions' : Nat → Option (Session Blob)) :
    Mirrors vault
      { full.setConnection connId connection with
        connCounter := full.connCounter + 1, sessions := sessions }
      { part.setConnection connId connection with
        connCounter := part.connCounter + 1, sessions := sessions' } where
  db := mirrors.db
  connCounter := congrArg Nat.succ mirrors.connCounter
  connections := by
    intro other
    have narrow : connection.narrow vault full.channel = connection := by
      rw [Connection.narrow, unsubscribed]
      obtain ⟨_, _, _, _, _, _, _⟩ := connection
      exact congrArg _ unsubscribed.symm
    change (part.setConnection connId connection).member vault other =
      ((full.setConnection connId connection).member vault other).map
        (Connection.narrow vault full.channel)
    rw [member_setConnection, member_setConnection]
    split_ifs with own
    · by_cases home : connection.vaultId = vault
      · simp [Option.filter, home, narrow]
      · simp [Option.filter, home]
    · exact mirrors.connections other
  docLocks := by
    intro key
    change part.docLocks key = (full.docLocks key).filter _
    rw [mirrors.docLocks key]
    cases held : full.docLocks key with
    | none => rfl
    | some holder =>
        have different : holder ≠ connId := by
          rintro rfl
          exact unlocked key held
        have unchanged : ofVault vault
            { full.setConnection connId connection with
              connCounter := full.connCounter + 1
              sessions := sessions } holder = full.ofVault vault holder := by
          refine ofVault_congr ?_
          simp [Server.vaultOf, Server.setConnection, Function.update_of_ne different]
        simp only [Option.filter, unchanged]
  channel := mirrors.channel
  answers := mirrors.answers

/-- A connection ends in both. -/
theorem Server.Mirrors.disconnect (mirrors : full.Mirrors vault part) :
    (full.disconnect connId).Mirrors vault (part.disconnect connId) where
  db := mirrors.db
  connCounter := mirrors.connCounter
  connections := by
    intro other
    by_cases own : other = connId
    · subst own
      simp [Server.member, Server.disconnect]
    · have before := mirrors.connections other
      simpa only [Server.member, Server.disconnect, Function.update_of_ne own] using before
  docLocks := by
    intro key
    simp only [Server.disconnect, mirrors.docLocks key]
    cases held : full.docLocks key with
    | none => simp
    | some holder =>
        by_cases own : holder = connId
        · subst own
          cases home : full.ofVault vault holder <;> simp [Option.filter, home]
        · have unchanged : ofVault vault (full.disconnect connId) holder =
              full.ofVault vault holder := ofVault_congr (vaultOf_disconnect own)
          simp only [Server.disconnect] at unchanged
          cases home : full.ofVault vault holder <;>
            simp [Option.filter, home, own, unchanged]
  channel := mirrors.channel
  answers := mirrors.answers

/-- A connection of another vault ends. -/
theorem Server.Mirrors.disconnectElsewhere
    (mirrors : full.Mirrors vault part)
    (foreign : full.ofVault vault connId = false) :
    (full.disconnect connId).Mirrors vault part where
  db := mirrors.db
  connCounter := mirrors.connCounter
  connections := by
    intro other
    rw [mirrors.connections other]
    by_cases own : other = connId
    · subst own
      have absent : full.member vault other = none := by
        rw [Server.member, Option.filter_eq_none_iff]
        intro connection registered home
        rw [ofVault_eq registered] at foreign
        exact absurd (of_decide_eq_true home) (of_decide_eq_false foreign)
      rw [absent]
      simp [Server.member, Server.disconnect]
    · simp only [Server.member, Server.disconnect, Function.update_of_ne own]
  docLocks := by
    intro key
    simp only [Server.disconnect, mirrors.docLocks key]
    cases held : full.docLocks key with
    | none => simp
    | some holder =>
        by_cases own : holder = connId
        · subst own
          simp [Option.filter, foreign]
        · have unchanged : ofVault vault (full.disconnect connId) holder =
              full.ofVault vault holder := ofVault_congr (vaultOf_disconnect own)
          simp only [Server.disconnect] at unchanged
          simp [Option.filter, own, unchanged]
  channel := mirrors.channel
  answers := mirrors.answers

/-- A lock is handed over in both. -/
theorem Server.Mirrors.setLock
    {holder : Option Nat}
    (mirrors : full.Mirrors vault part)
    (home : holder.filter (full.ofVault vault) = holder)
    (key : String) :
    (full.setLock key holder).Mirrors vault (part.setLock key holder) where
  db := mirrors.db
  connCounter := mirrors.connCounter
  connections := mirrors.connections
  docLocks := by
    intro other
    have unchanged : ofVault vault (full.setLock key holder) = full.ofVault vault := rfl
    rw [unchanged]
    by_cases same : other = key
    · subst same
      simpa [Server.setLock] using home.symm
    · have before := mirrors.docLocks other
      simpa [Server.setLock, Function.update_of_ne same] using before
  channel := mirrors.channel
  answers := mirrors.answers

/-- A lock is handed over among the connections of other vaults. -/
theorem Server.Mirrors.setLockElsewhere
    {key : String}
    {holder : Option Nat}
    (mirrors : full.Mirrors vault part)
    (before : (full.docLocks key).filter (full.ofVault vault) = none)
    (foreign : holder.filter (full.ofVault vault) = none) :
    (full.setLock key holder).Mirrors vault part where
  db := mirrors.db
  connCounter := mirrors.connCounter
  connections := mirrors.connections
  docLocks := by
    intro other
    have unchanged : ofVault vault (full.setLock key holder) = full.ofVault vault := rfl
    rw [unchanged]
    by_cases same : other = key
    · subst same
      rw [mirrors.docLocks other, before]
      simpa [Server.setLock] using foreign.symm
    · have others := mirrors.docLocks other
      simpa [Server.setLock, Function.update_of_ne same] using others
  channel := mirrors.channel
  answers := mirrors.answers

/-- An answer is recorded, in the mirror if it is the vault's. -/
theorem Server.Mirrors.answer
    {answered : Answered Blob}
    (mirrors : full.Mirrors vault part)
    (home : answered.vaultId = vault) :
    Mirrors vault { full with answers := full.answers ++ [answered] }
      { part with answers := part.answers ++ [answered] } where
  db := mirrors.db
  connCounter := mirrors.connCounter
  connections := mirrors.connections
  docLocks := mirrors.docLocks
  channel := mirrors.channel
  answers := by simp [List.filter_append, mirrors.answers, home]

theorem Server.Mirrors.answerElsewhere
    {answered : Answered Blob}
    (mirrors : full.Mirrors vault part)
    (different : answered.vaultId ≠ vault) :
    Mirrors vault { full with answers := full.answers ++ [answered] } part where
  db := mirrors.db
  connCounter := mirrors.connCounter
  connections := mirrors.connections
  docLocks := mirrors.docLocks
  channel := mirrors.channel
  answers := by simp [List.filter_append, mirrors.answers, different]

/-- What is sent later does not move the connections. -/
theorem Delivered.narrow
    (delivered : Delivered connId connection full.channel)
    (later : List (Sent Blob)) :
    connection.narrow vault (full.channel ++ later) =
      connection.narrow vault full.channel := by
  unfold Connection.narrow
  congr 1
  cases delivered with
  | unsubscribed receiving => rw [receiving, Option.map_none, Option.map_none]
  | subscribed receiving forwards bounded =>
      rw [receiving, Option.map_some, Option.map_some, Prod.map_apply, Prod.map_apply,
        positionIn_append bounded, positionIn_append (forwards.trans bounded)]

/-- The channel grows, and that of the mirror by the vault's events. -/
theorem Server.Mirrors.send
    (mirrors : full.Mirrors vault part)
    (receives : Receives full)
    (later : List (Sent Blob)) :
    Mirrors vault { full with channel := full.channel ++ later }
      { part with channel := part.channel ++ eventsOf vault later } where
  db := mirrors.db
  connCounter := mirrors.connCounter
  connections := by
    intro other
    change part.member vault other =
      (full.member vault other).map (Connection.narrow vault (full.channel ++ later))
    rw [mirrors.connections other]
    cases found : full.member vault other with
    | none => rfl
    | some connection =>
        have delivered := receives other connection (member_eq_some_iff.mp found).1
        rw [Option.map_some, Option.map_some, delivered.narrow]
  docLocks := mirrors.docLocks
  channel := by
    change part.channel ++ eventsOf vault later = eventsOf vault (full.channel ++ later)
    rw [mirrors.channel, eventsOf, eventsOf, eventsOf, List.filter_append]
  answers := mirrors.answers

/-! ## Database calls -/

/-- The rows change in both. -/
theorem Server.Mirrors.commit
    {db db' : Db Blob}
    (mirrors : full.Mirrors vault part)
    (journal journal' : List (JournalEntry Blob))
    (agree : db.AgreeOn vault db') :
    Mirrors vault { full with db := db, journal := journal }
      { part with db := db', journal := journal' } :=
  { mirrors with db := agree }

/-- A call for the vault is replied to in the same way. -/
theorem Server.Mirrors.query
    {call : DbCall Blob}
    (mirrors : full.Mirrors vault part)
    (settings : Settings Blob)
    (within : call.vault? = some vault)
    (origin : Option FrameId)
    (circumstance : Circumstance) :
    (part.query settings.toLibraries origin call circumstance).1 =
        (full.query settings.toLibraries origin call circumstance).1 ∧
      (full.query settings.toLibraries origin call circumstance).2.Mirrors vault
        (part.query settings.toLibraries origin call circumstance).2 := by
  unfold Server.query
  cases circumstance.fault with
  | some error => exact ⟨rfl, mirrors⟩
  | none =>
      cases executed : call.exec settings.toLibraries circumstance.now full.db with
      | error error =>
          rw [DbCall.exec_error within mirrors.db executed]
          exact ⟨rfl, mirrors⟩
      | ok result =>
          obtain ⟨second, executed', agree⟩ := DbCall.exec_within within mirrors.db executed
          rw [executed']
          exact ⟨rfl, mirrors.commit _ _ agree⟩

/-- A call for another vault is not seen. -/
theorem Server.Mirrors.queryElsewhere
    {other : String}
    {call : DbCall Blob}
    (mirrors : full.Mirrors vault part)
    (settings : Settings Blob)
    (within : call.vault? = some other)
    (different : other ≠ vault)
    (origin : Option FrameId)
    (circumstance : Circumstance) :
    (full.query settings.toLibraries origin call circumstance).2.Mirrors vault part := by
  unfold Server.query
  cases circumstance.fault with
  | some error => exact mirrors
  | none =>
      cases executed : call.exec settings.toLibraries circumstance.now full.db with
      | error error => exact mirrors
      | ok result =>
          have agree := DbCall.exec_elsewhere within different executed
          exact mirrors.commit _ part.journal (agree.trans mirrors.db)

/-- The cleanup is for all vaults. -/
theorem Server.Mirrors.cleanup
    {call : DbCall Blob}
    (mirrors : full.Mirrors vault part)
    (cleans : ∀ now, ∃ reply reply' first second,
      call.exec settings.toLibraries now full.db = .ok (reply, first) ∧
        call.exec settings.toLibraries now part.db = .ok (reply', second) ∧
        first.AgreeOn vault second)
    (circumstance : Circumstance) :
    (full.query settings.toLibraries none call circumstance).2.Mirrors vault
      (part.query settings.toLibraries none call circumstance).2 := by
  unfold Server.query
  cases circumstance.fault with
  | some error => exact mirrors
  | none =>
      obtain ⟨reply, reply', first, second, executed, executed', agree⟩ :=
        cleans circumstance.now
      rw [executed, executed']
      exact mirrors.commit _ _ agree

end Changes

end VaultCrdtServer
