import VaultCrdtServer.Server.Settlement

/-!
# The contract of a connection

What a connection's task may assume of the others while it waits, and what it
promises whenever it makes a call.  The document locks carry the argument: the
row of a path whose lock is held does not change, and its tombstone can at most
expire.
-/

namespace VaultCrdtServer

open Interleaving

variable {Blob : Type}

/-- What the others may do to the server while a connection waits. -/
structure Rely (connId : Nat) (server server' : Server Blob) : Prop where
  locks : ∀ key,
    server'.docLocks key = some connId ↔ server.docLocks key = some connId
  documents : ∀ path, server.docLocks (lockKey path) = some connId →
    server'.db.documents.lookup path = server.db.documents.lookup path
  tombstones : ∀ path, server.docLocks (lockKey path) = some connId →
    server'.db.tombstones.lookup path = server.db.tombstones.lookup path ∨
      server'.db.tombstones.lookup path = none
  entries : ∀ number,
    server'.entriesOf ⟨connId, number⟩ = server.entriesOf ⟨connId, number⟩
  answers : ∀ number,
    server'.answersTo ⟨connId, number⟩ = server.answersTo ⟨connId, number⟩
  sent : ∀ number,
    server'.sentFor ⟨connId, number⟩ = server.sentFor ⟨connId, number⟩
  connection :
    (server'.connections connId).map
        (fun connection => (connection.vaultId, connection.received)) =
      (server.connections connId).map
        fun connection => (connection.vaultId, connection.received)
  subscribed :
    (server'.connections connId).map (fun connection => connection.broadcastRx.isSome) =
      (server.connections connId).map fun connection => connection.broadcastRx.isSome

namespace Rely

variable {connId : Nat} {first second third : Server Blob}

theorem refl (connId : Nat) (server : Server Blob) : Rely connId server server where
  locks := fun _ => Iff.rfl
  documents := fun _ _ => rfl
  tombstones := fun _ _ => Or.inl rfl
  entries := fun _ => rfl
  answers := fun _ => rfl
  sent := fun _ => rfl
  connection := rfl
  subscribed := rfl

theorem trans
    (earlier : Rely connId first second)
    (later : Rely connId second third) :
    Rely connId first third where
  locks := fun key => (later.locks key).trans (earlier.locks key)
  documents := fun path held =>
    (later.documents path ((earlier.locks _).mpr held)).trans
      (earlier.documents path held)
  tombstones := by
    intro path held
    rcases later.tombstones path ((earlier.locks _).mpr held) with same | expired
    · rw [same]
      exact earlier.tombstones path held
    · exact Or.inr expired
  entries := fun number => (later.entries number).trans (earlier.entries number)
  answers := fun number => (later.answers number).trans (earlier.answers number)
  sent := fun number => (later.sent number).trans (earlier.sent number)
  connection := later.connection.trans earlier.connection
  subscribed := later.subscribed.trans earlier.subscribed

/-- The frame a connection works on is its own affair. -/
theorem current (tolerated : Rely connId first second) :
    second.current connId = first.current connId := by
  have received := congrArg (Option.map Prod.snd) tolerated.connection
  simp only [Option.map_map, Function.comp_def] at received
  simp only [Server.current, received]

/-- A connection stays registered. -/
theorem isSome (tolerated : Rely connId first second) :
    (second.connections connId).isSome = (first.connections connId).isSome := by
  have isSome := congrArg Option.isSome tolerated.connection
  simpa only [Option.isSome_map] using isSome

end Rely

namespace Server

/-- A connection has committed a change it has not announced yet. -/
def Owes (connId : Nat) (server : Server Blob) : Prop :=
  (server.connections connId).isSome = true ∧
    (∃ entry ∈ server.entriesOf (server.current connId),
      entry.committed.isSome = true) ∧
    server.sentFor (server.current connId) = []

instance (connId : Nat) (server : Server Blob) : Decidable (server.Owes connId) :=
  inferInstanceAs (Decidable (_ ∧ _ ∧ _))

theorem Owes.of_rely
    {connId : Nat}
    {server server' : Server Blob}
    (tolerated : Rely connId server server')
    (owes : server'.Owes connId) :
    server.Owes connId := by
  obtain ⟨registered, committed, unsent⟩ := owes
  rw [tolerated.isSome] at registered
  rw [tolerated.current] at committed unsent
  have entries := tolerated.entries (server.current connId).number
  have sent := tolerated.sent (server.current connId).number
  rw [show (⟨connId, (server.current connId).number⟩ : FrameId) =
    server.current connId from rfl] at entries sent
  rw [entries] at committed
  rw [sent] at unsent
  exact ⟨registered, committed, unsent⟩

/-- The connection does not receive broadcasts yet. -/
def Unsubscribed (connId : Nat) (server : Server Blob) : Prop :=
  (server.connections connId).map (fun connection => connection.broadcastRx.isSome) =
    some false

/-- The connection holds no document lock. -/
def Unlocked (connId : Nat) (server : Server Blob) : Prop :=
  ∀ key, server.docLocks key ≠ some connId

end Server

section Contract

variable (settings : Settings Blob) (reliable : Prop) (connId : Nat)

/-- What holds whenever a connection's task makes a call. -/
def serverPre : ServerCall Blob → Server Blob → Prop
  | .db call, server =>
      server.answersTo (server.current connId) = [] ∧
        server.sentFor (server.current connId) = [] ∧
        ∀ path, call.target = some path →
          server.docLocks (lockKey path) = some connId ∧
            DbCall.Justified settings.loro server.db call ∧
            ∀ entry ∈ server.entriesOf (server.current connId),
              entry.call.isRead = true
  | .lock _, _ => True
  | .unlock key, server => server.docLocks key = some connId
  | .respond frame response, server =>
      server.answersTo (server.current connId) = [] ∧
        server.sentFor (server.current connId) = [] ∧
        ∀ connection, server.connections connId = some connection →
          ∃ broadcast, Settled settings.toLibraries (server.current connId)
            connection.vaultId frame.decoded (response, broadcast)
            (server.entriesOf (server.current connId))
  | .publish event, server =>
      server.sentFor (server.current connId) = [] ∧
        ∃ answered, server.answersTo (server.current connId) = [answered] ∧
          Settled settings.toLibraries (server.current connId) answered.vaultId
            answered.frame.decoded (answered.response, some event)
            (server.entriesOf (server.current connId))
  | .subscribe, server => server.Unsubscribed connId

/-- The effect of a call.  Where replies are reliable, the reply of a
connection that owes an announcement reaches the write queue. -/
def serverExec :
    (call : ServerCall Blob) → Server Blob → call.Reply → Server Blob → Prop
  | .respond frame response, server, sent, server' =>
      (∃ circumstance,
        Server.exec settings connId (.respond frame response) circumstance server =
          some (sent, server')) ∧
        (reliable → server.Owes connId → sent = true)
  | call, server, reply, server' =>
      ∃ circumstance,
        Server.exec settings connId call circumstance server =
          some (reply, server')

/-- The contract of a connection. -/
def serverContract : Contract (serverSignature Blob) (Server Blob) where
  rely := Rely connId
  pre := serverPre settings connId
  exec := serverExec settings reliable connId
  rely_refl := Rely.refl connId
  rely_trans := Rely.trans

/-- What a connection leaves behind between two frames. -/
def Rests (server : Server Blob) : Prop :=
  server.Unlocked connId ∧ (reliable → ¬ server.Owes connId)

end Contract

/-- Interference leaves a resting connection at rest. -/
theorem Rests.stable
    {reliable : Prop}
    {connId : Nat}
    {server server' : Server Blob}
    (rests : Rests reliable connId server)
    (tolerated : Rely connId server server') :
    Rests reliable connId server' :=
  ⟨fun key held => rests.1 key ((tolerated.locks key).mp held),
    fun reliably owes => rests.2 reliably (owes.of_rely tolerated)⟩

end VaultCrdtServer
