import VaultCrdtServer.Db.Effects
import VaultCrdtServer.Server

/-!
# What requests have done

The journal of a server is a history: each call took effect on the database the
one before it left, and each store was justified by what its handler had read
and merged.  `Settled` relates the answer to a frame to the database calls that
were made for it.
-/

namespace VaultCrdtServer

variable {Blob : Type}

/-- The snapshot and version vector a handler stores are those of the base with
the incoming blob imported. -/
def Merges
    (loro : Loro Blob)
    (base : Option Blob)
    (incoming snapshot vvBlob : Blob) : Prop :=
  ∃ label merged, mergeSnapshot loro label base incoming = .ok merged ∧
    snapshot = merged.snapshot ∧ vvBlob = loro.encodeVv merged.vv

namespace DbCall

/-- What holds when a handler makes a call: a store writes the live snapshot
with something merged into it, and creates no live row beside a tombstone. -/
def Justified (loro : Loro Blob) (db : Db Blob) : DbCall Blob → Prop
  | .storeSnapshotWithVv path snapshot vvBlob =>
      (∃ incoming, Merges loro (db.liveSnapshot path) incoming snapshot vvBlob) ∧
        (db.documents.lookup path = none → db.tombstones.lookup path = none)
  | .storeSnapshotReplacingTombstone path snapshot vvBlob =>
      ∃ incoming, Merges loro (db.liveSnapshot path) incoming snapshot vvBlob
  | _ => True

/-- The token a call has allocated. -/
def granted (before : Db Blob) : (call : DbCall Blob) → call.Reply → Option Int
  | .storeSnapshotWithVv path .., token =>
      if (before.documents.lookup path).isNone then some token else none
  | .storeSnapshotReplacingTombstone .., token => some token
  | _, _ => none

end DbCall

namespace JournalEntry

/-- The path the call has written to. -/
def committed (entry : JournalEntry Blob) : Option DocPath :=
  entry.call.committed entry.reply

/-- The token the call has allocated. -/
def granted (entry : JournalEntry Blob) : Option Int :=
  entry.call.granted entry.before entry.reply

/-- The call has deleted a path. -/
def Deletes (path : DocPath) (entry : JournalEntry Blob) : Prop :=
  entry.committed = some path ∧
    ∃ deletedBy expected, entry.call = .deleteDocGuarded path deletedBy expected

/-- The call has stored an incoming blob, merged into the live snapshot. -/
def Stores
    (loro : Loro Blob)
    (path : DocPath)
    (incoming : Blob)
    (entry : JournalEntry Blob) : Prop :=
  ∃ snapshot vvBlob,
    Merges loro (entry.before.liveSnapshot path) incoming snapshot vvBlob ∧
      (entry.call = .storeSnapshotWithVv path snapshot vvBlob ∨
        entry.call = .storeSnapshotReplacingTombstone path snapshot vvBlob)

/-- The version vector of the row the call stores. -/
def Reports
    (libraries : Libraries Blob)
    (serverVv : Bytes)
    (entry : JournalEntry Blob) : Prop :=
  ∃ path snapshot vv, serverVv = vvToJsonBytes libraries.json vv ∧
    (entry.call = .storeSnapshotWithVv path snapshot (libraries.loro.encodeVv vv) ∨
      entry.call =
        .storeSnapshotReplacingTombstone path snapshot (libraries.loro.encodeVv vv))

/-- A store commits to its path. -/
theorem Stores.committed
    {loro : Loro Blob}
    {path : DocPath}
    {incoming : Blob}
    {entry : JournalEntry Blob}
    (stores : entry.Stores loro path incoming) :
    entry.committed = some path := by
  obtain ⟨snapshot, vvBlob, _, called⟩ := stores
  obtain ⟨origin, call, reply, before, after⟩ := entry
  rcases called with rfl | rfl <;> rfl

end JournalEntry

/-- `content_hash` of an outcome that is not a rejection. -/
def DeleteOutcome.buried : DeleteOutcome → Option (Option String)
  | .deleted contentHash _ => some contentHash
  | .idempotentNoLive contentHash => some contentHash
  | .rejected _ => none

/-- A history of the database: the journal's calls took effect one after the
other, each of them justified. -/
inductive History (libraries : Libraries Blob) (initial : Db Blob) :
    List (JournalEntry Blob) → Db Blob → Prop
  | start : History libraries initial [] initial
  | commit {journal db origin call reply db' now}
      (earlier : History libraries initial journal db)
      (justified : DbCall.Justified libraries.loro db call)
      (executed : call.exec libraries now db = .ok (reply, db')) :
      History libraries initial (journal ++ [⟨origin, call, reply, db, db'⟩]) db'

/-- The answer is none of those that report on what a frame has done, or seen in
several queries. -/
def ServerMsg.IsPlain : ServerMsg Blob → Prop
  | .pong | .error .. | .syncDelta .. | .docUnknown _ | .docTombstoned _
  | .createConflict _ => True
  | _ => False

/-- The frame submits a blob for a document. -/
inductive Submits (docUuid : String) (blob : Blob) (peerId : String)
    (requestId : Option String) : ClientMsg Blob → Prop
  | syncPush : Submits docUuid blob peerId requestId
      (.syncPush docUuid blob peerId requestId)
  | docCreate {replaceTombstone} : Submits docUuid blob peerId requestId
      (.docCreate docUuid blob peerId replaceTombstone requestId)

/-- The answer to a frame reports what was done for it. -/
inductive Settled (libraries : Libraries Blob) (id : FrameId) (vaultId : String)
    (decoded : Except String (ClientMsg Blob)) :
    Answer Blob → List (JournalEntry Blob) → Prop
  /-- Nothing was written, and nothing is announced. -/
  | plain {response : ServerMsg Blob} {entries : List (JournalEntry Blob)}
      (isPlain : response.IsPlain)
      (reads : ∀ entry ∈ entries, entry.call.isRead = true) :
      Settled libraries id vaultId decoded (response, none) entries
  /-- Three queries were made, one after the other. -/
  | listed {docs tombstones hashes : Db Blob}
      (asked : decoded = .ok .requestDocList) :
      Settled libraries id vaultId decoded
        (.docList (docs.listDocsWithVv libraries vaultId)
          (tombstones.listTombstones vaultId)
          (hashes.listTombstonesWithHash vaultId), none)
        [⟨some id, .listDocsWithVv vaultId,
            docs.listDocsWithVv libraries vaultId, docs, docs⟩,
          ⟨some id, .listTombstones vaultId,
            tombstones.listTombstones vaultId, tombstones, tombstones⟩,
          ⟨some id, .listTombstonesWithHash vaultId,
            hashes.listTombstonesWithHash vaultId, hashes, hashes⟩]
  /-- The blob was merged and stored. -/
  | stored {msg : ClientMsg Blob} {docUuid : String} {blob : Blob}
      {peerId : String} {requestId : Option String} {serverVv : Bytes}
      {reads : List (JournalEntry Blob)} {entry : JournalEntry Blob}
      (asked : decoded = .ok msg)
      (submits : Submits docUuid blob peerId requestId msg)
      (readsFirst : ∀ entry ∈ reads, entry.call.isRead = true)
      (made : entry.origin = some id)
      (stores : entry.Stores libraries.loro ⟨vaultId, docUuid⟩ blob)
      (reports : entry.Reports libraries serverVv) :
      Settled libraries id vaultId decoded
        (.ack entry.granted requestId,
          some (.delta vaultId docUuid blob peerId id.connId serverVv
            entry.granted))
        (reads ++ [entry])
  /-- The document was deleted. -/
  | deleted {docUuid peerId : String} {expectedIncarnation : Option Int}
      {intentId requestId contentHash : Option String}
      {reads : List (JournalEntry Blob)}
      {outcome : DeleteOutcome} {before after : Db Blob}
      (asked : decoded =
        .ok (.docDelete docUuid peerId expectedIncarnation intentId requestId))
      (readsFirst : ∀ entry ∈ reads, entry.call.isRead = true)
      (buried : outcome.buried = some contentHash) :
      Settled libraries id vaultId decoded
        (.ack none requestId,
          some (.delete vaultId docUuid id.connId contentHash))
        (reads ++ [⟨some id,
          .deleteDocGuarded ⟨vaultId, docUuid⟩ peerId expectedIncarnation,
          outcome, before, after⟩])
  /-- The delete was rejected. -/
  | rejected {docUuid peerId : String} {expectedIncarnation : Option Int}
      {intentId requestId : Option String} {live : Int}
      {reads : List (JournalEntry Blob)} {before after : Db Blob}
      (asked : decoded =
        .ok (.docDelete docUuid peerId expectedIncarnation intentId requestId))
      (readsFirst : ∀ entry ∈ reads, entry.call.isRead = true) :
      Settled libraries id vaultId decoded
        (.deleteRejected docUuid intentId requestId, none)
        (reads ++ [⟨some id,
          .deleteDocGuarded ⟨vaultId, docUuid⟩ peerId expectedIncarnation,
          .rejected live, before, after⟩])

/-- A query commits nothing. -/
theorem JournalEntry.committed_of_isRead
    {entry : JournalEntry Blob}
    (isRead : entry.call.isRead = true) :
    entry.committed = none := by
  obtain ⟨origin, call, reply, before, after⟩ := entry
  cases call <;> simp_all [DbCall.isRead, JournalEntry.committed, DbCall.committed]

/-- After nothing but queries, a frame has committed what its last call has. -/
theorem exists_committed_append_iff
    {reads : List (JournalEntry Blob)}
    {entry : JournalEntry Blob}
    (readsFirst : ∀ entry ∈ reads, entry.call.isRead = true) :
    (∃ other ∈ reads ++ [entry], other.committed.isSome = true) ↔
      entry.committed.isSome = true := by
  constructor
  · rintro ⟨other, member, committed⟩
    rw [List.mem_append, List.mem_singleton] at member
    rcases member with read | rfl
    · simp [JournalEntry.committed_of_isRead (readsFirst other read)] at committed
    · exact committed
  · intro committed
    exact ⟨entry, by simp, committed⟩

namespace Settled

variable {libraries : Libraries Blob} {id : FrameId} {vaultId : String}
variable {decoded : Except String (ClientMsg Blob)} {answer : Answer Blob}
variable {entries : List (JournalEntry Blob)}

/-- A broadcast is due exactly when something was committed. -/
theorem commits_iff (settled : Settled libraries id vaultId decoded answer entries) :
    (∃ entry ∈ entries, entry.committed.isSome = true) ↔ answer.2.isSome = true := by
  cases settled with
  | plain isPlain reads =>
      constructor
      · rintro ⟨entry, member, committed⟩
        simp [JournalEntry.committed_of_isRead (reads entry member)] at committed
      · intro due
        cases due
  | listed asked => simp [JournalEntry.committed, DbCall.committed]
  | stored asked submits readsFirst made stores reports =>
      rw [exists_committed_append_iff readsFirst, stores.committed]
      simp
  | @deleted _ _ _ _ _ _ _ outcome _ _ asked readsFirst buried =>
      rw [exists_committed_append_iff readsFirst]
      cases outcome <;>
        simp_all [JournalEntry.committed, DbCall.committed, DeleteOutcome.buried]
  | rejected asked readsFirst =>
      rw [exists_committed_append_iff readsFirst]
      simp [JournalEntry.committed, DbCall.committed]

/-- What was committed is acknowledged. -/
theorem isAck (settled : Settled libraries id vaultId decoded answer entries)
    (due : answer.2.isSome = true) :
    answer.1.IsAck := by
  cases settled with
  | plain | listed | rejected => cases due
  | stored | deleted => trivial

/-- A rejected delete is answered as such, and not announced. -/
theorem of_rejected
    (settled : Settled libraries id vaultId decoded answer entries)
    {origin : Option FrameId}
    {path : DocPath}
    {deletedBy : String}
    {expected : Option Int}
    {live : Int}
    {before after : Db Blob}
    (member : ⟨origin, .deleteDocGuarded path deletedBy expected, .rejected live,
      before, after⟩ ∈ entries) :
    answer.2 = none ∧
      ∃ intentId requestId, answer.1 = .deleteRejected path.doc intentId requestId := by
  cases settled with
  | plain isPlain reads => cases reads _ member
  | listed asked => simp at member
  | @stored _ _ _ _ _ _ reads entry asked submits readsFirst made stores reports =>
      rw [List.mem_append, List.mem_singleton] at member
      rcases member with read | rfl
      · cases readsFirst _ read
      · obtain ⟨_, _, _, called⟩ := stores
        simp at called
  | deleted asked readsFirst buried =>
      rw [List.mem_append, List.mem_singleton] at member
      rcases member with read | same
      · cases readsFirst _ read
      · cases same
        cases buried
  | rejected asked readsFirst =>
      rw [List.mem_append, List.mem_singleton] at member
      rcases member with read | same
      · cases readsFirst _ read
      · cases same
        exact ⟨rfl, _, _, rfl⟩

end Settled

namespace Server

/-- The database calls made for a frame. -/
def entriesOf (id : FrameId) (server : Server Blob) : List (JournalEntry Blob) :=
  server.journal.filter fun entry => entry.origin = some id

/-- The answers given to a frame. -/
def answersTo (id : FrameId) (server : Server Blob) : List (Answered Blob) :=
  server.answers.filter fun answered => answered.origin = id

/-- The events sent for a frame. -/
def sentFor (id : FrameId) (server : Server Blob) : List (Sent Blob) :=
  server.channel.filter fun sent => sent.origin = some id

end Server

end VaultCrdtServer
