import VaultCrdtServer.Server.Runs
import VaultCrdtServer.Server.Reference

/-!
# Histories

Histories can be cut at any call, and what every call preserves holds along
them.  The first invariant proved this way is that no path is live and
tombstoned at once.
-/

namespace VaultCrdtServer

variable {Blob : Type}

/-- The database after a journal of calls. -/
def dbAfter (initial : Db Blob) (journal : List (JournalEntry Blob)) : Db Blob :=
  (journal.getLast?.map JournalEntry.after).getD initial

@[simp] theorem dbAfter_nil (initial : Db Blob) : dbAfter initial [] = initial := rfl

@[simp] theorem dbAfter_concat
    (initial : Db Blob)
    (journal : List (JournalEntry Blob))
    (entry : JournalEntry Blob) :
    dbAfter initial (journal ++ [entry]) = entry.after := by
  simp [dbAfter]

namespace History

variable {libraries : Libraries Blob} {initial db : Db Blob}
variable {journal front back : List (JournalEntry Blob)}
variable {entry : JournalEntry Blob}

/-- A history ends in the database its last call left. -/
theorem dbAfter_eq (history : History libraries initial journal db) :
    dbAfter initial journal = db := by
  cases history with
  | start => rfl
  | commit earlier justified executed => simp

/-- A history can be cut anywhere. -/
theorem split (history : History libraries initial (front ++ back) db) :
    History libraries initial front (dbAfter initial front) ∧
      History libraries (dbAfter initial front) back db := by
  induction back using List.reverseRecOn generalizing db with
  | nil =>
      rw [List.append_nil] at history
      rw [history.dbAfter_eq]
      exact ⟨history, .start⟩
  | append_singleton back entry inductionHypothesis =>
      rw [← List.append_assoc] at history
      generalize whole : front ++ back ++ [entry] = journal at history
      cases history with
      | start => simp at whole
      | commit earlier justified executed =>
          obtain ⟨same, last⟩ := List.append_inj' whole rfl
          subst same
          obtain rfl := List.singleton_injective last
          obtain ⟨first, second⟩ := inductionHypothesis earlier
          exact ⟨first, second.commit justified executed⟩

/-- The two parts of a history make a history. -/
theorem append
    {middle : Db Blob}
    (first : History libraries initial front middle)
    (second : History libraries middle back db) :
    History libraries initial (front ++ back) db := by
  induction second with
  | start => rwa [List.append_nil]
  | commit earlier justified executed inductionHypothesis =>
      rw [← List.append_assoc]
      exact inductionHypothesis.commit justified executed

/-- A single call. -/
theorem of_singleton (history : History libraries initial [entry] db) :
    entry.before = initial ∧ entry.after = db ∧
      DbCall.Justified libraries.loro entry.before entry.call ∧
      ∃ now, DbCall.Effect libraries now entry.before entry.call entry.reply
        entry.after := by
  generalize single : [entry] = journal at history
  cases history with
  | start => cases single
  | @commit earlierJournal _ _ _ _ _ now earlier justified executed =>
      have length := congrArg List.length single
      simp only [List.length_cons, List.length_nil, List.length_append, zero_add,
        Nat.right_eq_add, List.length_eq_zero_iff] at length
      subst length
      cases single
      have same := earlier.dbAfter_eq
      subst same
      exact ⟨rfl, rfl, justified, now, DbCall.effect_of_exec executed⟩

/-- What happened at a call in the middle of a history. -/
theorem at_entry (history : History libraries initial (front ++ entry :: back) db) :
    History libraries initial front entry.before ∧
      History libraries entry.after back db ∧
      DbCall.Justified libraries.loro entry.before entry.call ∧
      ∃ now, DbCall.Effect libraries now entry.before entry.call entry.reply
        entry.after := by
  obtain ⟨first, rest⟩ := history.split
  have rest : History libraries (dbAfter initial front) ([entry] ++ back) db := rest
  obtain ⟨single, second⟩ := rest.split
  obtain ⟨before, after, justified, effect⟩ := single.of_singleton
  rw [before]
  rw [← after] at second
  exact ⟨first, second, before ▸ justified, before ▸ effect⟩

/-- Every call of a history had its effect. -/
theorem of_mem
    (history : History libraries initial journal db)
    (member : entry ∈ journal) :
    DbCall.Justified libraries.loro entry.before entry.call ∧
      ∃ now, DbCall.Effect libraries now entry.before entry.call entry.reply
        entry.after := by
  obtain ⟨front, back, rfl⟩ := List.append_of_mem member
  exact history.at_entry.2.2

/-- A call of a history, by its parts. -/
theorem effect_of_mem
    {origin : Option FrameId}
    {call : DbCall Blob}
    {reply : call.Reply}
    {before after : Db Blob}
    (history : History libraries initial journal db)
    (member : ⟨origin, call, reply, before, after⟩ ∈ journal) :
    ∃ now, DbCall.Effect libraries now before call reply after :=
  (history.of_mem member).2

/-- What every call preserves holds at the end of a history. -/
theorem preserves
    {motive : Db Blob → Prop}
    (history : History libraries initial journal db)
    (step : ∀ {entry now}, entry ∈ journal → motive entry.before →
      DbCall.Justified libraries.loro entry.before entry.call →
      DbCall.Effect libraries now entry.before entry.call entry.reply entry.after →
        motive entry.after)
    (holds : motive initial) :
    motive db := by
  induction history with
  | start => exact holds
  | @commit journal db origin call reply db' now earlier justified executed
      inductionHypothesis =>
      have before : motive db :=
        inductionHypothesis fun member =>
          step (List.mem_append_left _ member)
      exact @step ⟨origin, call, reply, db, db'⟩ now (by simp) before justified
        (DbCall.effect_of_exec executed)

end History

/-! ## Acknowledged writes -/

/-- The write an `Ack` stands for: after nothing but queries its frame has made
one store, whose grant the `Ack` and its announcement report. -/
theorem Recorded.stored
    {settings : Settings Blob}
    {initial : Db Blob}
    {server : Server Blob}
    (recorded : Recorded settings initial server)
    {answered : Answered Blob}
    (member : answered ∈ server.answers)
    {msg : ClientMsg Blob}
    {docUuid peerId : String}
    {blob : Blob}
    {requestId echoed : Option String}
    {granted : Option Int}
    (asked : answered.frame.decoded = .ok msg)
    (submits : Submits docUuid blob peerId requestId msg)
    (acked : answered.response = .ack granted echoed) :
    ∃ entry ∈ server.journal, entry.origin = some answered.origin ∧
      entry.Stores settings.loro ⟨answered.vaultId, docUuid⟩ blob ∧
      granted = entry.granted ∧
      ∀ sent ∈ server.sentFor answered.origin, ∃ serverVv,
        sent.event = .delta answered.vaultId docUuid blob peerId
          answered.origin.connId serverVv granted := by
  obtain ⟨_, broadcast, settled, announced⟩ := recorded.reported answered member
  rw [asked, acked] at settled
  generalize made : server.entriesOf answered.origin = entries at settled
  cases settled with
  | plain isPlain => exact isPlain.elim
  | deleted asked =>
      cases asked
      cases submits
  | @stored _ docUuid' blob' peerId' _ serverVv reads entry asked submits' readsFirst
      own stores reports =>
      obtain rfl := Except.ok.inj asked
      have last : entry ∈ server.entriesOf answered.origin :=
        made ▸ List.mem_append_right reads (List.mem_singleton_self _)
      have same : docUuid' = docUuid ∧ blob' = blob ∧ peerId' = peerId := by
        cases submits <;> cases submits' <;> exact ⟨rfl, rfl, rfl⟩
      obtain ⟨rfl, rfl, rfl⟩ := same
      refine ⟨entry, List.mem_of_mem_filter last, own, stores, rfl, ?_⟩
      intro sent sentMember
      rcases announced with unsent | ⟨event, due, sentOnce⟩
      · simp [unsent] at sentMember
      · rw [sentOnce, List.mem_singleton] at sentMember
        subst sentMember
        exact ⟨serverVv, (Option.some.inj due).symm⟩

/-! ## Live or tombstoned -/

/-- No path has a document and a tombstone. -/
def Exclusive (db : Db Blob) : Prop :=
  ∀ path, db.documents.lookup path = none ∨ db.tombstones.lookup path = none

/-- Every justified call keeps documents and tombstones apart. -/
theorem Exclusive.step
    {libraries : Libraries Blob}
    {now : Time}
    {db db' : Db Blob}
    {call : DbCall Blob}
    {reply : call.Reply}
    (exclusive : Exclusive db)
    (justified : DbCall.Justified libraries.loro db call)
    (effect : DbCall.Effect libraries now db call reply db') :
    Exclusive db' := by
  intro path
  by_cases written : call.committed reply = some path
  · cases effect with
    | read isRead => exact exclusive path
    | kept live =>
        cases written
        exact Or.inr ((exclusive path).resolve_left (by simp [live]))
    | established absent room =>
        cases written
        exact Or.inr (justified.2 absent)
    | replaced room =>
        cases written
        exact Or.inr (AList.lookup_erase path _)
    | removed live matching =>
        cases written
        exact Or.inl (AList.lookup_erase path _)
    | absent absent matching =>
        cases written
        exact Or.inl (AList.lookup_erase path _)
    | rejected | peerUpserted | tombstonesExpired | peersExpired => cases written
  · rw [effect.documents_frame written]
    rcases exclusive path with unlive | untombstoned
    · exact Or.inl unlive
    · rcases effect.tombstones_frame written with same | expired
      · exact Or.inr (same.trans untombstoned)
      · exact Or.inr expired

/-- In every reachable state of a server that started on an empty database no
path has both a document and a tombstone. -/
theorem live_or_tombstoned
    {settings : Settings Blob}
    {config : (serverMachine settings).Config}
    (reachable : Reachable settings Db.empty config)
    (path : DocPath) :
    config.shared.db.documents.lookup path = none ∨
      config.shared.db.tombstones.lookup path = none :=
  reachable.history.preserves (motive := Exclusive)
    (fun _ exclusive justified effect => exclusive.step justified effect)
    (fun _ => Or.inl rfl) path

/-- A delete waits for a write of the same document, and tombstones are expired
between the two. -/
def Schedule.contended : Schedule :=
  connects 0 "a" ++ connects 1 "b" ++ receives 0 (.push [⟨1, 0⟩]) 3 ++
    receives 1 (.delete none) 0 ++ [.environment (.expireTombstones ⟨0, none⟩)] ++
    completes 0 4 ++ completes 1 5

theorem Schedule.contended_enabled : Schedule.contended.Enabled := by
  decide +kernel

theorem live_or_tombstoned_contended :
    (Schedule.contended.config Schedule.contended_enabled).shared.db.documents.lookup
        ⟨"v", "d"⟩ = none ∨
      (Schedule.contended.config Schedule.contended_enabled).shared.db.tombstones.lookup
        ⟨"v", "d"⟩ = none :=
  live_or_tombstoned (Schedule.reachable Schedule.contended_enabled) ⟨"v", "d"⟩

end VaultCrdtServer
