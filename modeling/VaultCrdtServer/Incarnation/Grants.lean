import VaultCrdtServer.Incarnation

/-!
# Allocated tokens

The tokens of a vault are handed out in increasing order, and the answer to a
write reports the token it allocated, if any.
-/

namespace VaultCrdtServer

variable {Blob : Type}

/-- The token a call has allocated in a vault. -/
def JournalEntry.allocatedIn
    (vault : String)
    (entry : JournalEntry Blob) : Option Int :=
  match entry.committed with
  | some path => if path.vault = vault then entry.granted else none
  | none => none

/-- A reported grant agrees with what a write did to its path: a token stands
for an allocation the live row now carries, and no token for a live row that
was there and kept its own. -/
structure Grants
    (granted : Option Int)
    (path : DocPath)
    (before after : Db Blob) : Prop where
  allocated : ∀ token, granted = some token ↔
    before.nextIncarnation path.vault = token ∧
      after.nextIncarnation path.vault = token + 1 ∧
      (after.documents.lookup path).map DocumentRow.incarnation = some token
  kept : granted = none ↔ ∃ row row',
    before.documents.lookup path = some row ∧
      after.documents.lookup path = some row' ∧
      row'.incarnation = row.incarnation

/-- What a record says about allocated tokens. -/
structure TokensAllocated
    (settings : Settings Blob)
    (server : Server Blob) : Prop where
  /-- In commit order the tokens of a vault increase. -/
  increasing : ∀ vault,
    (server.journal.filterMap (JournalEntry.allocatedIn vault)).Pairwise (· < ·)
  bounds : ∀ vault, ∀ token ∈ server.journal.filterMap (JournalEntry.allocatedIn vault),
    1 ≤ token ∧ token ≤ i64Max - 1
  /-- No row of the vault has ever carried the token before. -/
  unused : ∀ {front entry back vault token},
    server.journal = front ++ entry :: back →
    entry.allocatedIn vault = some token →
    ∀ past ∈ front ++ [entry], ∀ path row, path.vault = vault →
      past.before.documents.lookup path = some row → row.incarnation < token
  below : ∀ path row, server.db.documents.lookup path = some row →
    ∃ next, server.db.vaultIncarnation.lookup path.vault = some next ∧
      row.incarnation < next
  /-- Without a token left, a write that needs one changes nothing. -/
  exhausted : ∀ {path snapshot vvBlob origin circumstance},
    server.db.vaultIncarnation.lookup path.vault = some i64Max →
      (server.db.documents.lookup path = none →
        ∃ error, server.query settings.toLibraries origin
          (.storeSnapshotWithVv path snapshot vvBlob) circumstance =
            (.error error, server)) ∧
      ∃ error, server.query settings.toLibraries origin
        (.storeSnapshotReplacingTombstone path snapshot vvBlob) circumstance =
          (.error error, server)
  /-- An acknowledged write, and its announcement, report its grant. -/
  reported : ∀ answered ∈ server.answers,
    ∀ {msg docUuid blob peerId requestId granted echoed},
      answered.frame.decoded = .ok msg →
      Submits docUuid blob peerId requestId msg →
      answered.response = .ack granted echoed →
        ∃ entry ∈ server.journal, entry.origin = some answered.origin ∧
          entry.committed = some ⟨answered.vaultId, docUuid⟩ ∧
          Grants granted ⟨answered.vaultId, docUuid⟩ entry.before entry.after ∧
          ∀ sent ∈ server.sentFor answered.origin, ∃ serverVv,
            sent.event = .delta answered.vaultId docUuid blob peerId
              answered.origin.connId serverVv granted

section Grants

variable {libraries : Libraries Blob} {now : Time} {db db' : Db Blob}
variable {call : DbCall Blob} {reply : call.Reply}

/-- A call draws a vault's next token or leaves the counters alone. -/
theorem granted_cases (effect : DbCall.Effect libraries now db call reply db') :
    (call.granted db reply = none ∧
        ∀ vault, db'.nextIncarnation vault = db.nextIncarnation vault) ∨
      ∃ path, call.committed reply = some path ∧
        call.granted db reply = some (db.nextIncarnation path.vault) ∧
        db.nextIncarnation path.vault < i64Max ∧
        (∀ vault, db'.nextIncarnation vault =
          if vault = path.vault then
            db.nextIncarnation path.vault + 1
          else
            db.nextIncarnation vault) ∧
        (db'.documents.lookup path).map DocumentRow.incarnation =
          some (db.nextIncarnation path.vault) := by
  cases effect with
  | read isRead =>
      refine Or.inl ⟨?_, fun _ => rfl⟩
      cases call <;> first | rfl | cases isRead
  | kept live => exact Or.inl ⟨by simp [DbCall.granted, live], fun _ => rfl⟩
  | @established path _ _ absent room =>
      refine Or.inr ⟨path, rfl, by simp [DbCall.granted, absent], room, ?_, ?_⟩
      · exact fun vault => Db.nextIncarnation_advanceIncarnation path.vault vault db
      · simp [Db.putDocument]
  | @replaced path _ _ room =>
      refine Or.inr ⟨path, rfl, rfl, room, ?_, ?_⟩
      · exact fun vault => Db.nextIncarnation_advanceIncarnation path.vault vault db
      · simp [Db.putDocument]
  | rejected | removed | absent | peerUpserted | tombstonesExpired | peersExpired =>
      exact Or.inl ⟨rfl, fun _ => rfl⟩

/-- An allocation is the vault's next token. -/
theorem allocatedIn_eq_some
    {entry : JournalEntry Blob}
    {vault : String}
    {token : Int}
    (effect : DbCall.Effect libraries now entry.before entry.call entry.reply
      entry.after)
    (allocated : entry.allocatedIn vault = some token) :
    token = entry.before.nextIncarnation vault ∧ token < i64Max ∧
      entry.after.nextIncarnation vault = token + 1 := by
  unfold JournalEntry.allocatedIn at allocated
  cases written : entry.committed with
  | none => simp [written] at allocated
  | some path =>
      simp only [written, Option.ite_none_right_eq_some] at allocated
      obtain ⟨rfl, granted⟩ := allocated
      rcases granted_cases effect with ⟨none, _⟩ |
        ⟨other, committed, drawn, room, counters, _⟩
      · cases none.symm.trans granted
      · obtain rfl : path = other := Option.some.inj (written.symm.trans committed)
        obtain rfl := Option.some.inj (granted.symm.trans drawn)
        exact ⟨rfl, room, by rw [counters, if_pos rfl]⟩

/-- Along a history the tokens of a vault increase towards its counter. -/
theorem allocations_of_history
    {initial : Db Blob}
    {journal : List (JournalEntry Blob)}
    (counted : Counted initial)
    (history : History libraries initial journal db)
    (vault : String) :
    (journal.filterMap (JournalEntry.allocatedIn vault)).Pairwise (· < ·) ∧
      ∀ token ∈ journal.filterMap (JournalEntry.allocatedIn vault),
        1 ≤ token ∧ token ≤ i64Max - 1 ∧ token < db.nextIncarnation vault := by
  induction history with
  | start => simp
  | @commit journal db origin call reply db' now earlier justified executed
      inductionHypothesis =>
      obtain ⟨increasing, bounds⟩ := inductionHypothesis
      have effect := DbCall.effect_of_exec executed
      have advances := effect.editions_step.next_le vault
      change db.nextIncarnation vault ≤ db'.nextIncarnation vault at advances
      rw [List.filterMap_append]
      cases allocated : JournalEntry.allocatedIn vault
          ⟨origin, call, reply, db, db'⟩ with
      | none =>
          simp only [List.filterMap_cons, allocated, List.filterMap_nil,
            List.append_nil]
          refine ⟨increasing, fun token member => ?_⟩
          have bound := bounds token member
          exact ⟨bound.1, bound.2.1, bound.2.2.trans_le advances⟩
      | some fresh =>
          obtain ⟨drawn, room, after⟩ := allocatedIn_eq_some effect allocated
          change fresh = db.nextIncarnation vault at drawn
          change db'.nextIncarnation vault = fresh + 1 at after
          simp only [List.filterMap_cons, allocated, List.filterMap_nil]
          constructor
          · rw [List.pairwise_append]
            refine ⟨increasing, List.pairwise_singleton _ _, ?_⟩
            intro token member other last
            rw [List.mem_singleton] at last
            have bound := bounds token member
            omega
          · intro token member
            rw [List.mem_append, List.mem_singleton] at member
            rcases member with member | rfl
            · have bound := bounds token member
              omega
            · have positive := ((counted.history earlier).counters vault).1
              omega

/-- Counters only advance along a history. -/
theorem nextIncarnation_le_of_history
    {initial : Db Blob}
    {journal : List (JournalEntry Blob)}
    (history : History libraries initial journal db)
    (vault : String) :
    initial.nextIncarnation vault ≤ db.nextIncarnation vault :=
  history.preserves
    (motive := fun db => initial.nextIncarnation vault ≤ db.nextIncarnation vault)
    (fun _ advanced _ effect => advanced.trans (effect.editions_step.next_le vault))
    le_rfl

/-- An exhausted counter fails every write that needs a token. -/
theorem query_of_exhausted
    {server : Server Blob}
    {path : DocPath}
    {snapshot vvBlob : Blob}
    {origin : Option FrameId}
    {circumstance : Circumstance}
    (exhausted : server.db.vaultIncarnation.lookup path.vault = some i64Max) :
    (server.db.documents.lookup path = none →
        ∃ error, server.query libraries origin
          (.storeSnapshotWithVv path snapshot vvBlob) circumstance =
            (.error error, server)) ∧
      ∃ error, server.query libraries origin
        (.storeSnapshotReplacingTombstone path snapshot vvBlob) circumstance =
          (.error error, server) := by
  have full : ¬ server.db.nextIncarnation path.vault < i64Max := by
    simp [Db.nextIncarnation, exhausted]
  cases fault : circumstance.fault with
  | some error =>
      exact ⟨fun _ => ⟨error, by simp [Server.query, fault]⟩,
        error, by simp [Server.query, fault]⟩
  | none =>
      refine ⟨fun absent => ⟨.db "incarnation space exhausted", ?_⟩,
        .db "incarnation space exhausted", ?_⟩
      · simp [Server.query, fault, DbCall.exec, Db.storeSnapshotWithVv, absent,
          Db.allocateIncarnation_eq, full, bind, Except.bind]
      · simp [Server.query, fault, DbCall.exec, Db.storeSnapshotReplacingTombstone,
          Db.allocateIncarnation_eq, full, bind, Except.bind]

/-- The grant of a write that drew a token. -/
theorem Grants.of_drawn
    {path : DocPath}
    {before after : Db Blob}
    (counted : Counted before)
    (counter : after.nextIncarnation path.vault =
      before.nextIncarnation path.vault + 1)
    (live : (after.documents.lookup path).map DocumentRow.incarnation =
      some (before.nextIncarnation path.vault)) :
    Grants (some (before.nextIncarnation path.vault)) path before after where
  allocated := by
    intro token
    constructor
    · intro drawn
      obtain rfl := Option.some.inj drawn
      exact ⟨rfl, counter, live⟩
    · rintro ⟨rfl, _, _⟩
      rfl
  kept := by
    refine iff_of_false (by simp) ?_
    rintro ⟨row, row', old, new, same⟩
    have below : row.incarnation < before.nextIncarnation path.vault :=
      counted.issued path _ (by rw [registry_token, old, Option.map_some])
    rw [new, Option.map_some, Option.some.injEq] at live
    omega

/-- A store's grant agrees with its effect. -/
theorem grants_of_stores
    {loro : Loro Blob}
    {entry : JournalEntry Blob}
    {path : DocPath}
    {incoming : Blob}
    (counted : Counted entry.before)
    (effect : DbCall.Effect libraries now entry.before entry.call entry.reply
      entry.after)
    (stores : entry.Stores loro path incoming) :
    Grants entry.granted path entry.before entry.after := by
  rcases granted_cases effect with ⟨nothing, counters⟩ |
    ⟨other, committed, drawn, _, counters, live⟩
  · rw [show entry.granted = none from nothing]
    obtain ⟨origin, call, reply, before, after⟩ := entry
    obtain ⟨snapshot, vvBlob, _, rfl | rfl⟩ := stores
    · change DbCall.Effect libraries now before
        (.storeSnapshotWithVv path snapshot vvBlob) reply after at effect
      cases effect with
      | read isRead => cases isRead
      | established absent => simp [DbCall.granted, absent] at nothing
      | @kept _ _ _ row live =>
          constructor
          · intro token
            refine iff_of_false (by simp) ?_
            rintro ⟨old, new, _⟩
            have same := counters path.vault
            simp only at old new same
            omega
          · exact iff_of_true rfl ⟨row, _, live, AList.lookup_insert _, rfl⟩
    · cases nothing
  · obtain rfl : path = other := Option.some.inj (stores.committed.symm.trans committed)
    rw [show entry.granted = some _ from drawn]
    exact .of_drawn counted (by rw [counters, if_pos rfl]) live

/-- The record of a run says what tokens were allocated. -/
theorem tokensAllocated_of_recorded
    {settings : Settings Blob}
    {initial : Db Blob}
    {server : Server Blob}
    (counted : Counted initial)
    (recorded : Recorded settings initial server) :
    TokensAllocated settings server where
  increasing := fun vault => (allocations_of_history counted recorded.history vault).1
  bounds := fun vault token member =>
    have bound := (allocations_of_history counted recorded.history vault).2 token member
    ⟨bound.1, bound.2.1⟩
  unused := by
    intro front entry back vault token journal allocated past member path row same live
    subst same
    have history := recorded.history
    rw [journal] at history
    obtain ⟨first, _, _, now, effect⟩ := history.at_entry
    obtain ⟨drawn, _, _⟩ := allocatedIn_eq_some effect allocated
    -- the counter has not gone back since the row was seen
    have advanced : Counted past.before ∧
        past.before.nextIncarnation path.vault ≤
          entry.before.nextIncarnation path.vault := by
      rw [List.mem_append, List.mem_singleton] at member
      rcases member with earlier | rfl
      · obtain ⟨front, back, rfl⟩ := List.append_of_mem earlier
        obtain ⟨before, after, _, now, effect⟩ := first.at_entry
        exact ⟨counted.history before, (effect.editions_step.next_le path.vault).trans
          (nextIncarnation_le_of_history after path.vault)⟩
      · exact ⟨counted.history first, le_rfl⟩
    have below : row.incarnation < past.before.nextIncarnation path.vault :=
      advanced.1.issued path _ (by rw [registry_token, live, Option.map_some])
    exact drawn ▸ below.trans_le advanced.2
  below := fun path row live =>
    (counted.history recorded.history).lookup_vaultIncarnation live
  exhausted := query_of_exhausted
  reported := by
    intro answered member msg docUuid blob peerId requestId granted echoed asked
      submits acked
    obtain ⟨entry, journaled, own, stores, rfl, announced⟩ :=
      recorded.stored member asked submits acked
    obtain ⟨front, back, journal⟩ := List.append_of_mem journaled
    have history := recorded.history
    rw [journal] at history
    obtain ⟨first, _, _, now, effect⟩ := history.at_entry
    exact ⟨entry, journaled, own, stores.committed,
      grants_of_stores (counted.history first) effect stores, announced⟩

/-- Tokens of a vault are handed out once, in increasing order, and answers
report them. -/
theorem tokens_allocated
    {settings : Settings Blob}
    {initial : Db Blob}
    {config : (serverMachine settings).Config}
    (starts : Starts initial)
    (reachable : Reachable settings initial config) :
    TokensAllocated settings config.shared :=
  tokensAllocated_of_recorded (.of_starts starts) reachable.recorded

end Grants

theorem tokens_allocated_recreated :
    TokensAllocated Settings.reference
      (Schedule.recreated.config Schedule.recreated_enabled).shared :=
  tokens_allocated .empty (Schedule.reachable Schedule.recreated_enabled)

end VaultCrdtServer
