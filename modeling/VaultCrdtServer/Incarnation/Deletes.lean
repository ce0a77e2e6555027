import VaultCrdtServer.Incarnation

/-!
# Guarded deletes

A delete that names a token removes the edition with that token or nothing.
-/

namespace VaultCrdtServer

variable {Blob : Type}

/-- What a record says about guarded deletes. -/
structure DeletesGuarded (server : Server Blob) : Prop where
  /-- An acknowledged delete with a positive token has removed the live row
  that carried it. -/
  matching : ∀ answered ∈ server.answers,
    ∀ {docUuid peerId expected intentId requestId granted echoed},
      answered.frame.decoded =
        .ok (.docDelete docUuid peerId (some expected) intentId requestId) →
      0 < expected → answered.response = .ack granted echoed →
        ∃ outcome before after row,
          ⟨some answered.origin,
            .deleteDocGuarded ⟨answered.vaultId, docUuid⟩ peerId (some expected),
            outcome, before, after⟩ ∈ server.journal ∧
          before.documents.lookup ⟨answered.vaultId, docUuid⟩ = some row ∧
          row.incarnation = expected ∧
          after.documents.lookup ⟨answered.vaultId, docUuid⟩ = none
  /-- Once an edition has ended, by a delete or by another token taking its
  place, a delete with its token changes nothing. -/
  ended : ∀ {front ending middle back origin path deletedBy expected outcome}
      {before after : Db Blob},
    server.journal = front ++ ending :: (middle ++
      ⟨origin, .deleteDocGuarded path deletedBy (some expected), outcome, before,
        after⟩ :: back) →
    (ending.before.documents.lookup path).map DocumentRow.incarnation =
      some expected →
    (ending.after.documents.lookup path).map DocumentRow.incarnation ≠
      some expected →
        after = before
  /-- A delete that expects no live row removes none. -/
  absence : ∀ {origin path deletedBy outcome} {before after : Db Blob},
    ⟨origin, .deleteDocGuarded path deletedBy (some 0), outcome, before, after⟩ ∈
        server.journal →
      ∀ other, after.documents.lookup other = before.documents.lookup other
  /-- A delete with another token than the live row's changes nothing, is not
  broadcast, and is answered by a rejection. -/
  mismatch : ∀ {origin path deletedBy expected outcome} {before after : Db Blob},
    ⟨origin, .deleteDocGuarded path deletedBy (some expected), outcome, before,
        after⟩ ∈ server.journal →
    expected ≠ before.liveIncarnation path →
      after = before ∧ ∀ id, origin = some id → server.sentFor id = [] ∧
        ∀ answered ∈ server.answersTo id, ∃ intentId requestId,
          answered.response = .deleteRejected path.doc intentId requestId

section Deletes

variable {settings : Settings Blob} {initial : Db Blob} {server : Server Blob}
variable {origin : Option FrameId} {path : DocPath} {deletedBy : String}
variable {outcome : DeleteOutcome} {before after : Db Blob}

/-- A delete is rejected, or its token is the live row's and the row is gone. -/
theorem delete_cases
    {libraries : Libraries Blob}
    {now : Time}
    {expected : Option Int}
    (effect : DbCall.Effect libraries now before
      (.deleteDocGuarded path deletedBy expected) outcome after) :
    (outcome = .rejected (before.liveIncarnation path) ∧ after = before) ∨
      after.documents = before.documents.erase path ∧
        ∀ token ∈ expected, token = before.liveIncarnation path := by
  cases effect with
  | read isRead => cases isRead
  | rejected => exact Or.inl ⟨rfl, rfl⟩
  | removed live matching =>
      refine Or.inr ⟨rfl, ?_⟩
      simpa [Db.liveIncarnation, live] using matching
  | absent absent matching =>
      refine Or.inr ⟨rfl, ?_⟩
      simpa [Db.liveIncarnation, absent] using matching

/-- A delete with another token than the live row's is rejected. -/
theorem delete_of_mismatch
    {libraries : Libraries Blob}
    {now : Time}
    {expected : Int}
    (effect : DbCall.Effect libraries now before
      (.deleteDocGuarded path deletedBy (some expected)) outcome after)
    (differs : expected ≠ before.liveIncarnation path) :
    outcome = .rejected (before.liveIncarnation path) ∧ after = before := by
  rcases delete_cases effect with rejected | ⟨_, matching⟩
  · exact rejected
  · exact absurd (matching expected rfl) differs

/-- A token no row of the path carries is not the live one. -/
theorem ne_liveIncarnation_of_token
    {db : Db Blob}
    {expected : Int}
    (nonzero : expected ≠ 0)
    (other : db.editions.token path ≠ some expected) :
    expected ≠ db.liveIncarnation path := by
  rw [registry_token] at other
  unfold Db.liveIncarnation
  cases live : (db.documents.lookup path).map DocumentRow.incarnation with
  | none => exact nonzero
  | some token =>
      rw [live] at other
      exact fun same => other (congrArg some same.symm)

/-- What an acknowledged delete has removed. -/
theorem matching_of_recorded
    (recorded : Recorded settings initial server)
    {answered : Answered Blob}
    (member : answered ∈ server.answers)
    {docUuid peerId : String}
    {expected : Int}
    {intentId requestId echoed : Option String}
    {granted : Option Int}
    (asked : answered.frame.decoded =
      .ok (.docDelete docUuid peerId (some expected) intentId requestId))
    (positive : 0 < expected)
    (acked : answered.response = .ack granted echoed) :
    ∃ outcome before after row,
      ⟨some answered.origin,
        .deleteDocGuarded ⟨answered.vaultId, docUuid⟩ peerId (some expected),
        outcome, before, after⟩ ∈ server.journal ∧
      before.documents.lookup ⟨answered.vaultId, docUuid⟩ = some row ∧
      row.incarnation = expected ∧
      after.documents.lookup ⟨answered.vaultId, docUuid⟩ = none := by
  obtain ⟨_, broadcast, settled, _⟩ := recorded.reported answered member
  rw [asked, acked] at settled
  generalize made : server.entriesOf answered.origin = entries at settled
  cases settled with
  | plain isPlain => exact isPlain.elim
  | stored asked submits =>
      cases asked
      cases submits
  | @deleted _ _ _ _ _ _ reads outcome before after asked readsFirst buried =>
      cases asked
      have journaled : ⟨some answered.origin,
          .deleteDocGuarded ⟨answered.vaultId, docUuid⟩ peerId (some expected),
          outcome, before, after⟩ ∈ server.journal := by
        have last : _ ∈ server.entriesOf answered.origin :=
          made ▸ List.mem_append_right reads (List.mem_singleton_self _)
        exact List.mem_of_mem_filter last
      obtain ⟨now, effect⟩ := recorded.history.effect_of_mem journaled
      rcases delete_cases effect with ⟨rfl, _⟩ | ⟨erased, matching⟩
      · cases buried
      · have token := matching expected rfl
        cases live : before.documents.lookup ⟨answered.vaultId, docUuid⟩ with
        | none =>
            simp only [Db.liveIncarnation, live, Option.map_none,
              Option.getD_none] at token
            omega
        | some row =>
            simp only [Db.liveIncarnation, live, Option.map_some,
              Option.getD_some] at token
            refine ⟨outcome, before, after, row, journaled, live, token.symm, ?_⟩
            rw [erased]
            exact AList.lookup_erase _ _

/-- Guarded deletes spare every edition but the one they name. -/
theorem deletesGuarded_of_recorded
    (counted : Counted initial)
    (recorded : Recorded settings initial server) :
    DeletesGuarded server where
  matching := fun answered member => matching_of_recorded recorded member
  ended := by
    intro front ending middle back origin path deletedBy expected outcome before after
      journal live gone
    have history := recorded.history
    rw [journal] at history
    obtain ⟨first, rest, _, now, effect⟩ := history.at_entry
    have countedBefore := counted.history first
    rw [← registry_token (fun _ => ())] at live gone
    -- from its end on the token is retired for the path
    have retired : Registry.Retired DocPath.vault path expected before.editions :=
      rest.at_entry.1.preserves
        (motive := fun db =>
          Registry.Retired DocPath.vault path expected db.editions)
        (fun _ retired _ effect => retired.step effect.editions_step)
        (countedBefore.issued.retired live effect.editions_step gone)
    have nonzero : expected ≠ 0 := by
      have := countedBefore.positive path expected live
      omega
    obtain ⟨_, _, _, now, effect⟩ := rest.at_entry
    exact (delete_of_mismatch effect (ne_liveIncarnation_of_token nonzero retired.2)).2
  absence := by
    intro origin path deletedBy outcome before after member other
    obtain ⟨front, back, journal⟩ := List.append_of_mem member
    have history := recorded.history
    rw [journal] at history
    obtain ⟨first, _, _, now, effect⟩ := history.at_entry
    have countedBefore := counted.history first
    rcases delete_cases effect with ⟨_, unchanged⟩ | ⟨erased, matching⟩
    · rw [show after = before from unchanged]
    · have zero := matching 0 rfl
      cases live : before.documents.lookup path with
      | some row =>
          have positive := countedBefore.positive path row.incarnation
            (by rw [registry_token, live, Option.map_some])
          simp only [Db.liveIncarnation, live, Option.map_some,
            Option.getD_some] at zero
          omega
      | none =>
          rw [erased, Table.erase_of_lookup_eq_none live]
  mismatch := by
    intro origin path deletedBy expected outcome before after member differs
    obtain ⟨now, effect⟩ := recorded.history.effect_of_mem member
    obtain ⟨rfl, rfl⟩ := delete_of_mismatch effect differs
    refine ⟨rfl, ?_⟩
    rintro id rfl
    have own : _ ∈ server.entriesOf id := List.mem_filter.mpr ⟨member, by simp⟩
    -- whatever was answered to this frame was a rejection
    have rejected : ∀ answered ∈ server.answersTo id, server.sentFor id = [] ∧
        ∃ intentId requestId,
          answered.response = .deleteRejected path.doc intentId requestId := by
      intro answered given
      obtain rfl := Recorded.origin_of_mem_answersTo given
      obtain ⟨_, broadcast, settled, announced⟩ :=
        recorded.reported answered (List.mem_of_mem_filter given)
      obtain ⟨silent, response⟩ := settled.of_rejected own
      refine ⟨?_, response⟩
      rcases announced with unsent | ⟨event, due, _⟩
      · exact unsent
      · cases silent.symm.trans due
    refine ⟨?_, fun answered given => (rejected answered given).2⟩
    by_contra announced
    obtain ⟨sent, sentMember⟩ := List.exists_mem_of_ne_nil _ announced
    obtain ⟨inChannel, origin⟩ := List.mem_filter.mp sentMember
    obtain ⟨answered, given⟩ := List.exists_mem_of_ne_nil _
      (recorded.sent sent inChannel id (by simpa using origin))
    exact announced (rejected answered given).1

/-- A guarded delete never destroys a newer edition. -/
theorem guarded_delete_spares_newer_editions
    {config : (serverMachine settings).Config}
    (starts : Starts initial)
    (reachable : Reachable settings initial config) :
    DeletesGuarded config.shared :=
  deletesGuarded_of_recorded (.of_starts starts) reachable.recorded

end Deletes

theorem guarded_delete_spares_recreated :
    DeletesGuarded (Schedule.recreated.config Schedule.recreated_enabled).shared :=
  guarded_delete_spares_newer_editions .empty
    (Schedule.reachable Schedule.recreated_enabled)

end VaultCrdtServer
