import VaultCrdtServer.Sessions

/-!
# Deleted documents

A deleted document stays deleted.  Whatever is pushed for it meanwhile, it is
live again only after a create that asks for it has replaced its tombstone, or
after the cleanup has removed the tombstone.
-/

namespace VaultCrdtServer

open Interleaving

variable {Blob : Type} {settings : Settings Blob}

/-- The step takes the tombstone of a path away. -/
inductive Releases (path : DocPath) :
    (serverMachine settings).Label → (serverMachine settings).Config → Prop
  /-- The frame a connection of the vault works on is a create with
  `replace_tombstone`, and a new edition is stored for it. -/
  | replaced {config : (serverMachine settings).Config} {connId : Nat}
      {circumstance : Circumstance} {snapshot vvBlob created : Blob} {next}
      {peer : PeerKey} {frames : List (Frame Blob)} {frame : Frame Blob}
      {peerId : String} {requestId : Option String}
      (current : config.thread connId = some (.call
        (.db (.storeSnapshotReplacingTombstone path snapshot vvBlob)) next))
      (session : config.shared.agenda connId = some (peer, frames))
      (home : peer.vault = path.vault)
      (last : frames.getLast? = some frame)
      (asked : frame.decoded = .ok (.docCreate path.doc created peerId true requestId)) :
      Releases path (.act connId circumstance) config
  /-- The tombstone is older than the retention when the cleanup runs, and every peer
  of the vault has been seen since. -/
  | expired {config : (serverMachine settings).Config} {circumstance : Circumstance}
      {row : TombstoneRow} {limit : Time}
      (tombstoned : config.shared.db.tombstones.lookup path = some row)
      (cutoff : Db.daysBefore circumstance.now settings.tombstoneDays = some limit)
      (old : row.deletedAt < limit)
      (told : config.shared.db.awaited path row = false) :
      Releases path (.environment (.expireTombstones circumstance)) config

section Steps

variable {libraries : Libraries Blob} {now : Time} {path : DocPath}

/-- A tombstone the cleanup removes has expired. -/
theorem expired_of_expireTombstones
    {db : Db Blob}
    {maxAgeDays : Int}
    {row : TombstoneRow}
    (tombstoned : db.tombstones.lookup path = some row)
    (removed : (db.expireTombstones now maxAgeDays).2.tombstones.lookup path = none) :
    (∃ limit, Db.daysBefore now maxAgeDays = some limit ∧ row.deletedAt < limit) ∧
      db.awaited path row = false := by
  unfold Db.expireTombstones at removed
  rw [Table.lookup_deleteWhere, tombstoned] at removed
  simp only [Option.filter_eq_none_iff, Option.some.injEq, forall_eq',
    Bool.not_eq_eq_eq_not, Bool.not_true, Bool.not_eq_false, Bool.and_eq_true,
    Option.any_eq_true, decide_eq_true_eq] at removed
  obtain ⟨⟨limit, cutoff, older⟩, told⟩ := removed
  exact ⟨⟨limit, cutoff, older⟩, told⟩

/-- Only a replacement and the cleanup take a tombstone away. -/
theorem released_of_effect
    {call : DbCall Blob}
    {reply : call.Reply}
    {before after : Db Blob}
    {row : TombstoneRow}
    (effect : DbCall.Effect libraries now before call reply after)
    (tombstoned : before.tombstones.lookup path = some row)
    (removed : after.tombstones.lookup path = none) :
    (∃ snapshot vvBlob, call = .storeSnapshotReplacingTombstone path snapshot vvBlob) ∨
      ∃ maxAgeDays limit, call = .expireTombstones maxAgeDays ∧
        Db.daysBefore now maxAgeDays = some limit ∧ row.deletedAt < limit ∧
        before.awaited path row = false := by
  cases effect with
  | read | kept | established | rejected | peerUpserted | peersExpired =>
      cases tombstoned.symm.trans removed
  | @replaced replacedPath snapshot vvBlob room =>
      by_cases same : path = replacedPath
      · subst same
        exact Or.inl ⟨snapshot, vvBlob, rfl⟩
      · change (before.tombstones.erase replacedPath).lookup path = none at removed
        rw [AList.lookup_erase_ne same] at removed
        cases tombstoned.symm.trans removed
  | @removed deletedPath | @absent deletedPath =>
      change (before.tombstones.insert deletedPath _).lookup path = none at removed
      by_cases same : path = deletedPath
      · rw [same, AList.lookup_insert] at removed
        cases removed
      · rw [AList.lookup_insert_ne same] at removed
        cases tombstoned.symm.trans removed
  | @tombstonesExpired maxAgeDays =>
      obtain ⟨⟨limit, cutoff, older⟩, told⟩ := expired_of_expireTombstones tombstoned removed
      exact Or.inr ⟨maxAgeDays, limit, rfl, cutoff, older, told⟩

/-- A step at which the tombstone of a path goes away releases the path. -/
theorem releases_of_steps
    {initial : Db Blob}
    {label : (serverMachine settings).Label}
    {config config' : (serverMachine settings).Config}
    (reachable : Reachable settings initial config)
    (stepped : Machine.Steps (serverMachine settings) label config config')
    (tombstoned : config.shared.db.tombstones.lookup path ≠ none)
    (removed : config'.shared.db.tombstones.lookup path = none) :
    Releases path label config := by
  obtain ⟨row, tombstoned⟩ := Option.ne_none_iff_exists'.mp tombstoned
  cases journals_of_steps stepped with
  | quiet journal db =>
      rw [db] at removed
      cases tombstoned.symm.trans removed
  | @query now origin call reply time made cleans executed journal =>
      have effect := DbCall.effect_of_exec executed
      have released := released_of_effect effect tombstoned removed
      cases origin with
      | none =>
          obtain ⟨circumstance, ⟨rfl, cleaned⟩ | ⟨rfl, cleaned⟩⟩ := cleans rfl
          · obtain rfl := Option.some.inj time
            rcases released with ⟨_, _, replaced⟩ | ⟨_, limit, expired, cutoff, old, told⟩
            · cases cleaned.symm.trans replaced
            · cases cleaned.symm.trans expired
              exact .expired tombstoned cutoff old told
          · rcases released with ⟨_, _, replaced⟩ | ⟨_, _, expired, _⟩
            · cases cleaned.symm.trans replaced
            · cases cleaned.symm.trans expired
      | some id =>
          obtain ⟨circumstance, next, rfl, current, _⟩ := made id rfl
          have numbered := reachable.holds.invariant.1
          obtain ⟨connection, registered⟩ := Option.isSome_iff_exists.mp
            (numbered.attached id.connId (by rw [current]; rfl))
          have attended := reachable.attended
          obtain ⟨peer, frames, session, _, _⟩ := attended.session id.connId
            connection.vaultId (by simp [Server.vaultOf, registered])
          have due := (attended.due id.connId _ peer frames current session).1
          rw [ServerCall.Due] at due
          rcases released with ⟨snapshot, vvBlob, rfl⟩ | ⟨maxAgeDays, _, rfl, _⟩
          · split at due
            · obtain ⟨_, refreshed⟩ := due
              cases refreshed
            · rename_i frame last
              obtain ⟨msg, decoded, home, created, peerId, requestId, rfl⟩ := due
              exact .replaced current session home.symm last decoded
          · split at due
            · obtain ⟨_, refreshed⟩ := due
              cases refreshed
            · obtain ⟨_, _, served⟩ := due
              cases served

end Steps

/-- A path that is tombstoned in one configuration of a run and live in a later one
was released by a step in between: the one that took its tombstone away. -/
theorem deleted_stays_deleted
    {initial : Db Blob}
    {labels : List (serverMachine settings).Label}
    {config config' : (serverMachine settings).Config}
    {path : DocPath}
    (exclusive : Exclusive initial)
    (reachable : Reachable settings initial config)
    (runs : (serverMachine settings).run labels config = some config')
    (tombstoned : config.shared.db.tombstones.lookup path ≠ none)
    (live : config'.shared.db.documents.lookup path ≠ none) :
    ∃ earlier label later before after, labels = earlier ++ label :: later ∧
      (serverMachine settings).run earlier config = some before ∧
      (serverMachine settings).step label before = some after ∧
      after.shared.db.tombstones.lookup path = none ∧ Releases path label before := by
  have apart : Exclusive config'.shared.db :=
    (reachable.run runs).history.preserves (motive := Exclusive)
      (fun _ exclusive justified effect => exclusive.step justified effect) exclusive
  have untombstoned : config'.shared.db.tombstones.lookup path = none :=
    (apart path).resolve_left live
  obtain ⟨earlier, label, later, before, after, split, reached, stepped, kept, lapsed⟩ :=
    Machine.run_lapses (fun config => config.shared.db.tombstones.lookup path ≠ none)
      runs tombstoned (not_not.mpr untombstoned)
  have removed := not_not.mp lapsed
  exact ⟨earlier, label, later, before, after, split, reached,
    Machine.step_eq_some_iff.mpr stepped, removed,
    releases_of_steps (reachable.run reached) stepped kept removed⟩

namespace Schedule

/-- A document is pushed and deleted. -/
def pushedAndDeleted : Schedule :=
  connects 0 "a" ++ serves 0 (.push [⟨1, 0⟩]) 7 ++ serves 0 (.delete none) 5

/-- It is pushed again in vain, and created anew. -/
def createdAnew : Schedule :=
  serves 0 (.push [⟨1, 0⟩]) 5 ++ serves 0 (.create [⟨2, 0⟩] true) 7

theorem pushedAndDeleted_enabled : pushedAndDeleted.Enabled := by
  decide +kernel

theorem createdAnew_enabled : Enabled (pushedAndDeleted ++ createdAnew) := by
  decide +kernel

end Schedule

theorem deleted_stays_deleted_createdAnew :
    ∃ earlier label later before after, Schedule.createdAnew = earlier ++ label :: later ∧
      (serverMachine Settings.reference).run earlier
        (Schedule.pushedAndDeleted.config Schedule.pushedAndDeleted_enabled) = some before ∧
      (serverMachine Settings.reference).step label before = some after ∧
      after.shared.db.tombstones.lookup ⟨"v", "d"⟩ = none ∧
      Releases ⟨"v", "d"⟩ label before := by
  have runs : (serverMachine Settings.reference).run Schedule.createdAnew
      (Schedule.pushedAndDeleted.config Schedule.pushedAndDeleted_enabled) =
      some ((Schedule.pushedAndDeleted ++ Schedule.createdAnew).config
        Schedule.createdAnew_enabled) := by
    have whole := Schedule.run_eq_config Schedule.createdAnew_enabled
    rw [Machine.run_append, Schedule.run_eq_config Schedule.pushedAndDeleted_enabled,
      Option.bind_some] at whole
    exact whole
  have tombstoned : ((Schedule.pushedAndDeleted.config
      Schedule.pushedAndDeleted_enabled).shared.db.tombstones.lookup ⟨"v", "d"⟩).isSome =
        true := by
    decide +kernel
  have live : (((Schedule.pushedAndDeleted ++ Schedule.createdAnew).config
      Schedule.createdAnew_enabled).shared.db.documents.lookup ⟨"v", "d"⟩).isSome = true := by
    decide +kernel
  exact deleted_stays_deleted (fun _ => Or.inl rfl)
    (Schedule.reachable Schedule.pushedAndDeleted_enabled) runs
    (Option.isSome_iff_ne_none.mp tombstoned) (Option.isSome_iff_ne_none.mp live)

end VaultCrdtServer
