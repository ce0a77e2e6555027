import VaultCrdtServer.Db.Migration
import VaultCrdtServer.Foundation.Registry
import VaultCrdtServer.History

/-!
# Incarnations

Documents are the live keys of a registry whose counters are the rows of
`vault_incarnation`.  Every call of a history is a step of that registry, so
an incarnation that has ended never returns.
-/

namespace VaultCrdtServer

variable {Blob : Type}

/-- The registry behind a database, with a view of the stored snapshots. -/
def Db.registry
    {Content : Type}
    (view : Blob → Content)
    (db : Db Blob) : Registry.State DocPath String Int Content where
  live := fun path => (db.documents.lookup path).map fun row =>
    (row.incarnation, view row.snapshotBlob)
  next := fun vault => db.nextIncarnation vault

section Refinement

variable {Content : Type} {view : Blob → Content} {db : Db Blob} {path : DocPath}

theorem registry_live_put
    (row : DocumentRow Blob) :
    ((db.putDocument path row).registry view).live =
      Function.update (db.registry view).live path
        (some (row.incarnation, view row.snapshotBlob)) := by
  funext other
  simp only [Db.registry, Db.putDocument, Table.lookup_insert_eq_ite,
    Function.update_apply]
  split_ifs with same
  · rfl
  · rfl

theorem registry_live_erase {tombstones : Table DocPath TombstoneRow} :
    (Db.registry view
        { db with
          documents := db.documents.erase path
          tombstones := tombstones }).live =
      Function.update (db.registry view).live path none := by
  funext other
  simp only [Db.registry, Table.lookup_erase_eq_ite, Function.update_apply]
  split_ifs with same
  · rfl
  · rfl

theorem registry_token (view : Blob → Content) (db : Db Blob) (path : DocPath) :
    (db.registry view).token path =
      (db.documents.lookup path).map DocumentRow.incarnation := by
  simp [Registry.State.token, Db.registry, Option.map_map, Function.comp_def]

/-- A row written with the counter's token is a fresh edition. -/
theorem registry_establish
    [Preorder Content]
    {row : DocumentRow Blob}
    {tombstones : Table DocPath TombstoneRow}
    (drawn : row.incarnation = db.nextIncarnation path.vault)
    (grows : ∀ old, db.documents.lookup path = some old →
      view old.snapshotBlob ≤ view row.snapshotBlob) :
    Registry.Step DocPath.vault (db.registry view)
      (Db.registry view
        { (db.advanceIncarnation path.vault).putDocument path row with
          tombstones := tombstones }) := by
  refine .establish drawn.ge ?_ ?_ ?_ (registry_live_put row)
  · change _ < (db.advanceIncarnation path.vault).nextIncarnation path.vault
    rw [Db.nextIncarnation_advanceIncarnation, if_pos rfl]
    omega
  · intro vault
    change _ ≤ (db.advanceIncarnation path.vault).nextIncarnation vault
    rw [Db.nextIncarnation_advanceIncarnation]
    split_ifs with same
    · subst same
      exact Int.le_of_lt (Int.lt_succ _)
    · exact le_rfl
  · intro token content live
    simp only [Db.registry, Option.map_eq_some_iff, Prod.mk.injEq] at live
    obtain ⟨old, live, _, rfl⟩ := live
    exact grows old live

/-- Every call is a step of the registry, provided that a snapshot written over
a live one does not show less. -/
theorem DbCall.Effect.registry_step
    [Preorder Content]
    {libraries : Libraries Blob}
    {now : Time}
    {db' : Db Blob}
    {call : DbCall Blob}
    {reply : call.Reply}
    (effect : DbCall.Effect libraries now db call reply db')
    (grows : ∀ path row row', call.committed reply = some path →
      db.documents.lookup path = some row → db'.documents.lookup path = some row' →
        view row.snapshotBlob ≤ view row'.snapshotBlob) :
    Registry.Step DocPath.vault (db.registry view) (db'.registry view) := by
  cases effect with
  | read | rejected | peerUpserted | tombstonesExpired | peersExpired => exact .idle
  | @kept path snapshot vvBlob row live =>
      have before : (db.registry view).live path =
          some (row.incarnation, view row.snapshotBlob) := by
        simp [Db.registry, live]
      exact .extend before
        (grows path row _ rfl live (AList.lookup_insert _)) rfl
        (registry_live_put _)
  | @established path snapshot vvBlob absent room =>
      exact registry_establish rfl
        fun old live => nomatch absent.symm.trans live
  | @replaced path snapshot vvBlob room =>
      exact registry_establish rfl
        fun old live => grows path old _ rfl live (AList.lookup_insert _)
  | @removed path | @absent path =>
      exact .remove rfl registry_live_erase

end Refinement

/-! ## Tokens and counters -/

/-- The editions of a database, without their contents. -/
abbrev Db.editions (db : Db Blob) : Registry.State DocPath String Int Unit :=
  db.registry fun _ => ()

/-- Tokens have been handed out by their vault's counter, from 1 on, and no
counter exceeds the maximum. -/
structure Counted (db : Db Blob) : Prop where
  issued : Registry.Issued DocPath.vault db.editions
  positive : ∀ path token, db.editions.token path = some token → 1 ≤ token
  counters : ∀ vault,
    1 ≤ db.nextIncarnation vault ∧ db.nextIncarnation vault ≤ i64Max

/-- The step of the editions. -/
theorem DbCall.Effect.editions_step
    {libraries : Libraries Blob}
    {now : Time}
    {db db' : Db Blob}
    {call : DbCall Blob}
    {reply : call.Reply}
    (effect : DbCall.Effect libraries now db call reply db') :
    Registry.Step DocPath.vault db.editions db'.editions :=
  effect.registry_step fun _ _ _ _ _ _ => le_rfl

/-- Counters stay below the maximum. -/
theorem DbCall.Effect.nextIncarnation_le
    {libraries : Libraries Blob}
    {now : Time}
    {db db' : Db Blob}
    {call : DbCall Blob}
    {reply : call.Reply}
    (effect : DbCall.Effect libraries now db call reply db')
    {vault : String}
    (bounded : db.nextIncarnation vault ≤ i64Max) :
    db'.nextIncarnation vault ≤ i64Max := by
  cases effect with
  | established absent room | replaced room =>
      change (db.advanceIncarnation _).nextIncarnation vault ≤ i64Max
      rw [Db.nextIncarnation_advanceIncarnation]
      split_ifs with same
      · omega
      · exact bounded
  | _ => exact bounded

namespace Counted

variable {libraries : Libraries Blob} {now : Time} {db db' : Db Blob}

/-- Every start is counted. -/
theorem of_starts (starts : Starts db) : Counted db := by
  cases starts with
  | empty =>
      refine ⟨fun path token live => (nomatch live),
        fun path token live => (nomatch live), ?_⟩
      intro vault
      simp [Db.nextIncarnation, Db.empty, i64Max]
  | migrated db =>
      have first : ∀ path token, (migrate006 db).editions.token path = some token →
          token = 1 ∧ path.vault ∈ vaultsOf db.documents := by
        intro path token live
        rw [registry_token, migrate006, Table.lookup_mapRows, Option.map_map,
          Option.map_eq_some_iff] at live
        obtain ⟨row, found, rfl⟩ := live
        exact ⟨rfl, mem_vaultsOf found⟩
      refine ⟨?_, ?_, ?_⟩
      · intro path token live
        obtain ⟨rfl, vault⟩ := first path token live
        change _ < (migrate006 db).nextIncarnation path.vault
        rw [nextIncarnation_migrate006, if_pos (List.mem_append_left _ vault)]
        decide
      · intro path token live
        exact (first path token live).1.ge
      · intro vault
        rw [nextIncarnation_migrate006]
        split_ifs <;> decide

/-- Every call keeps tokens and counters in bounds. -/
theorem step
    {call : DbCall Blob}
    {reply : call.Reply}
    (counted : Counted db)
    (effect : DbCall.Effect libraries now db call reply db') :
    Counted db' where
  issued := counted.issued.step effect.editions_step
  positive := by
    intro path token live
    rcases effect.editions_step.token_cases live with before | ⟨fresh, _⟩
    · exact counted.positive path token before
    · exact (counted.counters path.vault).1.trans fresh
  counters := fun vault =>
    ⟨(counted.counters vault).1.trans (effect.editions_step.next_le vault),
      effect.nextIncarnation_le (counted.counters vault).2⟩

/-- A history keeps tokens and counters in bounds. -/
theorem history
    {initial : Db Blob}
    {journal : List (JournalEntry Blob)}
    (counted : Counted initial)
    (history : History libraries initial journal db) :
    Counted db :=
  history.preserves (fun _ counted _ effect => counted.step effect) counted

/-- A live row's counter is stored. -/
theorem lookup_vaultIncarnation
    (counted : Counted db)
    {path : DocPath}
    {row : DocumentRow Blob}
    (found : db.documents.lookup path = some row) :
    ∃ next, db.vaultIncarnation.lookup path.vault = some next ∧
      row.incarnation < next := by
  have live : db.editions.token path = some row.incarnation := by
    rw [registry_token, found, Option.map_some]
  have positive := counted.positive path _ live
  have below : row.incarnation < db.nextIncarnation path.vault :=
    counted.issued path _ live
  unfold Db.nextIncarnation at below
  cases counter : db.vaultIncarnation.lookup path.vault with
  | none =>
      rw [counter, Option.getD_none] at below
      omega
  | some next =>
      rw [counter, Option.getD_some] at below
      exact ⟨next, rfl, below⟩

end Counted

/-- A document is deleted and created again by one connection.  The delete that
another connection had queued names the first edition. -/
def Schedule.recreated : Schedule :=
  connects 0 "a" ++ connects 1 "b" ++ serves 0 (.push [⟨1, 0⟩]) 7 ++
    serves 0 (.delete (some 1)) 5 ++ serves 0 (.create [⟨2, 0⟩] true) 7 ++
    serves 1 (.delete (some 1)) 4

theorem Schedule.recreated_enabled : Schedule.recreated.Enabled := by
  decide +kernel

end VaultCrdtServer
