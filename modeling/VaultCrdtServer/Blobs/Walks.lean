import VaultCrdtServer.Blobs.Listings
import VaultCrdtServer.Blobs.Reference

/-!
# Readers and their walks

A reader holds every row it has passed: a row that is written again moves ahead
of the reader.  So does a row that is written while an answer is on its way.
-/

namespace VaultCrdtServer

open Interleaving

/-! ## Readers -/

/-- A reader holds the rows it has passed, and a walk has advanced with each
page. -/
structure Reader.Follows (db : BlobDb) (reader : Reader) : Prop where
  complete : ∀ key row, db.blobPathStates.lookup ⟨reader.vault, key⟩ = some row →
    row.seq ≤ reader.position → reader.rows.lookup key = some row
  behind : reader.position ≤ db.blobSeq
  walking : ∀ walk, reader.walk = some walk →
    reader.cursor + walk.pages ≤ walk.position ∧ walk.position < walk.fence ∧
      walk.fence ≤ db.blobSeq

namespace Reader

variable {db db' : BlobDb} {reader : Reader}

/-- A reader holds what it has passed, whatever is written. -/
theorem Follows.later
    (follows : reader.Follows db)
    (precedes : db.Precedes db') :
    reader.Follows db' where
  complete := by
    intro key row stored passed
    have counted := passed.trans follows.behind
    exact follows.complete key row (precedes.rows _ row stored counted) passed
  behind := follows.behind.trans precedes.counter
  walking := by
    intro walk current
    obtain ⟨advanced, before, counted⟩ := follows.walking walk current
    exact ⟨advanced, before, counted.trans precedes.counter⟩

/-- A new reader has passed nothing. -/
theorem Follows.new (numbered : db.Numbered) (vault : VaultId) :
    (Reader.new vault).Follows db where
  complete := by
    intro key row stored passed
    have positive := (numbered.counted _ row stored).1
    change row.seq ≤ 0 at passed
    omega
  behind := numbered.nonneg
  walking := fun _ current => nomatch current

/-- Rows are stored as they are given: where they are the current ones, what is
stored afterwards is current. -/
theorem lookup_foldl_store
    (current : String → Option PathRow)
    {applied : List (String × PathRow)}
    {rows : Table String PathRow}
    {key : String}
    (given : ∀ entry ∈ applied, current entry.1 = some entry.2)
    (known : rows.lookup key = current key ∨ ∃ entry ∈ applied, entry.1 = key) :
    (applied.foldl store rows).lookup key = current key := by
  induction applied generalizing rows with
  | nil =>
      rcases known with known | ⟨entry, member, -⟩
      · exact known
      · cases member
  | cons entry rest inductionHypothesis =>
      refine inductionHypothesis (fun other member => given other (List.mem_cons_of_mem _ member)) ?_
      rw [store, Table.lookup_insert_eq_ite]
      split_ifs with same
      · rw [same]
        exact Or.inl (given entry List.mem_cons_self).symm
      · rcases known with known | ⟨other, member, named⟩
        · exact Or.inl known
        · rcases List.mem_cons.mp member with rfl | later
          · exact absurd named.symm same
          · exact Or.inr ⟨other, later, named⟩

/-- The next page of a reader. -/
def nextPage (limit : Nat) (db : BlobDb) (reader : Reader) : Page :=
  (db.maxSeq reader.vault, db.pathsSince reader.vault reader.position limit)

theorem position_walkOf (page : Page) (reader : Reader) :
    (reader.walkOf page).position = reader.position := by
  unfold walkOf position
  cases reader.walk <;> rfl

/-- A page with which the walk ends. -/
theorem apply_of_stops
    {limit : Nat}
    {page : Page}
    (stops : Paging.Stops seqOf (reader.walkOf page).fence reader.position limit page.2) :
    reader.apply limit page =
      { reader with
        rows := (Paging.taken seqOf (reader.walkOf page).fence page.2).foldl store reader.rows
        cursor := (reader.walkOf page).fence
        walk := none
        awaiting := none } := by
  rw [← reader.position_walkOf page] at stops
  exact if_pos stops

/-- A page with which the walk goes on. -/
theorem apply_of_not_stops
    {limit : Nat}
    {page : Page}
    (continues : ¬ Paging.Stops seqOf (reader.walkOf page).fence reader.position limit page.2) :
    reader.apply limit page =
      { reader with
        rows := (Paging.taken seqOf (reader.walkOf page).fence page.2).foldl store reader.rows
        walk := some
          { fence := (reader.walkOf page).fence
            position := Paging.reached seqOf reader.position
              (Paging.taken seqOf (reader.walkOf page).fence page.2)
            pages := (reader.walkOf page).pages + 1 }
        awaiting := none } := by
  rw [← reader.position_walkOf page] at continues ⊢
  exact if_neg continues

/-- A reader that has received a page waits for no other. -/
theorem awaiting_apply (limit : Nat) (page : Page) (reader : Reader) :
    (reader.apply limit page).awaiting = none := by
  unfold apply
  dsimp only
  split_ifs <;> rfl

/-- The walk a page belongs to has a fence that has been counted. -/
theorem Follows.walkOf
    (follows : reader.Follows db)
    (numbered : db.Numbered)
    (limit : Nat) :
    (reader.walkOf (reader.nextPage limit db)).fence ≤ db.blobSeq ∧
      reader.cursor + (reader.walkOf (reader.nextPage limit db)).pages ≤ reader.position := by
  unfold Reader.walkOf position
  cases current : reader.walk with
  | none => exact ⟨numbered.maxSeq_le reader.vault, by simp⟩
  | some walk =>
      obtain ⟨advanced, -, counted⟩ := follows.walking walk current
      exact ⟨counted, advanced⟩

/-- Up to where it has passed, a reader holds the current rows once it has taken
those of a page. -/
theorem Follows.complete_of_taken
    (follows : reader.Follows db)
    (numbered : db.Numbered)
    {limit : Nat}
    {fence passed : Int}
    (within : passed ≤ fence)
    (reaches : ¬ Paging.Stops seqOf fence reader.position limit
        (reader.nextPage limit db).2 →
      passed ≤ Paging.reached seqOf reader.position
        (Paging.taken seqOf fence (reader.nextPage limit db).2))
    {key : String}
    {row : PathRow}
    (stored : db.blobPathStates.lookup ⟨reader.vault, key⟩ = some row)
    (below : row.seq ≤ passed) :
    ((Paging.taken seqOf fence (reader.nextPage limit db).2).foldl store reader.rows).lookup key =
      some row := by
  rw [← stored]
  refine lookup_foldl_store
    (fun key => db.blobPathStates.lookup ⟨reader.vault, key⟩) ?_ ?_
  · intro entry member
    exact BlobDb.mem_vaultPaths.mp (Paging.mem_page (Paging.mem_of_mem_taken member)).1
  · by_cases older : row.seq ≤ reader.position
    · exact Or.inl ((follows.complete key row stored older).trans stored.symm)
    · refine Or.inr ⟨(key, row), ?_, rfl⟩
      exact Paging.covered (numbered.vaultPaths_distinct reader.vault)
        (BlobDb.mem_vaultPaths.mpr stored) (not_le.mp older) (below.trans within)
        (fun continues => below.trans (reaches continues))

/-- A reader that has read a page holds what it has passed. -/
theorem Follows.page
    (follows : reader.Follows db)
    (numbered : db.Numbered)
    {limit : Nat}
    (positive : 0 < limit) :
    (reader.apply limit (reader.nextPage limit db)).Follows db := by
  obtain ⟨counted, advanced⟩ := follows.walkOf numbered limit
  by_cases stops : Paging.Stops seqOf (reader.walkOf (reader.nextPage limit db)).fence
      reader.position limit (reader.nextPage limit db).2
  · rw [apply_of_stops stops]
    refine ⟨?_, counted, fun _ current => nomatch current⟩
    exact fun key row stored passed =>
      follows.complete_of_taken numbered le_rfl (fun continues => absurd stops continues) stored
        passed
  · obtain ⟨further, before⟩ := Paging.advances positive stops
    rw [apply_of_not_stops stops]
    refine ⟨?_, ?_, ?_⟩
    · exact fun key row stored passed =>
        follows.complete_of_taken numbered before.le (fun _ => le_rfl) stored passed
    · exact before.le.trans counted
    · intro walk current
      obtain rfl := Option.some.inj current
      refine ⟨?_, before, counted⟩
      change reader.cursor + (((reader.walkOf (reader.nextPage limit db)).pages + 1 : Nat) : Int) ≤
        Paging.reached seqOf reader.position _
      have := further
      change reader.position < Paging.reached seqOf reader.position
        (Paging.taken seqOf _ (reader.nextPage limit db).2) at this
      push_cast
      omega

end Reader

/-! ## Runs -/

section Runs

variable {settings : BlobSettings} {quotaBytes : Table String (Option Int)}

/-- Readers follow, and what has been read for one that waits was read after it
has applied its last page. -/
structure BlobServer.Followed (server : BlobServer) : Prop where
  readers : ∀ reader state, server.readers reader = some state → state.Follows server.db
  asked : ∀ reader state request, server.readers reader = some state →
    state.awaiting = some request →
      ∃ task, server.requests[request]? = some task ∧ state.asks task = true
  read : ∀ reader state request, server.readers reader = some state →
    state.awaiting = some request → ∀ entry ∈ server.entriesOf request,
      state.Follows entry.before ∧ entry.before.Precedes server.db

variable {config config' : (blobMachine settings).Config}
variable {label : (blobMachine settings).Label}

/-- The page a reader receives has been found on an earlier database that it has
followed, where its last page has left it. -/
theorem BlobServer.Followed.page
    (followed : config.shared.Followed)
    (reachable : BlobReachable settings quotaBytes config)
    {reader request limit : Nat}
    {state : Reader}
    {page : Page}
    (found : config.shared.readers reader = some state)
    (waits : state.awaiting = some request)
    (answered : config.shared.pageOf request = some (limit, page)) :
    ∃ before : BlobDb, before.Numbered ∧ state.Follows before ∧
      before.Precedes config.shared.db ∧ 0 < limit ∧ page = state.nextPage limit before := by
  obtain ⟨task, made, asks⟩ := followed.asked reader state request found waits
  unfold pageOf at answered
  split at answered
  · rename_i vault sinceSeq limit' rows maxSeq made' outcome
    obtain ⟨rfl, rfl⟩ := Prod.mk.inj (Option.some.inj answered)
    obtain rfl := Option.some.inj (made.symm.trans made')
    simp only [Reader.asks, decide_eq_true_eq] at asks
    obtain ⟨rfl, since, positive, bounded⟩ := asks
    have given : (request, BlobOutcome.response (.ok (.pathStates rows maxSeq))) ∈
        config.shared.answers := by
      obtain ⟨older, newer, answers, -⟩ := List.lookup_eq_some_iff.mp outcome
      simp [answers]
    obtain ⟨entry, own, rfl, rfl⟩ := reachable.listed made given
    obtain ⟨follows, precedes⟩ := followed.read reader state request found waits entry own
    have numbered : entry.before.Numbered :=
      reachable.numbered_before entry (List.mem_of_mem_filter own)
    have whole : pageLimit limit'.toInt = limit'.toInt.toNat := by
      unfold pageLimit
      rw [if_neg (by omega), min_eq_left bounded]
    refine ⟨entry.before, numbered, follows, precedes, by omega, ?_⟩
    rw [Reader.nextPage, since, whole]
  · cases answered

/-- Nothing that readers are concerned with becomes less. -/
theorem BlobServer.Followed.of_records
    {server server' : BlobServer}
    (followed : server.Followed)
    (readers : server'.readers = server.readers)
    (requests : ∀ (request : Nat) (task : BlobTask), server.requests[request]? = some task →
      server'.requests[request]? = some task)
    (changes : server.db.Renumbers server'.db)
    (entries : ∀ request, ∀ entry ∈ server'.entriesOf request,
      entry ∈ server.entriesOf request ∨ entry.before = server.db) :
    server'.Followed where
  readers := by
    intro reader state found
    rw [readers] at found
    exact (followed.readers reader state found).later ((BlobDb.Precedes.refl _).renumbers changes)
  asked := by
    intro reader state request found waits
    rw [readers] at found
    obtain ⟨task, made, asks⟩ := followed.asked reader state request found waits
    exact ⟨task, requests request task made, asks⟩
  read := by
    intro reader state request found waits entry own
    rw [readers] at found
    rcases entries request entry own with older | new
    · obtain ⟨follows, precedes⟩ := followed.read reader state request found waits entry older
      exact ⟨follows, precedes.renumbers changes⟩
    · rw [new]
      exact ⟨followed.readers reader state found,
        (BlobDb.Precedes.refl _).renumbers changes⟩

/-- One reader changes. -/
theorem BlobServer.Followed.setReader
    {server : BlobServer}
    {reader : Nat}
    {state : Reader}
    (followed : server.Followed)
    (follows : state.Follows server.db)
    (asked : ∀ request, state.awaiting = some request →
      (∃ task, server.requests[request]? = some task ∧ state.asks task = true) ∧
        ∀ entry ∈ server.journal, entry.origin ≠ request) :
    (server.setReader reader state).Followed := by
  have cases_ : ∀ other state', (server.setReader reader state).readers other = some state' →
      (other = reader ∧ state' = state) ∨ server.readers other = some state' := by
    intro other state' found
    change Function.update _ _ _ _ = _ at found
    rw [Function.update_apply] at found
    split_ifs at found with same
    · exact Or.inl ⟨same, (Option.some.inj found).symm⟩
    · exact Or.inr found
  refine
    { readers := ?_
      asked := ?_
      read := ?_ }
  · intro other state' found
    rcases cases_ other state' found with ⟨rfl, rfl⟩ | found
    · exact follows
    · exact followed.readers other state' found
  · intro other state' request found waits
    rcases cases_ other state' found with ⟨rfl, rfl⟩ | found
    · exact (asked request waits).1
    · exact followed.asked other state' request found waits
  · intro other state' request found waits entry own
    rcases cases_ other state' found with ⟨rfl, rfl⟩ | found
    · obtain ⟨member, origin⟩ := List.mem_filter.mp own
      exact absurd (of_decide_eq_true origin) ((asked request waits).2 entry member)
    · exact followed.read other state' request found waits entry own

/-- A step keeps the readers following. -/
theorem BlobServer.Followed.step
    (followed : config.shared.Followed)
    (reachable : BlobReachable settings quotaBytes config)
    (stepped : Machine.Steps (blobMachine settings) label config config') :
    config'.shared.Followed := by
  have changes := renumbers_of_step stepped
  cases stepped with
  | @act _ request circumstance call next reply server' current executed =>
      obtain ⟨requests, -, readers, -⟩ := BlobServer.exec_records executed
      refine followed.of_records readers (fun _ _ made => requests ▸ made) changes ?_
      intro other entry own
      obtain ⟨member, origin⟩ := List.mem_filter.mp own
      rcases BlobServer.mem_journal_exec executed member with older | ⟨before, -⟩
      · exact Or.inl (List.mem_filter.mpr ⟨older, origin⟩)
      · exact Or.inr before
  | @environment _ event server' happened =>
      cases event with
      | setQuota vault quotaBytes =>
          simp only [blobMachine, BlobServer.environment] at happened
          split at happened
          · obtain rfl := Option.some.inj happened
            exact followed.of_records rfl (fun _ _ made => made) changes fun _ _ own => Or.inl own
          · cases happened
      | follow reader vault =>
          simp only [blobMachine, BlobServer.environment] at happened
          split at happened
          · cases happened
          · obtain rfl := Option.some.inj happened
            exact followed.setReader (.new reachable.numbered vault)
              fun _ waits => by cases waits
      | ask reader request =>
          simp only [blobMachine, BlobServer.environment, Option.bind_eq_bind,
            Option.bind_eq_some_iff] at happened
          obtain ⟨state, found, task, made, happened⟩ := happened
          split_ifs at happened with idle
          obtain rfl := Option.some.inj happened
          obtain ⟨-, asks, unread⟩ := idle
          have follows := followed.readers reader state found
          refine followed.setReader ⟨follows.complete, follows.behind, follows.walking⟩ ?_
          intro request' waits
          obtain rfl := Option.some.inj waits
          exact ⟨⟨task, made, asks⟩, unread⟩
      | receive reader =>
          simp only [blobMachine, BlobServer.environment, Option.bind_eq_bind,
            Option.bind_eq_some_iff] at happened
          obtain ⟨state, found, request, waits, ⟨limit, page⟩, answered, happened⟩ := happened
          obtain rfl := Option.some.inj happened
          obtain ⟨before, numbered, follows, precedes, positive, rfl⟩ :=
            followed.page reachable found waits answered
          refine followed.setReader ((follows.page numbered positive).later precedes) ?_
          intro request' waits'
          rw [Reader.awaiting_apply] at waits'
          cases waits'
      | giveUp reader =>
          simp only [blobMachine, BlobServer.environment, Option.bind_eq_bind,
            Option.bind_eq_some_iff] at happened
          obtain ⟨state, found, happened⟩ := happened
          obtain rfl := Option.some.inj happened
          have follows := followed.readers reader state found
          exact followed.setReader ⟨follows.complete, follows.behind, follows.walking⟩
            fun _ waits => by cases waits
  | start current started =>
      obtain ⟨-, -, rfl⟩ := start_eq started
      refine followed.of_records rfl ?_ changes fun _ _ own => Or.inl own
      intro request task made
      exact (List.getElem?_append_left (List.getElem?_eq_some_iff.mp made).1).trans made
  | finish current =>
      exact followed.of_records rfl (fun _ _ made => made) changes fun _ _ own => Or.inl own
  | abandon =>
      exact followed.of_records rfl (fun _ _ made => made) changes fun _ _ own => Or.inl own

/-- In every run the readers follow. -/
theorem BlobReachable.followed
    (reachable : BlobReachable settings quotaBytes config) :
    config.shared.Followed :=
  reachable.induction (motive := fun config => config.shared.Followed)
    { readers := fun _ _ found => nomatch found
      asked := fun _ _ _ found => nomatch found
      read := fun _ _ _ found => nomatch found }
    fun reached followed stepped => followed.step reached stepped

/-- The step is that a reader receives a page. -/
def receivesPage (reader : Nat) : (blobMachine settings).Label → Bool
  | .environment (.receive other) => decide (other = reader)
  | _ => false

/-- A reader receives a page, or a step leaves its walk alone. -/
theorem readers_of_step
    {reader : Nat}
    {state : Reader}
    (reachable : BlobReachable settings quotaBytes config)
    (found : config.shared.readers reader = some state)
    (stepped : Machine.Steps (blobMachine settings) label config config') :
    (∃ limit before, receivesPage reader label = true ∧ 0 < limit ∧
        config'.shared.readers reader =
          some (state.apply limit (state.nextPage limit before))) ∨
      receivesPage reader label = false ∧
        ∃ state', config'.shared.readers reader = some state' ∧ state'.walk = state.walk := by
  have set : ∀ (other : Nat) (before after : Reader),
      config.shared.readers other = some before → after.walk = before.walk →
        ∃ state', (config.shared.setReader other after).readers reader = some state' ∧
          state'.walk = state.walk := by
    intro other before after found' same
    by_cases own : reader = other
    · subst own
      obtain rfl := Option.some.inj (found.symm.trans found')
      exact ⟨after, Function.update_self .., same⟩
    · exact ⟨state, (Function.update_of_ne own ..).trans found, rfl⟩
  cases stepped with
  | act current executed =>
      have readers := (BlobServer.exec_records executed).2.2.1
      exact Or.inr ⟨rfl, state, (congrFun readers reader).trans found, rfl⟩
  | @environment _ event server' happened =>
      cases event with
      | setQuota vault quotaBytes =>
          simp only [blobMachine, BlobServer.environment] at happened
          split at happened
          · obtain rfl := Option.some.inj happened
            exact Or.inr ⟨rfl, state, found, rfl⟩
          · cases happened
      | follow other vault =>
          simp only [blobMachine, BlobServer.environment] at happened
          split at happened
          · cases happened
          · rename_i absent
            obtain rfl := Option.some.inj happened
            have different : reader ≠ other := by
              rintro rfl
              exact absurd (absent.symm.trans found) (by simp)
            exact Or.inr ⟨rfl, state, (Function.update_of_ne different ..).trans found, rfl⟩
      | ask other request =>
          simp only [blobMachine, BlobServer.environment, Option.bind_eq_bind,
            Option.bind_eq_some_iff] at happened
          obtain ⟨before, found', task, -, happened⟩ := happened
          split_ifs at happened
          obtain rfl := Option.some.inj happened
          exact Or.inr ⟨rfl, set other before _ found' rfl⟩
      | receive other =>
          simp only [blobMachine, BlobServer.environment, Option.bind_eq_bind,
            Option.bind_eq_some_iff] at happened
          obtain ⟨before, found', request, waits, ⟨limit, page⟩, answered, happened⟩ := happened
          obtain rfl := Option.some.inj happened
          by_cases own : other = reader
          · subst own
            obtain rfl := Option.some.inj (found.symm.trans found')
            obtain ⟨earlier, -, -, -, positive, rfl⟩ :=
              reachable.followed.page reachable found waits answered
            exact Or.inl ⟨limit, earlier, decide_eq_true rfl, positive, Function.update_self ..⟩
          · exact Or.inr ⟨decide_eq_false own, state,
              (Function.update_of_ne (Ne.symm own) ..).trans found, rfl⟩
      | giveUp other =>
          simp only [blobMachine, BlobServer.environment, Option.bind_eq_bind,
            Option.bind_eq_some_iff] at happened
          obtain ⟨before, found', happened⟩ := happened
          obtain rfl := Option.some.inj happened
          exact Or.inr ⟨rfl, set other before _ found' rfl⟩
  | start current started =>
      obtain ⟨-, -, rfl⟩ := start_eq started
      exact Or.inr ⟨rfl, state, found, rfl⟩
  | finish current => exact Or.inr ⟨rfl, state, found, rfl⟩
  | abandon => exact Or.inr ⟨rfl, state, found, rfl⟩

/-- A page ends the walk, or brings it nearer to its fence. -/
theorem Reader.apply_walk
    {state : Reader}
    {walk : Walk}
    {limit : Nat}
    {db : BlobDb}
    (walking : state.walk = some walk)
    (positive : 0 < limit) :
    (state.apply limit (state.nextPage limit db)).walk = none ∨
      ∃ walk', (state.apply limit (state.nextPage limit db)).walk = some walk' ∧
        walk'.fence = walk.fence ∧ walk.position < walk'.position := by
  by_cases stops : Paging.Stops seqOf (state.walkOf (state.nextPage limit db)).fence
      state.position limit (state.nextPage limit db).2
  · rw [Reader.apply_of_stops stops]
    exact Or.inl rfl
  · obtain ⟨further, -⟩ := Paging.advances positive stops
    rw [Reader.apply_of_not_stops stops]
    have here : state.position = walk.position := by simp [Reader.position, walking]
    refine Or.inr ⟨_, rfl, ?_, ?_⟩
    · simp [Reader.walkOf, walking]
    · rw [← here]
      exact further

/-- A walk ends when its reader has read pages enough. -/
theorem walk_ends
    {reader : Nat}
    {state : Reader}
    {walk : Walk}
    {labels : List (blobMachine settings).Label}
    (reachable : BlobReachable settings quotaBytes config)
    (found : config.shared.readers reader = some state)
    (walking : state.walk = some walk)
    (runs : (blobMachine settings).run labels config = some config')
    (enough : walk.fence - walk.position ≤ labels.countP (receivesPage reader)) :
    ∃ first second middle state', labels = first ++ second ∧
      (blobMachine settings).run first config = some middle ∧
      middle.shared.readers reader = some state' ∧ state'.walk = none := by
  induction labels generalizing config state walk with
  | nil =>
      obtain ⟨-, before, -⟩ :=
        (reachable.followed.readers reader state found).walking walk walking
      simp only [List.countP_nil, Nat.cast_zero] at enough
      omega
  | cons label labels inductionHypothesis =>
      simp only [Machine.run, Option.bind_eq_some_iff] at runs
      obtain ⟨next, taken, remaining⟩ := runs
      have stepped := Machine.step_eq_some_iff.mp taken
      have later : ∀ state' walk', next.shared.readers reader = some state' →
          state'.walk = some walk' →
          walk'.fence - walk'.position ≤ labels.countP (receivesPage reader) →
          ∃ first second middle state', label :: labels = first ++ second ∧
            (blobMachine settings).run first config = some middle ∧
            middle.shared.readers reader = some state' ∧ state'.walk = none := by
        intro state' walk' found' walking' enough'
        obtain ⟨first, second, middle, ended, split_, reaches, there, idle⟩ :=
          inductionHypothesis (reachable.step stepped) found' walking' remaining enough'
        refine ⟨label :: first, second, middle, ended, by rw [split_]; rfl, ?_, there, idle⟩
        simp only [Machine.run, taken, Option.bind_some, reaches]
      rcases readers_of_step reachable found stepped with
        ⟨limit, before, receives, positive, found'⟩ | ⟨other, state', found', same⟩
      · rw [List.countP_cons_of_pos receives] at enough
        rcases Reader.apply_walk walking positive with ended | ⟨walk', walking', fence, further⟩
        · refine ⟨[label], labels, next, _, rfl, ?_, found', ended⟩
          simp only [Machine.run, taken, Option.bind_some]
        · refine later _ walk' found' walking' ?_
          push_cast at enough
          omega
      · rw [List.countP_cons_of_neg (by simp [other])] at enough
        exact later state' walk found' (same.trans walking) enough

end Runs

/-! ## Fenced listings -/

/-- What a client can rely on that follows a vault page by page. -/
structure FencedListing
    {settings : BlobSettings}
    (config : (blobMachine settings).Config) : Prop where
  /-- The pages listings are answered with are strictly ascending and not above
  their `max_seq`. -/
  ordered : ∀ request vault sinceSeq limit rows maxSeq,
    config.shared.requests[request]? = some (.listBlobPaths vault sinceSeq limit) →
    (request, BlobOutcome.response (.ok (.pathStates rows maxSeq))) ∈ config.shared.answers →
      rows.Pairwise (fun first second => first.2.seq < second.2.seq) ∧
        ∀ entry ∈ rows, entry.2.seq ≤ maxSeq
  /-- After a walk the client holds every current row up to its fence. -/
  complete : ∀ reader state, config.shared.readers reader = some state → state.walk = none →
    ∀ path row, config.shared.db.blobPathStates.lookup ⟨state.vault, path⟩ = some row →
      row.seq ≤ state.cursor → state.rows.lookup path = some row
  /-- A walk ends when the client has received as many more pages as its fence is
  ahead, whatever happens between them. -/
  ends : ∀ reader state walk, config.shared.readers reader = some state →
    state.walk = some walk →
    ∀ labels config', (blobMachine settings).run labels config = some config' →
      walk.fence - walk.position ≤ labels.countP (receivesPage reader) →
      ∃ first second middle state', labels = first ++ second ∧
        (blobMachine settings).run first config = some middle ∧
        middle.shared.readers reader = some state' ∧ state'.walk = none

/-- Fenced listings lose nothing, however the listings, their answers and
accepted changes interleave. -/
theorem fenced_listing_complete
    {settings : BlobSettings}
    {quotaBytes : Table String (Option Int)}
    {config : (blobMachine settings).Config}
    (reachable : BlobReachable settings quotaBytes config) :
    FencedListing config := by
  refine ⟨?_, ?_, ?_⟩
  · intro request vault sinceSeq limit rows maxSeq made answered
    obtain ⟨entry, own, rfl, rfl⟩ := reachable.listed made answered
    have numbered : entry.before.Numbered :=
      reachable.numbered_before entry (List.mem_of_mem_filter own)
    exact numbered.pathsSince_ascending _ _
  · intro reader state found idle path row stored passed
    refine (reachable.followed.readers reader state found).complete path row stored ?_
    simpa [Reader.position, idle] using passed
  · intro reader state walk found walking labels config' runs enough
    exact walk_ends reachable found walking runs enough

/-- A client asks for a page of one row.  The row is written again before the
answer arrives, and the second walk of the client brings it. -/
def BlobSchedule.followed : BlobSchedule :=
  [.environment (.follow 0 VaultId.v)] ++
    serves 0 (.postBlobPath VaultId.v (.tombstone 1 "a")) 4 ++
    [.start 1 (.listBlobPaths VaultId.v 0 1), .environment (.ask 0 1)] ++
    calls 1 "spare" 1 ++
    serves 2 (.postBlobPath VaultId.v (.tombstone 2 "a")) 4 ++
    [.finish 1, .environment (.receive 0),
      .start 3 (.listBlobPaths VaultId.v 1 1000), .environment (.ask 0 3)] ++
    calls 3 "spare" 1 ++ [.finish 3, .environment (.receive 0)]

theorem BlobSchedule.followed_enabled : BlobSchedule.followed.Enabled := by
  decide +kernel

theorem fenced_listing_complete_followed :
    FencedListing (BlobSchedule.followed.config BlobSchedule.followed_enabled) :=
  fenced_listing_complete (BlobSchedule.reachable BlobSchedule.followed_enabled)

end VaultCrdtServer
