import VaultCrdtServer.Blobs.PathTasks

/-!
# The history of the paths

Every row is the last of the changes accepted for its path, and these form a
chain.  The counter is above every change, and the events of a path do not run
ahead of its row.
-/

namespace VaultCrdtServer

/-- What orders the contents of a path row: the generation, the peer id, and the
hash or the empty string. -/
def PathChange.rank3 (change : PathChange) : Int ×ₗ String ×ₗ String :=
  toLex (change.generation, change.rank)

/-- A change wins exactly if it ranks above the stored one. -/
theorem PathChange.wins_iff {change stored : PathChange} :
    change.wins stored = true ↔ stored.rank3 < change.rank3 := by
  simp [wins, rank3, Prod.Lex.toLex_lt_toLex]

/-- A row that replaces another has a higher rank and a higher seq. -/
def PathRow.Precedes (earlier later : PathRow) : Prop :=
  earlier.toPathChange.rank3 < later.toPathChange.rank3 ∧ earlier.seq < later.seq

theorem PathRow.Precedes.trans
    {first second third : PathRow}
    (earlier : first.Precedes second)
    (later : second.Precedes third) :
    first.Precedes third :=
  ⟨earlier.1.trans later.1, earlier.2.trans later.2⟩

/-- A chain grows by what comes after its last element. -/
theorem pairwise_concat
    {α : Type}
    (relation : α → α → Prop)
    (transitive : ∀ {first second third}, relation first second → relation second third →
      relation first third)
    {chain : List α}
    {next : α}
    (ordered : chain.Pairwise relation)
    (above : ∀ last, chain.getLast? = some last → relation last next) :
    (chain ++ [next]).Pairwise relation := by
  rw [List.pairwise_append]
  refine ⟨ordered, List.pairwise_singleton _ _, ?_⟩
  intro earlier member later last
  rw [List.mem_singleton.mp last]
  rcases List.eq_nil_or_concat chain with rfl | ⟨before, top, rfl⟩
  · cases member
  · have topmost := above top (by simp)
    rw [List.concat_eq_append, List.mem_append, List.mem_singleton] at member
    rcases member with older | rfl
    · rw [List.concat_eq_append, List.pairwise_append] at ordered
      exact transitive (ordered.2.2 earlier older top (List.mem_singleton_self top)) topmost
    · exact topmost

namespace BlobServer

/-- The successive contents of a path's row. -/
def rowsOf (key : PathKey) (server : BlobServer) : List PathRow :=
  (server.accepted.filter fun accepted => decide (accepted.key = key)).map AcceptedPath.row

end BlobServer

/-- What holds of the path states between any two steps. -/
structure PathHistory (server : BlobServer) : Prop where
  seqs : (server.accepted.map fun accepted => accepted.row.seq).Pairwise (· < ·)
  counted : ∀ accepted ∈ server.accepted, accepted.row.seq ≤ server.db.blobSeq
  rows : ∀ key, server.db.blobPathStates.lookup key = (server.rowsOf key).getLast?
  chains : ∀ key, (server.rowsOf key).Pairwise PathRow.Precedes
  events : ∀ key, ((server.eventsOf key).map BlobPathChanged.seq).Pairwise (· < ·)
  announced : ∀ key, ∀ event ∈ server.eventsOf key,
    ∃ row ∈ server.rowsOf key, event.seq = row.seq

namespace PathHistory

variable {settings : BlobSettings} {request : Nat} {server : BlobServer}

/-- Nothing has happened yet. -/
theorem started (quotaBytes : Table String (Option Int)) (disk : Disk FilePath UInt8) :
    PathHistory (.started (.fresh quotaBytes) disk) where
  seqs := List.Pairwise.nil
  counted := by simp [BlobServer.accepted, BlobServer.started]
  rows := fun _ => rfl
  chains := fun _ => List.Pairwise.nil
  events := fun _ => List.Pairwise.nil
  announced := by simp [BlobServer.eventsOf, BlobServer.started]

/-- Rows carry counted seqs. -/
theorem row_le
    (history : PathHistory server)
    {key : PathKey}
    {row : PathRow}
    (member : row ∈ server.rowsOf key) :
    row.seq ≤ server.db.blobSeq := by
  simp only [BlobServer.rowsOf, List.mem_map, List.mem_filter] at member
  obtain ⟨accepted, ⟨made, -⟩, rfl⟩ := member
  exact history.counted accepted made

/-- The stored row is one of the path's contents. -/
theorem mem_rowsOf
    (history : PathHistory server)
    {key : PathKey}
    {row : PathRow}
    (stored : server.db.blobPathStates.lookup key = some row) :
    row ∈ server.rowsOf key :=
  List.mem_of_getLast? ((history.rows key).symm.trans stored)

/-- Events have been counted. -/
theorem event_le
    (history : PathHistory server)
    (key : PathKey)
    (event : BlobPathChanged)
    (member : event ∈ server.eventsOf key) :
    event.seq ≤ server.db.blobSeq := by
  obtain ⟨row, written, same⟩ := history.announced key event member
  rw [same]
  exact history.row_le written

/-- What is neither a change of a path nor an event leaves the history alone. -/
theorem of_unchanged
    {server' : BlobServer}
    (history : PathHistory server)
    (accepted : server'.accepted = server.accepted)
    (rows : server'.db.blobPathStates = server.db.blobPathStates)
    (counter : server'.db.blobSeq = server.db.blobSeq)
    (channel : server'.channel = server.channel) :
    PathHistory server' := by
  have contents : ∀ key, server'.rowsOf key = server.rowsOf key := by
    intro key
    rw [BlobServer.rowsOf, accepted]
    rfl
  have events : ∀ key, server'.eventsOf key = server.eventsOf key := by
    intro key
    rw [BlobServer.eventsOf, channel]
    rfl
  refine
    { seqs := ?_
      counted := ?_
      rows := ?_
      chains := ?_
      events := ?_
      announced := ?_ }
  · rw [accepted]
    exact history.seqs
  · rw [accepted, counter]
    exact history.counted
  · intro key
    rw [rows, contents]
    exact history.rows key
  · intro key
    rw [contents]
    exact history.chains key
  · intro key
    rw [events]
    exact history.events key
  · intro key
    rw [events, contents]
    exact history.announced key

/-- A database call that is made as the terms require keeps the history. -/
theorem commit
    (history : PathHistory server)
    {call : BlobDbCall}
    {reply : call.Reply}
    {now : Time}
    {db : BlobDb}
    (pre : pathPre request (.db call) server)
    (effect : BlobDbCall.Effect now call reply server.db db) :
    PathHistory (server.commit request now call reply db) := by
  have changes := effect.accepted request
  have grown : (server.commit request now call reply db).accepted =
      server.accepted ++ (call.accepted request now reply).toList :=
    BlobServer.accepted_commit call reply now db
  cases made : call.accepted request now reply with
  | none =>
      rw [made] at changes grown
      exact history.of_unchanged (by simpa using grown) changes.1 changes.2 rfl
  | some accepted =>
      rw [made] at changes grown
      obtain ⟨seq, counter, table⟩ := changes
      obtain ⟨key, change, rfl, -, rfl, rfl⟩ := BlobDbCall.accepted_eq_some made
      obtain ⟨-, -, wins, -⟩ := pre
      simp only [Option.toList_some] at grown
      have own : (server.commit request now _ reply db).rowsOf accepted.key =
          server.rowsOf accepted.key ++ [accepted.row] := by
        simp [BlobServer.rowsOf, grown]
      have others : ∀ other, other ≠ accepted.key →
          (server.commit request now _ reply db).rowsOf other = server.rowsOf other := by
        intro other different
        simp [BlobServer.rowsOf, grown, Ne.symm different]
      have last : ∀ row, (server.rowsOf accepted.key).getLast? = some row →
          row.Precedes accepted.row := by
        intro row topmost
        have stored := (history.rows accepted.key).trans topmost
        have below := history.row_le (history.mem_rowsOf stored)
        exact ⟨PathChange.wins_iff.mp (wins row stored), by omega⟩
      refine
        { seqs := ?_
          counted := ?_
          rows := ?_
          chains := ?_
          events := history.events
          announced := ?_ }
      · rw [grown, List.map_append, List.pairwise_append]
        refine ⟨history.seqs, List.pairwise_singleton _ _, ?_⟩
        intro earlier member later newest
        obtain ⟨change, made, rfl⟩ := List.mem_map.mp member
        rw [List.map_cons, List.map_nil, List.mem_singleton] at newest
        have below := history.counted change made
        omega
      · intro change member
        rw [grown, List.mem_append, List.mem_singleton] at member
        change change.row.seq ≤ db.blobSeq
        rcases member with older | rfl
        · have below := history.counted change older
          omega
        · omega
      · intro other
        change db.blobPathStates.lookup other = _
        rw [table, Table.lookup_insert_eq_ite]
        split_ifs with same
        · rw [same, own, List.getLast?_concat]
        · rw [others other same]
          exact history.rows other
      · intro other
        by_cases same : other = accepted.key
        · rw [same, own]
          exact pairwise_concat PathRow.Precedes PathRow.Precedes.trans (history.chains _) last
        · rw [others other same]
          exact history.chains other
      · intro other event sent
        obtain ⟨row, written, seqs⟩ := history.announced other event sent
        refine ⟨row, ?_, seqs⟩
        by_cases same : other = accepted.key
        · rw [same] at written ⊢
          rw [own]
          exact List.mem_append_left _ written
        · rw [others other same]
          exact written

/-- An event that is sent as the terms require keeps the history. -/
theorem publish
    (history : PathHistory server)
    {event : BlobPathChanged}
    (pre : pathPre request (.publish event) server) :
    PathHistory { server with channel := server.channel ++ [(request, event)] } := by
  obtain ⟨-, row, stored, seq, above⟩ := pre
  have own : BlobServer.eventsOf event.path
      { server with channel := server.channel ++ [(request, event)] } =
        server.eventsOf event.path ++ [event] := by
    simp [BlobServer.eventsOf]
  have others : ∀ key, key ≠ event.path → BlobServer.eventsOf key
      { server with channel := server.channel ++ [(request, event)] } =
        server.eventsOf key := by
    intro key different
    simp [BlobServer.eventsOf, Ne.symm different]
  refine
    { seqs := history.seqs
      counted := history.counted
      rows := history.rows
      chains := history.chains
      events := ?_
      announced := ?_ }
  · intro key
    by_cases same : key = event.path
    · rw [same, own, List.map_append, List.pairwise_append]
      refine ⟨history.events event.path, List.pairwise_singleton _ _, ?_⟩
      intro earlier member later newest
      obtain ⟨sent, sent', rfl⟩ := List.mem_map.mp member
      rw [List.map_cons, List.map_nil, List.mem_singleton] at newest
      rw [newest]
      exact above sent sent'
    · rw [others key same]
      exact history.events key
  · intro key sent member
    by_cases same : key = event.path
    · rw [same, own, List.mem_append, List.mem_singleton] at member
      rw [same]
      rcases member with older | rfl
      · exact history.announced event.path sent older
      · exact ⟨row, history.mem_rowsOf stored, seq.symm⟩
    · rw [others key same] at member
      exact history.announced key sent member

end PathHistory

end VaultCrdtServer
