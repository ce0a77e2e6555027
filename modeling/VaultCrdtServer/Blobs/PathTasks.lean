import VaultCrdtServer.Blobs.Paths

/-!
# What the requests do to paths

`post_blob_path` keeps to the terms of `Paths` and settles as it should.  The
other handlers neither change nor announce a path.
-/

namespace VaultCrdtServer

open Interleaving

namespace BlobServer

variable {request : Nat} {server : BlobServer}

theorem readsOf_commit
    (call : BlobDbCall)
    (reply : call.Reply)
    (now : Time)
    (db : BlobDb) :
    (server.commit request now call reply db).readsOf request =
      server.readsOf request ++ (call.pathRead reply).toList := by
  unfold readsOf
  rw [entriesOf_commit_self, List.filterMap_append]
  cases result : call.pathRead reply <;> simp [result]

theorem acceptedBy_commit
    (call : BlobDbCall)
    (reply : call.Reply)
    (now : Time)
    (db : BlobDb) :
    (server.commit request now call reply db).acceptedBy request =
      server.acceptedBy request ++ (call.accepted request now reply).toList := by
  rw [acceptedBy_eq, acceptedBy_eq, entriesOf_commit_self, List.filterMap_append]
  cases result : call.accepted request now reply <;> simp [BlobEntry.accepted, result]

end BlobServer

section Tasks

variable {settings : BlobSettings} {request : Nat} {task : BlobTask}
variable {key : PathKey} {change : PathChange} {stored : Option PathRow}
variable {server : BlobServer}

/-- How a POST to a path ends. -/
def PathEnds
    (request : Nat)
    (key : PathKey)
    (change : Option PathChange)
    (result : Except ServerError Response)
    (server : BlobServer) : Prop :=
  PathSettled request key change result (server.readsOf request) (server.acceptedBy request)

theorem Deciding.refused
    (deciding : Deciding request task key stored server)
    {result : Except ServerError Response}
    (unaccepted : ∀ seq, result ≠ .ok (.pathAccepted seq)) :
    PathEnds request key (some change) result server := by
  unfold PathEnds
  rw [deciding.clean]
  exact .refused unaccepted

/-- A call that neither reads nor changes paths leaves the decision open. -/
theorem Deciding.committed
    (deciding : Deciding request task key stored server)
    {call : BlobDbCall}
    {reply : call.Reply}
    {server' : BlobServer}
    (committed : Committed settings request call reply server server')
    (unread : call.pathRead reply = none)
    (unchanged : ∀ now, call.accepted request now reply = none) :
    Deciding request task key stored server' := by
  obtain ⟨now, uuid, db, executed, -, rfl⟩ := committed.exec
  have effect := (BlobDbCall.exec_effect executed).accepted request
  rw [unchanged now] at effect
  refine
    { task := deciding.task
      lock := deciding.lock
      row := ?_
      reads := ?_
      clean := ?_ }
  · exact (congrArg (fun table => table.lookup key) effect.1).trans deciding.row
  · rw [BlobServer.readsOf_commit, unread, deciding.reads]
    rfl
  · rw [BlobServer.acceptedBy_commit, unchanged now, deciding.clean]
    rfl

/-- A file operation leaves the decision open. -/
theorem Deciding.operated
    (deciding : Deciding request task key stored server)
    {call : FileCall}
    {circumstance : BlobCircumstance}
    {reply : Except IoError call.Reply}
    {server' : BlobServer}
    (operated : server.operate call circumstance = (reply, server')) :
    Deciding request task key stored server' := by
  unfold BlobServer.operate at operated
  split at operated
  · obtain ⟨-, rfl⟩ := Prod.mk.inj operated
    exact ⟨deciding.task, deciding.lock, deciding.row, deciding.reads, deciding.clean⟩
  · obtain ⟨-, rfl⟩ := Prod.mk.inj operated
    exact ⟨deciding.task, deciding.lock, deciding.row, deciding.reads, deciding.clean⟩

/-- The change may be stored: it does not repeat what is stored, and wins. -/
def PathChange.Supersedes (change : PathChange) (stored : Option PathRow) : Prop :=
  ∀ current, stored = some current →
    change.retries current.toPathChange = false ∧ change.wins current.toPathChange = true

/-- The row has been written and the event is still to be sent. -/
structure Announcing
    (request : Nat)
    (key : PathKey)
    (stored : Option PathRow)
    (row : PathRow)
    (server : BlobServer) : Prop where
  lock : server.LocksPath request key
  written : server.db.blobPathStates.lookup key = some row
  reads : server.readsOf request = [(key, stored)]
  accepted : server.acceptedBy request = [⟨request, key, row⟩]
  events : ∀ event ∈ server.eventsOf key, event.seq < row.seq

theorem Announcing.stable {row : PathRow} :
    (pathTerms request).Stable (Announcing request key stored row) :=
  fun _ _ announcing tolerated =>
    { lock := (tolerated.locks _).mpr announcing.lock
      written := (tolerated.rows key announcing.lock).trans announcing.written
      reads := tolerated.reads.trans announcing.reads
      accepted := tolerated.acceptedBy.trans announcing.accepted
      events := fun event member =>
        announcing.events event (tolerated.events key announcing.lock ▸ member) }

/-- The change may be published. -/
theorem PathChange.Publishable.stable :
    (pathTerms request).Stable fun server => change.Publishable key server.db := by
  intro server server' publishable tolerated live
  obtain ⟨hash, size, cap, named, sized, capped, nonneg, within, present⟩ := publishable live
  obtain ⟨size', found⟩ := Option.isSome_iff_exists.mp present
  exact ⟨hash, size, cap, named, sized, capped, nonneg, within,
    Option.isSome_iff_exists.mpr ⟨size', tolerated.blobs _ size' found⟩⟩

/-- The transaction and the broadcast. -/
theorem acceptPath_meets
    (deciding : Deciding request task key stored server)
    (supersedes : change.Supersedes stored)
    (publishable : change.Publishable key server.db) :
    (acceptPath key change).run.Meets (blobContract settings request (pathTerms request))
      (PathEnds request key (some change)) server := by
  refine blob_meets_db (Deciding.stable.and PathChange.Publishable.stable)
    ⟨deciding, publishable⟩ ?_ ?_ ?_
  · rintro server ⟨deciding, publishable⟩
    refine ⟨deciding.lock, deciding.clean, ?_, publishable⟩
    intro row found
    exact (supersedes row (deciding.row.symm.trans found)).2
  · rintro server error ⟨deciding, -⟩
    exact deciding.refused (by simp)
  · rintro before seq server' ⟨deciding, -⟩ facts committed
    obtain ⟨now, uuid, db, executed, -, rfl⟩ := committed.exec
    obtain ⟨-, rfl, rfl⟩ := BlobDb.upsertPath_eq_ok_iff.mp executed
    have announcing : Announcing request key stored
        (change.row now (before.db.blobSeq + 1))
        (before.commit request now (.upsertPath key change) (before.db.blobSeq + 1)
          { before.db with
            blobSeq := before.db.blobSeq + 1
            blobPathStates := before.db.blobPathStates.insert key
              (change.row now (before.db.blobSeq + 1)) }) :=
      { lock := deciding.lock
        written := AList.lookup_insert _
        reads := by
          rw [BlobServer.readsOf_commit, deciding.reads]
          rfl
        accepted := by
          rw [BlobServer.acceptedBy_commit, deciding.clean]
          rfl
        events := fun event member => Int.lt_add_one_of_le (facts key event member) }
    refine blob_meets_attempt Announcing.stable announcing ?_ ?_
    · intro server announcing
      exact ⟨announcing.lock, _, announcing.written, rfl, announcing.events⟩
    · rintro server circumstance reply server' announcing - executed
      simp only [BlobServer.exec, Option.some.injEq, Prod.mk.injEq] at executed
      obtain ⟨-, rfl⟩ := executed
      intro later tolerated
      unfold PathEnds
      rw [tolerated.reads, tolerated.acceptedBy]
      change PathSettled request key (some change) _ (server.readsOf request)
        (server.acceptedBy request)
      rw [announcing.reads, announcing.accepted]
      exact (PathSettled.accepted rfl supersedes rfl :
        PathSettled request key (some change)
          (.ok (.pathAccepted (change.row now (before.db.blobSeq + 1)).seq))
          [(key, stored)] [⟨request, key, change.row now (before.db.blobSeq + 1)⟩])

/-- The presence check.  Where it lets the change pass, the blob is stored. -/
theorem missingBlob_meets
    {continuation : Option Response → BlobHandler Response}
    (deciding : Deciding request task key stored server)
    (present : ∀ server, Deciding request task key stored server →
      (∀ hash, change.contentHash = some hash →
        (server.db.blobs.lookup ⟨key.vault, hash⟩).isSome = true) →
      (continuation none).run.Meets (blobContract settings request (pathTerms request))
        (PathEnds request key (some change)) server)
    (missing : ∀ server, Deciding request task key stored server →
      (continuation (some .blobNotUploaded)).run.Meets
        (blobContract settings request (pathTerms request))
        (PathEnds request key (some change)) server) :
    (missingBlob key.vault change >>= continuation).run.Meets
      (blobContract settings request (pathTerms request))
      (PathEnds request key (some change)) server := by
  unfold missingBlob
  cases named : change.contentHash with
  | none => exact present server deciding (by simp [named])
  | some hash =>
      rw [bind_assoc]
      refine blob_meets_db Deciding.stable deciding (fun _ _ => trivial) ?_ ?_
      · exact fun server error deciding => deciding.refused (by simp)
      · intro server found server' deciding _ committed
        have deciding' := deciding.committed committed rfl fun _ => rfl
        obtain ⟨now, uuid, db, executed, -, rfl⟩ := committed.exec
        simp only [BlobDbCall.exec, Except.ok.injEq, Prod.mk.injEq] at executed
        obtain ⟨there, rfl⟩ := executed
        cases found with
        | false => exact missing _ deciding'
        | true =>
            refine present _ deciding' ?_
            intro other named'
            obtain rfl := Option.some.inj (named.symm.trans named')
            exact there

/-- The SVG check. -/
theorem refusedSvg_meets
    {libraries : BlobLibraries}
    {continuation : Option Response → BlobHandler Response}
    {assertion : BlobServer → Prop}
    (stable : (pathTerms request).Stable assertion)
    (operates : ∀ {server call circumstance reply server'}, assertion server →
      server.operate call circumstance = (reply, server') → assertion server')
    (open_ : ∀ server, assertion server → ∃ task stored,
      Deciding request task key stored server)
    (holds : assertion server)
    (continues : ∀ server response, assertion server →
      (∀ refusal, response = some refusal → ∀ seq, refusal ≠ .pathAccepted seq) →
      (continuation response).run.Meets (blobContract settings request (pathTerms request))
        (PathEnds request key (some change)) server) :
    (refusedSvg libraries key change >>= continuation).run.Meets
      (blobContract settings request (pathTerms request))
      (PathEnds request key (some change)) server := by
  unfold refusedSvg
  cases named : change.contentHash with
  | none => exact continues server none holds (by simp)
  | some hash =>
      simp only
      split
      · rw [bind_assoc]
        refine blob_meets_attempt stable holds (fun _ _ => trivial) ?_
        intro server circumstance reply server' holds _ executed
        simp only [BlobServer.exec, Option.some.injEq] at executed
        have holds' := operates holds executed
        cases reply with
        | ok bytes =>
            refine continues server' _ holds' ?_
            intro refusal refused seq
            simp only [Option.map_eq_some_iff] at refused
            obtain ⟨kind, -, rfl⟩ := refused
            simp
        | error error =>
            cases error with
            | notFound =>
                refine continues server' _ holds' ?_
                intro refusal refused seq
                simp only [Option.some.injEq] at refused
                simp [← refused, Response.blobNotUploaded]
            | other reason =>
                refine blob_meets_throw stable holds' ?_
                intro server holds
                obtain ⟨task, stored, deciding⟩ := open_ server holds
                exact deciding.refused (by simp)
      · exact continues server none holds (by simp)

/-- A live change names a hash, with a size within the path's cap. -/
def PathChange.Checked (change : PathChange) (key : String) : Prop :=
  change.state = .live →
    ∃ hash size cap, change.contentHash = some hash ∧ change.size = some size ∧
      capForKey key = some cap ∧ 0 ≤ size ∧ size ≤ cap

/-- A size that has been checked is within the cap of a key that has one. -/
theorem checkSize_eq_ok
    {pathKey : String}
    {cap : Nat}
    {claimed : Int64}
    (checked : checkSize pathKey (some claimed.toInt) = .ok ())
    (capped : capForKey pathKey = some cap) :
    0 ≤ claimed.toInt ∧ claimed.toInt ≤ cap := by
  simp only [checkSize, capped] at checked
  split_ifs at checked with negative above
  have small : claimed.toInt ≤ i64Max := Int.le_of_lt_add_one claimed.toInt_lt
  have exact := asU64_of_nonneg (Int.not_lt.mp negative) small
  omega

/-- A request that passes the checks has a valid path key. -/
theorem BlobPathBody.validateBlobKey_of_check
    {body : BlobPathBody}
    (checked : body.check = .ok change) :
    validateBlobKey body.pathKey = true := by
  unfold BlobPathBody.check at checked
  split at checked
  · cases checked
  · split_ifs at checked with invalid
    by_contra refused
    exact invalid (by simp [refused])

/-- What a request has been checked for. -/
theorem BlobPathBody.check_eq_ok
    {body : BlobPathBody}
    (checked : body.check = .ok change) :
    change.Checked body.pathKey := by
  intro live
  have key := BlobPathBody.validateBlobKey_of_check checked
  unfold BlobPathBody.check at checked
  split at checked
  · cases checked
  · rename_i state parsed
    split_ifs at checked with invalid incomplete
    split at checked
    · cases checked
    · rename_i contentHash hashed
      split at checked
      · cases checked
      · rename_i sized
        cases checked
        have named : ∃ hash, contentHash = some hash := by
          cases hash : body.contentHash with
          | none => exact absurd ⟨live, Or.inl hash⟩ incomplete
          | some text =>
              simp only [hash, checkHash] at hashed
              split_ifs at hashed
              cases hashed
              exact ⟨_, rfl⟩
        obtain ⟨hash, rfl⟩ := named
        cases claimed : body.size with
        | none => exact absurd ⟨live, Or.inr claimed⟩ incomplete
        | some size =>
            obtain ⟨cap, capped⟩ := Option.isSome_iff_exists.mp (capForKey_isSome key)
            rw [claimed] at sized
            obtain ⟨nonneg, within⟩ := checkSize_eq_ok sized capped
            exact ⟨hash, size.toInt, cap, rfl, by simp, capped, nonneg, within⟩

/-- A request is never accepted by the checks. -/
theorem BlobPathBody.check_eq_error
    {body : BlobPathBody}
    {response : Response}
    (refused : body.check = .error response)
    (seq : Int) :
    response ≠ .pathAccepted seq := by
  unfold BlobPathBody.check checkHash checkSize at refused
  rintro rfl
  split at refused
  · cases refused
  · split_ifs at refused
    · cases refused
    · cases refused
    · grind [Response.invalidBlobPath]

/-- What is done with a change that supersedes the stored row. -/
theorem takePath_meets
    {libraries : BlobLibraries}
    (deciding : Deciding request task key stored server)
    (supersedes : change.Supersedes stored)
    (checked : change.Checked key.key) :
    (takePath libraries key change).run.Meets (blobContract settings request (pathTerms request))
      (PathEnds request key (some change)) server := by
  refine missingBlob_meets deciding ?_ ?_
  · intro server deciding present
    have publishable : change.Publishable key server.db := by
      intro live
      obtain ⟨hash, size, cap, named, sized, capped, nonneg, within⟩ := checked live
      exact ⟨hash, size, cap, named, sized, capped, nonneg, within, present hash named⟩
    refine refusedSvg_meets (Deciding.stable.and PathChange.Publishable.stable) ?_ ?_
      ⟨deciding, publishable⟩ ?_
    · rintro server call circumstance reply server' ⟨deciding, publishable⟩ operated
      refine ⟨deciding.operated operated, ?_⟩
      rw [BlobServer.operate_db operated]
      exact publishable
    · exact fun server holds => ⟨_, _, holds.1⟩
    · rintro server response ⟨deciding, publishable⟩ refuses
      cases response with
      | none => exact acceptPath_meets deciding supersedes publishable
      | some refusal =>
          refine blob_meets_pure Deciding.stable deciding ?_
          intro server deciding
          refine deciding.refused ?_
          intro seq accepted
          exact refuses refusal rfl seq (Except.ok.inj accepted)
  · intro server deciding
    refine blob_meets_pure Deciding.stable deciding ?_
    exact fun server deciding => deciding.refused (by simp [Response.blobNotUploaded])

/-- The request holds the lock and has not looked at the row yet. -/
structure Holding
    (request : Nat)
    (task : BlobTask)
    (key : PathKey)
    (server : BlobServer) : Prop extends Fresh request task server where
  lock : server.LocksPath request key

theorem Holding.stable : (pathTerms request).Stable (Holding request task key) :=
  fun server server' holding tolerated =>
    { toFresh := Fresh.stable server server' holding.toFresh tolerated
      lock := (tolerated.locks _).mpr holding.lock }

/-- A request that has changed nothing and is not answered with an acceptance. -/
theorem Fresh.refused
    (fresh : Fresh request task server)
    {submitted : Option PathChange}
    {result : Except ServerError Response}
    (unaccepted : ∀ seq, result ≠ .ok (.pathAccepted seq)) :
    PathEnds request key submitted result server := by
  unfold PathEnds
  rw [fresh.clean]
  exact .refused unaccepted

/-- What is done under the lock. -/
theorem decidePath_meets
    {libraries : BlobLibraries}
    (holding : Holding request task key server)
    (checked : change.Checked key.key) :
    (decidePath libraries key change).run.Meets
      (blobContract settings request (pathTerms request))
      (PathEnds request key (some change)) server := by
  refine blob_meets_db Holding.stable holding (fun _ _ => trivial) ?_ ?_
  · exact fun server error holding => holding.refused (by simp)
  · intro server stored server' holding _ committed
    have deciding : Deciding request task key stored server' := by
      obtain ⟨now, uuid, db, executed, -, rfl⟩ := committed.exec
      simp only [BlobDbCall.exec, Except.ok.injEq, Prod.mk.injEq] at executed
      obtain ⟨found, rfl⟩ := executed
      exact
        { task := holding.task
          lock := holding.lock
          row := found
          reads := by
            rw [BlobServer.readsOf_commit, holding.reads]
            rfl
          clean := by
            rw [BlobServer.acceptedBy_commit, holding.clean]
            rfl }
    cases stored with
    | none => exact takePath_meets deciding (by simp [PathChange.Supersedes]) checked
    | some current =>
        cases retries : change.retries current.toPathChange with
        | true =>
            simp only [retries, if_true]
            refine blob_meets_pure Deciding.stable deciding ?_
            intro server deciding
            unfold PathEnds
            rw [deciding.reads, deciding.clean]
            exact .retried rfl retries
        | false =>
            cases wins : change.wins current.toPathChange with
            | true =>
                simp only [retries, wins, if_true]
                refine takePath_meets deciding ?_ checked
                intro other same
                obtain rfl := Option.some.inj same
                exact ⟨retries, wins⟩
            | false =>
                simp only [retries, wins]
                refine blob_meets_pure Deciding.stable deciding ?_
                exact fun server deciding => deciding.refused (by simp)

/-- `post_blob_path` settles. -/
theorem postBlobPath_meets
    {libraries : BlobLibraries}
    {vault : VaultId}
    {body : BlobPathBody}
    (fresh : Fresh request task server) :
    (postBlobPath libraries vault body).run.Meets
      (blobContract settings request (pathTerms request))
      (PathEnds request ⟨vault, body.pathKey⟩ body.check.toOption) server := by
  unfold postBlobPath
  cases checked : body.check with
  | error response =>
      refine blob_meets_pure Fresh.stable fresh ?_
      intro server fresh
      refine fresh.refused ?_
      intro seq accepted
      exact BlobPathBody.check_eq_error checked seq (Except.ok.inj accepted)
  | ok change =>
      refine blob_meets_attempt Fresh.stable fresh (fun _ _ => trivial) ?_
      intro server circumstance reply server' fresh _ executed
      have holding : Holding request task ⟨vault, body.pathKey⟩ server' := by
        simp only [BlobServer.exec] at executed
        split at executed
        · simp only [Option.some.injEq, Prod.mk.injEq, true_and] at executed
          subst executed
          exact
            { task := fresh.task
              reads := fresh.reads
              clean := fresh.clean
              lock := Function.update_self .. }
        · cases executed
      exact decidePath_meets holding (BlobPathBody.check_eq_ok checked)

end Tasks

end VaultCrdtServer
