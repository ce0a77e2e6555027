import VaultCrdtServer.Blobs.Convergence

/-!
# Accepted path states

A change that is accepted has been stored, except where it was taken for one that
had been stored before.
-/

namespace VaultCrdtServer

open Interleaving

/-- The row has what the request submits. -/
structure PathRow.Holds (row : PathRow) (body : BlobPathBody) : Prop where
  displayPath : row.displayPath = body.displayPath
  generation : row.generation = body.generation.toInt
  state : PathState.parse body.state = some row.state
  contentHash : row.contentHash.map Subtype.val = body.contentHash
  size : row.size = body.size.map Int64.toInt
  peerId : row.peerId = body.peerId

/-- If a request is accepted, the row is what it submits, and has the seq of the
answer. -/
def AcceptedMeansStored
    (settings : BlobSettings)
    (now : Time)
    (uuid : String)
    (vault : VaultId)
    (body : BlobPathBody)
    (store : BlobStore) : Prop :=
  ∀ seq store',
    (postBlobPath settings.toBlobLibraries vault body).alone settings now uuid store =
      (.ok (.pathAccepted seq), store') →
    ∃ row, store'.db.blobPathStates.lookup ⟨vault, body.pathKey⟩ = some row ∧
      row.Holds body ∧ row.seq = seq

/-- The request repeats the stored row in its generation, content hash and state
only if it repeats it altogether. -/
def RepeatsWhole (vault : VaultId) (body : BlobPathBody) (store : BlobStore) : Prop :=
  ∀ change row, body.check = .ok change →
    store.db.blobPathStates.lookup ⟨vault, body.pathKey⟩ = some row →
    change.retries row.toPathChange = true →
    row.displayPath = body.displayPath ∧ row.size = body.size.map Int64.toInt ∧
      row.peerId = body.peerId

/-- A change that has passed the checks is what the request submits. -/
theorem BlobPathBody.check_submits
    {body : BlobPathBody}
    {change : PathChange}
    (checked : body.check = .ok change) :
    change.displayPath = body.displayPath ∧ change.generation = body.generation.toInt ∧
      PathState.parse body.state = some change.state ∧
      change.contentHash.map Subtype.val = body.contentHash ∧
      change.size = body.size.map Int64.toInt ∧ change.peerId = body.peerId := by
  unfold BlobPathBody.check at checked
  split at checked
  · cases checked
  · rename_i state parsed
    split_ifs at checked
    split at checked
    · cases checked
    · rename_i contentHash hashed
      split at checked
      · cases checked
      · cases checked
        refine ⟨rfl, rfl, parsed, ?_, rfl, rfl⟩
        cases named : body.contentHash with
        | none =>
            rw [named] at hashed
            cases hashed
            rfl
        | some text =>
            rw [named] at hashed
            simp only [checkHash] at hashed
            split_ifs at hashed
            cases hashed
            rfl

section Alone

variable {settings : BlobSettings} {now : Time} {uuid : String} {vault : VaultId}
  {key : PathKey} {change : PathChange} {store : BlobStore}

/-- The presence check accepts nothing and changes nothing. -/
theorem missingBlob_alone_cases :
    ∃ answer, (missingBlob vault change).alone settings now uuid store = (.ok answer, store) ∧
      ∀ seq, answer ≠ some (.pathAccepted seq) := by
  unfold missingBlob
  cases change.contentHash with
  | none => exact ⟨none, rfl, nofun⟩
  | some hash =>
      have read : BlobDbCall.exec settings.defaultQuotaBytes now uuid
          (.blobExists ⟨vault, hash⟩) store.db =
            .ok ((store.db.blobs.lookup ⟨vault, hash⟩).isSome, store.db) := rfl
      rw [blobAlone_bind, blobAlone_db_of_ok _ _ _ read]
      cases (store.db.blobs.lookup ⟨vault, hash⟩).isSome with
      | true => exact ⟨none, rfl, nofun⟩
      | false => exact ⟨some .blobNotUploaded, rfl, fun seq => by simp [Response.blobNotUploaded]⟩

theorem refusedSvg_alone_cases (libraries : BlobLibraries) :
    (∃ error, (refusedSvg libraries key change).alone settings now uuid store =
        (.error error, store)) ∨
      ∃ answer, (refusedSvg libraries key change).alone settings now uuid store =
        (.ok answer, store) ∧ ∀ seq, answer ≠ some (.pathAccepted seq) := by
  unfold refusedSvg
  cases change.contentHash with
  | none => exact .inr ⟨none, rfl, nofun⟩
  | some hash =>
      dsimp only
      split_ifs
      · rw [blobAlone_bind, blobAlone_attempt]
        have unread : (BlobServer.fileEffect store.disk
            (.read (blobFilePath key.vault hash))).2 = store.disk := by
          simp only [BlobServer.fileEffect]
          split <;> rfl
        simp only [serveBlobAlone, unread]
        cases (BlobServer.fileEffect store.disk (.read (blobFilePath key.vault hash))).1 with
        | error reason =>
            cases reason with
            | notFound =>
                exact .inr ⟨some .blobNotUploaded, rfl,
                  fun seq => by simp [Response.blobNotUploaded]⟩
            | other => exact .inl ⟨_, rfl⟩
        | ok bytes =>
            refine .inr ⟨_, rfl, ?_⟩
            intro seq
            cases libraries.svgFixpointError bytes <;> simp
      · exact .inr ⟨none, rfl, nofun⟩

theorem acceptPath_alone_accepted
    {seq : Int}
    {store' : BlobStore}
    (accepted : (acceptPath key change).alone settings now uuid store =
      (.ok (.pathAccepted seq), store')) :
    store'.db.blobPathStates.lookup key = some (change.row now seq) := by
  unfold acceptPath at accepted
  cases executed : BlobDbCall.exec settings.defaultQuotaBytes now uuid (.upsertPath key change)
      store.db with
  | error reason =>
      have fails : (BlobHandler.db (.upsertPath key change)).alone settings now uuid store =
          (.error reason, store) := by
        change serveBlobAlone settings now uuid (.db (.upsertPath key change)) store = _
        simp only [serveBlobAlone, executed]
      rw [blobAlone_bind, fails] at accepted
      cases accepted
  | ok result =>
      obtain ⟨reply, db⟩ := result
      obtain ⟨-, rfl, rfl⟩ := BlobDb.upsertPath_eq_ok_iff.mp executed
      rw [blobAlone_bind, blobAlone_db_of_ok _ _ _ executed] at accepted
      cases accepted
      exact AList.lookup_insert ..

/-- What is taken and accepted is stored. -/
theorem takePath_alone_accepted
    {libraries : BlobLibraries}
    {seq : Int}
    {store' : BlobStore}
    (accepted : (takePath libraries key change).alone settings now uuid store =
      (.ok (.pathAccepted seq), store')) :
    store'.db.blobPathStates.lookup key = some (change.row now seq) := by
  unfold takePath at accepted
  obtain ⟨missing, checked, refuses⟩ :=
    @missingBlob_alone_cases settings now uuid key.vault change store
  rw [blobAlone_bind, checked] at accepted
  cases missing with
  | some response =>
      cases accepted
      exact absurd rfl (refuses seq)
  | none =>
      dsimp only at accepted
      rw [blobAlone_bind] at accepted
      rcases @refusedSvg_alone_cases settings now uuid key change store libraries with
        ⟨error, fails⟩ | ⟨refused, passes, denies⟩
      · rw [fails] at accepted
        cases accepted
      · rw [passes] at accepted
        cases refused with
        | some response =>
            cases accepted
            exact absurd rfl (denies seq)
        | none =>
            exact acceptPath_alone_accepted accepted

/-- A change that repeats the stored row is accepted, and the row stays. -/
theorem decidePath_alone_of_retries
    {libraries : BlobLibraries}
    {current : PathRow}
    (stored : store.db.blobPathStates.lookup key = some current)
    (retries : change.retries current.toPathChange = true) :
    (decidePath libraries key change).alone settings now uuid store =
      (.ok (.pathAccepted current.seq), store) := by
  unfold decidePath
  rw [blobAlone_bind, blobAlone_db_of_ok _ _ _ rfl, stored]
  dsimp only
  rw [if_pos retries]
  rfl

theorem postBlobPath_alone
    {libraries : BlobLibraries}
    {body : BlobPathBody}
    (checked : body.check = .ok change) :
    (postBlobPath libraries vault body).alone settings now uuid store =
      (decidePath libraries ⟨vault, body.pathKey⟩ change).alone settings now uuid store := by
  unfold postBlobPath
  rw [checked]
  dsimp only
  rw [blobAlone_bind, blobAlone_attempt]
  rfl

theorem postBlobPath_alone_of_error
    {libraries : BlobLibraries}
    {body : BlobPathBody}
    {response : Response}
    (checked : body.check = .error response) :
    (postBlobPath libraries vault body).alone settings now uuid store = (.ok response, store) := by
  unfold postBlobPath
  rw [checked]
  rfl

end Alone

/-- An accepted request is stored just where it repeats the stored row as a whole
or not at all. -/
theorem accepted_means_stored_iff
    (settings : BlobSettings)
    (now : Time)
    (uuid : String)
    (vault : VaultId)
    (body : BlobPathBody)
    (store : BlobStore) :
    AcceptedMeansStored settings now uuid vault body store ↔ RepeatsWhole vault body store := by
  unfold AcceptedMeansStored RepeatsWhole
  cases checked : body.check with
  | error response =>
      rw [postBlobPath_alone_of_error checked]
      refine ⟨fun _ change row impossible => (by cases impossible), ?_⟩
      intro _ seq store' accepted
      have same : response = .pathAccepted seq := Except.ok.inj (congrArg Prod.fst accepted)
      exact absurd same (BlobPathBody.check_eq_error checked seq)
  | ok change =>
      obtain ⟨displayPath, generation, state, contentHash, size, peerId⟩ :=
        BlobPathBody.check_submits checked
      have submitted : ∀ seq, (change.row now seq).Holds body := fun seq =>
        { displayPath := displayPath
          generation := generation
          state := state
          contentHash := contentHash
          size := size
          peerId := peerId }
      have taken : ∀ {seq store'},
          (takePath settings.toBlobLibraries ⟨vault, body.pathKey⟩ change).alone settings now uuid
            store = (.ok (.pathAccepted seq), store') →
          ∃ row, store'.db.blobPathStates.lookup ⟨vault, body.pathKey⟩ = some row ∧
            row.Holds body ∧ row.seq = seq :=
        fun accepted => ⟨_, takePath_alone_accepted accepted, submitted _, rfl⟩
      rw [postBlobPath_alone checked]
      cases stored : store.db.blobPathStates.lookup ⟨vault, body.pathKey⟩ with
      | none =>
          unfold decidePath
          rw [blobAlone_bind, blobAlone_db_of_ok _ _ _ rfl, stored]
          exact ⟨fun _ change row _ found => (by cases found), fun _ _ _ => taken⟩
      | some current =>
          by_cases retries : change.retries current.toPathChange = true
          · rw [decidePath_alone_of_retries stored retries]
            have repeated : current.generation = change.generation ∧
                current.contentHash = change.contentHash ∧ current.state = change.state := by
              simpa [PathChange.retries, and_assoc] using retries
            obtain ⟨generation', contentHash', state'⟩ := repeated
            constructor
            · intro means change' row same found _
              obtain rfl := Except.ok.inj same
              obtain rfl := Option.some.inj found
              obtain ⟨row, lookup, holds, -⟩ := means current.seq store rfl
              obtain rfl := Option.some.inj (stored.symm.trans lookup)
              exact ⟨holds.displayPath, holds.size, holds.peerId⟩
            · intro whole seq store' accepted
              cases accepted
              obtain ⟨displayPath', size', peerId'⟩ := whole change current rfl rfl retries
              refine ⟨current, stored, ?_, rfl⟩
              exact
                { displayPath := displayPath'
                  generation := generation'.trans generation
                  state := state'.symm ▸ state
                  contentHash := contentHash'.symm ▸ contentHash
                  size := size'
                  peerId := peerId' }
          · unfold decidePath
            rw [blobAlone_bind, blobAlone_db_of_ok _ _ _ rfl, stored]
            dsimp only
            rw [if_neg retries]
            refine ⟨fun _ change' row same found again => ?_, fun _ seq store' accepted => ?_⟩
            · obtain rfl := Except.ok.inj same
              obtain rfl := Option.some.inj found
              exact absurd again retries
            · split_ifs at accepted
              · exact taken accepted
              · cases accepted

/-- A store where device "b" has published the reference attachment. -/
def BlobStore.publishedOnce : BlobStore :=
  { BlobStore.reference with
    db := { BlobStore.reference.db with
      blobSeq := 1
      blobPathStates := AList.insert PathKey.reference
        (PathChange.row ⟨"a.png", 1, 1, .live, some Hash.ofA, some 1, "b"⟩ 0 1) ∅ } }

/-- Device "c" publishes it too: its request is accepted, and the row stays that of
device "b". -/
theorem accepted_not_stored :
    ¬ ∀ (settings : BlobSettings) (now : Time) (uuid : String) (vault : VaultId)
        (body : BlobPathBody) (store : BlobStore),
      AcceptedMeansStored settings now uuid vault body store := by
  intro means
  have accepted : (postBlobPath BlobSettings.reference.toBlobLibraries VaultId.v
      (.attachment 1 Hash.ofA 1 "c")).alone .reference 0 "" .publishedOnce =
        (.ok (.pathAccepted 1), .publishedOnce) := by
    have checked : (BlobPathBody.attachment 1 Hash.ofA 1 "c").check =
        .ok ⟨"a.png", 1, 1, .live, some Hash.ofA, some 1, "c"⟩ := by
      have passes : (BlobPathBody.attachment 1 Hash.ofA 1 "c").check.toOption =
          some ⟨"a.png", 1, 1, .live, some Hash.ofA, some 1, "c"⟩ := by
        decide +kernel
      cases checks : (BlobPathBody.attachment 1 Hash.ofA 1 "c").check with
      | error response => simp [checks, Except.toOption] at passes
      | ok change =>
          simp only [checks, Except.toOption, Option.some.injEq] at passes
          rw [passes]
    have stored : BlobStore.publishedOnce.db.blobPathStates.lookup ⟨VaultId.v, "a.png"⟩ =
        some (PathChange.row ⟨"a.png", 1, 1, .live, some Hash.ofA, some 1, "b"⟩ 0 1) := rfl
    rw [postBlobPath_alone checked]
    exact decidePath_alone_of_retries stored (by decide +kernel)
  obtain ⟨row, found, holds, -⟩ := means .reference 0 "" VaultId.v _ _ 1 _ accepted
  have stored : row.peerId = "b" := by
    rw [← Option.some.inj found]
    rfl
  have submitted : row.peerId = "c" := holds.peerId
  rw [stored] at submitted
  exact absurd submitted (by decide)

end VaultCrdtServer
