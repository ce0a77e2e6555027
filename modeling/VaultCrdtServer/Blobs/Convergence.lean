import VaultCrdtServer.Blobs.Alone
import VaultCrdtServer.Blobs.PathHistory
import VaultCrdtServer.Blobs.Reference
import VaultCrdtServer.Foundation.LastWriter

/-!
# Convergence of path states

A path row is a last-writer-wins register that recognises repetitions: it ranks
changes by generation, peer id and hash, but takes a change for a repetition
when generation, state and hash are the same, whoever sends it.  So the row can
depend on the order of the requests, and this module says when it does not.
-/

namespace VaultCrdtServer

open Interleaving

/-- What `post_blob_path` compares to recognise a repetition. -/
def PathChange.content (change : PathChange) : Int × PathState × Option Hash :=
  (change.generation, change.state, change.contentHash)

theorem PathChange.retries_iff {change stored : PathChange} :
    change.retries stored = true ↔ stored.content = change.content := by
  simp only [retries, content, Bool.and_eq_true, decide_eq_true_eq, Prod.mk.injEq]
  tauto

/-- `post_blob_path` on a store. -/
def postAlone
    (settings : BlobSettings)
    (vault : VaultId)
    (now : Time)
    (body : BlobPathBody)
    (store : BlobStore) : BlobStore :=
  ((postBlobPath settings.toBlobLibraries vault body).alone settings now "" store).2

/-- Requests with the times they are processed at, one after the other. -/
def postInOrder
    (settings : BlobSettings)
    (vault : VaultId)
    (order : List (Time × BlobPathBody))
    (store : BlobStore) : BlobStore :=
  order.foldl (fun store request => postAlone settings vault request.1 request.2 store) store

/-- The generation, state and hash a path's row has after requests. -/
def finalContent
    (settings : BlobSettings)
    (path : PathKey)
    (order : List (Time × BlobPathBody))
    (store : BlobStore) : Option (Int × PathState × Option Hash) :=
  ((postInOrder settings path.vault order store).db.blobPathStates.lookup path).map
    fun row => row.toPathChange.content

/-- The blob a change names is stored and passes the checks that apply to it. -/
structure Uploaded
    (settings : BlobSettings)
    (path : PathKey)
    (change : PathChange)
    (store : BlobStore) : Prop where
  present : ∀ hash, change.contentHash = some hash →
    (store.db.blobs.lookup ⟨path.vault, hash⟩).isSome = true
  sanitized : change.state = .live → lastExtension path.key.toList = some "svg".toList →
    ∀ hash, change.contentHash = some hash →
      ∃ bytes, store.disk.read (blobFilePath path.vault hash) = some bytes ∧
        settings.Sanitized bytes

/-- Well-formed requests on one path, whose blobs are all uploaded, and a store
without a row for the path whose counter has room for them. -/
structure PathRequests
    (settings : BlobSettings)
    (path : PathKey)
    (requests : List BlobPathBody)
    (store : BlobStore) : Prop where
  wellFormed : ∀ body ∈ requests, body.pathKey = path.key ∧
    ∃ change, body.check = .ok change ∧ Uploaded settings path change store
  noRow : store.db.blobPathStates.lookup path = none
  room : store.db.blobSeq + requests.length ≤ i64Max

/-- The changes requests ask for. -/
def changesOf (requests : List BlobPathBody) : List PathChange :=
  requests.filterMap fun body => body.check.toOption

section Processing

variable {settings : BlobSettings} {path : PathKey} {store : BlobStore}
variable {body : BlobPathBody} {change : PathChange} {now : Time}

/-- A store after requests on a path: the row's change, and what requests leave
alone. -/
structure After
    (path : PathKey)
    (row : Option PathChange)
    (counter : Int)
    (before store : BlobStore) : Prop where
  row : (store.db.blobPathStates.lookup path).map PathRow.toPathChange = row
  blobs : store.db.blobs = before.db.blobs
  disk : store.disk = before.disk
  counter : store.db.blobSeq ≤ counter

/-- The presence check passes. -/
theorem missingBlob_alone (uploaded : Uploaded settings path change store) :
    (missingBlob path.vault change).alone settings now "" store = (.ok none, store) := by
  unfold missingBlob
  cases named : change.contentHash with
  | none => rfl
  | some hash =>
      have present := uploaded.present hash named
      rw [blobAlone_bind, blobAlone_db_of_ok _ _ _ (show BlobDbCall.exec _ _ _ _ store.db =
        .ok (true, store.db) by simp [BlobDbCall.exec, present])]
      rfl

/-- The SVG check passes. -/
theorem refusedSvg_alone (uploaded : Uploaded settings path change store) :
    (refusedSvg settings.toBlobLibraries path change).alone settings now "" store =
      (.ok none, store) := by
  unfold refusedSvg
  cases named : change.contentHash with
  | none => rfl
  | some hash =>
      dsimp only
      split_ifs with svg
      · obtain ⟨bytes, read, sanitized⟩ := uploaded.sanitized svg.1 svg.2 hash named
        have passes := settings.svgFixpointError_eq_none_iff.mpr sanitized
        rw [blobAlone_bind, blobAlone_attempt]
        simp only [serveBlobAlone, BlobServer.fileEffect, read, passes, Option.map_none,
          blobAlone_pure]
      · rfl

/-- A change that is taken is stored. -/
theorem takePath_alone
    (uploaded : Uploaded settings path change store)
    (below : store.db.blobSeq < i64Max) :
    After path (some change) (store.db.blobSeq + 1) store
      ((takePath settings.toBlobLibraries path change).alone settings now "" store).2 := by
  have written : BlobDbCall.exec settings.defaultQuotaBytes now "" (.upsertPath path change)
      store.db = .ok (store.db.blobSeq + 1,
        { store.db with
          blobSeq := store.db.blobSeq + 1
          blobPathStates := store.db.blobPathStates.insert path
            (change.row now (store.db.blobSeq + 1)) }) :=
    BlobDb.upsertPath_eq_ok_iff.mpr ⟨below, rfl, rfl⟩
  unfold takePath
  rw [blobAlone_bind, missingBlob_alone uploaded]
  dsimp only
  rw [blobAlone_bind, refusedSvg_alone uploaded]
  dsimp only
  unfold acceptPath
  rw [blobAlone_bind, blobAlone_db_of_ok _ _ _ written]
  exact
    { row := by
        change ((store.db.blobPathStates.insert path
          (change.row now (store.db.blobSeq + 1))).lookup path).map PathRow.toPathChange = _
        rw [AList.lookup_insert]
        rfl
      blobs := rfl
      disk := rfl
      counter := le_refl _ }

/-- A request alone is one write to the register. -/
theorem postAlone_after
    (sent : body.pathKey = path.key)
    (checked : body.check = .ok change)
    (uploaded : Uploaded settings path change store)
    (below : store.db.blobSeq < i64Max) :
    After path
      (LastWriter.step PathChange.rank3 PathChange.content
        ((store.db.blobPathStates.lookup path).map PathRow.toPathChange) change)
      (store.db.blobSeq + 1) store
      (postAlone settings path.vault now body store) := by
  have untouched : ∀ current,
      (store.db.blobPathStates.lookup path).map PathRow.toPathChange = some current →
      After path (some current) (store.db.blobSeq + 1) store store := fun current held =>
    { row := held
      blobs := rfl
      disk := rfl
      counter := by omega }
  have locked : postAlone settings path.vault now body store =
      ((decidePath settings.toBlobLibraries path change).alone settings now "" store).2 := by
    unfold postAlone postBlobPath
    rw [checked, show (⟨path.vault, body.pathKey⟩ : PathKey) = path by rw [sent]]
    rw [blobAlone_bind, blobAlone_attempt]
    rfl
  rw [locked]
  unfold decidePath
  rw [blobAlone_bind, blobAlone_db_of_ok _ _ _ rfl]
  cases stored : store.db.blobPathStates.lookup path with
  | none => exact takePath_alone uploaded below
  | some current =>
      have held := untouched current.toPathChange (by rw [stored]; rfl)
      simp only [Option.map_some, LastWriter.step]
      by_cases retries : change.retries current.toPathChange = true
      · rw [if_pos retries, if_pos (PathChange.retries_iff.mp retries)]
        exact held
      · rw [if_neg retries, if_neg (retries ∘ PathChange.retries_iff.mpr)]
        by_cases wins : change.wins current.toPathChange = true
        · rw [if_pos wins, if_pos (PathChange.wins_iff.mp wins)]
          exact takePath_alone uploaded below
        · rw [if_neg wins, if_neg (wins ∘ PathChange.wins_iff.mpr)]
          exact held

theorem Uploaded.congr
    {store' : BlobStore}
    (uploaded : Uploaded settings path change store)
    (blobs : store'.db.blobs = store.db.blobs)
    (disk : store'.disk = store.disk) :
    Uploaded settings path change store' where
  present := by
    rw [blobs]
    exact uploaded.present
  sanitized := by
    rw [disk]
    exact uploaded.sanitized

/-- The requests and the changes they ask for, in the same order. -/
theorem forall₂_changesOf
    {requests : List BlobPathBody}
    (wellFormed : ∀ body ∈ requests, ∃ change, body.check = .ok change) :
    List.Forall₂ (fun change body => body.check = .ok change) (changesOf requests) requests := by
  induction requests with
  | nil => exact .nil
  | cons body requests inductionHypothesis =>
      obtain ⟨change, checked⟩ := wellFormed body (List.mem_cons_self ..)
      rw [changesOf, List.filterMap_cons_some (by rw [checked]; rfl)]
      exact .cons checked (inductionHypothesis fun other member =>
        wellFormed other (List.mem_cons_of_mem _ member))

theorem changesOf_eq_of_forall₂
    {changes : List PathChange}
    {requests : List BlobPathBody}
    (asked : List.Forall₂ (fun change body => body.check = .ok change) changes requests) :
    changesOf requests = changes := by
  induction asked with
  | nil => rfl
  | cons checked rest inductionHypothesis =>
      rw [changesOf, List.filterMap_cons_some (by rw [checked]; rfl)]
      exact congrArg _ inductionHypothesis

/-- Requests one after the other are writes to the register. -/
theorem postInOrder_after
    {order : List (Time × BlobPathBody)}
    (wellFormed : ∀ request ∈ order, request.2.pathKey = path.key ∧
      ∃ change, request.2.check = .ok change ∧ Uploaded settings path change store)
    (room : store.db.blobSeq + order.length ≤ i64Max) :
    After path
      (LastWriter.run PathChange.rank3 PathChange.content
        ((store.db.blobPathStates.lookup path).map PathRow.toPathChange)
        (changesOf (order.map Prod.snd)))
      (store.db.blobSeq + order.length) store
      (postInOrder settings path.vault order store) := by
  induction order generalizing store with
  | nil =>
      exact
        { row := rfl
          blobs := rfl
          disk := rfl
          counter := by simp [postInOrder] }
  | cons request order inductionHypothesis =>
      obtain ⟨sent, change, checked, uploaded⟩ := wellFormed request (List.mem_cons_self ..)
      simp only [List.length_cons, Nat.cast_add, Nat.cast_one] at room ⊢
      have first : After path _ (store.db.blobSeq + 1) store
          (postAlone settings path.vault request.1 request.2 store) :=
        postAlone_after sent checked uploaded (by omega)
      have counter := first.counter
      have wellFormed' : ∀ other ∈ order, other.2.pathKey = path.key ∧
          ∃ change, other.2.check = .ok change ∧ Uploaded settings path change
            (postAlone settings path.vault request.1 request.2 store) := by
        intro other member
        obtain ⟨sent', change', checked', uploaded'⟩ :=
          wellFormed other (List.mem_cons_of_mem _ member)
        exact ⟨sent', change', checked', uploaded'.congr first.blobs first.disk⟩
      have rest := inductionHypothesis wellFormed' (by omega)
      rw [first.row] at rest
      rw [List.map_cons, changesOf, List.filterMap_cons_some (by rw [checked]; rfl)]
      exact
        { row := rest.row
          blobs := rest.blobs.trans first.blobs
          disk := rest.disk.trans first.disk
          counter := rest.counter.trans (by omega) }

/-- What is left of requests in some order is what is left of their changes. -/
theorem finalContent_eq
    {requests : List BlobPathBody}
    (ready : PathRequests settings path requests store)
    {order : List (Time × BlobPathBody)}
    (arranged : (order.map Prod.snd).Perm requests) :
    finalContent settings path order store =
      (LastWriter.run PathChange.rank3 PathChange.content none
        (changesOf (order.map Prod.snd))).map PathChange.content := by
  have length : order.length = requests.length := by
    rw [← arranged.length_eq, List.length_map]
  have after : After path _ _ store (postInOrder settings path.vault order store) :=
    postInOrder_after (fun request member =>
      ready.wellFormed request.2 (arranged.mem_iff.mp (List.mem_map_of_mem member)))
      (by rw [length]; exact ready.room)
  rw [ready.noRow, Option.map_none] at after
  rw [← after.row, finalContent, Option.map_map]
  rfl

/-- The final row of a path does not depend on the order of the requests exactly
if one of them outranks all requests of another content, and none of these
outranks a request of its content. -/
theorem path_states_converge_iff
    {requests : List BlobPathBody}
    (ready : PathRequests settings path requests store) :
    (∀ order order' : List (Time × BlobPathBody),
        (order.map Prod.snd).Perm requests → (order'.map Prod.snd).Perm requests →
          finalContent settings path order store = finalContent settings path order' store) ↔
      LastWriter.Dominated PathChange.rank3 PathChange.content (changesOf requests) := by
  have asked : ∀ {requests' : List BlobPathBody}, requests'.Perm requests →
      List.Forall₂ (fun change body => body.check = .ok change)
        (changesOf requests') requests' := fun arranged =>
    forall₂_changesOf fun body member =>
      (ready.wellFormed body (arranged.mem_iff.mp member)).2.imp fun _ checked => checked.1
  rw [← LastWriter.convergent_iff]
  constructor
  · intro converges changes changes' arranged arranged'
    obtain ⟨order, sent, permuted⟩ :=
      List.perm_comp_forall₂ arranged (asked (List.Perm.refl requests))
    obtain ⟨order', sent', permuted'⟩ :=
      List.perm_comp_forall₂ arranged' (asked (List.Perm.refl requests))
    have timed : ∀ list : List BlobPathBody,
        (list.map fun body => ((0 : Time), body)).map Prod.snd = list := by simp
    have agree := converges (order.map fun body => (0, body)) (order'.map fun body => (0, body))
      (by rw [timed]; exact permuted) (by rw [timed]; exact permuted')
    rw [finalContent_eq ready (by rw [timed]; exact permuted),
      finalContent_eq ready (by rw [timed]; exact permuted'), timed, timed,
      changesOf_eq_of_forall₂ sent, changesOf_eq_of_forall₂ sent'] at agree
    exact agree
  · intro convergent order order' arranged arranged'
    rw [finalContent_eq ready arranged, finalContent_eq ready arranged']
    exact convergent _ _ (arranged.filterMap _) (arranged'.filterMap _)

end Processing

/-- A store that has the two reference blobs. -/
def BlobStore.reference : BlobStore where
  db := { BlobDb.fresh ∅ with
    blobs := (AList.insert ⟨VaultId.v, Hash.ofA⟩ 1 ∅).insert ⟨VaultId.v, Hash.ofB⟩ 1 }
  disk := .empty

/-- The path of the reference attachment. -/
def PathKey.reference : PathKey := ⟨VaultId.v, "a.png"⟩

/-- Requests that publish the reference attachment in one generation, each with
a blob and a peer id. -/
def publications (requests : List (Hash × String)) : List BlobPathBody :=
  requests.map fun request => .attachment 1 request.1 1 request.2

/-- Such requests, all processed at one time. -/
def published (requests : List (Hash × String)) : List (Time × BlobPathBody) :=
  requests.map fun request => (0, .attachment 1 request.1 1 request.2)

/-- The reference blobs may be published. -/
theorem PathRequests.reference
    {requests : List (Hash × String)}
    (blobs : ∀ request ∈ requests, request.1 = Hash.ofA ∨ request.1 = Hash.ofB)
    (checked : ∀ request ∈ requests,
      (BlobPathBody.attachment 1 request.1 1 request.2).check.toOption =
        some ⟨"a.png", 1, 1, .live, some request.1, some 1, request.2⟩)
    (few : requests.length ≤ 10) :
    PathRequests BlobSettings.reference PathKey.reference (publications requests)
      .reference where
  wellFormed := by
    intro body member
    obtain ⟨request, listed, rfl⟩ := List.mem_map.mp member
    have accepted := checked request listed
    cases checks : (BlobPathBody.attachment 1 request.1 1 request.2).check with
    | error response => simp [checks, Except.toOption] at accepted
    | ok change =>
        simp only [checks, Except.toOption, Option.some.injEq] at accepted
        subst accepted
        refine ⟨rfl, _, rfl, ?_, ?_⟩
        · intro hash named
          obtain rfl := Option.some.inj named
          rcases blobs request listed with same | same <;>
            (rw [same]
             decide +kernel)
        · intro _ svg
          exact absurd svg (by decide +kernel)
  noRow := rfl
  room := by
    rw [publications, List.length_map]
    change (0 : Int) + requests.length ≤ i64Max
    unfold i64Max
    omega

/-- Two devices publish one content, a third another that ranks between them:
one order ends with the second content, another with the first. -/
theorem path_states_diverge :
    ¬ ∀ (settings : BlobSettings) (path : PathKey) (requests : List BlobPathBody)
        (store : BlobStore), PathRequests settings path requests store →
      ∀ order order' : List (Time × BlobPathBody),
        (order.map Prod.snd).Perm requests → (order'.map Prod.snd).Perm requests →
          finalContent settings path order store = finalContent settings path order' store := by
  intro converges
  have ready : PathRequests BlobSettings.reference PathKey.reference
      (publications [(Hash.ofA, "b"), (Hash.ofA, "c"), (Hash.ofB, "bb")]) .reference :=
    .reference (by decide +kernel) (by decide +kernel) (by decide)
  have agree := converges _ _ _ _ ready
    (published [(Hash.ofA, "b"), (Hash.ofA, "c"), (Hash.ofB, "bb")])
    (published [(Hash.ofA, "c"), (Hash.ofA, "b"), (Hash.ofB, "bb")])
    (List.Perm.refl _) (List.Perm.swap _ _ _)
  revert agree
  decide +kernel

/-- Two devices publish one content, a third another that ranks below both. -/
theorem path_states_converge_iff_reference :
    (∀ order order' : List (Time × BlobPathBody),
        (order.map Prod.snd).Perm
            (publications [(Hash.ofA, "b"), (Hash.ofA, "c"), (Hash.ofB, "a")]) →
          (order'.map Prod.snd).Perm
              (publications [(Hash.ofA, "b"), (Hash.ofA, "c"), (Hash.ofB, "a")]) →
            finalContent .reference .reference order .reference =
              finalContent .reference .reference order' .reference) ↔
      LastWriter.Dominated PathChange.rank3 PathChange.content
        (changesOf (publications [(Hash.ofA, "b"), (Hash.ofA, "c"), (Hash.ofB, "a")])) :=
  path_states_converge_iff
    (.reference (by decide +kernel) (by decide +kernel) (by decide))

end VaultCrdtServer
