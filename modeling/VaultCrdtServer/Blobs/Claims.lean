import VaultCrdtServer.Blobs.Quota
import VaultCrdtServer.Blobs.Transcripts
import VaultCrdtServer.Blobs.UploadRuns

/-!
# What uploads go by

`create_upload` inserts the row it has just been admitted with.  `put_upload`
moves the counter of the upload it has just read, and then inserts the blob that
upload claims.  Since an upload id stands for one claim, no row counts more than
it claims, and every blob has a size.
-/

namespace VaultCrdtServer

open Interleaving

/-! ## Calls and the replies before them -/

/-- What a call goes by that concerns an upload: its request has just been
admitted, has just read the upload, or has just counted its last segment. -/
def BlobCall.GoesBy : BlobCall → List BlobQuery → Prop
  | .db (.admitUpload _ size), _ => size ≤ absoluteMax
  | .db (.insertUpload vault uploadId _ size), queries =>
      [(⟨.admitUpload vault (asU64 size), .admitted uploadId⟩ : BlobQuery)] <:+ queries
  | .db (.updateReceived vault uploadId next), queries =>
      ∃ (view : UploadView) (count : Nat),
        [(⟨.readUpload vault uploadId, some view⟩ : BlobQuery)] <:+ queries ∧
          count ≤ asU64 view.sizeClaimed ∧ next = asI64 count
  | .db (.insertBlob key size), queries =>
      ∃ (uploadId : String) (view : UploadView) (next : Int),
        [(⟨.readUpload key.vault uploadId, some view⟩ : BlobQuery),
          ⟨.updateReceived key.vault uploadId next, ()⟩] <:+ queries ∧
        view.hashClaimed = key.hash ∧ view.sizeClaimed = size
  | _, _ => True

/-- The call goes by nothing that concerns an upload. -/
def BlobCall.IsPlain : BlobCall → Prop
  | .db (.admitUpload ..) | .db (.insertUpload ..) | .db (.updateReceived ..)
  | .db (.insertBlob ..) => False
  | _ => True

/-- The call is a file operation. -/
def BlobCall.IsFile : BlobCall → Prop
  | .file _ => True
  | _ => False

theorem BlobCall.IsPlain.goesBy
    {call : BlobCall}
    (isPlain : call.IsPlain)
    (queries : List BlobQuery) :
    call.GoesBy queries := by
  unfold GoesBy
  split
  · cases isPlain
  · cases isPlain
  · cases isPlain
  · cases isPlain
  · trivial

theorem BlobCall.KeepsUploads.isPlain
    {call : BlobCall}
    (keeps : call.KeepsUploads) :
    call.IsPlain := by
  unfold IsPlain
  split
  · cases keeps
  · cases keeps
  · cases keeps
  · cases keeps
  · trivial

/-- Every call of a program goes by the replies before it. -/
abbrev CallsGoBy
    {α : Type}
    (post : α → List BlobQuery → Prop)
    (program : Program blobSignature α)
    (queries : List BlobQuery) : Prop :=
  program.Accounts BlobCall.queried BlobCall.GoesBy post queries

section Rules

variable {α : Type} {post : Except ServerError α → List BlobQuery → Prop}
variable {queries : List BlobQuery}

/-- A database call: the handler fails with it, or goes on with its reply. -/
theorem goesBy_db
    {call : BlobDbCall}
    {continuation : call.Reply → BlobHandler α}
    (here : BlobCall.GoesBy (.db call) queries)
    (fails : ∀ error, post (.error error) queries)
    (continues : ∀ reply,
      CallsGoBy post (continuation reply).run (queries ++ [⟨call, reply⟩])) :
    CallsGoBy post (BlobHandler.db call >>= continuation).run queries := by
  refine ⟨here, fun reply => ?_⟩
  cases reply with
  | ok value => exact continues value
  | error error =>
      change post (.error error) (queries ++ [])
      rw [List.append_nil]
      exact fails error

/-- A handler whose calls go by nothing. -/
theorem goesBy_plain
    {handler : BlobHandler α}
    (only : handler.run.Only BlobCall.IsPlain)
    (ends : ∀ result queries, post result queries)
    (queries : List BlobQuery) :
    CallsGoBy post handler.run queries :=
  .of_only (only.mono fun _ isPlain => isPlain.goesBy) ends queries

/-- File operations add no replies. -/
theorem goesBy_files
    {program : Program blobSignature α}
    (only : program.Only BlobCall.IsFile) :
    CallsGoBy (fun _ queries' => queries' = queries) program queries := by
  induction program with
  | done value => rfl
  | call call next inductionHypothesis =>
      cases call with
      | file call =>
          refine ⟨trivial, fun reply => ?_⟩
          change Program.Accounts _ _ _ _ (queries ++ [])
          rw [List.append_nil]
          exact inductionHypothesis reply (only.2 reply)
      | _ => exact only.1.elim

end Rules

/-! ## Handlers -/

section Handlers

variable {vault : VaultId} {uploadId : String} {queries : List BlobQuery}

/-- Nothing is said of what a handler ends with. -/
abbrev AnyEnd (α : Type) : α → List BlobQuery → Prop := fun _ _ => True

theorem createUpload_goesBy (hash : String) (size : Int64) :
    CallsGoBy (AnyEnd _) (createUpload vault hash size).run [] := by
  unfold createUpload
  dsimp only
  split
  · refine goesBy_db trivial (fun _ => trivial) fun found => ?_
    split
    · trivial
    · split
      · trivial
      · rename_i within
        refine goesBy_db (not_lt.mp within) (fun _ => trivial) fun admission => ?_
        cases admission with
        | admitted uploadId =>
            refine Program.Accounts.bind_fallible
              ((goesBy_files (file_only trivial)).imp ?_)
            rintro result queries rfl
            cases result with
            | error error => trivial
            | ok _ =>
                refine Program.Accounts.bind_fallible
                  ((goesBy_files (file_only trivial)).imp ?_)
                rintro result queries rfl
                cases result with
                | error error => trivial
                | ok _ =>
                    refine ⟨List.suffix_append _ _, fun inserted => ?_⟩
                    cases inserted with
                    | ok _ => trivial
                    | error error =>
                        refine goesBy_plain ?_ (fun _ _ => trivial) _
                        exact only_attempt.mpr ⟨trivial, fun _ => trivial⟩
        | _ => trivial
  · trivial

/-- An upload that is found alive has just been read. -/
theorem liveUpload_goesBy :
    CallsGoBy
      (fun result queries' => ∀ view, result = .ok (some view) →
        [(⟨.readUpload vault uploadId, some view⟩ : BlobQuery)] <:+ queries')
      (liveUpload vault uploadId).run queries := by
  unfold liveUpload
  refine goesBy_db trivial (fun _ _ same => by cases same) fun row => ?_
  cases row with
  | none => exact fun _ same => by cases same
  | some view =>
      dsimp only
      split
      · refine Program.Accounts.bind_fallible
          (goesBy_plain (discardUpload_only vault uploadId trivial trivial) ?_ _)
        intro result queries
        cases result with
        | ok _ => exact fun _ same => by cases same
        | error error => exact fun _ same => by cases same
      · intro view' same
        cases same
        exact List.suffix_append _ _

theorem stageSegment_isFile (uploadId : String) (offset : Nat) (segment : Bytes) :
    (stageSegment uploadId offset segment).run.Only BlobCall.IsFile := by
  refine only_file.mpr ⟨trivial, fun _ => only_file.mpr ⟨trivial, fun _ => ?_⟩⟩
  exact only_file.mpr ⟨trivial, fun _ => file_only trivial⟩

theorem placeBlob_isFile (vault : VaultId) (uploadId : String) (hash : Hash) :
    (placeBlob vault uploadId hash).run.Only BlobCall.IsFile := by
  refine only_file.mpr ⟨trivial, fun _ => only_file.mpr ⟨trivial, fun destExisted => ?_⟩⟩
  cases destExisted with
  | true => exact only_attempt.mpr ⟨trivial, fun _ => trivial⟩
  | false =>
      refine only_file.mpr ⟨trivial, fun _ => only_file.mpr ⟨trivial, fun _ => ?_⟩⟩
      exact only_file.mpr ⟨trivial, fun _ => trivial⟩

/-- The blob that is recorded is the one the upload claims. -/
theorem finishUpload_goesBy
    (libraries : BlobLibraries)
    {view : UploadView}
    {counted : Int}
    (next : Nat)
    (received : [(⟨.readUpload vault uploadId, some view⟩ : BlobQuery),
      ⟨.updateReceived vault uploadId counted, ()⟩] <:+ queries) :
    CallsGoBy (AnyEnd _) (finishUpload libraries vault uploadId view next).run queries := by
  have discards : ∀ (response : Response) queries,
      CallsGoBy (AnyEnd _) (do discardUpload vault uploadId
                               return response : BlobHandler Response).run queries := by
    intro response queries
    refine goesBy_plain ?_ (fun _ _ => trivial) queries
    exact (discardUpload_only vault uploadId trivial trivial).bind_fallible fun _ => trivial
  unfold finishUpload
  split
  · exact discards _ _
  · refine Program.Accounts.bind_fallible ((goesBy_files (file_only trivial)).imp ?_)
    rintro result queries rfl
    cases result with
    | error error => trivial
    | ok bytes =>
        dsimp only
        split
        · exact discards _ _
        · split
          · exact discards _ _
          · refine Program.Accounts.bind_fallible
              ((goesBy_files (placeBlob_isFile ..)).imp ?_)
            rintro result queries rfl
            cases result with
            | error error => trivial
            | ok destExisted =>
                obtain ⟨rest, same, plain⟩ :=
                  recordBlob_inserts BlobCall.IsPlain vault uploadId view destExisted trivial
                    trivial trivial trivial
                dsimp only
                rw [same]
                refine ⟨⟨uploadId, view, counted, received, rfl, rfl⟩, fun reply => ?_⟩
                exact .of_only ((plain reply).mono fun _ isPlain => isPlain.goesBy)
                  (fun _ _ => trivial) _

theorem receiveSegment_goesBy
    (libraries : BlobLibraries)
    (range : ContentRange)
    (segment : Bytes) :
    CallsGoBy (AnyEnd _) (receiveSegment libraries vault uploadId range segment).run
      queries := by
  refine Program.Accounts.bind_fallible (liveUpload_goesBy.imp ?_)
  intro result queries found
  cases result with
  | error error => trivial
  | ok row =>
      cases row with
      | none => trivial
      | some view =>
          have read := found view rfl
          dsimp only
          split
          · trivial
          · split
            · trivial
            · split
              · trivial
              · rename_i within
                refine Program.Accounts.bind_fallible
                  ((goesBy_files (stageSegment_isFile ..)).imp ?_)
                rintro result queries rfl
                cases result with
                | error error => trivial
                | ok _ =>
                    refine goesBy_db ⟨view, _, read, not_lt.mp within, rfl⟩
                      (fun _ => trivial) fun (_ : Unit) => ?_
                    split
                    · trivial
                    · exact finishUpload_goesBy libraries _
                        (List.suffix_append_self_iff.mpr read)

theorem putUpload_goesBy (libraries : BlobLibraries) (request : PutRequest) :
    CallsGoBy (AnyEnd _) (putUpload libraries vault uploadId request).run [] := by
  unfold putUpload
  split
  · trivial
  · split
    · trivial
    · split
      · trivial
      · trivial
      · split_ifs
        · trivial
        · trivial
        · refine Program.Accounts.bind_fallible (liveUpload_goesBy.imp ?_)
          intro result queries _
          cases result with
          | error error => trivial
          | ok preview =>
              cases preview with
              | none => trivial
              | some preview =>
                  exact ⟨trivial, fun _ => receiveSegment_goesBy libraries _ _⟩

end Handlers

/-- Every request goes by the replies it has had. -/
theorem blobProgram_goesBy {settings : BlobSettings} (task : BlobTask) :
    CallsGoBy (AnyEnd _) (blobProgram settings task) [] := by
  have responds : ∀ {α : Type} {handler : BlobHandler α}
      {outcome : Except ServerError α → BlobOutcome},
      CallsGoBy (AnyEnd _) handler.run [] →
      CallsGoBy (AnyEnd _) (handler.run.bind fun result => .done (outcome result)) [] :=
    fun goes => Program.Accounts.bind (goes.imp fun _ _ _ => trivial)
  have plain : ∀ {α : Type} {handler : BlobHandler α}, handler.run.Only BlobCall.IsPlain →
      CallsGoBy (AnyEnd _) handler.run [] :=
    fun only => goesBy_plain only (fun _ _ => trivial) []
  cases task with
  | createUpload vault hash size => exact responds (createUpload_goesBy hash size)
  | getUpload vault uploadId =>
      exact responds (plain (getUpload_only vault uploadId trivial trivial trivial))
  | putUpload vault uploadId request => exact responds (putUpload_goesBy _ request)
  | getBlob vault hash range =>
      refine responds (plain (getBlob_only vault hash range ?_ ?_ ?_ ?_ ?_))
      all_goals exact fun _ => by first | trivial | exact fun _ => trivial
  | postBlobPath vault body =>
      exact responds (plain ((postBlobPath_keepsUploads _ vault body).mono fun _ =>
        BlobCall.KeepsUploads.isPlain))
  | listBlobPaths vault sinceSeq limit =>
      exact responds (plain (only_db.mpr ⟨trivial, fun _ => trivial⟩))
  | sweep =>
      refine responds (plain (only_db.mpr ⟨trivial, fun expired => ?_⟩))
      exact sweepUploads_only (fun _ _ => trivial) (fun _ => trivial) (fun _ _ => trivial)
        expired 0
  | holdLock key => exact ⟨trivial, fun _ => trivial⟩

/-! ## Runs -/

/-- What has been read of an upload is what its id stands for, no row counts more
than it claims, and every blob has a size. -/
structure BlobServer.Accurate (server : BlobServer) : Prop where
  read : ∀ entry ∈ server.journal, ∀ (vault : VaultId) (uploadId : String) (view : UploadView),
    entry.query = ⟨.readUpload vault uploadId, some view⟩ →
      server.Uploads uploadId ⟨vault, view.hashClaimed⟩ view.sizeClaimed
  counts : ∀ uploadId row, server.db.blobUploads.lookup uploadId = some row →
    0 ≤ row.receivedBytes ∧ row.receivedBytes ≤ row.sizeClaimed
  sizes : ∀ key size, server.db.blobs.lookup key = some size → 0 < size

section Runs

variable {settings : BlobSettings} {quotaBytes : Table String (Option Int)}
variable {config config' : (blobMachine settings).Config}

/-- The staging directory is in order in every run. -/
theorem BlobReachable.staging
    (reachable : BlobReachable settings quotaBytes config) :
    (stagingDiscipline settings).Holds config := by
  obtain ⟨labels, runs⟩ := reachable
  exact (staging_run (stagingDiscipline_initial quotaBytes) runs).1

/-- Every request goes by the replies it has had. -/
theorem BlobReachable.goesBy
    (reachable : BlobReachable settings quotaBytes config) :
    Attentive (fun _ => BlobCall.GoesBy) (fun _ => AnyEnd _) config :=
  reachable.attentive blobProgram_goesBy

/-- The call a request is about to make goes by the replies it has had. -/
theorem BlobReachable.call_goesBy
    (reachable : BlobReachable settings quotaBytes config)
    {request : Nat}
    {call : BlobCall}
    {next : blobSignature.Reply call → Program blobSignature BlobOutcome}
    (current : config.thread request = some (.call call next)) :
    call.GoesBy (config.shared.queriesOf request) := by
  have goes := reachable.goesBy
  have made := goes.records.running request (by simp [current])
  exact (goes.threads request _ _ current (List.getElem?_eq_getElem made)).1

/-- What a request has heard is in the journal. -/
theorem BlobServer.mem_journal_of_queriesOf
    {server : BlobServer}
    {request : Nat}
    {query : BlobQuery}
    (heard : query ∈ server.queriesOf request) :
    ∃ entry ∈ server.journal, entry.query = query := by
  obtain ⟨entry, own, same⟩ := List.mem_map.mp heard
  exact ⟨entry, List.mem_of_mem_filter own, same⟩

/-- A call that takes effect keeps the records accurate. -/
theorem BlobServer.Accurate.commit
    {libraries : BlobLibraries}
    {server : BlobServer}
    {request : Nat}
    {call : BlobDbCall}
    {reply : call.Reply}
    {defaultQuotaBytes : Nat}
    {now : Time}
    {uuid : String}
    {db : BlobDb}
    (accurate : server.Accurate)
    (sound : StoreSound libraries server)
    (pre : stagingPre libraries request (.db call) server)
    (goesBy : BlobCall.GoesBy (.db call) (server.queriesOf request))
    (executed : call.exec defaultQuotaBytes now uuid server.db = .ok (reply, db)) :
    (server.commit request now call reply db).Accurate where
  read := by
    intro entry member vault uploadId view found
    rcases List.mem_append.mp member with older | new
    · exact UploadLedger.registered_record pre (accurate.read entry older vault uploadId view found)
    · obtain rfl := List.mem_singleton.mp new
      obtain ⟨rfl, same⟩ := Sigma.mk.inj found
      obtain rfl := eq_of_heq same
      simp only [BlobDbCall.exec, Except.ok.injEq, Prod.mk.injEq] at executed
      obtain ⟨row, upload, rfl⟩ := Option.map_eq_some_iff.mp executed.1
      obtain ⟨stored, rfl⟩ := BlobDb.upload_eq_some_iff.mp upload
      exact sound.uploadRows uploadId row stored
  counts := by
    intro uploadId row found
    change db.blobUploads.lookup uploadId = some row at found
    have older := fun row => accurate.counts uploadId row
    cases BlobDbCall.exec_effect executed with
    | insertUpload absent =>
        rw [Table.lookup_insert_eq_ite] at found
        split_ifs at found
        · obtain rfl := Option.some.inj found
          exact ⟨le_rfl, pre.2.1.le⟩
        · exact older row found
    | deleteUpload found' owned =>
        rw [Table.lookup_erase_eq_ite] at found
        split_ifs at found
        exact older row found
    | updateReceived found' owned =>
        rw [Table.lookup_insert_eq_ite] at found
        split_ifs at found with same
        · subst same
          obtain rfl := Option.some.inj found
          obtain ⟨view, count, read, within, rfl⟩ := goesBy
          obtain ⟨entry, member, query⟩ :=
            mem_journal_of_queriesOf (read.subset (List.mem_singleton_self _))
          have claimed := accurate.read entry member _ _ view query
          obtain ⟨-, size⟩ := (sound.uploadRows _ _ found').unique claimed
          obtain ⟨positive, small⟩ := sound.sizes _ _ _ claimed
          unfold absoluteMax audioCap at small
          have exact := asU64_of_nonneg positive.le (by unfold i64Max; omega)
          dsimp only
          unfold asI64
          rw [if_pos (by omega)]
          omega
        · exact older row found
    | _ => exact older row found
  sizes := by
    intro key size stored
    change db.blobs.lookup key = some size at stored
    cases BlobDbCall.exec_effect executed with
    | insertBlob absent =>
        rw [Table.lookup_insert_eq_ite] at stored
        split_ifs at stored with same
        · subst same
          obtain rfl := Option.some.inj stored
          obtain ⟨uploadId, view, next, heard, -, rfl⟩ := goesBy
          obtain ⟨entry, member, query⟩ :=
            mem_journal_of_queriesOf (heard.subset (List.mem_cons_self ..))
          exact (sound.sizes _ _ _ (accurate.read entry member _ _ view query)).1
        · exact accurate.sizes key size stored
    | _ => exact accurate.sizes key size stored

/-- The records are accurate in every run. -/
theorem BlobReachable.accurate
    (reachable : BlobReachable settings quotaBytes config) :
    config.shared.Accurate := by
  refine reachable.induction (motive := fun config => config.shared.Accurate)
    { read := fun _ member => nomatch member
      counts := fun _ _ found => nomatch found
      sizes := fun _ _ stored => nomatch stored } ?_
  intro label config config' reached accurate stepped
  cases stepped with
  | @act _ request circumstance call next reply server' current executed =>
      change config.shared.exec settings request call circumstance = _ at executed
      have holds := reached.staging
      cases call with
      | db call =>
          rcases BlobServer.query_cases executed with
            ⟨error, rfl, rfl⟩ | ⟨value, db, rfl, -, effect, rfl⟩
          · exact accurate
          · exact accurate.commit holds.invariant (holds.pre current)
              (reached.call_goesBy current) effect
      | _ =>
          rw [BlobServer.exec_other executed fun _ same => by cases same]
          exact { accurate with }
  | environment happened =>
      have alike := BlobServer.environment_alike happened
      refine ⟨?_, ?_, ?_⟩
      · simpa only [BlobServer.Uploads, alike.journal, alike.uploads] using accurate.read
      · simpa only [alike.uploadRows] using accurate.counts
      · simpa only [alike.blobs] using accurate.sizes
  | start current started =>
      obtain ⟨-, -, rfl⟩ := start_eq started
      exact { accurate with }
  | finish current => exact { accurate with }
  | abandon => exact { accurate with }

end Runs

end VaultCrdtServer
