import VaultCrdtServer.Blobs.PathHistory
import VaultCrdtServer.Blobs.Footprint

/-!
# Runs of the server, as far as paths are concerned

Every request keeps to its terms, whatever the others do, and the history of
the paths goes on.
-/

namespace VaultCrdtServer

open Interleaving

/-! ## Interference -/

section Interference

variable {settings : BlobSettings} {request other : Nat} {server server' : BlobServer}

/-- What one request does to the locks, another does not notice. -/
theorem PathRely.of_lock
    {key : String}
    (free : server.docLocks key = none)
    (different : other ≠ request) :
    PathRely other server
      { server with docLocks := Function.update server.docLocks key (some request) } where
  locks := by
    intro key'
    by_cases same : key' = key
    · subst same
      simp [free, Ne.symm different]
    · simp [Function.update_of_ne same]
  rows := fun _ _ => rfl
  events := fun _ _ => rfl
  entries := rfl
  blobs := fun _ _ stored => stored
  requests := fun _ made => made

/-- A database call that is made as the terms require. -/
theorem PathRely.of_commit
    {call : BlobDbCall}
    {reply : call.Reply}
    {now : Time}
    {db : BlobDb}
    (pre : pathPre request (.db call) server)
    (effect : BlobDbCall.Effect now call reply server.db db)
    (different : other ≠ request) :
    PathRely other server (server.commit request now call reply db) where
  locks := fun _ => Iff.rfl
  rows := by
    intro key held
    have changes := effect.accepted request
    cases made : call.accepted request now reply with
    | none =>
        rw [made] at changes
        exact congrArg (fun table => table.lookup key) changes.1
    | some accepted =>
        rw [made] at changes
        obtain ⟨_, change, rfl, -, rfl, -⟩ := BlobDbCall.accepted_eq_some made
        refine (congrArg (fun table => table.lookup key) changes.2.2).trans ?_
        rw [Table.lookup_insert_eq_ite]
        split_ifs with same
        · rw [same] at held
          exact absurd (Option.some.inj (held.symm.trans pre.1)) different
        · rfl
  events := fun _ _ => rfl
  entries := BlobServer.entriesOf_commit_of_ne call reply now db different
  blobs := fun _ _ stored => effect.blobs_kept stored
  requests := fun _ made => made

/-- An event that is sent as the terms require. -/
theorem PathRely.of_publish
    {event : BlobPathChanged}
    (pre : pathPre request (.publish event) server)
    (different : other ≠ request) :
    PathRely other server { server with channel := server.channel ++ [(request, event)] } where
  locks := fun _ => Iff.rfl
  rows := fun _ _ => rfl
  events := by
    intro key held
    have elsewhere : event.path ≠ key := by
      rintro rfl
      exact different (Option.some.inj (held.symm.trans pre.1))
    simp [BlobServer.eventsOf, elsewhere]
  entries := rfl
  blobs := fun _ _ stored => stored
  requests := fun _ made => made

/-- What the terms do not speak of, they do not notice. -/
theorem PathRely.of_eq
    (locks : server'.docLocks = server.docLocks)
    (rows : server'.db.blobPathStates = server.db.blobPathStates)
    (blobs : server'.db.blobs = server.db.blobs)
    (channel : server'.channel = server.channel)
    (journal : server'.journal = server.journal)
    (requests : server.requests <+: server'.requests) :
    PathRely other server server' where
  locks := by simp [locks]
  rows := by simp [rows]
  events := by simp [BlobServer.eventsOf, channel]
  entries := by rw [BlobServer.entriesOf, journal]; rfl
  blobs := by simp [blobs]
  requests := by
    intro task made
    obtain ⟨later, extended⟩ := requests
    obtain ⟨bound, -⟩ := List.getElem?_eq_some_iff.mp made
    rw [← extended, List.getElem?_append_left bound]
    exact made

/-- A call that is made as the terms require is interference the others
tolerate. -/
theorem PathRely.of_exec
    {call : BlobCall}
    {circumstance : BlobCircumstance}
    {reply : blobSignature.Reply call}
    (pre : pathPre request call server)
    (executed : BlobServer.exec settings request call circumstance server =
      some (reply, server'))
    (different : other ≠ request) :
    PathRely other server server' := by
  cases call with
  | db call =>
      rcases BlobServer.query_cases executed with
        ⟨error, rfl, rfl⟩ | ⟨value, db, rfl, -, effect, rfl⟩
      · exact PathRely.refl other _
      · exact .of_commit pre (BlobDbCall.exec_effect effect) different
  | file call =>
      simp only [BlobServer.exec, Option.some.injEq] at executed
      rw [BlobServer.operate_eq executed]
      exact .of_eq rfl rfl rfl rfl rfl (List.prefix_refl _)
  | lock key =>
      simp only [BlobServer.exec] at executed
      split at executed
      · rename_i free
        obtain ⟨-, rfl⟩ := Prod.mk.inj (Option.some.inj executed)
        exact .of_lock free different
      · cases executed
  | publish event =>
      obtain ⟨-, rfl⟩ := Prod.mk.inj (Option.some.inj executed)
      exact .of_publish pre different

/-- Dropped guards are those of the request that drops them. -/
theorem PathRely.of_release (different : other ≠ request) :
    PathRely other server (server.release request) where
  locks := by
    intro key
    simp only [BlobServer.release]
    split_ifs with held
    · simp [held, Ne.symm different]
    · rfl
  rows := fun _ _ => rfl
  events := fun _ _ => rfl
  entries := rfl
  blobs := fun _ _ stored => stored
  requests := fun _ made => made

end Interference

/-! ## The requests -/

section Requests

variable {settings : BlobSettings} {request : Nat} {server : BlobServer}

/-- A request that is not about a path has changed none. -/
structure Bystander (request : Nat) (task : BlobTask) (server : BlobServer) : Prop where
  task : server.requests[request]? = some task
  clean : server.acceptedBy request = []

theorem Bystander.stable {task : BlobTask} :
    (pathTerms request).Stable (Bystander request task) :=
  fun _ _ bystander tolerated =>
    { task := tolerated.requests task bystander.task
      clean := tolerated.acceptedBy.trans bystander.clean }

/-- A call that leaves paths alone. -/
theorem Bystander.exec
    {task : BlobTask}
    (bystander : Bystander request task server)
    {call : BlobCall}
    {circumstance : BlobCircumstance}
    {reply : blobSignature.Reply call}
    {server' : BlobServer}
    (keeps : call.KeepsPaths)
    (executed : BlobServer.exec settings request call circumstance server =
      some (reply, server')) :
    Bystander request task server' := by
  cases call with
  | db call =>
      rcases BlobServer.query_cases executed with
        ⟨error, rfl, rfl⟩ | ⟨value, db, rfl, -, -, rfl⟩
      · exact bystander
      · refine ⟨bystander.task, ?_⟩
        rw [BlobServer.acceptedBy_commit, bystander.clean]
        cases made : call.accepted request circumstance.now value with
        | none => rfl
        | some accepted =>
            obtain ⟨_, _, rfl, -⟩ := BlobDbCall.accepted_eq_some made
            cases keeps
  | file call =>
      simp only [BlobServer.exec, Option.some.injEq] at executed
      rw [BlobServer.operate_eq executed]
      exact ⟨bystander.task, bystander.clean⟩
  | lock key =>
      simp only [BlobServer.exec] at executed
      split at executed
      · obtain ⟨-, rfl⟩ := Prod.mk.inj (Option.some.inj executed)
        exact ⟨bystander.task, bystander.clean⟩
      · cases executed
  | publish event => cases keeps

/-- A program that leaves paths alone stays within the terms. -/
theorem Bystander.meets
    {task : BlobTask}
    {program : Program blobSignature BlobOutcome}
    (only : program.Only BlobCall.KeepsPaths)
    (bystander : Bystander request task server) :
    program.Meets (blobContract settings request (pathTerms request))
      (fun _ => Bystander request task) server := by
  refine only.meets (Bystander request task) (fun _ _ => Bystander.stable _ _) ?_ ?_ bystander
  · intro call server keeps _
    cases call with
    | db call =>
        cases call with
        | upsertPath => cases keeps
        | _ => trivial
    | publish => cases keeps
    | _ => trivial
  · rintro call server reply server' keeps bystander ⟨-, circumstance, executed⟩
    exact bystander.exec keeps executed

/-- A request that is not a publication leaves paths alone. -/
theorem blobProgram_keepsPaths
    {task : BlobTask}
    (other : ∀ vault body, task ≠ .postBlobPath vault body) :
    (blobProgram settings task).Only BlobCall.KeepsPaths := by
  have receives : ∀ {α : Type} {handler : BlobHandler α}
      {outcome : Except ServerError α → BlobOutcome},
      handler.run.Only BlobCall.Receives →
      (handler.run.bind fun result => .done (outcome result)).Only BlobCall.KeepsPaths :=
    fun only => (only.mono fun _ => BlobCall.Receives.keepsPaths).bind fun _ => trivial
  cases task with
  | postBlobPath vault body => exact absurd rfl (other vault body)
  | createUpload vault hash size =>
      exact (createUpload_keepsPaths vault hash size).bind fun _ => trivial
  | getUpload vault uploadId => exact receives (getUpload_receives vault uploadId)
  | putUpload vault uploadId put => exact receives (putUpload_receives _ vault uploadId put)
  | getBlob vault hash range =>
      refine Program.Only.bind ?_ fun _ => trivial
      exact getBlob_only vault hash range (fun _ => rfl) (fun _ => rfl) (fun _ => rfl)
        (fun _ _ => rfl) (fun _ _ => rfl)
  | listBlobPaths vault sinceSeq limit =>
      exact Program.Only.bind (only_db.mpr ⟨rfl, fun _ => trivial⟩) fun _ => trivial
  | sweep => exact receives (only_db.mpr ⟨rfl, fun expired => sweepUploads_receives expired 0⟩)
  | holdLock key => exact ⟨rfl, fun _ => trivial⟩

/-- Every request ends as it should. -/
theorem blobProgram_meets
    {task : BlobTask}
    (fresh : Fresh request task server) :
    (blobProgram settings task).Meets (blobContract settings request (pathTerms request))
      (fun outcome server => server.requests[request]? = some task ∧
        PathOutcome request outcome server) server := by
  have bystander : ∀ {task : BlobTask}, Fresh request task server →
      (∀ vault body, task ≠ .postBlobPath vault body) →
      (blobProgram settings task).Meets (blobContract settings request (pathTerms request))
        (fun outcome server => server.requests[request]? = some task ∧
          PathOutcome request outcome server) server := by
    intro task fresh other
    refine (Bystander.meets (blobProgram_keepsPaths other)
      ⟨fresh.task, fresh.clean⟩).weaken ?_
    intro outcome server bystander
    refine ⟨bystander.task, ?_⟩
    unfold PathOutcome
    rw [bystander.task]
    cases task with
    | postBlobPath vault body => exact absurd rfl (other vault body)
    | _ => exact bystander.clean
  cases task with
  | postBlobPath vault body =>
      have ends : (postBlobPath settings.toBlobLibraries vault body).run.Meets
          (blobContract settings request (pathTerms request))
          (PathEnds request ⟨vault, body.pathKey⟩ body.check.toOption) server :=
        postBlobPath_meets fresh
      have settles := ends.keeps
          (fun server => server.requests[request]? = some (.postBlobPath vault body))
          (fun _ _ made tolerated => tolerated.requests _ made)
          (fun _ _ _ _ made executed => by
            obtain ⟨-, circumstance, executed⟩ := executed
            rw [(BlobServer.exec_records executed).1]
            exact made)
          fresh.task
      refine Program.Meets.bind _ settles ?_
      intro result server' ended later tolerated
      obtain ⟨ends, made⟩ := ended.post_of_done
      refine ⟨tolerated.requests _ made, ?_⟩
      unfold PathOutcome
      rw [tolerated.requests _ made, tolerated.reads, tolerated.acceptedBy]
      exact ⟨result, rfl, ends⟩
  | createUpload => exact bystander fresh nofun
  | getUpload => exact bystander fresh nofun
  | putUpload => exact bystander fresh nofun
  | getBlob => exact bystander fresh nofun
  | listBlobPaths => exact bystander fresh nofun
  | sweep => exact bystander fresh nofun
  | holdLock => exact bystander fresh nofun

end Requests

/-! ## Runs -/

/-- Whether the size a publication claims is the size of the stored blob. -/
def BlobServer.sizeMatches (server : BlobServer) : BlobCall → Bool
  | .db (.upsertPath key change) =>
      match change.state, change.contentHash, change.size with
      | .live, some hash, some size =>
          ((server.db.blobs.lookup ⟨key.vault, hash⟩).all fun stored => decide (stored = size))
      | _, _, _ => true
  | _ => true

/-- A live row names a stored blob of its size, within the path's cap. -/
def BlobServer.LiveStored (server : BlobServer) : Prop :=
  ∀ key row, server.db.blobPathStates.lookup key = some row → row.state = .live →
    ∃ hash size cap, row.contentHash = some hash ∧ row.size = some size ∧
      capForKey key.key = some cap ∧ size ≤ cap ∧
      server.db.blobs.lookup ⟨key.vault, hash⟩ = some size

section Runs

variable (settings : BlobSettings) (honest : Prop)

/-- No live change is stored whose size is not that of its blob. -/
def HonestStep
    (label : (blobMachine settings).Label)
    (config : (blobMachine settings).Config) : Prop :=
  match label with
  | .act request _ =>
      match config.thread request with
      | some (.call call _) => config.shared.sizeMatches call = true
      | _ => True
  | _ => True

instance (label : (blobMachine settings).Label) (config : (blobMachine settings).Config) :
    Decidable (HonestStep settings label config) := by
  induction label using Machine.Label.casesOn with
  | act request circumstance =>
      exact inferInstanceAs (Decidable (Program.NextCall
        (fun call => config.shared.sizeMatches call = true) (config.thread request)))
  | _ => exact isTrue trivial

/-- What holds between any two steps, besides what the requests know. -/
structure PathInvariant (config : (blobMachine settings).Config) : Prop where
  origins : ∀ entry ∈ config.shared.journal, entry.origin < config.shared.requests.length
  running : ∀ request, config.thread request ≠ none →
    request < config.shared.requests.length
  answered : ∀ answer ∈ config.shared.answers, config.thread answer.1 = none ∧
    answer.1 < config.shared.requests.length ∧
      PathOutcome answer.1 answer.2 config.shared
  history : PathHistory config.shared
  live : honest → config.shared.LiveStored

/-- The requests' terms, put together. -/
def pathDiscipline : Discipline (blobMachine settings) where
  contract := fun request => blobContract settings request (pathTerms request)
  idle := fun _ _ => True
  post := fun request outcome server =>
    request < server.requests.length ∧ PathOutcome request outcome server
  allowed := fun label config => honest → HonestStep settings label config
  invariant := PathInvariant settings honest

variable {settings honest}
variable {config config' : (blobMachine settings).Config}

/-- What has come of an answered request stays as it is. -/
theorem PathOutcome.of_entries
    {request : Nat}
    {outcome : BlobOutcome}
    {server server' : BlobServer}
    (concluded : PathOutcome request outcome server)
    (requests : server'.requests[request]? = server.requests[request]?)
    (entries : server'.entriesOf request = server.entriesOf request) :
    PathOutcome request outcome server' := by
  unfold PathOutcome BlobServer.readsOf at concluded ⊢
  rw [BlobServer.acceptedBy_eq] at concluded ⊢
  rw [requests, entries]
  exact concluded

/-- A call that is made as the terms require keeps the history. -/
theorem PathHistory.exec
    {request : Nat}
    {call : BlobCall}
    {circumstance : BlobCircumstance}
    {reply : blobSignature.Reply call}
    {server server' : BlobServer}
    (history : PathHistory server)
    (pre : pathPre request call server)
    (executed : BlobServer.exec settings request call circumstance server =
      some (reply, server')) :
    PathHistory server' := by
  cases call with
  | db call =>
      rcases BlobServer.query_cases executed with
        ⟨error, rfl, rfl⟩ | ⟨value, db, rfl, -, effect, rfl⟩
      · exact history
      · exact history.commit pre (BlobDbCall.exec_effect effect)
  | file call =>
      simp only [BlobServer.exec, Option.some.injEq] at executed
      rw [BlobServer.operate_eq executed]
      exact history.of_unchanged rfl rfl rfl rfl
  | lock key =>
      simp only [BlobServer.exec] at executed
      split at executed
      · obtain ⟨-, rfl⟩ := Prod.mk.inj (Option.some.inj executed)
        exact history.of_unchanged rfl rfl rfl rfl
      · cases executed
  | publish event =>
      obtain ⟨-, rfl⟩ := Prod.mk.inj (Option.some.inj executed)
      exact history.publish pre

/-- A call whose publication claims the size of its blob keeps live rows stored. -/
theorem BlobServer.LiveStored.exec
    {request : Nat}
    {call : BlobCall}
    {circumstance : BlobCircumstance}
    {reply : blobSignature.Reply call}
    {server server' : BlobServer}
    (live : server.LiveStored)
    (pre : pathPre request call server)
    (matched : server.sizeMatches call = true)
    (executed : BlobServer.exec settings request call circumstance server =
      some (reply, server')) :
    server'.LiveStored := by
  cases call with
  | db call =>
      rcases BlobServer.query_cases executed with
        ⟨error, rfl, rfl⟩ | ⟨value, db, rfl, -, effect, rfl⟩
      · exact live
      · have effect := BlobDbCall.exec_effect effect
        intro key row stored lives
        have kept : server.db.blobPathStates.lookup key = some row →
            ∃ hash size cap, row.contentHash = some hash ∧ row.size = some size ∧
              capForKey key.key = some cap ∧ size ≤ cap ∧
              db.blobs.lookup ⟨key.vault, hash⟩ = some size := by
          intro older
          obtain ⟨hash, size, cap, named, sized, capped, within, blob⟩ :=
            live key row older lives
          exact ⟨hash, size, cap, named, sized, capped, within, effect.blobs_kept blob⟩
        rcases effect.paths stored with older | ⟨change, seq, rfl, rfl⟩
        · exact kept older
        · obtain ⟨hash, size, cap, named, sized, capped, -, within, present⟩ :=
            pre.2.2.2 lives
          obtain ⟨size', found⟩ := Option.isSome_iff_exists.mp present
          have live : change.state = .live := lives
          simp only [BlobServer.sizeMatches, live, named, sized, found, Option.all_some,
            decide_eq_true_eq] at matched
          exact ⟨hash, size, cap, named, sized, capped, within,
            effect.blobs_kept (matched ▸ found)⟩
  | _ =>
      rw [BlobServer.exec_other executed fun _ same => by cases same]
      exact live

/-- A new request keeps the invariant. -/
theorem PathInvariant.start
    {task : BlobTask}
    {program : Program blobSignature BlobOutcome}
    (invariant : PathInvariant settings honest config) :
    PathInvariant settings honest
      (config.advance config.shared.requests.length (some program)
        { config.shared with requests := config.shared.requests ++ [task] }) := by
  refine
    { origins := ?_
      running := ?_
      answered := ?_
      history := invariant.history.of_unchanged rfl rfl rfl rfl
      live := invariant.live }
  · intro entry member
    have := invariant.origins entry member
    simp only [Machine.Config.advance_shared, List.length_append, List.length_singleton]
    omega
  · intro other busy
    simp only [Machine.Config.advance_shared, List.length_append, List.length_singleton]
    by_cases same : other = config.shared.requests.length
    · omega
    · rw [config.advance_thread_other same] at busy
      have := invariant.running other busy
      omega
  · intro answer member
    obtain ⟨idle, made, concluded⟩ := invariant.answered answer member
    refine ⟨?_, ?_, ?_⟩
    · rw [config.advance_thread_other (by omega), idle]
    · simp only [Machine.Config.advance_shared, List.length_append, List.length_singleton]
      omega
    · exact concluded.of_entries (List.getElem?_append_left made) rfl

/-- A step keeps the invariant. -/
theorem PathInvariant.step
    {label : (blobMachine settings).Label}
    (holds : (pathDiscipline settings honest).Holds config)
    (allowed : honest → HonestStep settings label config)
    (stepped : Machine.Steps _ label config config') :
    PathInvariant settings honest config' := by
  have invariant := holds.invariant
  cases stepped with
  | @act config request circumstance call next reply server' current executed =>
      have pre := holds.pre current
      obtain ⟨requests, answers, -, journal⟩ := BlobServer.exec_records executed
      have active : request < config.shared.requests.length :=
        invariant.running request (by simp [current])
      refine
        { origins := ?_
          running := ?_
          answered := ?_
          history := invariant.history.exec pre executed
          live := ?_ }
      · intro entry member
        change entry.origin < server'.requests.length
        rw [requests]
        rcases journal entry member with older | own
        · exact invariant.origins entry older
        · rwa [own]
      · intro other busy
        change other < server'.requests.length
        rw [requests]
        by_cases same : other = request
        · rwa [same]
        · rw [config.advance_thread_other same] at busy
          exact invariant.running other busy
      · intro answer member
        change answer ∈ server'.answers at member
        rw [answers] at member
        obtain ⟨idle, made, concluded⟩ := invariant.answered answer member
        have different : answer.1 ≠ request := by
          intro same
          rw [same, current] at idle
          cases idle
        refine ⟨?_, ?_, ?_⟩
        · rw [config.advance_thread_other different, idle]
        · change answer.1 < server'.requests.length
          rwa [requests]
        · have tolerated : PathRely answer.1 config.shared server' :=
            .of_exec pre executed different
          exact concluded.of_entries (congrArg (fun list => list[answer.1]?) requests)
            tolerated.entries
      · intro honestly
        have matched := allowed honestly
        simp only [HonestStep, current] at matched
        exact (invariant.live honestly).exec pre matched executed
  | @environment config event server' happened =>
      have alike := BlobServer.environment_alike happened
      have entries : ∀ request, server'.entriesOf request = config.shared.entriesOf request := by
        intro request
        rw [BlobServer.entriesOf, alike.journal]
        rfl
      refine
        { origins := ?_
          running := ?_
          answered := ?_
          history := ?_
          live := ?_ }
      · change ∀ entry ∈ server'.journal, entry.origin < server'.requests.length
        rw [alike.journal, alike.requests]
        exact invariant.origins
      · intro request busy
        change request < server'.requests.length
        rw [alike.requests]
        exact invariant.running request busy
      · intro answer member
        change answer ∈ server'.answers at member
        rw [alike.answers] at member
        obtain ⟨idle, made, concluded⟩ := invariant.answered answer member
        refine ⟨idle, ?_, ?_⟩
        · change answer.1 < server'.requests.length
          rwa [alike.requests]
        · exact concluded.of_entries (congrArg (fun list => list[answer.1]?) alike.requests)
            (entries answer.1)
      · refine invariant.history.of_unchanged ?_ alike.paths alike.counter alike.channel
        change server'.accepted = config.shared.accepted
        rw [BlobServer.accepted, alike.journal]
        rfl
      · intro honestly
        change server'.LiveStored
        unfold BlobServer.LiveStored
        rw [alike.paths, alike.blobs]
        exact invariant.live honestly
  | start current started =>
      obtain ⟨rfl, rfl, rfl⟩ := start_eq started
      exact invariant.start
  | @finish config request outcome current =>
      have ended := (holds.meets current).post_of_done
      refine
        { origins := invariant.origins
          running := ?_
          answered := ?_
          history := invariant.history.of_unchanged rfl rfl rfl rfl
          live := invariant.live }
      · intro other busy
        by_cases same : other = request
        · simp [same] at busy
        · rw [config.advance_thread_other same] at busy
          exact invariant.running other busy
      · intro answer member
        change answer ∈ config.shared.answers ++ [@Prod.mk Nat BlobOutcome request outcome] at member
        rw [List.mem_append, List.mem_singleton] at member
        rcases member with older | rfl
        · obtain ⟨idle, made, concluded⟩ := invariant.answered answer older
          have different : answer.1 ≠ request := by
            intro same
            rw [same, current] at idle
            cases idle
          exact ⟨by rw [config.advance_thread_other different, idle], made,
            concluded.of_entries rfl rfl⟩
        · exact ⟨config.advance_thread_self _ _ _, ended.1, ended.2.of_entries rfl rfl⟩
  | @abandon config request =>
      refine
        { origins := invariant.origins
          running := ?_
          answered := ?_
          history := invariant.history.of_unchanged rfl rfl rfl rfl
          live := invariant.live }
      · intro other busy
        by_cases same : other = request
        · simp [same] at busy
        · rw [config.advance_thread_other same] at busy
          exact invariant.running other busy
      · intro answer member
        obtain ⟨idle, made, concluded⟩ := invariant.answered answer member
        refine ⟨?_, made, concluded.of_entries rfl rfl⟩
        by_cases same : answer.1 = request
        · rw [same]
          exact config.advance_thread_self _ _ _
        · rw [config.advance_thread_other same, idle]

/-- A new request has not done anything. -/
theorem Fresh.of_start
    {server : BlobServer}
    (task : BlobTask)
    (origins : ∀ entry ∈ server.journal, entry.origin < server.requests.length) :
    Fresh server.requests.length task { server with requests := server.requests ++ [task] } := by
  have unused : server.entriesOf server.requests.length = [] := by
    simp only [BlobServer.entriesOf, List.filter_eq_nil_iff, decide_eq_true_eq]
    intro entry member same
    exact Nat.lt_irrefl _ (same ▸ origins entry member)
  refine
    { task := by simp
      reads := ?_
      clean := ?_ }
  · change (server.entriesOf server.requests.length).filterMap _ = []
    rw [unused]
    rfl
  · rw [BlobServer.acceptedBy_eq]
    change (server.entriesOf server.requests.length).filterMap _ = []
    rw [unused]
    rfl

/-- The terms fit together. -/
theorem pathDiscipline_sound : (pathDiscipline settings honest).Sound where
  exec := fun invariant _ _ executed =>
    ⟨invariant.history.event_le, _, executed⟩
  exec_frame := by
    rintro request other call server reply server' pre ⟨-, circumstance, executed⟩ different
    exact .of_exec pre executed different
  environment_frame := fun happened =>
    let alike := BlobServer.environment_alike happened
    .of_eq alike.locks alike.paths alike.blobs alike.channel alike.journal
      (alike.requests ▸ List.prefix_refl _)
  idle_stable := fun _ _ => trivial
  start := by
    intro config request task program server' invariant _ started
    obtain ⟨rfl, rfl, rfl⟩ := start_eq started
    have fresh := Fresh.of_start task invariant.origins
    refine (blobProgram_meets fresh).weaken ?_
    rintro outcome server ⟨made, concluded⟩
    exact ⟨(List.getElem?_eq_some_iff.mp made).1, concluded⟩
  start_frame := by
    intro request other task server program server' started different
    obtain ⟨-, -, rfl⟩ := start_eq started
    exact .of_eq rfl rfl rfl rfl rfl (List.prefix_append _ _)
  finish := fun _ => trivial
  finish_frame := by
    intro request other outcome server different
    exact (PathRely.of_release different).trans
      (.of_eq rfl rfl rfl rfl rfl (List.prefix_refl _))
  abandon := fun _ => trivial
  abandon_frame := fun different => .of_release different
  invariant := fun holds allowed stepped => PathInvariant.step holds allowed stepped

/-- A fresh server is in order. -/
theorem pathDiscipline_initial
    (quotaBytes : Table String (Option Int))
    (disk : Disk FilePath UInt8) :
    (pathDiscipline settings honest).Holds
      (blobConfig settings (.fresh quotaBytes) disk) where
  invariant :=
    { origins := fun _ member => nomatch member
      running := fun _ busy => absurd rfl busy
      answered := fun _ member => nomatch member
      history := PathHistory.started quotaBytes disk
      live := fun _ _ _ stored => nomatch stored }
  threads := fun _ => trivial

end Runs

end VaultCrdtServer
