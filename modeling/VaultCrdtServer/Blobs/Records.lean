import VaultCrdtServer.Blobs.Effects

/-!
# Records of the blob server

A request that runs or has been answered has been made, and so has every request
that has a call in the journal.  What has come of a request that has been
answered depends on its own calls only, so that it stays as it was at the end.
-/

namespace VaultCrdtServer

open Interleaving

section Records

variable {settings : BlobSettings}

/-- A call adds nothing to the journal but its own entry. -/
theorem BlobServer.exec_entriesOf_of_ne
    {request other : Nat}
    {call : BlobCall}
    {circumstance : BlobCircumstance}
    {reply : blobSignature.Reply call}
    {server server' : BlobServer}
    (executed : BlobServer.exec settings request call circumstance server =
      some (reply, server'))
    (different : other ≠ request) :
    server'.entriesOf other = server.entriesOf other := by
  cases call with
  | db call =>
      rcases BlobServer.query_cases executed with
        ⟨error, rfl, rfl⟩ | ⟨value, db, rfl, -, -, rfl⟩
      · rfl
      · exact BlobServer.entriesOf_commit_of_ne call value _ db different
  | _ =>
      rw [BlobServer.exec_other executed fun _ same => by cases same]
      rfl

/-- What has come of a request depends on its task and its own calls. -/
def Lasting (concluded : Nat → BlobOutcome → BlobServer → Prop) : Prop :=
  ∀ {request outcome server server'}, concluded request outcome server →
    server'.requests[request]? = server.requests[request]? →
    server'.entriesOf request = server.entriesOf request →
    concluded request outcome server'

/-- The records belong to requests that have been made. -/
structure RecordsKept
    (concluded : Nat → BlobOutcome → BlobServer → Prop)
    (config : (blobMachine settings).Config) : Prop where
  origins : ∀ entry ∈ config.shared.journal, entry.origin < config.shared.requests.length
  running : ∀ request, config.thread request ≠ none →
    request < config.shared.requests.length
  answered : ∀ answer ∈ config.shared.answers, config.thread answer.1 = none ∧
    answer.1 < config.shared.requests.length ∧ concluded answer.1 answer.2 config.shared

variable {concluded : Nat → BlobOutcome → BlobServer → Prop}
variable {config config' : (blobMachine settings).Config}

theorem RecordsKept.initial (db : BlobDb) (disk : Disk FilePath UInt8) :
    RecordsKept concluded (blobConfig settings db disk) where
  origins := fun _ member => nomatch member
  running := fun _ busy => absurd rfl busy
  answered := fun _ member => nomatch member

/-- A request that does not run any more was there. -/
theorem RecordsKept.running_advance
    {request : Nat}
    {rest : Option (Program blobSignature (blobMachine settings).Outcome)}
    {server : BlobServer}
    (kept : RecordsKept concluded config)
    (made : request < server.requests.length)
    (requests : config.shared.requests.length ≤ server.requests.length) :
    ∀ other, (config.advance request rest server).thread other ≠ none →
      other < server.requests.length := by
  intro other busy
  by_cases same : other = request
  · rwa [same]
  · rw [config.advance_thread_other same] at busy
    exact (kept.running other busy).trans_le requests

/-- A new request. -/
theorem RecordsKept.start
    (kept : RecordsKept concluded config)
    (lasting : Lasting concluded)
    (task : BlobTask)
    (program : Program blobSignature BlobOutcome) :
    RecordsKept concluded
      (config.advance config.shared.requests.length (some program)
        { config.shared with requests := config.shared.requests ++ [task] }) := by
  refine
    { origins := ?_
      running := kept.running_advance (by simp) (by simp)
      answered := ?_ }
  · intro entry member
    have := kept.origins entry member
    simp only [Machine.Config.advance_shared, List.length_append, List.length_singleton]
    omega
  · intro answer member
    obtain ⟨idle, made, done⟩ := kept.answered answer member
    refine ⟨?_, ?_, ?_⟩
    · rw [config.advance_thread_other (by omega), idle]
    · simp only [Machine.Config.advance_shared, List.length_append, List.length_singleton]
      omega
    · exact lasting done (List.getElem?_append_left made) rfl

/-- A step keeps the records, if a request that ends is what it should be. -/
theorem RecordsKept.step
    {label : (blobMachine settings).Label}
    (kept : RecordsKept concluded config)
    (lasting : Lasting concluded)
    (ended : ∀ request outcome, config.thread request = some (.done outcome) →
      concluded request outcome config.shared)
    (stepped : Machine.Steps _ label config config') :
    RecordsKept concluded config' := by
  cases stepped with
  | @act config request circumstance call next reply server' current executed =>
      obtain ⟨requests, answers, -, journal⟩ := BlobServer.exec_records executed
      have active : request < config.shared.requests.length :=
        kept.running request (by simp [current])
      refine
        { origins := ?_
          running := kept.running_advance (requests ▸ active) (by rw [requests])
          answered := ?_ }
      · intro entry member
        change entry.origin < server'.requests.length
        rw [requests]
        rcases journal entry member with older | own
        · exact kept.origins entry older
        · rwa [own]
      · intro answer member
        change answer ∈ server'.answers at member
        rw [answers] at member
        obtain ⟨idle, made, done⟩ := kept.answered answer member
        have different : answer.1 ≠ request := by
          intro same
          rw [same, current] at idle
          cases idle
        refine ⟨by rw [config.advance_thread_other different, idle], ?_, ?_⟩
        · change answer.1 < server'.requests.length
          rwa [requests]
        · exact lasting done (congrArg (fun list => list[answer.1]?) requests)
            (BlobServer.exec_entriesOf_of_ne executed different)
  | @environment config event server' happened =>
      have alike := BlobServer.environment_alike happened
      have entries : ∀ request,
          server'.entriesOf request = config.shared.entriesOf request := by
        intro request
        rw [BlobServer.entriesOf, alike.journal]
        rfl
      refine
        { origins := ?_
          running := ?_
          answered := ?_ }
      · change ∀ entry ∈ server'.journal, entry.origin < server'.requests.length
        rw [alike.journal, alike.requests]
        exact kept.origins
      · change ∀ request, config.thread request ≠ none → request < server'.requests.length
        rw [alike.requests]
        exact kept.running
      · intro answer member
        change answer ∈ server'.answers at member
        rw [alike.answers] at member
        obtain ⟨idle, made, done⟩ := kept.answered answer member
        refine ⟨idle, ?_, ?_⟩
        · change answer.1 < server'.requests.length
          rwa [alike.requests]
        · exact lasting done (congrArg (fun list => list[answer.1]?) alike.requests)
            (entries answer.1)
  | start current started =>
      obtain ⟨rfl, rfl, rfl⟩ := start_eq started
      exact kept.start lasting _ _
  | @finish config request outcome current =>
      have active : request < config.shared.requests.length :=
        kept.running request (by simp [current])
      refine
        { origins := kept.origins
          running := kept.running_advance active (Nat.le_refl _)
          answered := ?_ }
      intro answer member
      change answer ∈ config.shared.answers ++ [@Prod.mk Nat BlobOutcome request outcome]
        at member
      rw [List.mem_append, List.mem_singleton] at member
      rcases member with older | rfl
      · obtain ⟨idle, made, done⟩ := kept.answered answer older
        have different : answer.1 ≠ request := by
          intro same
          rw [same, current] at idle
          cases idle
        exact ⟨by rw [config.advance_thread_other different, idle], made,
          lasting done rfl rfl⟩
      · exact ⟨config.advance_thread_self _ _ _, active,
          lasting (ended request outcome current) rfl rfl⟩
  | @abandon config request =>
      refine
        { origins := kept.origins
          running := ?_
          answered := ?_ }
      · intro other busy
        by_cases same : other = request
        · simp [same] at busy
        · rw [config.advance_thread_other same] at busy
          exact kept.running other busy
      · intro answer member
        obtain ⟨idle, made, done⟩ := kept.answered answer member
        refine ⟨?_, made, lasting done rfl rfl⟩
        by_cases same : answer.1 = request
        · rw [same]
          exact config.advance_thread_self _ _ _
        · rw [config.advance_thread_other same, idle]

end Records

end VaultCrdtServer
