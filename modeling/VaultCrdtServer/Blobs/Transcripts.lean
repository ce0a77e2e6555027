import VaultCrdtServer.Blobs.Records
import VaultCrdtServer.Foundation.Transcript

/-!
# What requests go by

The replies a request has had are those its calls have in the journal.  How the
calls of a request and what it ends with depend on these replies is read off its
program and holds in every run.
-/

namespace VaultCrdtServer

open Interleaving

/-- A database call that took effect, and its reply. -/
abbrev BlobQuery := (call : BlobDbCall) × call.Reply

/-- What a journal entry replies. -/
def BlobEntry.query (entry : BlobEntry) : BlobQuery := ⟨entry.call, entry.reply⟩

/-- What a call adds to the replies its request goes by. -/
def BlobCall.queried : (call : BlobCall) → blobSignature.Reply call → List BlobQuery
  | .db call, .ok reply => [⟨call, reply⟩]
  | _, _ => []

/-- The replies a request has had. -/
def BlobServer.queriesOf (request : Nat) (server : BlobServer) : List BlobQuery :=
  (server.entriesOf request).map BlobEntry.query

section Steps

variable {settings : BlobSettings} {request : Nat} {server server' : BlobServer}

/-- A request hears the replies to its own calls. -/
theorem BlobServer.queriesOf_exec
    {call : BlobCall}
    {circumstance : BlobCircumstance}
    {reply : blobSignature.Reply call}
    (executed : BlobServer.exec settings request call circumstance server =
      some (reply, server')) :
    server'.queriesOf request = server.queriesOf request ++ call.queried reply := by
  cases call with
  | db call =>
      rcases BlobServer.query_cases executed with
        ⟨error, rfl, rfl⟩ | ⟨value, db, rfl, -, -, rfl⟩
      · exact (List.append_nil _).symm
      · simp [queriesOf, entriesOf_commit_self, BlobCall.queried, BlobEntry.query]
  | _ =>
      rw [exec_other executed fun _ same => by cases same]
      exact (List.append_nil _).symm

/-- The entry a call adds to the journal is that of its execution. -/
theorem BlobServer.mem_journal_exec
    {call : BlobCall}
    {circumstance : BlobCircumstance}
    {reply : blobSignature.Reply call}
    {entry : BlobEntry}
    (executed : BlobServer.exec settings request call circumstance server =
      some (reply, server'))
    (member : entry ∈ server'.journal) :
    entry ∈ server.journal ∨
      entry.before = server.db ∧ ∃ uuid,
        entry.call.exec settings.defaultQuotaBytes entry.now uuid entry.before =
          .ok (entry.reply, entry.after) := by
  cases call with
  | db call =>
      rcases BlobServer.query_cases executed with
        ⟨error, rfl, rfl⟩ | ⟨value, db, rfl, -, effect, rfl⟩
      · exact Or.inl member
      · rcases List.mem_append.mp member with older | new
        · exact Or.inl older
        · obtain rfl := List.mem_singleton.mp new
          exact Or.inr ⟨rfl, _, effect⟩
  | _ =>
      rw [exec_other executed fun _ same => by cases same] at member
      exact Or.inl member

/-- A request that has not been made has heard nothing. -/
theorem RecordsKept.queriesOf_new
    {concluded : Nat → BlobOutcome → BlobServer → Prop}
    {config : (blobMachine settings).Config}
    (kept : RecordsKept concluded config) :
    config.shared.queriesOf config.shared.requests.length = [] := by
  refine List.map_eq_nil_iff.mpr (List.filter_eq_nil_iff.mpr ?_)
  intro entry member own
  have made := kept.origins entry member
  rw [decide_eq_true_eq] at own
  omega

end Steps

section Runs

variable {settings : BlobSettings} {quotaBytes : Table String (Option Int)}
variable {permitted : BlobTask → BlobCall → List BlobQuery → Prop}
variable {concluded : BlobTask → BlobOutcome → List BlobQuery → Prop}

/-- What a request has ended with is accounted for by the replies it has had. -/
def Concludes
    (concluded : BlobTask → BlobOutcome → List BlobQuery → Prop)
    (request : Nat)
    (outcome : BlobOutcome)
    (server : BlobServer) : Prop :=
  ∀ task, server.requests[request]? = some task →
    concluded task outcome (server.queriesOf request)

theorem Concludes.lasting : Lasting (Concludes concluded) := by
  intro request outcome server server' holds requests entries task made
  rw [BlobServer.queriesOf, entries]
  exact holds task (requests ▸ made)

/-- The requests that run go by the replies they have had, and so have those
that have been answered. -/
structure Attentive
    (permitted : BlobTask → BlobCall → List BlobQuery → Prop)
    (concluded : BlobTask → BlobOutcome → List BlobQuery → Prop)
    (config : (blobMachine settings).Config) : Prop where
  records : RecordsKept (Concludes concluded) config
  threads : ∀ request program task, config.thread request = some program →
    config.shared.requests[request]? = some task →
      program.Accounts BlobCall.queried (permitted task) (concluded task)
        (config.shared.queriesOf request)

variable {config config' : (blobMachine settings).Config}

/-- One request goes on, and nothing changes for the others. -/
theorem Attentive.threads_advance
    {request : Nat}
    {rest : Option (Program blobSignature (blobMachine settings).Outcome)}
    {server' : BlobServer}
    (attentive : Attentive permitted concluded config)
    (goes : ∀ program task, rest = some program → server'.requests[request]? = some task →
      program.Accounts BlobCall.queried (permitted task) (concluded task)
        (server'.queriesOf request))
    (others : ∀ other, other ≠ request → config.thread other ≠ none →
      server'.requests[other]? = config.shared.requests[other]? ∧
        server'.queriesOf other = config.shared.queriesOf other) :
    ∀ other program task, (config.advance request rest server').thread other = some program →
      server'.requests[other]? = some task →
        program.Accounts BlobCall.queried (permitted task) (concluded task)
          (server'.queriesOf other) := by
  intro other program task running made
  by_cases same : other = request
  · subst same
    rw [config.advance_thread_self] at running
    exact goes program task running made
  · rw [config.advance_thread_other same] at running
    obtain ⟨tasks, queries⟩ := others other same (by simp [running])
    rw [queries]
    exact attentive.threads other program task running (tasks ▸ made)

theorem Attentive.step
    {label : (blobMachine settings).Label}
    (programs : ∀ task, (blobProgram settings task).Accounts BlobCall.queried
      (permitted task) (concluded task) [])
    (attentive : Attentive permitted concluded config)
    (stepped : Machine.Steps (blobMachine settings) label config config') :
    Attentive permitted concluded config' := by
  have ended : ∀ request outcome, config.thread request = some (.done outcome) →
      Concludes concluded request outcome config.shared :=
    fun request outcome current task made =>
      attentive.threads request _ task current made
  refine ⟨attentive.records.step Concludes.lasting ended stepped, ?_⟩
  cases stepped with
  | @act _ request circumstance call next reply server' current executed =>
      have requests := (BlobServer.exec_records executed).1
      refine attentive.threads_advance ?_ ?_
      · rintro program task same made
        obtain rfl := Option.some.inj same
        rw [BlobServer.queriesOf_exec executed]
        exact (attentive.threads request _ task current (requests ▸ made)).2 reply
      · intro other different _
        refine ⟨by rw [requests], ?_⟩
        rw [BlobServer.queriesOf, BlobServer.exec_entriesOf_of_ne executed different]
        rfl
  | @environment _ event server' happened =>
      have alike := BlobServer.environment_alike happened
      intro request program task running made
      have queries : server'.queriesOf request = config.shared.queriesOf request := by
        rw [BlobServer.queriesOf, BlobServer.entriesOf, alike.journal]
        rfl
      change server'.requests[request]? = some task at made
      rw [alike.requests] at made
      change program.Accounts _ _ _ (server'.queriesOf request)
      rw [queries]
      exact attentive.threads request program task running made
  | start current started =>
      obtain ⟨rfl, rfl, rfl⟩ := start_eq started
      refine attentive.threads_advance ?_ ?_
      · rintro program task same made
        obtain rfl := Option.some.inj same
        obtain rfl := Option.some.inj (List.getElem?_concat_length.symm.trans made)
        change Program.Accounts _ _ _ _
          (config.shared.queriesOf config.shared.requests.length)
        rw [attentive.records.queriesOf_new]
        exact programs _
      · intro other _ busy
        exact ⟨List.getElem?_append_left (attentive.records.running other busy), rfl⟩
  | finish current =>
      exact attentive.threads_advance (fun _ _ rest => by cases rest)
        fun _ _ _ => ⟨rfl, rfl⟩
  | abandon =>
      exact attentive.threads_advance (fun _ _ rest => by cases rest)
        fun _ _ _ => ⟨rfl, rfl⟩

/-- A server that takes a step stays reachable. -/
theorem BlobReachable.step
    {label : (blobMachine settings).Label}
    (reachable : BlobReachable settings quotaBytes config)
    (stepped : Machine.Steps (blobMachine settings) label config config') :
    BlobReachable settings quotaBytes config' := by
  obtain ⟨labels, runs⟩ := reachable
  refine ⟨labels ++ [label], ?_⟩
  simp only [Machine.run_append, runs, Option.bind_some, Machine.run,
    Machine.step_eq_some_iff.mpr stepped]

/-- What holds at first and is preserved by every step holds of a reachable
server. -/
theorem BlobReachable.induction
    {motive : (blobMachine settings).Config → Prop}
    (initially : motive (blobConfig settings (.fresh quotaBytes) .empty))
    (preserved : ∀ {label config config'}, BlobReachable settings quotaBytes config →
      motive config → Machine.Steps (blobMachine settings) label config config' →
        motive config')
    (reachable : BlobReachable settings quotaBytes config) :
    motive config := by
  obtain ⟨labels, runs⟩ := reachable
  have admitted : Machine.Admits (fun _ _ => True) labels
      (blobConfig settings (.fresh quotaBytes) .empty) := .of_forall _ _ fun _ _ => trivial
  have both := Machine.run_induction
    (motive := fun config => BlobReachable settings quotaBytes config ∧ motive config)
    (fun ⟨reached, holds⟩ _ stepped => ⟨reached.step stepped, preserved reached holds stepped⟩)
    ⟨⟨[], rfl⟩, initially⟩ admitted runs
  exact both.2

/-- In every run the requests go by the replies they have had. -/
theorem BlobReachable.attentive
    (programs : ∀ task, (blobProgram settings task).Accounts BlobCall.queried
      (permitted task) (concluded task) [])
    (reachable : BlobReachable settings quotaBytes config) :
    Attentive permitted concluded config :=
  reachable.induction ⟨.initial _ _, fun _ _ _ running => nomatch running⟩
    fun _ attentive stepped => attentive.step programs stepped

/-- What holds of a call that is executed, with the databases before and after
it, holds of every entry of the journal. -/
theorem BlobReachable.journal
    {motive : BlobEntry → Prop}
    (made : ∀ {config : (blobMachine settings).Config} {entry uuid},
      BlobReachable settings quotaBytes config → entry.before = config.shared.db →
      entry.call.exec settings.defaultQuotaBytes entry.now uuid entry.before =
        .ok (entry.reply, entry.after) → motive entry)
    (reachable : BlobReachable settings quotaBytes config) :
    ∀ entry ∈ config.shared.journal, motive entry := by
  refine reachable.induction
    (motive := fun config => ∀ entry ∈ config.shared.journal, motive entry)
    (fun _ member => nomatch member) ?_
  intro label config config' reached earlier stepped
  cases stepped with
  | @act _ request circumstance call next reply server' current executed =>
      intro entry member
      rcases BlobServer.mem_journal_exec executed member with older | ⟨before, uuid, exec⟩
      · exact earlier entry older
      · exact made reached before exec
  | environment happened =>
      rw [(BlobServer.environment_alike happened).journal]
      exact earlier
  | start current started =>
      obtain ⟨-, -, rfl⟩ := start_eq started
      exact earlier
  | finish current => exact earlier
  | abandon => exact earlier

end Runs

end VaultCrdtServer
