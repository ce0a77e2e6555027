import VaultCrdtServer.Foundation.Execution
import VaultCrdtServer.Server.Settlement
import VaultCrdtServer.Server.Reference

/-!
# Refused frames

A frame changes documents, tombstones and incarnations with one database call
or not at all.  The handlers read until they make that call, and acknowledge
and announce it; whatever is refused or fails on the way has changed nothing.
This holds from every state and under any interference, wherever a call fails
and wherever the handler is dropped.
-/

namespace VaultCrdtServer

open Interleaving

variable {Blob : Type}

/-- Documents, tombstones and incarnations. -/
def Db.documentTables (db : Db Blob) :
    Table DocPath (DocumentRow Blob) × Table DocPath TombstoneRow × Table String Int :=
  (db.documents, db.tombstones, db.vaultIncarnation)

/-- The calls made for a frame. -/
abbrev Made (Blob : Type) := List (Performed (serverSignature Blob) (Server Blob))

/-- A call can have this effect, at some time and whether or not it fails. -/
def Server.Executes
    (settings : Settings Blob)
    (connId : Nat)
    (call : ServerCall Blob)
    (server : Server Blob)
    (reply : call.Reply)
    (server' : Server Blob) : Prop :=
  ∃ circumstance,
    Server.exec settings connId call circumstance server = some (reply, server')

/-- None of the calls has changed the tables. -/
def Untouched (made : Made Blob) : Prop :=
  ∀ performed ∈ made,
    performed.after.db.documentTables = performed.before.db.documentTables

/-- One database call has committed, and no other call has changed the tables. -/
def CommittedOnce (made : Made Blob) : Prop :=
  ∃ front call reply before after back path,
    made = front ++ ⟨.db call, .ok reply, before, after⟩ :: back ∧
      call.committed reply = some path ∧ Untouched front ∧ Untouched back

/-- What the calls made for a frame, and its answer, have done. -/
structure LeavesNoTrace
    (made : Made Blob)
    (rest : Program (serverSignature Blob) (Answer Blob)) : Prop where
  /-- The frame has changed the tables with one transaction or not at all. -/
  whole : Untouched made ∨ CommittedOnce made
  /-- A broadcast is returned with an `Ack`, and only then. -/
  announced : ∀ answer, rest = .done answer →
    (answer.2.isSome = true ↔ answer.1.IsAck)
  /-- An `Ack` reports a committed change. -/
  acknowledged : ∀ answer, rest = .done answer → answer.1.IsAck → CommittedOnce made
  /-- Whatever is answered otherwise has changed nothing. -/
  refused : ∀ answer, rest = .done answer → ¬ answer.1.IsAck → Untouched made
  /-- Where nobody interfered, the tables are then exactly as before. -/
  asBefore : ∀ answer first last, rest = .done answer → ¬ answer.1.IsAck →
    Program.Undisturbed made first last →
      last.db.documentTables = first.db.documentTables

/-! ## One call -/

section Calls

variable {settings : Settings Blob} {connId : Nat} {server server' : Server Blob}

/-- Where a handler of a frame makes a call: it writes only if nothing has been
written for the frame before. -/
def framePre : ServerCall Blob → Made Blob → Prop
  | .db call, made =>
      call.isRead = true ∨ call.target.isSome = true ∧ Untouched made
  | .lock _, _ | .unlock _, _ => True
  | _, _ => False

/-- A database call of a handler commits to a path, or changes nothing. -/
theorem documentTables_of_query
    {call : DbCall Blob}
    {reply : Except ServerError call.Reply}
    (handled : call.isRead = true ∨ call.target.isSome = true)
    (executed : Server.Executes settings connId (.db call) server reply server') :
    (server'.db.documentTables = server.db.documentTables ∧
        ∀ value, reply = .ok value → call.committed value = none) ∨
      ∃ value path, reply = .ok value ∧ call.committed value = some path := by
  obtain ⟨circumstance, executed⟩ := executed
  simp only [Server.exec, Server.query, Option.some.injEq] at executed
  cases fault : circumstance.fault with
  | some error =>
      simp only [fault, Prod.mk.injEq] at executed
      obtain ⟨rfl, rfl⟩ := executed
      exact Or.inl ⟨rfl, fun _ same => (nomatch same)⟩
  | none =>
      cases result : call.exec settings.toLibraries circumstance.now server.db with
      | error error =>
          simp only [fault, result, Prod.mk.injEq] at executed
          obtain ⟨rfl, rfl⟩ := executed
          exact Or.inl ⟨rfl, fun _ same => (nomatch same)⟩
      | ok result' =>
          obtain ⟨value, db⟩ := result'
          simp only [fault, result, Prod.mk.injEq] at executed
          obtain ⟨rfl, rfl⟩ := executed
          have effect := DbCall.effect_of_exec result
          cases written : call.committed value with
          | some path => exact Or.inr ⟨value, path, rfl, written⟩
          | none =>
              refine Or.inl ⟨?_, fun _ same => Except.ok.inj same ▸ written⟩
              cases effect with
              | read | rejected => rfl
              | kept | established | replaced | removed | absent => cases written
              | peerUpserted | tombstonesExpired | peersExpired =>
                  rcases handled with read | target
                  · cases read
                  · cases target

/-- Locks leave the tables alone. -/
theorem documentTables_of_lock
    {call : ServerCall Blob}
    {reply : call.Reply}
    (isLock : (∃ key, call = .lock key) ∨ ∃ key, call = .unlock key)
    (executed : Server.Executes settings connId call server reply server') :
    server'.db.documentTables = server.db.documentTables := by
  obtain ⟨circumstance, executed⟩ := executed
  rcases isLock with ⟨key, rfl⟩ | ⟨key, rfl⟩
  · cases free : server.docLocks key with
    | some holder => simp [Server.exec, free] at executed
    | none =>
        simp only [Server.exec, free, Option.some.injEq, Prod.mk.injEq] at executed
        obtain ⟨_, rfl⟩ := executed
        rfl
  · simp only [Server.exec, Option.some.injEq, Prod.mk.injEq] at executed
    obtain ⟨_, rfl⟩ := executed
    rfl

theorem Untouched.concat
    {made : Made Blob}
    {call : ServerCall Blob}
    {reply : call.Reply}
    (untouched : Untouched made)
    (same : server'.db.documentTables = server.db.documentTables) :
    Untouched (made ++ [⟨call, reply, server, server'⟩]) := by
  intro performed member
  rw [List.mem_append, List.mem_singleton] at member
  rcases member with earlier | rfl
  · exact untouched performed earlier
  · exact same

theorem CommittedOnce.concat
    {made : Made Blob}
    {call : ServerCall Blob}
    {reply : call.Reply}
    (committed : CommittedOnce made)
    (same : server'.db.documentTables = server.db.documentTables) :
    CommittedOnce (made ++ [⟨call, reply, server, server'⟩]) := by
  obtain ⟨front, dbCall, value, before, after, back, path, rfl, writes, quiet, later⟩ :=
    committed
  exact ⟨front, dbCall, value, before, after, back ++ [⟨call, reply, server, server'⟩],
    path, by simp, writes, quiet, later.concat same⟩

/-- A call made where it is allowed keeps the whole. -/
theorem whole_concat
    {made : Made Blob}
    {call : ServerCall Blob}
    {reply : call.Reply}
    (whole : Untouched made ∨ CommittedOnce made)
    (pre : framePre call made)
    (executed : Server.Executes settings connId call server reply server') :
    Untouched (made ++ [⟨call, reply, server, server'⟩]) ∨
      CommittedOnce (made ++ [⟨call, reply, server, server'⟩]) := by
  cases call with
  | db call =>
      rcases documentTables_of_query (pre.imp_right And.left) executed with
        ⟨same, _⟩ | ⟨value, path, rfl, writes⟩
      · exact whole.imp (Untouched.concat · same) (CommittedOnce.concat · same)
      · rcases pre with isRead | ⟨_, untouched⟩
        · have target := DbCall.target_of_committed writes
          cases (DbCall.target_of_isRead isRead).symm.trans target
        · exact Or.inr ⟨made, call, value, server, server', [], path, rfl, writes,
            untouched, fun _ member => (nomatch member)⟩
  | lock key =>
      have same := documentTables_of_lock (Or.inl ⟨key, rfl⟩) executed
      exact whole.imp (Untouched.concat · same) (CommittedOnce.concat · same)
  | unlock key =>
      have same := documentTables_of_lock (Or.inr ⟨key, rfl⟩) executed
      exact whole.imp (Untouched.concat · same) (CommittedOnce.concat · same)
  | respond | publish | subscribe => exact pre.elim

end Calls

/-! ## Handlers -/

section Handlers

/-- The contract of a frame's handlers, over the calls they have made. -/
def frameContract
    (settings : Settings Blob)
    (connId : Nat) : Contract (serverSignature Blob) (Made Blob) :=
  Program.recording (Server.Executes settings connId) framePre

/-- An answer accounts for what has been done for its frame. -/
def Accounts (answer : Answer Blob) (made : Made Blob) : Prop :=
  (answer.1.IsAck ∧ answer.2.isSome = true ∧ CommittedOnce made) ∨
    (¬ answer.1.IsAck ∧ answer.2 = none ∧ Untouched made)

/-- A result that comes with a commit, or an error that comes with none. -/
def CommitsOrFails {α : Type} : Except ServerError α → Made Blob → Prop
  | .ok _, made => CommittedOnce made
  | .error _, made => Untouched made

/-- The result of a handler accounts for what it has done. -/
def AccountsFor : Except ServerError (Answer Blob) → Made Blob → Prop
  | .ok answer, made => Accounts answer made
  | .error _, made => Untouched made

variable (settings : Settings Blob) (connId : Nat)

/-- The handler changes nothing. -/
def Handler.Quiet {α : Type} (handler : Handler Blob α) : Prop :=
  ∀ made, Untouched made →
    (ExceptT.run handler).Meets (frameContract settings connId)
      (fun _ later => Untouched later) made

/-- The handler commits a change, or fails. -/
def Handler.Writes {α : Type} (handler : Handler Blob α) : Prop :=
  ∀ made, Untouched made →
    (ExceptT.run handler).Meets (frameContract settings connId) CommitsOrFails made

/-- The handler's result accounts for what it does. -/
def Handler.Accountable (handler : Handler Blob (Answer Blob)) : Prop :=
  ∀ made, Untouched made →
    (ExceptT.run handler).Meets (frameContract settings connId) AccountsFor made

variable {settings connId} {α : Type}

theorem quiet_ofExcept (result : Except ServerError α) :
    (ofExcept result : Handler Blob α).Quiet settings connId := by
  rintro made untouched later rfl
  exact untouched

theorem quiet_pure (value : α) :
    (pure value : Handler Blob α).Quiet settings connId :=
  quiet_ofExcept (.ok value)

/-- A query changes nothing. -/
theorem quiet_query
    {call : DbCall Blob}
    (isRead : call.isRead = true) :
    (dbCall call).Quiet settings connId := by
  intro made untouched
  apply Program.Meets.perform
  · rintro made' rfl
    exact Or.inl isRead
  · rintro made' reply made'' later rfl ⟨server, server', executed, rfl⟩ rfl
    rcases documentTables_of_query (Or.inl isRead) executed with
      ⟨same, _⟩ | ⟨value, path, _, writes⟩
    · exact untouched.concat same
    · have target := DbCall.target_of_committed writes
      cases (DbCall.target_of_isRead isRead).symm.trans target

/-- The first write of a handler: it commits, is rejected, or fails. -/
theorem meets_firstWrite
    {call : DbCall Blob}
    {outcome : Except ServerError call.Reply → Made Blob → Prop}
    {made : Made Blob}
    (target : call.target.isSome = true)
    (untouched : Untouched made)
    (commits : ∀ value path later, call.committed value = some path →
      CommittedOnce later → outcome (.ok value) later)
    (rejects : ∀ value later, call.committed value = none →
      Untouched later → outcome (.ok value) later)
    (fails : ∀ error later, Untouched later → outcome (.error error) later) :
    (dbCall call).run.Meets (frameContract settings connId) outcome made := by
  apply Program.Meets.perform
  · rintro made' rfl
    exact Or.inr ⟨target, untouched⟩
  · rintro made' reply made'' later rfl ⟨server, server', executed, rfl⟩ rfl
    rcases documentTables_of_query (Or.inr target) executed with
      ⟨same, rejected⟩ | ⟨value, path, rfl, writes⟩
    · have still : Untouched (made ++ [⟨.db call, reply, server, server'⟩]) :=
        untouched.concat same
      cases reply with
      | error error => exact fails error _ still
      | ok value => exact rejects value _ (rejected value rfl) still
    · exact commits value path _ writes ⟨made, call, value, server, server', [], path,
        rfl, writes, untouched, fun _ member => (nomatch member)⟩

/-- A call that always commits. -/
theorem writes_dbCall
    {call : DbCall Blob}
    (target : call.target.isSome = true)
    (always : ∀ reply, (call.committed reply).isSome = true) :
    (dbCall call).Writes settings connId := by
  intro made untouched
  refine meets_firstWrite target untouched ?_ ?_ ?_
  · exact fun _ _ _ _ committed => committed
  · intro value later rejected
    have committed := always value
    rw [rejected] at committed
    cases committed
  · exact fun _ _ still => still

/-- What is refused or fails accounts for nothing. -/
theorem accountable_refuse
    {response : ServerMsg Blob}
    (refused : ¬ response.IsAck) :
    Handler.Accountable settings connId (pure (response, none)) := by
  rintro made untouched later rfl
  exact Or.inr ⟨refused, rfl, untouched⟩

theorem accountable_fail (error : ServerError) :
    Handler.Accountable settings connId
      (ofExcept (.error error) : Handler Blob (Answer Blob)) := by
  rintro made untouched later rfl
  exact untouched

theorem quiet_ite
    {condition : Prop} [Decidable condition]
    {first second : Handler Blob α}
    (quiet : first.Quiet settings connId)
    (quiet' : second.Quiet settings connId) :
    (if condition then first else second).Quiet settings connId := by
  split_ifs
  · exact quiet
  · exact quiet'

theorem writes_ite
    {condition : Prop} [Decidable condition]
    {first second : Handler Blob α}
    (writes : first.Writes settings connId)
    (writes' : second.Writes settings connId) :
    (if condition then first else second).Writes settings connId := by
  split_ifs
  · exact writes
  · exact writes'

theorem accountable_ite
    {condition : Prop} [Decidable condition]
    {first second : Handler Blob (Answer Blob)}
    (accountable : first.Accountable settings connId)
    (accountable' : second.Accountable settings connId) :
    (if condition then first else second).Accountable settings connId := by
  split_ifs
  · exact accountable
  · exact accountable'

/-- A handler that first does something quiet. -/
theorem accountable_bind
    {first : Handler Blob α}
    {next : α → Handler Blob (Answer Blob)}
    (quiet : first.Quiet settings connId)
    (accountable : ∀ value, (next value).Accountable settings connId) :
    (first >>= next).Accountable settings connId := by
  intro made untouched
  apply Program.Meets.bind_fallible fun _ later => Untouched later
  · refine (quiet made untouched).weaken ?_
    intro result later still
    cases result with
    | ok value => exact still
    | error error => exact still
  · exact fun value later still => accountable value later still

/-- A handler that commits a change and acknowledges it. -/
theorem accountable_commit
    {write : Handler Blob α}
    (acknowledge : α → Option Int × BroadcastEvent Blob)
    (writes : write.Writes settings connId) :
    Handler.Accountable settings connId (do
      let value ← write
      return (.ack (acknowledge value).1 none, some (acknowledge value).2)) := by
  intro made untouched
  apply Program.Meets.bind_fallible fun _ later => CommittedOnce later
  · refine (writes made untouched).weaken ?_
    intro result later ended
    cases result with
    | ok value => exact ended
    | error error => exact ended
  · rintro value later committed last rfl
    exact Or.inl ⟨trivial, rfl, committed⟩

/-- Locking and unlocking does not count. -/
theorem accountable_withLock
    {path : DocPath}
    {block : Handler Blob (Answer Blob)}
    (accountable : block.Accountable settings connId) :
    (withLock path block).Accountable settings connId := by
  intro made untouched
  apply Program.Meets.bind fun _ later => Untouched later
  · apply Program.Meets.perform
    · exact fun _ _ => trivial
    · rintro made' reply made'' later rfl ⟨server, server', executed, rfl⟩ rfl
      exact untouched.concat (documentTables_of_lock (Or.inl ⟨_, rfl⟩) executed)
  · intro _ made' locked
    apply Program.Meets.bind _ (accountable made' locked.post_of_done)
    intro result made'' ended
    apply Program.Meets.bind fun _ later => AccountsFor result later
    · apply Program.Meets.perform
      · exact fun _ _ => trivial
      · rintro later reply later' last rfl ⟨server, server', executed, rfl⟩ rfl
        have same := documentTables_of_lock (Or.inr ⟨_, rfl⟩) executed
        have accounts := ended.post_of_done
        cases result with
        | error error => exact accounts.concat same
        | ok answer =>
            rcases accounts with ⟨acked, due, committed⟩ | ⟨refused, silent, still⟩
            · exact Or.inl ⟨acked, due, committed.concat same⟩
            · exact Or.inr ⟨refused, silent, still.concat same⟩
    · exact fun _ _ unlocked => unlocked

/-! ## Messages -/

variable {libraries : Libraries Blob} {path : DocPath}

theorem accountable_syncStart (clientVvBytes : Option Bytes) :
    (handleSyncStart libraries path clientVvBytes).Accountable settings connId := by
  refine accountable_bind (quiet_query rfl) ?_
  intro existing
  cases existing with
  | none => exact accountable_refuse id
  | some stored =>
      refine accountable_bind (quiet_ofExcept _) fun doc => ?_
      cases clientVvBytes with
      | none => exact accountable_refuse id
      | some vvBytes =>
          refine accountable_bind (quiet_ofExcept _) fun clientVv => ?_
          exact accountable_bind (quiet_ofExcept _) fun delta => accountable_refuse id

/-- A query that is only made under a condition. -/
theorem quiet_isTombstoned (condition : Bool) :
    Handler.Quiet settings connId
      (if condition = true then dbCall (.isTombstoned path) else pure false) :=
  quiet_ite (quiet_query rfl) (quiet_pure false)

theorem accountable_syncPush (delta : Blob) (peerId : String) (sender : Nat) :
    (handleSyncPush libraries path delta peerId sender).Accountable settings connId := by
  refine accountable_bind (quiet_query rfl) fun existing => ?_
  refine accountable_bind (quiet_isTombstoned _) fun tombstoned => ?_
  cases tombstoned with
  | true => exact accountable_refuse id
  | false =>
      refine accountable_bind (quiet_ofExcept _) fun disjoint => ?_
      cases disjoint with
      | true => exact accountable_refuse id
      | false =>
          refine accountable_bind (quiet_ofExcept _) fun merged => ?_
          exact accountable_commit
            (fun token =>
              (if existing.isNone then some token else none,
                .delta path.vault path.doc delta peerId sender
                  (vvToJsonBytes libraries.json merged.vv)
                  (if existing.isNone then some token else none)))
            (writes_dbCall rfl fun _ => rfl)

theorem accountable_docCreate
    (snapshot : Blob)
    (peerId : String)
    (sender : Nat)
    (replaceTombstone : Bool) :
    (handleDocCreate libraries path snapshot peerId sender
      replaceTombstone).Accountable settings connId := by
  refine accountable_bind (quiet_query rfl) fun existing => ?_
  refine accountable_bind (quiet_isTombstoned _) fun wasTombstoned => ?_
  refine accountable_ite (accountable_refuse id) ?_
  refine accountable_bind (quiet_isTombstoned _) fun clearStaleTombstone => ?_
  refine accountable_bind (quiet_ite (quiet_pure _) (quiet_ofExcept _)) fun disjoint => ?_
  refine accountable_ite (accountable_refuse id) ?_
  refine accountable_bind (quiet_ofExcept _) fun merged => ?_
  refine accountable_commit
    (fun token : Int =>
      (if existing.isNone || wasTombstoned && replaceTombstone || clearStaleTombstone then
          some token
        else
          none,
        .delta path.vault path.doc snapshot peerId sender
          (vvToJsonBytes libraries.json merged.vv)
          (if existing.isNone || wasTombstoned && replaceTombstone ||
              clearStaleTombstone then
            some token
          else
            none)))
    ?_
  exact writes_ite (writes_dbCall rfl fun _ => rfl) (writes_dbCall rfl fun _ => rfl)

/-- A delete is acknowledged, or rejected and changes nothing. -/
theorem accountable_docDelete
    (peerId : String)
    (sender : Nat)
    (expectedIncarnation : Option Int)
    (intentId requestId : Option String) :
    Handler.Accountable settings connId
      (handleDocDelete path peerId sender expectedIncarnation intentId requestId :
        Handler Blob (Answer Blob)) := by
  intro made untouched
  apply Program.Meets.bind_fallible fun outcome later =>
    (∃ contentHash, outcome.buried = some contentHash) ∧ CommittedOnce later ∨
      (∃ live, outcome = .rejected live) ∧ Untouched later
  · refine meets_firstWrite rfl untouched ?_ ?_ ?_
    · intro outcome written later committed once
      cases outcome with
      | deleted contentHash _ | idempotentNoLive contentHash =>
          exact Or.inl ⟨⟨contentHash, rfl⟩, once⟩
      | rejected live => cases committed
    · intro outcome later rejected still
      cases outcome with
      | deleted | idempotentNoLive => cases rejected
      | rejected live => exact Or.inr ⟨⟨live, rfl⟩, still⟩
    · exact fun _ _ still => still
  · rintro outcome later (⟨⟨contentHash, buried⟩, once⟩ | ⟨⟨live, rfl⟩, still⟩)
    · cases outcome with
      | deleted | idempotentNoLive =>
          rintro last rfl
          exact Or.inl ⟨trivial, rfl, once⟩
      | rejected => cases buried
    · rintro last rfl
      exact Or.inr ⟨id, rfl, still⟩

/-- Every message is accounted for. -/
theorem accountable_processInner
    (msg : ClientMsg Blob)
    (vaultId : String)
    (sender : Nat) :
    (processInner libraries msg vaultId sender).Accountable settings connId := by
  refine accountable_bind (quiet_ofExcept _) fun _ => ?_
  cases msg with
  | auth => exact accountable_fail _
  | ping => exact accountable_refuse id
  | requestDocList =>
      refine accountable_bind (quiet_query rfl) fun docs => ?_
      refine accountable_bind (quiet_query rfl) fun tombstones => ?_
      exact accountable_bind (quiet_query rfl) fun hashes => accountable_refuse id
  | syncStart docUuid clientVv => exact accountable_syncStart clientVv
  | syncPush docUuid delta peerId requestId =>
      exact accountable_withLock (accountable_syncPush delta peerId sender)
  | docCreate docUuid snapshot peerId replaceTombstone requestId =>
      exact accountable_withLock
        (accountable_docCreate snapshot peerId sender replaceTombstone)
  | docDelete docUuid peerId expectedIncarnation intentId requestId =>
      exact accountable_withLock
        (accountable_docDelete peerId sender expectedIncarnation intentId requestId)

/-- An error is reported as such, and an `Ack` stays one. -/
theorem accounts_finishAnswer
    {requestId : Option String}
    {result : Except ServerError (Answer Blob)}
    {made : Made Blob}
    (accounts : AccountsFor result made) :
    Accounts (finishAnswer requestId result) made := by
  cases result with
  | error error => exact Or.inr ⟨id, rfl, accounts⟩
  | ok answer =>
      obtain ⟨response, broadcast⟩ := answer
      cases response with
      | ack => exact accounts
      | _ => exact accounts

/-- The answer to a frame accounts for what was done for it. -/
theorem processMessage_accounts
    (frame : Frame Blob)
    (vaultId : String)
    (sender : Nat) :
    (processMessage libraries frame vaultId sender).Meets
      (frameContract settings connId) Accounts [] := by
  have untouched : Untouched ([] : Made Blob) := fun _ member => (nomatch member)
  apply Program.Meets.bind AccountsFor
  · cases frame.decoded with
    | ok msg => exact accountable_processInner msg vaultId sender [] untouched
    | error reason => exact accountable_fail _ [] untouched
  · rintro result made ended later rfl
    exact accounts_finishAnswer ended.post_of_done

end Handlers

/-- A frame, however far it got, has left no trace but what it acknowledges. -/
theorem frames_leave_no_trace
    {settings : Settings Blob}
    {connId : Nat}
    {frame : Frame Blob}
    {vaultId : String}
    {made : Made Blob}
    {rest : Program (serverSignature Blob) (Answer Blob)}
    (follows : (processMessage settings.toLibraries frame vaultId connId).Follows
      (Server.Executes settings connId) made rest) :
    LeavesNoTrace made rest := by
  have meets : (processMessage settings.toLibraries frame vaultId connId).Meets
      (frameContract settings connId) Accounts [] :=
    processMessage_accounts frame vaultId connId
  have accounts : ∀ answer, rest = .done answer → Accounts answer made := by
    rintro answer rfl
    exact (follows.meets meets).post_of_done
  have refused : ∀ answer, rest = .done answer → ¬ answer.1.IsAck → Untouched made := by
    intro answer ended unacknowledged
    rcases accounts answer ended with ⟨acked, _⟩ | ⟨_, _, untouched⟩
    · exact absurd acked unacknowledged
    · exact untouched
  refine ⟨?_, ?_, ?_, refused, ?_⟩
  · exact follows.preserves meets (Or.inl fun _ member => (nomatch member))
      fun _ _ _ _ _ whole pre executed => whole_concat whole pre executed
  · intro answer ended
    rcases accounts answer ended with ⟨acked, due, _⟩ | ⟨unacknowledged, silent, _⟩
    · exact iff_of_true due acked
    · exact iff_of_false (by simp [silent]) unacknowledged
  · intro answer ended acked
    rcases accounts answer ended with ⟨_, _, committed⟩ | ⟨unacknowledged, _⟩
    · exact committed
    · exact absurd acked unacknowledged
  · intro answer first last ended unacknowledged undisturbed
    exact undisturbed.view_eq (fun server : Server Blob => server.db.documentTables)
      (refused answer ended unacknowledged)

/-- The calls made for a delete that expects a token where nothing is live. -/
def Made.rejected : Option (Made ReferenceBlob × Answer ReferenceBlob) :=
  (processMessage Settings.reference.toLibraries (.of (.delete (some 1))) "v" 0).trace
    (fun call => Server.exec Settings.reference 0 call ⟨0, none⟩) (Server.started Db.empty)

theorem Made.rejected_isSome : Made.rejected.isSome = true := by
  decide +kernel

theorem frames_leave_no_trace_rejected :
    LeavesNoTrace (Made.rejected.get Made.rejected_isSome).1
      (.done (Made.rejected.get Made.rejected_isSome).2) := by
  have traced : (processMessage Settings.reference.toLibraries
      (.of (.delete (some 1))) "v" 0).trace
        (fun call => Server.exec Settings.reference 0 call ⟨0, none⟩)
        (Server.started Db.empty) = some (Made.rejected.get Made.rejected_isSome) :=
    (Option.some_get Made.rejected_isSome).symm
  exact frames_leave_no_trace (Program.follows_of_trace
    (fun _ _ _ _ executed => ⟨⟨0, none⟩, executed⟩) traced)

end VaultCrdtServer
