import VaultCrdtServer.Blobs.Server

/-!
# Requests processed alone

What the handlers of the blob lane do when no other request is between their
calls and neither the database nor a file operation fails.
-/

namespace VaultCrdtServer

open Interleaving

/-- What is left of the server between two requests: tables and files. -/
structure BlobStore where
  db : BlobDb
  disk : Disk FilePath UInt8

section Alone

variable (settings : BlobSettings) (now : Time) (uuid : String)

/-- The reply to a call while nobody else is running. -/
def serveBlobAlone :
    (call : BlobCall) → BlobStore → blobSignature.Reply call × BlobStore
  | .db call, store =>
      match call.exec settings.defaultQuotaBytes now uuid store.db with
      | .ok (reply, db) => (.ok reply, { store with db := db })
      | .error error => (.error error, store)
  | .file call, store =>
      let result := BlobServer.fileEffect store.disk call
      (result.1, { store with disk := result.2 })
  | .lock _, store | .publish _, store => ((), store)

/-- A handler alone. -/
def BlobHandler.alone
    {α : Type}
    (handler : BlobHandler α)
    (store : BlobStore) : Except ServerError α × BlobStore :=
  (ExceptT.run handler).run (serveBlobAlone settings now uuid) store

variable {α β : Type} {store : BlobStore}

@[simp] theorem blobAlone_bind
    (handler : BlobHandler α)
    (continuation : α → BlobHandler β) :
    (handler >>= continuation).alone settings now uuid store =
      match handler.alone settings now uuid store with
      | (.ok value, store') => (continuation value).alone settings now uuid store'
      | (.error error, store') => (.error error, store') := by
  unfold BlobHandler.alone
  rw [Program.run_bind_fallible, Program.run_bind]
  generalize (ExceptT.run handler).run (serveBlobAlone settings now uuid) store = outcome
  obtain ⟨result, store'⟩ := outcome
  cases result <;> rfl

@[simp] theorem blobAlone_pure (value : α) :
    BlobHandler.alone settings now uuid (pure value) store = (.ok value, store) := rfl

@[simp] theorem blobAlone_attempt (call : BlobCall) :
    (BlobHandler.attempt call).alone settings now uuid store =
      (.ok (serveBlobAlone settings now uuid call store).1,
        (serveBlobAlone settings now uuid call store).2) := rfl

theorem blobAlone_file (call : FileCall) :
    (BlobHandler.file call).alone settings now uuid store =
      ((BlobServer.fileEffect store.disk call).1.mapError IoError.toServerError,
        { store with disk := (BlobServer.fileEffect store.disk call).2 }) := rfl

theorem blobAlone_db_of_ok
    {call : BlobDbCall}
    {reply : call.Reply}
    {db : BlobDb}
    (executed : call.exec settings.defaultQuotaBytes now uuid store.db = .ok (reply, db)) :
    (BlobHandler.db call).alone settings now uuid store =
      (.ok reply, { store with db := db }) := by
  change serveBlobAlone settings now uuid (.db call) store = _
  simp only [serveBlobAlone, executed]

end Alone

end VaultCrdtServer
