import VaultCrdtServer.Db
import VaultCrdtServer.Foundation.Program

/-!
# Messages and calls

The client and server messages of `src/ws.rs`, the broadcast events of
`src/lib.rs`, and the atomic calls the connection tasks are made of.
-/

namespace VaultCrdtServer

variable (Blob : Type)

/-- `ClientMsg` -/
inductive ClientMsg
  | auth (token : String) (protocolVersion : Nat) (features : List String)
  | ping
  | requestDocList
  | syncStart (docUuid : String) (clientVv : Option Bytes)
  | syncPush
      (docUuid : String)
      (delta : Blob)
      (peerId : String)
      (requestId : Option String)
  | docCreate
      (docUuid : String)
      (snapshot : Blob)
      (peerId : String)
      (replaceTombstone : Bool)
      (requestId : Option String)
  | docDelete
      (docUuid : String)
      (peerId : String)
      (expectedIncarnation : Option Int)
      (intentId : Option String)
      (requestId : Option String)

/-- `ServerMsg` -/
inductive ServerMsg
  | authOk (protocolVersion : Nat) (capabilities : Option (List String))
  | pong
  | ack (incarnation : Option Int) (requestId : Option String)
  | error (code message : String) (requestId : Option String)
  | deleteRejected
      (docUuid : String)
      (intentId : Option String)
      (requestId : Option String)
  | docList
      (docs : List DocEntry)
      (tombstones : List String)
      (tombstoneHashes : List TombstoneHash)
  | syncDelta
      (docUuid : String)
      (delta : Blob)
      (serverVv : Bytes)
      (incarnation : Option Int)
  | docUnknown (docUuid : String)
  | deltaBroadcast
      (docUuid : String)
      (delta : Blob)
      (peerId : String)
      (serverVv : Bytes)
      (incarnation : Option Int)
  | docDeleted (docUuid : String) (contentHash : Option String)
  | docTombstoned (docUuid : String)
  | createConflict (docUuid : String)
  | blobPathChanged (pathKey : String) (seq : Int)

/-- `BroadcastEvent` -/
inductive BroadcastEvent
  | delta
      (vaultId docUuid : String)
      (delta : Blob)
      (peerId : String)
      (senderConnId : Nat)
      (serverVv : Bytes)
      (incarnation : Option Int)
  | delete
      (vaultId docUuid : String)
      (senderConnId : Nat)
      (contentHash : Option String)
  | blobPathChanged (vaultId pathKey : String) (seq : Int)

/-- A binary WebSocket frame: its length, and what `rmp_serde::from_slice`
makes of it. -/
structure Frame where
  length : Nat
  decoded : Except String (ClientMsg Blob)

/-- The points at which a connection's tasks touch shared state or wait. -/
inductive ServerCall
  /-- One acquisition of the database. -/
  | db (call : DbCall Blob)
  /-- `doc_locks.get(key)` and `lock().await` on the result. -/
  | lock (key : String)
  /-- The guard of a document lock is dropped. -/
  | unlock (key : String)
  /-- `write_tx.send(bytes).await`, with the frame that is being answered. -/
  | respond (frame : Frame Blob) (response : ServerMsg Blob)
  /-- `broadcast_tx.send(event)` -/
  | publish (event : BroadcastEvent Blob)
  /-- `broadcast_tx.subscribe()` -/
  | subscribe

/-- What a call replies. -/
@[reducible] def ServerCall.Reply : ServerCall Blob → Type
  | .db call => Except ServerError call.Reply
  | .respond .. => Bool
  | _ => Unit

/-- The calls of the connection tasks. -/
@[reducible] def serverSignature : Interleaving.Signature where
  Call := ServerCall Blob
  Reply := ServerCall.Reply Blob

variable {Blob}

/-- The answer is an `Ack`. -/
def ServerMsg.IsAck : ServerMsg Blob → Prop
  | .ack .. => True
  | _ => False

instance : DecidablePred (@ServerMsg.IsAck Blob) := fun msg => by
  induction msg using ServerMsg.casesOn with
  | ack => exact isTrue trivial
  | _ => exact isFalse id

end VaultCrdtServer
