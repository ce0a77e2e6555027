import VaultCrdtServer.Blobs.Db
import VaultCrdtServer.Handlers
import Mathlib.Data.Prod.Lex

/-!
# Request handlers of the blob lane

The handlers of `src/blobs.rs` as programs, in the source's order of checks.
Every acquisition of the database, every file operation, every lock and every
broadcast is a call; `?` is the error case of `ExceptT`.

A guard lives until its handler returns.  It is released when the program ends.
-/

namespace VaultCrdtServer

open Interleaving

/-! ## Calls -/

/-- `std::io::Error` -/
inductive IoError
  | notFound
  | other (reason : String)
  deriving DecidableEq

/-- `ServerError::Io` of an error. -/
def IoError.toServerError : IoError → ServerError
  | .notFound => .io "No such file or directory (os error 2)"
  | .other reason => .io reason

/-- A file that is open, and the position in it. -/
structure OpenFile where
  inode : Nat
  position : Nat
  deriving DecidableEq

/-- The operations of `tokio::fs`. -/
inductive FileCall
  | createDirAll (dir : FilePath)
  /-- `File::create`; the file is closed again. -/
  | create (path : FilePath)
  /-- `OpenOptions::open` without `truncate`. -/
  | open (path : FilePath) (create : Bool)
  | seek (file : OpenFile) (position : Nat)
  | writeAll (file : OpenFile) (bytes : Bytes)
  | syncAll (file : OpenFile)
  | readExact (file : OpenFile) (length : Nat)
  | read (path : FilePath)
  /-- `metadata(path).len()` -/
  | length (path : FilePath)
  | tryExists (path : FilePath)
  | removeFile (path : FilePath)
  | rename (source target : FilePath)

/-- Reply of a file operation that succeeds. -/
abbrev FileCall.Reply : FileCall → Type
  | .createDirAll _ => Unit
  | .create _ => Unit
  | .open _ _ => OpenFile
  | .seek _ _ => OpenFile
  | .writeAll _ _ => Unit
  | .syncAll _ => Unit
  | .readExact _ _ => Bytes
  | .read _ => Bytes
  | .length _ => Nat
  | .tryExists _ => Bool
  | .removeFile _ => Unit
  | .rename _ _ => Unit

/-- `BroadcastEvent::BlobPathChanged` -/
structure BlobPathChanged where
  path : PathKey
  seq : Int
  deriving DecidableEq

/-- The calls of the handlers. -/
inductive BlobCall
  | db (call : BlobDbCall)
  | file (call : FileCall)
  | lock (key : String)
  | publish (event : BlobPathChanged)

/-- The calls and their replies. -/
abbrev blobSignature : Signature where
  Call := BlobCall
  Reply := fun
    | .db call => Except ServerError call.Reply
    | .file call => Except IoError call.Reply
    | .lock _ => Unit
    | .publish _ => Unit

/-- An asynchronous function that may fail. -/
abbrev BlobHandler (α : Type) := ExceptT ServerError (Program blobSignature) α

namespace BlobHandler

/-- One acquisition of the database. -/
def db (call : BlobDbCall) : BlobHandler call.Reply :=
  ExceptT.mk (Program.perform (S := blobSignature) (.db call))

/-- One file operation. -/
def file (call : FileCall) : BlobHandler call.Reply :=
  ExceptT.mk do
    let reply ← Program.perform (S := blobSignature) (.file call)
    return reply.mapError IoError.toServerError

/-- A call whose result is looked at, or ignored. -/
def attempt (call : BlobCall) : BlobHandler (blobSignature.Reply call) :=
  ExceptT.lift (Program.perform (S := blobSignature) call)

end BlobHandler

/-! ## Responses -/

/-- The responses, with what their bodies carry. -/
inductive Response
  /-- A body of the form `{"error": …}`. -/
  | error (status : Nat) (error : String)
  | typeCapExceeded (maxBytes : Nat)
  | tooManyUploads
  | quotaExceeded (quotaBytes : Nat)
  | uploadExists
  | uploadCreated (uploadId : String)
  | uploadState (nextOffset : Int) (hash : Hash) (size : Int)
  | offsetConflict (nextOffset : Int)
  | segmentAccepted (nextOffset : Nat)
  | blobStored (hash : Hash)
  | blobContent (body : Bytes)
  | blobRange (first last total : Nat) (body : Bytes)
  | rangeNotSatisfiable (total : Nat)
  | pathAccepted (seq : Int)
  | pathRejected (path : PathKey) (current : PathRow)
  | pathStates (states : List (String × PathRow)) (maxSeq : Int)

/-- Status code of a response. -/
def Response.status : Response → Nat
  | .error status _ => status
  | .typeCapExceeded _ => 413
  | .tooManyUploads => 429
  | .quotaExceeded _ => 413
  | .uploadExists => 200
  | .uploadCreated _ => 201
  | .uploadState _ _ _ => 200
  | .offsetConflict _ => 409
  | .segmentAccepted _ => 202
  | .blobStored _ => 201
  | .blobContent _ => 200
  | .blobRange _ _ _ _ => 206
  | .rangeNotSatisfiable _ => 416
  | .pathAccepted _ => 200
  | .pathRejected _ _ => 409
  | .pathStates _ _ => 200

/-- Status code of what a handler returns. -/
def statusOf : Except ServerError Response → Nat
  | .ok response => response.status
  | .error error => error.status

namespace Response

def uploadNotFound : Response := .error 404 "upload not found"

def payloadTooLarge : Response := .error 413 "payload_too_large"

def blobNotUploaded : Response := .error 412 "blob not uploaded"

def blobNotFound : Response := .error 404 "blob not found"

def invalidBlobPath : Response := .error 400 "invalid blob path"

end Response

/-! ## Uploads -/

/-- `discard_upload` -/
def discardUpload (vault : VaultId) (uploadId : String) : BlobHandler Unit := do
  let _ ← BlobHandler.attempt (.db (.deleteUpload vault uploadId))
  let _ ← BlobHandler.attempt (.file (.removeFile (tmpFilePath uploadId)))

/-- Read an upload, discarding it if it has expired. -/
def liveUpload (vault : VaultId) (uploadId : String) : BlobHandler (Option UploadView) := do
  match ← BlobHandler.db (.readUpload vault uploadId) with
  | none => return none
  | some row =>
      if row.expired then
        discardUpload vault uploadId
        return none
      else
        return some row

/-- The loop of `sweep_expired_uploads`. -/
def sweepUploads : List (VaultId × String) → Nat → BlobHandler Nat
  | [], attempted => return attempted
  | (vault, uploadId) :: rest, attempted => do
      discardUpload vault uploadId
      let _ ← BlobHandler.db (.uploadStillThere vault uploadId)
      sweepUploads rest (attempted + 1)

/-- `sweep_expired_uploads` -/
def sweepExpiredUploads : BlobHandler Nat := do
  let expired ← BlobHandler.db .expiredUploads
  sweepUploads expired 0

/-- `create_upload` -/
def createUpload (vault : VaultId) (hash : String) (size : Int64) : BlobHandler Response := do
  let size := size.toInt
  if valid : isHash hash = true ∧ 0 < size then
    let hash : Hash := ⟨hash, valid.1⟩
    if ← BlobHandler.db (.blobExists ⟨vault, hash⟩) then
      return .uploadExists
    if absoluteMax < asU64 size then
      return .typeCapExceeded absoluteMax
    match ← BlobHandler.db (.admitUpload vault (asU64 size)) with
    | .tooManyUploads => return .tooManyUploads
    | .quotaExceeded effective => return .quotaExceeded effective
    | .admitted uploadId =>
        BlobHandler.file (.createDirAll ["tmp"])
        BlobHandler.file (.create (tmpFilePath uploadId))
        match ← BlobHandler.attempt (.db (.insertUpload vault uploadId hash size)) with
        | .error error =>
            let _ ← BlobHandler.attempt (.file (.removeFile (tmpFilePath uploadId)))
            throw error
        | .ok _ => return .uploadCreated uploadId
  else
    return .error 400 "invalid hash or size"

/-- `get_upload` -/
def getUpload (vault : VaultId) (uploadId : String) : BlobHandler Response := do
  match ← liveUpload vault uploadId with
  | none => return .uploadNotFound
  | some row => return .uploadState row.receivedBytes row.hashClaimed row.sizeClaimed

/-- The header and the body of a PUT. -/
structure PutRequest where
  contentRange : Option String
  /-- The chunks of the body, or the error its stream breaks off with. -/
  chunks : List (Except String Bytes)

/-- Buffer a body, `none` where it exceeds the guard. -/
def bufferBody : List (Except String Bytes) → Bytes → Except ServerError (Option Bytes)
  | [], buffer => .ok (some buffer)
  | .error reason :: _, _ => .error (.io reason)
  | .ok chunk :: rest, buffer =>
      if segmentBodyGuard < buffer.length + chunk.length then
        .ok none
      else
        bufferBody rest (buffer ++ chunk)

/-- Write a segment to the staged file and sync it. -/
def stageSegment (uploadId : String) (offset : Nat) (segment : Bytes) : BlobHandler Unit := do
  let file ← BlobHandler.file (.open (tmpFilePath uploadId) true)
  let file ← BlobHandler.file (.seek file offset)
  BlobHandler.file (.writeAll file segment)
  BlobHandler.file (.syncAll file)

/-- Move the staged file to its destination, unless a file is there.  Says
whether one was. -/
def placeBlob (vault : VaultId) (uploadId : String) (hash : Hash) : BlobHandler Bool := do
  BlobHandler.file (.createDirAll ((blobFilePath vault hash).dropLast))
  let destExisted ← BlobHandler.file (.tryExists (blobFilePath vault hash))
  if destExisted then
    let _ ← BlobHandler.attempt (.file (.removeFile (tmpFilePath uploadId)))
    return true
  else
    let file ← BlobHandler.file (.open (tmpFilePath uploadId) false)
    BlobHandler.file (.syncAll file)
    BlobHandler.file (.rename (tmpFilePath uploadId) (blobFilePath vault hash))
    return false

/-- Insert the row of a blob whose file is in place, and delete the upload. -/
def recordBlob
    (vault : VaultId)
    (uploadId : String)
    (row : UploadView)
    (destExisted : Bool) : BlobHandler Response := do
  match ← BlobHandler.attempt (.db (.insertBlob ⟨vault, row.hashClaimed⟩ row.sizeClaimed)) with
  | .error error =>
      if !destExisted then
        let _ ← BlobHandler.attempt
          (.file (.removeFile (blobFilePath vault row.hashClaimed)))
      discardUpload vault uploadId
      throw error
  | .ok inserted =>
      if inserted = 0 ∧ destExisted = false then
        let hasRow ← BlobHandler.db (.blobExists ⟨vault, row.hashClaimed⟩)
        if !hasRow then
          let _ ← BlobHandler.attempt
            (.file (.removeFile (blobFilePath vault row.hashClaimed)))
          discardUpload vault uploadId
          throw (.io "blob insert failed after rename")
      BlobHandler.db (.deleteUpload vault uploadId)
      return .blobStored row.hashClaimed

/-- The end of `put_upload`, once all bytes have been received. -/
def finishUpload
    (libraries : BlobLibraries)
    (vault : VaultId)
    (uploadId : String)
    (row : UploadView)
    (next : Nat) : BlobHandler Response := do
  if absoluteMax < next then
    discardUpload vault uploadId
    return .typeCapExceeded absoluteMax
  let bytes ← BlobHandler.file (.read (tmpFilePath uploadId))
  if libraries.blake3Hex bytes ≠ row.hashClaimed.1 then
    discardUpload vault uploadId
    return .error 422 "hash_mismatch"
  match if looksLikeSvg bytes then libraries.svgFixpointError bytes else none with
  | some kind =>
      discardUpload vault uploadId
      return .error 422 kind
  | none =>
      let destExisted ← placeBlob vault uploadId row.hashClaimed
      recordBlob vault uploadId row destExisted

/-- What `put_upload` does under the lock of the claimed hash. -/
def receiveSegment
    (libraries : BlobLibraries)
    (vault : VaultId)
    (uploadId : String)
    (range : ContentRange)
    (segment : Bytes) : BlobHandler Response := do
  match ← liveUpload vault uploadId with
  | none => return .uploadNotFound
  | some row =>
      if range.size ≠ asU64 row.sizeClaimed then
        return .error 400 "Content-Range size does not match upload"
      if range.first ≠ asU64 row.receivedBytes then
        return .offsetConflict row.receivedBytes
      let next := saturatingAdd range.last 1
      if asU64 row.sizeClaimed < next then
        return .error 400 "Content-Range exceeds claimed size"
      stageSegment uploadId (asU64 row.receivedBytes) segment
      BlobHandler.db (.updateReceived vault uploadId (asI64 next))
      if next ≠ asU64 row.sizeClaimed then
        return .segmentAccepted next
      finishUpload libraries vault uploadId row next

/-- `put_upload` -/
def putUpload
    (libraries : BlobLibraries)
    (vault : VaultId)
    (uploadId : String)
    (request : PutRequest) : BlobHandler Response := do
  match request.contentRange.bind parseContentRange with
  | none => return .error 400 "missing or malformed Content-Range"
  | some range =>
      if range.last < range.first then
        return .error 400 "invalid Content-Range"
      match bufferBody request.chunks [] with
      | .error error => throw error
      | .ok none => return .payloadTooLarge
      | .ok (some segment) =>
          if segmentBytes < segment.length then
            return .payloadTooLarge
          if saturatingAdd (range.last - range.first) 1 ≠ segment.length then
            return .error 400 "Content-Range length does not match body"
          match ← liveUpload vault uploadId with
          | none => return .uploadNotFound
          | some preview =>
              BlobHandler.attempt (.lock (uploadLockKey vault preview.hashClaimed))
              receiveSegment libraries vault uploadId range segment

/-- The bytes of a blob from a position on. -/
def readBlob (path : FilePath) (first length : Nat) : BlobHandler Bytes := do
  let file ← BlobHandler.file (.open path false)
  let file ← BlobHandler.file (.seek file first)
  if 0 < length then
    BlobHandler.file (.readExact file length)
  else
    return []

/-- `get_blob` -/
def getBlob (vault : VaultId) (hash : String) (rangeHeader : Option String) :
    BlobHandler Response := do
  if valid : isHash hash = true then
    let path := blobFilePath vault ⟨hash, valid⟩
    match ← BlobHandler.db (.blobSize ⟨vault, ⟨hash, valid⟩⟩) with
    | none => return .blobNotFound
    | some size =>
        match ← BlobHandler.attempt (.file (.length path)) with
        | .error .notFound => return .blobNotFound
        | .error error => throw error.toServerError
        | .ok length =>
            let total := (max size 0).toNat
            if length ≠ total then
              return .blobNotFound
            match (rangeHeader.map fun header => parseByteRange header total).getD .ignored with
            | .range first last =>
                let body ← readBlob path first (if total = 0 then 0 else last - first + 1)
                return .blobRange first last total body
            | .unsatisfiable => return .rangeNotSatisfiable total
            | .ignored =>
                let body ← readBlob path 0 total
                return .blobContent body
  else
    return .blobNotFound

/-! ## Path states -/

/-- The body of a POST to `/vault/blob-paths`. -/
structure BlobPathBody where
  pathKey : String
  displayPath : String
  /-- One where the body leaves it out. -/
  keyVersion : Int64
  generation : Int64
  state : String
  contentHash : Option String
  size : Option Int64
  peerId : String

/-- The values `state` may have. -/
def PathState.parse (text : String) : Option PathState :=
  if text = "live" then some .live
  else if text = "deleted" then some .deleted
  else none

/-- The check of `content_hash`. -/
def checkHash : Option String → Except Response (Option Hash)
  | none => .ok none
  | some hash =>
      if valid : isHash hash = true then .ok (some ⟨hash, valid⟩)
      else .error .invalidBlobPath

/-- The checks of `size`. -/
def checkSize (pathKey : String) : Option Int → Except Response Unit
  | none => .ok ()
  | some size =>
      if size < 0 then
        .error .invalidBlobPath
      else
        match capForKey pathKey with
        | none => .ok ()
        | some cap =>
            if cap < asU64 size then .error (.typeCapExceeded cap)
            else .ok ()

/-- The checks of `post_blob_path` before it takes the lock. -/
def BlobPathBody.check (body : BlobPathBody) : Except Response PathChange :=
  match PathState.parse body.state with
  | none => .error .invalidBlobPath
  | some state =>
      if body.peerId = "" ∨ maxPeerIdBytes < body.peerId.utf8ByteSize ∨
          body.generation.toInt < 0 ∨ body.keyVersion.toInt ≠ 1 ∨
          validateBlobKey body.pathKey = false ∨
          validateDisplayPath body.displayPath = false then
        .error .invalidBlobPath
      else if state = .live ∧ (body.contentHash = none ∨ body.size = none) then
        .error .invalidBlobPath
      else
        match checkHash body.contentHash with
        | .error response => .error response
        | .ok contentHash =>
            match checkSize body.pathKey (body.size.map Int64.toInt) with
            | .error response => .error response
            | .ok () =>
                .ok
                  { displayPath := body.displayPath
                    keyVersion := body.keyVersion.toInt
                    generation := body.generation.toInt
                    state := state
                    contentHash := contentHash
                    size := body.size.map Int64.toInt
                    peerId := body.peerId }

namespace PathChange

/-- What decides between two changes of one generation: the peer id, then the
hash or the empty string. -/
def rank (change : PathChange) : String ×ₗ String :=
  toLex (change.peerId, (change.contentHash.map Subtype.val).getD "")

/-- The change repeats the stored one. -/
def retries (change stored : PathChange) : Bool :=
  decide (stored.generation = change.generation) &&
    decide (stored.contentHash = change.contentHash) &&
    decide (stored.state = change.state)

/-- The change replaces the stored one. -/
def wins (change stored : PathChange) : Bool :=
  decide (stored.generation < change.generation) ||
    decide (stored.generation = change.generation) && decide (stored.rank < change.rank)

end PathChange

/-- The transaction of `post_blob_path` and its broadcast. -/
def acceptPath (key : PathKey) (change : PathChange) : BlobHandler Response := do
  let seq ← BlobHandler.db (.upsertPath key change)
  BlobHandler.attempt (.publish ⟨key, seq⟩)
  return .pathAccepted seq

/-- The presence check of `post_blob_path`: a response, unless the blob is there. -/
def missingBlob (vault : VaultId) (change : PathChange) : BlobHandler (Option Response) := do
  match change.contentHash with
  | none => return none
  | some hash =>
      if ← BlobHandler.db (.blobExists ⟨vault, hash⟩) then
        return none
      else
        return some .blobNotUploaded

/-- The SVG check of `post_blob_path`: a response, unless the blob passes. -/
def refusedSvg
    (libraries : BlobLibraries)
    (key : PathKey)
    (change : PathChange) : BlobHandler (Option Response) := do
  match change.contentHash with
  | none => return none
  | some hash =>
      if change.state = .live ∧ lastExtension key.key.toList = some "svg".toList then
        match ← BlobHandler.attempt (.file (.read (blobFilePath key.vault hash))) with
        | .error .notFound => return some .blobNotUploaded
        | .error error => throw error.toServerError
        | .ok bytes => return (libraries.svgFixpointError bytes).map (.error 422)
      else
        return none

/-- What `post_blob_path` does with a change it has decided to take. -/
def takePath
    (libraries : BlobLibraries)
    (key : PathKey)
    (change : PathChange) : BlobHandler Response := do
  match ← missingBlob key.vault change with
  | some response => return response
  | none =>
      match ← refusedSvg libraries key change with
      | some response => return response
      | none => acceptPath key change

/-- What `post_blob_path` does under the lock of the path. -/
def decidePath
    (libraries : BlobLibraries)
    (key : PathKey)
    (change : PathChange) : BlobHandler Response := do
  match ← BlobHandler.db (.readPath key) with
  | none => takePath libraries key change
  | some current =>
      if change.retries current.toPathChange then
        return .pathAccepted current.seq
      if change.wins current.toPathChange then
        takePath libraries key change
      else
        return .pathRejected key current

/-- `post_blob_path` -/
def postBlobPath
    (libraries : BlobLibraries)
    (vault : VaultId)
    (body : BlobPathBody) : BlobHandler Response := do
  match body.check with
  | .error response => return response
  | .ok change =>
      BlobHandler.attempt (.lock (pathLockKey vault body.pathKey))
      decidePath libraries ⟨vault, body.pathKey⟩ change

/-- The page size `list_blob_paths` makes of a limit. -/
def pageLimit (limit : Int) : Nat :=
  if limit ≤ 0 then 1000 else (min limit 1000).toNat

/-- `list_blob_paths` -/
def listBlobPaths (vault : VaultId) (sinceSeq limit : Int64) : BlobHandler Response := do
  let (maxSeq, rows) ← BlobHandler.db
    (.listPaths vault sinceSeq.toInt (pageLimit limit.toInt))
  return .pathStates rows maxSeq

end VaultCrdtServer
