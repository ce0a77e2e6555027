import VaultCrdtServer.Blobs.Db

/-!
# A reader of path states

A client that follows the path states of a vault (`list_blob_paths` in
`src/blobs.rs` states the premise, `test_blob_listing_fence_premise_p1` in
`src/tests/blobs.rs` walks the pages).  It keeps the rows it has seen and a
cursor.  A walk starts at the cursor, takes `max_seq` of its first page as its
fence and applies rows up to the fence; then the fence becomes the cursor.  The
reader asks for one page at a time.
-/

namespace VaultCrdtServer

/-- A walk in progress. -/
structure Walk where
  /-- `max_seq` of the walk's first page. -/
  fence : Int
  /-- Seq of the last row applied, or the cursor the walk started from. -/
  position : Int
  /-- Pages read so far. -/
  pages : Nat
  deriving DecidableEq

/-- What a reader keeps. -/
structure Reader where
  vault : VaultId
  /-- The rows applied, by `path_key`. -/
  rows : Table String PathRow
  /-- The cursor, zero at first. -/
  cursor : Int
  walk : Option Walk
  /-- The request whose answer is its next page. -/
  awaiting : Option Nat

/-- A page: `max_seq` and rows. -/
abbrev Page := Int × List (String × PathRow)

namespace Reader

/-- A reader that has not walked yet. -/
def new (vault : VaultId) : Reader where
  vault := vault
  rows := ∅
  cursor := 0
  walk := none
  awaiting := none

/-- Where the next page starts. -/
def position (reader : Reader) : Int :=
  (reader.walk.map Walk.position).getD reader.cursor

/-- The walk a page belongs to. -/
def walkOf (page : Page) (reader : Reader) : Walk :=
  reader.walk.getD { fence := page.1, position := reader.cursor, pages := 0 }

/-- Store a row. -/
def store (rows : Table String PathRow) (entry : String × PathRow) : Table String PathRow :=
  rows.insert entry.1 entry.2

/-- Apply a page that was asked for with a limit.  The walk ends at the first
row above the fence, at a page shorter than the limit, or when the last row
applied is at the fence. -/
def apply (limit : Nat) (page : Page) (reader : Reader) : Reader :=
  let walk := reader.walkOf page
  let applied := page.2.takeWhile fun entry => decide (entry.2.seq ≤ walk.fence)
  let position := ((applied.getLast?).map fun entry => entry.2.seq).getD walk.position
  let rows := applied.foldl store reader.rows
  if applied.length < page.2.length ∨ page.2.length < limit ∨ position = walk.fence then
    { reader with rows := rows, cursor := walk.fence, walk := none, awaiting := none }
  else
    { reader with
      rows := rows
      walk := some { fence := walk.fence, position := position, pages := walk.pages + 1 }
      awaiting := none }

end Reader

end VaultCrdtServer
