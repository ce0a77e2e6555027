import VaultCrdtServer.Blobs.Server

/-!
# A reference blob server

The blob lane with a digest that agrees with BLAKE3 on the blobs of the
schedules below, and schedules made of requests.  Its runs evaluate.
-/

namespace VaultCrdtServer

open Interleaving

/-- BLAKE3 of the byte `a`. -/
def Hash.ofA : Hash :=
  ⟨"17762fddd969a453925d65717ac3eea21320b66b54342fde15128d6caf21215f", by decide +kernel⟩

/-- BLAKE3 of the byte `b`. -/
def Hash.ofB : Hash :=
  ⟨"10e5cf3d3c8a4f9f3468c8cc58eea84892a22fdadbc1acb22410190044c1d553", by decide +kernel⟩

/-- The digests of two blobs, and for any other the bytes themselves after a
letter that is no hexadecimal digit. -/
def referenceDigest (bytes : Bytes) : String :=
  if bytes = [0x61] then Hash.ofA.1
  else if bytes = [0x62] then Hash.ofB.1
  else String.ofList ('x' :: bytes.map fun byte => Char.ofNat byte.toNat)

theorem Hash.ne_ofList_cons
    {hash : Hash}
    {first : Char}
    (other : hash.1.toList.head? ≠ some first)
    (rest : List Char) :
    hash.1 ≠ String.ofList (first :: rest) := by
  intro same
  rw [same, String.toList_ofList] at other
  exact other rfl

/-- The reference digest has no collisions. -/
theorem referenceDigest_injective : Function.Injective referenceDigest := by
  have letters : Function.Injective fun byte : UInt8 => Char.ofNat byte.toNat := by
    intro first second same
    have valid : ∀ byte : UInt8, (Char.ofNat byte.toNat).toNat = byte.toNat := by
      intro byte
      have small := byte.toNat_lt
      rw [Char.ofNat, dif_pos (Or.inl (by omega))]
      rfl
    have numbers := congrArg Char.toNat same
    simp only [valid] at numbers
    exact UInt8.toNat_inj.mp numbers
  have notA := Hash.ne_ofList_cons (show Hash.ofA.1.toList.head? ≠ some 'x' by decide +kernel)
  have notB := Hash.ne_ofList_cons (show Hash.ofB.1.toList.head? ≠ some 'x' by decide +kernel)
  have different : Hash.ofA.1 ≠ Hash.ofB.1 := by decide +kernel
  intro first second same
  unfold referenceDigest at same
  split_ifs at same with firstA secondA secondB firstB secondA secondB secondA secondB
  · rw [firstA, secondA]
  · exact absurd same different
  · exact absurd same (notA _)
  · exact absurd same.symm different
  · rw [firstB, secondB]
  · exact absurd same (notB _)
  · exact absurd same.symm (notA _)
  · exact absurd same.symm (notB _)
  · exact letters.list_map (List.cons.inj (String.ofList_injective same)).2

/-- A server with the default quota. -/
def BlobSettings.reference : BlobSettings where
  blake3Hex := referenceDigest
  svgFilterOutput := some
  defaultQuotaBytes := 5 * 1024 * 1024 * 1024

/-- The vault "v". -/
def VaultId.v : VaultId := ⟨"v", by decide +kernel⟩

/-- The steps of a run of the reference server. -/
abbrev BlobSchedule := List (blobMachine BlobSettings.reference).Label

namespace BlobSchedule

/-- A number of calls, none of which fails, with an id to be drawn. -/
def calls (request : Nat) (uuid : String) (count : Nat) : BlobSchedule :=
  List.replicate count (.act request ⟨0, none, none, 0, uuid⟩)

/-- A request is received, and some of its calls are made. -/
def receives (request : Nat) (task : BlobTask) (count : Nat) : BlobSchedule :=
  .start request task :: calls request "spare" count

/-- A request is received and served. -/
def serves (request : Nat) (task : BlobTask) (count : Nat) : BlobSchedule :=
  receives request task count ++ [.finish request]

/-- A blob of one byte is uploaded under an upload id by two requests. -/
def uploads (request : Nat) (uploadId : String) (hash : Hash) (byte : UInt8) : BlobSchedule :=
  [.start request (.createUpload VaultId.v hash.1 1)] ++ calls request uploadId 2 ++
    calls request "spare" 3 ++ [.finish request] ++
    serves (request + 1)
      (.putUpload VaultId.v uploadId ⟨some "bytes 0-0/1", [.ok [byte]]⟩) 16

/-- The schedule for a server with other settings. -/
def on (settings : BlobSettings) (schedule : BlobSchedule) : List (blobMachine settings).Label :=
  schedule.map fun
    | .act request circumstance => .act request circumstance
    | .environment event => .environment event
    | .start request task => .start request task
    | .finish request => .finish request
    | .abandon request => .abandon request

/-- Every step is enabled when its turn comes, from a fresh server on. -/
def Enabled (schedule : BlobSchedule) : Prop :=
  ((blobMachine BlobSettings.reference).run schedule
    (blobConfig BlobSettings.reference (.fresh ∅) .empty)).isSome = true

instance (schedule : BlobSchedule) : Decidable schedule.Enabled :=
  inferInstanceAs (Decidable (_ = true))

/-- What a schedule leads to. -/
def config
    (schedule : BlobSchedule)
    (enabled : schedule.Enabled) : (blobMachine BlobSettings.reference).Config :=
  ((blobMachine BlobSettings.reference).run schedule
    (blobConfig BlobSettings.reference (.fresh ∅) .empty)).get enabled

theorem run_eq_config
    {schedule : BlobSchedule}
    (enabled : schedule.Enabled) :
    (blobMachine BlobSettings.reference).run schedule
      (blobConfig BlobSettings.reference (.fresh ∅) .empty) = some (schedule.config enabled) :=
  (Option.some_get enabled).symm

/-- The second part of a schedule leads on from where the first has led. -/
theorem run_second
    {first second : BlobSchedule}
    (enabled : (first ++ second).Enabled)
    (enabled' : first.Enabled) :
    (blobMachine BlobSettings.reference).run second (first.config enabled') =
      some ((first ++ second).config enabled) := by
  have runs := run_eq_config enabled
  rw [Machine.run_append, run_eq_config enabled'] at runs
  exact runs

theorem reachable
    {schedule : BlobSchedule}
    (enabled : schedule.Enabled) :
    BlobReachable BlobSettings.reference ∅ (schedule.config enabled) :=
  ⟨schedule, run_eq_config enabled⟩

end BlobSchedule

/-- A tombstone for the attachment "a.png". -/
def BlobPathBody.tombstone (generation : Int64) (peerId : String) : BlobPathBody where
  pathKey := "a.png"
  displayPath := "a.png"
  keyVersion := 1
  generation := generation
  state := "deleted"
  contentHash := none
  size := none
  peerId := peerId

/-- The attachment "a.png" with a content. -/
def BlobPathBody.attachment
    (generation : Int64)
    (hash : Hash)
    (size : Int64)
    (peerId : String) : BlobPathBody where
  pathKey := "a.png"
  displayPath := "a.png"
  keyVersion := 1
  generation := generation
  state := "live"
  contentHash := some hash.1
  size := some size
  peerId := peerId

end VaultCrdtServer
