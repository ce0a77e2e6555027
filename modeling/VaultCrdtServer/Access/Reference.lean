import VaultCrdtServer.Access.Server
import VaultCrdtServer.Loro.Reference
import VaultCrdtServer.Server.Reference

/-!
# A reference server for authentication

The server over hashes that keep what they hash, and schedules made of requests.
Its runs evaluate, so what happens in a single run is found by computation.
-/

namespace VaultCrdtServer

open Interleaving

/-- Hashes that keep what they hash. -/
def AccessLibraries.reference : AccessLibraries ReferenceBlob where
  toLibraries := Settings.reference.toLibraries
  sha256Hex := fun text =>
    String.ofList ((utf8Bytes text).flatMap fun byte =>
      [Nat.digitChar (byte.toNat / 16), Nat.digitChar (byte.toNat % 16)])
  hashPassword := fun _ password => .ok ("$argon2id$" ++ password)
  verifyPassword := fun password stored => stored == "$argon2id$" ++ password

/-- A server whose admin token is "admin". -/
def AccessSettings.reference : AccessSettings ReferenceBlob where
  toAccessLibraries := .reference
  adminToken := "admin"
  adminToken_nonempty := by decide

/-- A database in which nothing is stored. -/
def AccessDb.empty {Blob : Type} : AccessDb Blob where
  toDb := .empty
  vaults := ∅
  invites := ∅
  inviteSeq := 0
  deviceKeys := ∅

/-- A database with a legacy vault. -/
def AccessDb.legacy : AccessDb ReferenceBlob :=
  { AccessDb.empty with vaults := (∅ : Table String String).insert "old" "plain" }

/-- The steps of a run of the reference server. -/
abbrev AccessSchedule := List (accessService AccessSettings.reference).machine.Label

namespace AccessSchedule

/-- A number of calls at a time, none of which fails, with a secret to be
drawn. -/
def calls (request : Nat) (now : Time) (random : String) (count : Nat) : AccessSchedule :=
  List.replicate count (.act request ⟨now, none, "salt", random⟩)

/-- A request is received, and some of its calls are made. -/
def receives
    (request : Nat)
    (task : AccessTask)
    (now : Time)
    (random : String)
    (count : Nat) : AccessSchedule :=
  .start request task :: calls request now random count

/-- A request is received and served. -/
def serves
    (request : Nat)
    (task : AccessTask)
    (now : Time)
    (random : String)
    (count : Nat) : AccessSchedule :=
  receives request task now random count ++ [.finish request]

/-- Every step is enabled when its turn comes, from a server just started on. -/
def EnabledFrom (db : AccessDb ReferenceBlob) (schedule : AccessSchedule) : Prop :=
  ((accessService AccessSettings.reference).machine.run schedule
    ((accessService AccessSettings.reference).initial (.started db [] []))).isSome = true

instance (db : AccessDb ReferenceBlob) (schedule : AccessSchedule) :
    Decidable (schedule.EnabledFrom db) :=
  inferInstanceAs (Decidable (_ = true))

/-- What a schedule leads to. -/
def config
    {db : AccessDb ReferenceBlob}
    (schedule : AccessSchedule)
    (enabled : schedule.EnabledFrom db) :
    (accessService AccessSettings.reference).machine.Config :=
  ((accessService AccessSettings.reference).machine.run schedule
    ((accessService AccessSettings.reference).initial (.started db [] []))).get enabled

theorem run_eq_config
    {db : AccessDb ReferenceBlob}
    {schedule : AccessSchedule}
    (enabled : schedule.EnabledFrom db) :
    (accessService AccessSettings.reference).machine.run schedule
        ((accessService AccessSettings.reference).initial (.started db [] [])) =
      some (schedule.config enabled) :=
  (Option.some_get enabled).symm

theorem reachable
    {db : AccessDb ReferenceBlob}
    {schedule : AccessSchedule}
    (enabled : schedule.EnabledFrom db) :
    (accessService AccessSettings.reference).Reachable (.started db [] [])
      (schedule.config enabled) :=
  ⟨schedule, run_eq_config enabled⟩

end AccessSchedule

end VaultCrdtServer
