import VaultCrdtServer.Server
import VaultCrdtServer.Loro.Reference

/-!
# A reference server

The server over the reference operation log, and schedules made of frames.  Its
runs evaluate, so what happens in a single run is found by computation.
-/

namespace VaultCrdtServer

open Interleaving

/-- JSON objects from strings without escapes to integers. -/
def SerdeJson.reference : SerdeJson where
  toVec := fun entries =>
    let fields := entries.map fun (key, value) => s!"\"{key}\":{value.toInt}"
    ("\x7b" ++ ",".intercalate fields ++ "\x7d").toUTF8.toList
  fromSlice := fun bytes =>
    let text := String.ofList (bytes.map fun byte => Char.ofNat byte.toNat)
    let fields := ((text.replace "\x7b" "").replace "\x7d" "").splitOn ","
    (fields.filter (· ≠ "")).mapM fun field =>
      match field.splitOn ":" with
      | [key, value] =>
          match value.toInt? with
          | some value => .ok (key.replace "\"" "", Int32.ofInt value)
          | none => .error "invalid type"
      | _ => .error "expected a map"

/-- The edits of every peer form a chain.  The one of peer 8 continues the first
edit of peer 7, the others start on their own. -/
def EditGraph.reference : EditGraph :=
  .chains (fun peer => if peer = 8 then [⟨7, 0⟩] else []) <| by
    intro peer dependency needed
    split_ifs at needed with eighth
    · rw [List.mem_singleton] at needed
      rw [needed, eighth]
      decide
    · cases needed

/-- A server with the default retention, whose messages all serialize. -/
def Settings.reference : Settings ReferenceBlob where
  loro := Loro.reference .reference
  json := .reference
  encodes := fun _ => true
  tombstoneDays := 90
  peerDays := 90

/-- The frame of a message. -/
def Frame.of {Blob : Type} (msg : ClientMsg Blob) : Frame Blob where
  length := 64
  decoded := .ok msg

/-- The steps of a run of the reference server. -/
abbrev Schedule := List (serverMachine Settings.reference).Label

namespace Schedule

/-- A number of calls, none of which fails. -/
def calls (connId count : Nat) : Schedule :=
  List.replicate count (.act connId ⟨0, none⟩)

/-- A connection to the vault "v". -/
def connects (connId : Nat) (peerId : String) : Schedule :=
  .start connId (.connect "v" peerId "" []) :: calls connId 2 ++ [.finish connId]

/-- A frame is received, and some of its calls are made. -/
def receives
    (connId : Nat)
    (msg : ClientMsg ReferenceBlob)
    (count : Nat) : Schedule :=
  .start connId (.frame (.of msg)) :: calls connId count

/-- The remaining calls for a frame are made. -/
def completes (connId count : Nat) : Schedule :=
  calls connId count ++ [.finish connId]

/-- A frame is received and served. -/
def serves
    (connId : Nat)
    (msg : ClientMsg ReferenceBlob)
    (count : Nat) : Schedule :=
  receives connId msg count ++ [.finish connId]

/-- The same steps, with their calls made at another time. -/
def at_ (now : Time) (schedule : Schedule) : Schedule :=
  schedule.map fun label =>
    match label with
    | .act connId circumstance => .act connId { circumstance with now := now }
    | label => label

/-- Every step is enabled when its turn comes, from an empty database on. -/
def Enabled (schedule : Schedule) : Prop :=
  ((serverMachine Settings.reference).run schedule
    (initialConfig Settings.reference Db.empty)).isSome = true

instance (schedule : Schedule) : Decidable schedule.Enabled :=
  inferInstanceAs (Decidable (_ = true))

/-- What a schedule leads to. -/
def config
    (schedule : Schedule)
    (enabled : schedule.Enabled) : (serverMachine Settings.reference).Config :=
  ((serverMachine Settings.reference).run schedule
    (initialConfig Settings.reference Db.empty)).get enabled

theorem run_eq_config
    {schedule : Schedule}
    (enabled : schedule.Enabled) :
    (serverMachine Settings.reference).run schedule
      (initialConfig Settings.reference Db.empty) = some (schedule.config enabled) :=
  (Option.some_get enabled).symm

/-- The last step of a schedule. -/
theorem step_config
    {schedule : Schedule}
    {label : (serverMachine Settings.reference).Label}
    (enabled : schedule.Enabled)
    (enabled' : Enabled (schedule ++ [label])) :
    (serverMachine Settings.reference).step label (schedule.config enabled) =
      some (config (schedule ++ [label]) enabled') := by
  have whole := run_eq_config enabled'
  rw [Machine.run_append, run_eq_config enabled, Option.bind_some, Machine.run,
    Option.bind_eq_some_iff] at whole
  obtain ⟨last, stepped, ended⟩ := whole
  rw [stepped, ← ended]
  rfl

theorem reachable
    {schedule : Schedule}
    (enabled : schedule.Enabled) :
    Reachable Settings.reference Db.empty (schedule.config enabled) :=
  ⟨schedule, run_eq_config enabled⟩

end Schedule

/-- A delta for the document "d". -/
def ClientMsg.push (ops : List OpId) : ClientMsg ReferenceBlob :=
  .syncPush "d" (.updates ops) "" none

/-- A snapshot of the document "d". -/
def ClientMsg.create (ops : List OpId) (replaceTombstone : Bool) :
    ClientMsg ReferenceBlob :=
  .docCreate "d" (.updates ops) "" replaceTombstone none

/-- A delete of the document "d". -/
def ClientMsg.delete (expectedIncarnation : Option Int) : ClientMsg ReferenceBlob :=
  .docDelete "d" "" expectedIncarnation none none

end VaultCrdtServer
