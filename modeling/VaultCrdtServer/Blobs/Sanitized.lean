import Mathlib
import VaultCrdtServer.Blobs.Store
import VaultCrdtServer.Foundation.Composition

/-!
# Published SVGs

`put_upload` runs the filter on bytes that look like an SVG, `post_blob_path` on
the blob of a path key that ends in `.svg`.  The display path, which is the one
clients write to, is not looked at.  As long as no other blob is published under
a display path that ends so, every published SVG is sanitized.
-/

namespace VaultCrdtServer

open Interleaving

/-! ## Extensions -/

/-- The last extension of a path is `svg`, in upper or lower case. -/
def isSvgPath (path : String) : Bool :=
  (lastExtension path.toList).any fun ext => ext.map Char.toLower == "svg".toList

theorem subset_of_rsplitOnce
    {separator : Char}
    {name : List Char}
    {parts : List Char × List Char}
    (split_ : rsplitOnce separator name = some parts) :
    parts.2 ⊆ name := by
  induction name generalizing parts with
  | nil => cases split_
  | cons first rest inductionHypothesis =>
      rw [rsplitOnce] at split_
      cases later : rsplitOnce separator rest with
      | some parts' =>
          simp only [later, Option.some.injEq] at split_
          subst split_
          have inside : parts'.2 ⊆ rest := inductionHypothesis later
          exact List.Subset.trans inside (List.subset_cons_self _ _)
      | none =>
          simp only [later] at split_
          split_ifs at split_
          obtain rfl := Option.some.inj split_
          exact List.subset_cons_self _ _

theorem subset_of_lastExtension
    {name ext : List Char}
    (extension : lastExtension name = some ext) :
    ext ⊆ name := by
  unfold lastExtension at extension
  split at extension
  · rename_i stem ext' split_
    split_ifs at extension
    obtain rfl := Option.some.inj extension
    exact subset_of_rsplitOnce split_
  · cases extension

/-- A path key is in lower case, as far as ASCII is concerned. -/
theorem isUpper_of_validateBlobKey
    {key : String}
    (valid : validateBlobKey key = true)
    {c : Char}
    (member : c ∈ key.toList) :
    c.isUpper = false := by
  simp only [validateBlobKey, validateSegments] at valid
  split_ifs at valid with _ upper
  all_goals
    simp only [Bool.not_false, Bool.true_and, Bool.not_eq_true, List.any_eq_false] at upper
    simpa using upper c member

/-- So the extension of a path key is compared as it is. -/
theorem isSvgPath_iff
    {key : String}
    (valid : validateBlobKey key = true) :
    isSvgPath key = true ↔ lastExtension key.toList = some "svg".toList := by
  unfold isSvgPath
  cases extension : lastExtension key.toList with
  | none => simp
  | some ext =>
      have lower : ext.map Char.toLower = ext := by
        refine (List.map_congr_left ?_).trans (List.map_id ext)
        intro c member
        have upper := isUpper_of_validateBlobKey valid (subset_of_lastExtension extension member)
        refine dif_neg ?_
        simpa [Char.isUpper] using upper
      simp [lower]

/-! ## Terms -/

/-- The blob a live change names is stored, and sanitized if the path key is
that of an SVG. -/
def PathChange.Vetted
    (libraries : BlobLibraries)
    (key : PathKey)
    (change : PathChange)
    (server : BlobServer) : Prop :=
  change.state = .live →
    ∃ hash size, change.contentHash = some hash ∧
      server.db.blobs.lookup ⟨key.vault, hash⟩ = some size ∧
      (isSvgPath key.key = true →
        ∃ bytes, server.disk.read (BlobKey.file ⟨key.vault, hash⟩) = some bytes ∧
          libraries.Sanitized bytes)

/-- The terms of the requests, as far as SVGs are concerned. -/
def svgTerms (libraries : BlobLibraries) : BlobTerms where
  rely := BlobsKept
  pre := fun call server =>
    match call with
    | .db (.upsertPath key change) => change.Vetted libraries key server
    | _ => True
  facts := fun _ => True
  rely_refl := fun _ => .of_eq rfl rfl
  rely_trans := BlobsKept.trans

/-- The blob a change names is stored. -/
def PathChange.Present (key : PathKey) (change : PathChange) (server : BlobServer) : Prop :=
  ∀ hash, change.contentHash = some hash →
    ∃ size, server.db.blobs.lookup ⟨key.vault, hash⟩ = some size

section Terms

variable {libraries : BlobLibraries} {settings : BlobSettings} {request : Nat}
variable {key : PathKey} {change : PathChange} {server : BlobServer}

theorem PathChange.Present.stable : (svgTerms libraries).Stable (change.Present key) := by
  intro server server' present kept hash named
  obtain ⟨size, stored⟩ := present hash named
  exact ⟨size, kept.rows _ size stored⟩

theorem PathChange.Vetted.stable :
    (svgTerms libraries).Stable (change.Vetted libraries key) := by
  intro server server' vetted kept live
  obtain ⟨hash, size, named, stored, sanitized⟩ := vetted live
  refine ⟨hash, size, named, kept.rows _ size stored, ?_⟩
  intro svg
  rw [kept.files _ size stored]
  exact sanitized svg

/-- The contract of a request. -/
abbrev svgContract
    (settings : BlobSettings)
    (request : Nat) : Contract blobSignature BlobServer :=
  blobContract settings request (svgTerms settings.toBlobLibraries)

theorem anything_stable : (svgTerms libraries).Stable fun _ => True :=
  fun _ _ _ _ => trivial

theorem svg_meets_pure {response : Response} :
    (pure response : BlobHandler Response).run.Meets (svgContract settings request)
      (fun _ _ => True) server :=
  fun _ _ => trivial

/-- The transaction and the broadcast. -/
theorem acceptPath_vetted (vetted : change.Vetted settings.toBlobLibraries key server) :
    (acceptPath key change).run.Meets (svgContract settings request) (fun _ _ => True)
      server := by
  refine blob_meets_db PathChange.Vetted.stable vetted (fun _ vetted => vetted)
    (fun _ _ _ => trivial) ?_
  intro _ seq server' _ _ _
  refine blob_meets_attempt anything_stable trivial (fun _ _ => trivial) ?_
  exact fun _ _ _ _ _ _ _ => svg_meets_pure

/-- The presence check lets a change pass whose blob is stored. -/
theorem missingBlob_present
    {continuation : Option Response → BlobHandler Response}
    (passes : ∀ server, change.Present key server →
      (continuation none).run.Meets (svgContract settings request) (fun _ _ => True) server)
    (refuses : ∀ server response,
      (continuation (some response)).run.Meets (svgContract settings request)
        (fun _ _ => True) server) :
    (missingBlob key.vault change >>= continuation).run.Meets (svgContract settings request)
      (fun _ _ => True) server := by
  unfold missingBlob
  cases named : change.contentHash with
  | none => exact passes server fun _ found => nomatch named.symm.trans found
  | some hash =>
      rw [bind_assoc]
      refine blob_meets_db anything_stable trivial (fun _ _ => trivial) (fun _ _ _ => trivial) ?_
      intro server found server' _ _ committed
      obtain ⟨now, uuid, db, executed, -, rfl⟩ := committed.exec
      simp only [BlobDbCall.exec, Except.ok.injEq, Prod.mk.injEq] at executed
      obtain ⟨there, rfl⟩ := executed
      cases found with
      | false => exact refuses _ _
      | true =>
          refine passes _ ?_
          intro other named'
          obtain rfl := Option.some.inj (named.symm.trans named')
          exact Option.isSome_iff_exists.mp there

/-- The SVG check lets a vetted change pass. -/
theorem refusedSvg_vetted
    {continuation : Option Response → BlobHandler Response}
    (valid : validateBlobKey key.key = true)
    (named : change.state = .live → change.contentHash ≠ none)
    (present : change.Present key server)
    (passes : ∀ server, change.Vetted settings.toBlobLibraries key server →
      (continuation none).run.Meets (svgContract settings request) (fun _ _ => True) server)
    (refuses : ∀ server response,
      (continuation (some response)).run.Meets (svgContract settings request)
        (fun _ _ => True) server) :
    (refusedSvg settings.toBlobLibraries key change >>= continuation).run.Meets
      (svgContract settings request) (fun _ _ => True) server := by
  unfold refusedSvg
  cases hash : change.contentHash with
  | none => exact passes server fun live => absurd hash (named live)
  | some hash' =>
      dsimp only
      split
      · rename_i checked
        rw [bind_assoc]
        refine blob_meets_attempt PathChange.Present.stable present (fun _ _ => trivial) ?_
        intro server circumstance reply server' present _ executed
        simp only [BlobServer.exec, Option.some.injEq] at executed
        have looks : (BlobCall.file (.read (blobFilePath key.vault hash'))).KeepsUploads := rfl
        obtain rfl := BlobServer.operate_looks looks executed
        cases reply with
        | error error =>
            cases error with
            | notFound => exact refuses _ _
            | other reason => exact fun _ _ => trivial
        | ok bytes =>
            have looked := BlobServer.operate_eq_ok executed
            dsimp only [BlobServer.fileEffect] at looked
            split at looked
            · rename_i bytes' found
              obtain rfl := Except.ok.inj (Prod.mk.inj looked).1
              cases refusal : settings.svgFixpointError bytes' with
              | some kind => simpa [refusal] using refuses _ _
              | none =>
                  have vetted : change.Vetted settings.toBlobLibraries key server' := by
                    intro _
                    obtain ⟨size, stored⟩ := present hash' hash
                    exact ⟨hash', size, hash, stored, fun _ => ⟨bytes', found,
                      settings.svgFixpointError_eq_none_iff.mp refusal⟩⟩
                  simpa [refusal] using passes _ vetted
            · cases (Prod.mk.inj looked).1
      · rename_i unchecked
        refine passes server ?_
        intro live
        obtain ⟨size, stored⟩ := present hash' hash
        refine ⟨hash', size, hash, stored, ?_⟩
        intro svg
        exact absurd ⟨live, (isSvgPath_iff valid).mp svg⟩ unchecked

/-- `post_blob_path` stores a live change only if it has been vetted. -/
theorem postBlobPath_vetted (vault : VaultId) (body : BlobPathBody) :
    (postBlobPath settings.toBlobLibraries vault body).run.Meets (svgContract settings request)
      (fun _ _ => True) server := by
  have takes : ∀ {server : BlobServer} {change : PathChange},
      body.check = .ok change →
      (takePath settings.toBlobLibraries ⟨vault, body.pathKey⟩ change).run.Meets
        (svgContract settings request) (fun _ _ => True) server := by
    intro server change checked
    refine missingBlob_present ?_ fun _ _ => svg_meets_pure
    intro server present
    refine refusedSvg_vetted (BlobPathBody.validateBlobKey_of_check checked) ?_ present
      (fun _ vetted => acceptPath_vetted vetted) fun _ _ => svg_meets_pure
    intro live unnamed
    obtain ⟨hash, -, -, named, -⟩ := BlobPathBody.check_eq_ok checked live
    exact nomatch unnamed.symm.trans named
  unfold postBlobPath
  split
  · exact svg_meets_pure
  · rename_i change checked
    refine blob_meets_attempt anything_stable trivial (fun _ _ => trivial) ?_
    intro _ _ _ server _ _ _
    refine blob_meets_db anything_stable trivial (fun _ _ => trivial) (fun _ _ _ => trivial) ?_
    intro _ current server _ _ _
    cases current with
    | none => exact takes checked
    | some current =>
        dsimp only
        split_ifs
        · exact svg_meets_pure
        · exact takes checked
        · exact svg_meets_pure

end Terms

/-! ## Runs -/

/-- Whether a live change whose display path alone is that of an SVG names bytes
that have been recognised as one. -/
def BlobServer.recognises (server : BlobServer) : BlobCall → Bool
  | .db (.upsertPath key change) =>
      if change.state = .live ∧ isSvgPath change.displayPath = true ∧
          isSvgPath key.key = false then
        change.contentHash.all fun hash =>
          (server.disk.read (blobFilePath key.vault hash)).any looksLikeSvg
      else
        true
  | _ => true

/-- No live change is stored whose display path alone is that of an SVG and whose
bytes do not look like one. -/
def RecognisedStep
    (settings : BlobSettings)
    (label : (blobMachine settings).Label)
    (config : (blobMachine settings).Config) : Prop :=
  match label with
  | .act request _ =>
      match config.thread request with
      | some (.call call _) => config.shared.recognises call = true
      | _ => True
  | _ => True

instance
    (settings : BlobSettings)
    (label : (blobMachine settings).Label)
    (config : (blobMachine settings).Config) :
    Decidable (RecognisedStep settings label config) := by
  induction label using Machine.Label.casesOn with
  | act request circumstance =>
      exact inferInstanceAs (Decidable (Program.NextCall
        (fun call => config.shared.recognises call = true) (config.thread request)))
  | _ => exact isTrue trivial

/-- A live row whose path key or display path is that of an SVG names a stored
blob whose bytes are a fixpoint of the filter. -/
def BlobServer.SvgSafe (libraries : BlobLibraries) (server : BlobServer) : Prop :=
  ∀ key row, server.db.blobPathStates.lookup key = some row → row.state = .live →
    isSvgPath key.key = true ∨ isSvgPath row.displayPath = true →
      ∃ hash size bytes, row.contentHash = some hash ∧
        server.db.blobs.lookup ⟨key.vault, hash⟩ = some size ∧
        server.disk.read (blobFilePath key.vault hash) = some bytes ∧
        libraries.Sanitized bytes

section Runs

variable {settings : BlobSettings} {request : Nat} {server server' : BlobServer}

theorem BlobServer.SvgSafe.kept
    {libraries : BlobLibraries}
    (safe : server.SvgSafe libraries)
    (kept : BlobsKept server server')
    (paths : server'.db.blobPathStates = server.db.blobPathStates) :
    server'.SvgSafe libraries := by
  intro key row found live svg
  rw [paths] at found
  obtain ⟨hash, size, bytes, named, stored, read, sanitized⟩ := safe key row found live svg
  exact ⟨hash, size, bytes, named, kept.rows _ size stored,
    (kept.files _ size stored).trans read, sanitized⟩

/-- A recognised change that has been vetted may be stored. -/
theorem PathChange.Vetted.sanitized
    {libraries : BlobLibraries}
    {key : PathKey}
    {change : PathChange}
    (vetted : change.Vetted libraries key server)
    (sound : StoreSound libraries server)
    (recognised : server.recognises (.db (.upsertPath key change)) = true)
    (live : change.state = .live)
    (svg : isSvgPath key.key = true ∨ isSvgPath change.displayPath = true) :
    ∃ hash size bytes, change.contentHash = some hash ∧
      server.db.blobs.lookup ⟨key.vault, hash⟩ = some size ∧
      server.disk.read (blobFilePath key.vault hash) = some bytes ∧
      libraries.Sanitized bytes := by
  obtain ⟨hash, size, named, stored, sanitized⟩ := vetted live
  by_cases keyed : isSvgPath key.key = true
  · obtain ⟨bytes, read, sanitized⟩ := sanitized keyed
    exact ⟨hash, size, bytes, named, stored, read, sanitized⟩
  · -- The filter was run when the blob was uploaded.
    have shown := svg.resolve_left keyed
    obtain ⟨inode, found, -⟩ := sound.rows _ size stored
    have verified := (sound.published _ inode found).2
    have read : server.disk.read (blobFilePath key.vault hash) =
        some (server.disk.contents inode) :=
      Option.map_eq_some_iff.mpr ⟨inode, found, rfl⟩
    rw [Bool.not_eq_true] at keyed
    simp only [BlobServer.recognises, live, shown, keyed, and_self, if_true, named,
      Option.all_some, read, Option.any_some] at recognised
    exact ⟨hash, size, _, named, stored, read, verified.sanitized recognised⟩

/-- A call that is made as the terms require keeps published SVGs sanitized. -/
theorem BlobServer.SvgSafe.exec
    {call : BlobCall}
    {circumstance : BlobCircumstance}
    {reply : blobSignature.Reply call}
    (safe : server.SvgSafe settings.toBlobLibraries)
    (sound : StoreSound settings.toBlobLibraries server)
    (kept : BlobsKept server server')
    (pre : (svgTerms settings.toBlobLibraries).pre call server)
    (recognised : server.recognises call = true)
    (executed : BlobServer.exec settings request call circumstance server =
      some (reply, server')) :
    server'.SvgSafe settings.toBlobLibraries := by
  cases call with
  | db call =>
      rcases BlobServer.query_cases executed with ⟨-, -, rfl⟩ | ⟨value, db, -, -, made, rfl⟩
      · exact safe
      · intro key row found live svg
        rcases (BlobDbCall.exec_effect made).paths found with older | ⟨change, seq, rfl, rfl⟩
        · obtain ⟨hash, size, bytes, named, stored, read, sanitized⟩ :=
            safe key row older live svg
          exact ⟨hash, size, bytes, named, kept.rows _ size stored,
            (kept.files _ size stored).trans read, sanitized⟩
        · have vetted : change.Vetted settings.toBlobLibraries key server := pre
          obtain ⟨hash, size, bytes, named, stored, read, sanitized⟩ :=
            vetted.sanitized sound recognised live svg
          exact ⟨hash, size, bytes, named, kept.rows _ size stored,
            (kept.files _ size stored).trans read, sanitized⟩
  | file call =>
      simp only [BlobServer.exec, Option.some.injEq] at executed
      exact safe.kept kept (congrArg _ (BlobServer.operate_db executed))
  | lock key =>
      simp only [BlobServer.exec] at executed
      split at executed
      · obtain ⟨-, rfl⟩ := Prod.mk.inj (Option.some.inj executed)
        exact safe
      · cases executed
  | publish event =>
      obtain ⟨-, rfl⟩ := Prod.mk.inj (Option.some.inj executed)
      exact safe

/-- The requests' terms, put together. -/
def svgDiscipline (settings : BlobSettings) : Discipline (blobMachine settings) where
  contract := svgContract settings
  idle := fun _ _ => True
  post := fun _ _ _ => True
  allowed := RecognisedStep settings
  invariant := fun config => config.shared.SvgSafe settings.toBlobLibraries

/-- Every request keeps to the terms. -/
theorem blobProgram_vetted (task : BlobTask) :
    (blobProgram settings task).Meets (svgContract settings request) (fun _ _ => True)
      server := by
  by_cases publishes : ∃ vault body, task = .postBlobPath vault body
  · obtain ⟨vault, body, rfl⟩ := publishes
    exact Program.Meets.bind _ (postBlobPath_vetted vault body) fun _ _ _ _ _ => trivial
  · refine (blobProgram_keepsPaths fun vault body same => publishes ⟨vault, body, same⟩).meets
      (fun _ => True) (fun _ _ _ _ => trivial) ?_ (fun _ _ _ _ _ _ _ => trivial) trivial
    intro call server keeps _
    cases call with
    | db call =>
        cases call with
        | upsertPath => cases keeps
        | _ => trivial
    | _ => trivial

/-- The terms fit together where those of `Staging` are kept. -/
theorem svgDiscipline_sound :
    (svgDiscipline settings).SoundGiven (stagingDiscipline settings) where
  exec := fun _ _ _ executed => ⟨trivial, _, executed⟩
  exec_frame := by
    rintro request other call server reply server' - ⟨pre, ⟨sound, circumstance, executed⟩, -⟩ -
    exact BlobsKept.of_exec sound pre executed
  environment_frame := fun happened =>
    let alike := BlobServer.environment_alike happened
    .of_eq alike.disk alike.blobs
  idle_stable := fun _ _ => trivial
  start := by
    intro config request task program server' _ _ started
    obtain ⟨-, rfl, rfl⟩ := start_eq started
    exact blobProgram_vetted task
  start_frame := by
    intro request other task server program server' started _
    obtain ⟨-, -, rfl⟩ := start_eq started
    exact .of_eq rfl rfl
  finish := fun _ => trivial
  finish_frame := fun _ => .of_eq rfl rfl
  abandon := fun _ => trivial
  abandon_frame := fun _ => .of_eq rfl rfl
  invariant := by
    intro label config config' holds recognised stepped
    obtain ⟨staging, safe⟩ := holds.invariant
    have kept := (staging_step staging stepped).2
    cases stepped with
    | act current executed =>
        simp only [svgDiscipline, RecognisedStep, current] at recognised
        exact safe.exec staging.invariant kept (holds.pre current) recognised executed
    | environment happened =>
        exact safe.kept kept (BlobServer.environment_alike happened).paths
    | start current started =>
        obtain ⟨-, -, rfl⟩ := start_eq started
        exact safe.kept kept rfl
    | finish current => exact safe.kept kept rfl
    | abandon => exact safe.kept kept rfl

end Runs

/-- As long as no blob is published under a display path of an SVG alone unless
its bytes look like one, every live row of an SVG names sanitized bytes. -/
theorem published_svgs_sanitized
    {settings : BlobSettings}
    {quotaBytes : Table String (Option Int)}
    {labels : List (blobMachine settings).Label}
    {config : (blobMachine settings).Config}
    (recognised : Machine.Admits (RecognisedStep settings) labels
      (blobConfig settings (.fresh quotaBytes) .empty))
    (runs : (blobMachine settings).run labels
      (blobConfig settings (.fresh quotaBytes) .empty) = some config) :
    config.shared.SvgSafe settings.toBlobLibraries := by
  have initially : ((svgDiscipline settings).given (stagingDiscipline settings)).Holds
      (blobConfig settings (.fresh quotaBytes) .empty) :=
    { invariant := ⟨stagingDiscipline_initial quotaBytes, nofun⟩
      threads := fun _ => trivial }
  have sound : ((svgDiscipline settings).given (stagingDiscipline settings)).Sound :=
    svgDiscipline_sound.sound stagingDiscipline_sound
  exact (sound.run initially (recognised.mono fun _ _ here => ⟨trivial, here⟩) runs).invariant.2

/-- A blob is published as an SVG. -/
def BlobSchedule.publishedSvg : BlobSchedule :=
  uploads 0 "u" Hash.ofA 0x61 ++
    serves 2 (.postBlobPath VaultId.v
      { BlobPathBody.attachment 1 Hash.ofA 1 "a" with
        pathKey := "a.svg"
        displayPath := "A.SVG" }) 6

theorem BlobSchedule.publishedSvg_enabled : BlobSchedule.publishedSvg.Enabled := by
  decide +kernel

theorem published_svgs_sanitized_attached :
    (BlobSchedule.publishedSvg.config BlobSchedule.publishedSvg_enabled).shared.SvgSafe
      BlobSettings.reference.toBlobLibraries :=
  published_svgs_sanitized (by decide +kernel)
    (BlobSchedule.run_eq_config BlobSchedule.publishedSvg_enabled)

/-- A server whose filter accepts nothing. -/
def BlobSettings.strict : BlobSettings :=
  { BlobSettings.reference with svgFilterOutput := fun _ => none }

/-- A blob that is no SVG is published under the path key of an image and the
display path of an SVG. -/
def BlobSchedule.disguised : BlobSchedule :=
  uploads 0 "u" Hash.ofA 0x61 ++
    serves 2 (.postBlobPath VaultId.v
      { BlobPathBody.attachment 1 Hash.ofA 1 "a" with displayPath := "a.svg" }) 5

theorem BlobSchedule.disguised_row :
    (((blobMachine BlobSettings.strict).run (disguised.on BlobSettings.strict)
      (blobConfig BlobSettings.strict (.fresh ∅) .empty)).bind fun config =>
        (config.shared.db.blobPathStates.lookup ⟨VaultId.v, "a.png"⟩).map fun row =>
          (row.state, row.displayPath)) = some (.live, "a.svg") := by
  decide +kernel

/-- The blob is published and has not been sanitized. -/
theorem svg_published_unsanitized :
    ¬ ∀ config, BlobReachable BlobSettings.strict ∅ config →
      config.shared.SvgSafe BlobSettings.strict.toBlobLibraries := by
  intro always
  obtain ⟨config, runs, row⟩ := Option.bind_eq_some_iff.mp BlobSchedule.disguised_row
  obtain ⟨row, found, columns⟩ := Option.map_eq_some_iff.mp row
  obtain ⟨live, shown⟩ := Prod.mk.inj columns
  have svg : isSvgPath row.displayPath = true := by
    rw [shown]
    decide +kernel
  obtain ⟨-, -, bytes, -, -, -, sanitized⟩ :=
    always config ⟨_, runs⟩ _ row found live (Or.inr svg)
  exact nomatch sanitized

end VaultCrdtServer
