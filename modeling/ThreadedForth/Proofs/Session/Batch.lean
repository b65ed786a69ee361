import ThreadedForth.CommandLine
import ThreadedForth.Proofs.Session.Reset

/-!
# How a batch ends

In a batch the files are loaded one after the other, until one of them says goodbye without having
failed.  What comes of each file is decided by the file and by what the files before it have left in
the session; `Loads` lists it.  The way the program ends is a function of this list (`run_batch`).

A batch in which no file says goodbye fails exactly if one of its files has failed.  But a goodbye
ends the program with success, whatever has happened before.
-/

namespace ThreadedForth

/-! ## More fuel -/

section Fuel

variable {fuel fuel' : Nat} (hle : fuel ≤ fuel')

include hle

theorem Machine.run_mono {m : Machine} {outcome : Except Cause Halt × Machine}
    (h : m.run fuel = some outcome) : m.run fuel' = some outcome := by
  obtain ⟨state, primitives, report, stepLimit, recovered, watched, told⟩ := m
  rcases hkernel : state.kernel with cause | kernel
  · simp only [run, hkernel] at h ⊢
    exact h
  · simp only [run, hkernel] at h ⊢
    rcases hloop : loop primitives report kernel.quit fuel stepLimit
      { state with halt? := none } recovered with _ | ⟨halt, t, recovered'⟩
    · rw [hloop] at h
      cases h
    · rw [hloop] at h
      rw [loop_mono hloop hle]
      exact h

theorem Session.runText_mono {m : Machine} {source : String}
    {outcome : Except Error Halt × Machine} (h : runText fuel source m = some outcome) :
    runText fuel' source m = some outcome := by
  unfold runText at h ⊢
  rw [Option.bind_eq_bind, Option.bind_eq_some_iff] at h ⊢
  obtain ⟨ran, hran, hresult⟩ := h
  exact ⟨ran, Machine.run_mono hle hran, hresult⟩

theorem Session.build_mono {settings : Settings} {order : NameOrder}
    {result : Except Error Session} (h : build fuel settings order = some result) :
    build fuel' settings order = some result := by
  unfold build at h ⊢
  dsimp only at h ⊢
  split at h
  · exact h
  · by_cases hprelude : settings.prelude = true
    · rw [if_pos hprelude, Option.bind_eq_bind, Option.bind_eq_some_iff] at h ⊢
      obtain ⟨ran, hran, hresult⟩ := h
      exact ⟨ran, runText_mono hle hran, hresult⟩
    · rw [if_neg hprelude] at h ⊢
      exact h

theorem Session.load_mono {session : Session} {content : Except String String}
    {outcome : Except Error Halt × Session} (h : session.load fuel content = some outcome) :
    session.load fuel' content = some outcome := by
  unfold load at h ⊢
  split at h
  · exact h
  · rw [Option.bind_eq_bind, Option.bind_eq_some_iff] at h ⊢
    obtain ⟨ran, hran, hresult⟩ := h
    exact ⟨ran, runText_mono hle hran, hresult⟩

end Fuel

namespace CommandLine

variable {readFile : String → Except FileError String} {files : List String}
variable {session last : Session} {results : List (Except Error Halt)} {progress : Progress}

/-! ## What comes of the files -/

/-- The content of a file, or why it cannot be had. -/
def content (readFile : String → Except FileError String) (file : String) : Except String String :=
  (readFile file).mapError fun reason => file ++ ": " ++ reason.message

/-- Given the time, the file is loaded with that result. -/
def LoadsFile (readFile : String → Except FileError String) (session : Session) (file : String)
    (result : Except Error Halt) (after : Session) : Prop :=
  ∃ fuel, session.load fuel (content readFile file) = some (result, after)

/-- The files are loaded in order, up to the first one that says goodbye without having failed;
these are the results of those that were loaded. -/
inductive Loads (readFile : String → Except FileError String) :
    Session → List String → List (Except Error Halt) → Session → Prop
  | done {session : Session} : Loads readFile session [] [] session
  | ended {session after : Session} {file : String} {files : List String}
      (hload : LoadsFile readFile session file (.ok .bye) after) :
      Loads readFile session (file :: files) [.ok .bye] after
  | more {session middle last : Session} {file : String} {files : List String}
      {result : Except Error Halt} {results : List (Except Error Halt)}
      (hload : LoadsFile readFile session file result middle) (hgoes : result ≠ .ok .bye)
      (hmore : Loads readFile middle files results last) :
      Loads readFile session (file :: files) (result :: results) last

/-- The file could not be read, or it has failed. -/
def hasFailed : Except Error Halt → Bool
  | .error _ => true
  | .ok _ => false

/-- The file has said goodbye. -/
def hasEnded : Except Error Halt → Bool
  | .ok .bye => true
  | _ => false

/-- The complaint about a file. -/
def complaint? : Except Error Halt → Option String
  | .ok _ => none
  | .error error =>
    match error.cause with
    | .io _ => some (complaint error.cause.message)
    | _ => none

/-- What the results add to what the files before have come to. -/
def Progress.continued (progress : Progress) (results : List (Except Error Halt))
    (last : Session) : Progress where
  session := last
  failed := (progress.failed || results.any hasFailed) && !results.any hasEnded
  errors := progress.errors ++ results.filterMap complaint?
  ended := results.any hasEnded

theorem hasEnded_iff {result : Except Error Halt} : hasEnded result = true ↔ result = .ok .bye := by
  rcases result with error | _ | _ | _ <;> simp [hasEnded]

/-! ## Loading -/

theorem load_eq (fuel : Nat) (progress : Progress) (file : String) :
    progress.load fuel readFile file =
      (progress.session.load fuel (content readFile file)).map fun loaded =>
        match loaded.1 with
        | .ok .bye => { progress with session := loaded.2, ended := true, failed := false }
        | .ok _ => { progress with session := loaded.2 }
        | .error error =>
          { progress with
            session := loaded.2, failed := true
            errors := progress.errors ++ (complaint? (.error error)).toList } := by
  change Option.bind (progress.session.load fuel (content readFile file)) _ = _
  rcases progress.session.load fuel (content readFile file) with _ | ⟨result, after⟩
  · rfl
  · rcases result with ⟨cause, context⟩ | _ | _ | _
    · cases cause with
      | io reason => rfl
      | _ => simp [complaint?]
    all_goals rfl

/-- A goodbye without a failure ends the batch, and then nothing has failed. -/
theorem load_ended {fuel : Nat} {file : String} {after : Session}
    (hload : progress.session.load fuel (content readFile file) = some (.ok .bye, after)) :
    progress.load fuel readFile file = some (progress.continued [.ok .bye] after) := by
  rw [load_eq, hload, Option.map_some]
  simp [Progress.continued, hasFailed, hasEnded, complaint?]

/-- A file that does not end the batch adds its result, and the others theirs. -/
theorem load_continued {fuel : Nat} {file : String} {result : Except Error Halt} {middle : Session}
    (hgoing : progress.ended = false)
    (hload : progress.session.load fuel (content readFile file) = some (result, middle))
    (hgoes : result ≠ .ok .bye) :
    ∃ after, progress.load fuel readFile file = some after ∧ after.ended = false ∧
      after.session = middle ∧
      ∀ results last,
        after.continued results last = progress.continued (result :: results) last := by
  rw [load_eq, hload, Option.map_some]
  rcases result with error | _ | _ | _
  · refine ⟨_, rfl, hgoing, rfl, fun results last => ?_⟩
    simp only [Progress.continued, List.any_cons, List.filterMap_cons, hasFailed, hasEnded]
    rcases complaint? (.error error) with _ | text <;> simp
  · exact absurd rfl hgoes
  all_goals exact ⟨_, rfl, hgoing, rfl, fun results last => rfl⟩

theorem continued_nil (hgoing : progress.ended = false) :
    progress.continued [] progress.session = progress := by
  obtain ⟨session, failed, errors, ended⟩ := progress
  obtain rfl : ended = false := hgoing
  simp [Progress.continued]

/-- If all the files have been loaded, each of them has come to a result. -/
theorem exists_loads_of_loadAll {fuel : Nat} {after : Progress} (hgoing : progress.ended = false)
    (h : progress.loadAll fuel readFile files = some after) :
    ∃ results last, Loads readFile progress.session files results last ∧
      after = progress.continued results last := by
  induction files generalizing progress with
  | nil =>
      obtain rfl : progress = after := Option.some.inj h
      exact ⟨[], progress.session, .done, (continued_nil hgoing).symm⟩
  | cons file files ih =>
      rw [Progress.loadAll, Option.bind_eq_bind, Option.bind_eq_some_iff] at h
      obtain ⟨middle, hmiddle, h⟩ := h
      have hmiddle' := hmiddle
      rw [load_eq, Option.map_eq_some_iff] at hmiddle'
      obtain ⟨⟨result, session⟩, hload, -⟩ := hmiddle'
      by_cases hbye : result = .ok .bye
      · subst hbye
        rw [load_ended hload] at hmiddle
        cases hmiddle
        cases h
        exact ⟨[.ok .bye], session, .ended ⟨fuel, hload⟩, rfl⟩
      · obtain ⟨next, hnext, hgoes, rfl, hcontinued⟩ := load_continued hgoing hload hbye
        obtain rfl : next = middle := Option.some.inj (hnext.symm.trans hmiddle)
        rw [hgoes, if_neg Bool.false_ne_true] at h
        obtain ⟨results, last, hloads, rfl⟩ := ih hgoes h
        exact ⟨result :: results, last, .more ⟨fuel, hload⟩ hbye hloads, hcontinued results last⟩

/-- If each file comes to a result, then all of them can be loaded, given the time. -/
theorem Loads.exists_loadAll (h : Loads readFile session files results last)
    (hsession : progress.session = session) (hgoing : progress.ended = false) :
    ∃ least, ∀ fuel ≥ least,
      progress.loadAll fuel readFile files = some (progress.continued results last) := by
  induction h generalizing progress with
  | done =>
      subst hsession
      exact ⟨0, fun _ _ => congrArg some (continued_nil hgoing).symm⟩
  | ended hload =>
      subst hsession
      obtain ⟨least, hload⟩ := hload
      refine ⟨least, fun fuel hfuel => ?_⟩
      rw [Progress.loadAll, load_ended (Session.load_mono hfuel hload)]
      rfl
  | @more session middle last file files result results hload hgoes _ ih =>
      subst hsession
      obtain ⟨least, hload⟩ := hload
      obtain ⟨next, hnext, hended, hsession, hcontinued⟩ := load_continued hgoing hload hgoes
      obtain ⟨least', hall⟩ := ih hsession hended
      refine ⟨max least least', fun fuel hfuel => ?_⟩
      have hnext' : progress.load fuel readFile file = some next := by
        rw [load_eq, Option.map_eq_some_iff] at hnext ⊢
        obtain ⟨loaded, hloaded, hmiddle⟩ := hnext
        have hmore := Session.load_mono (Nat.le_trans (Nat.le_max_left _ _) hfuel) hloaded
        exact ⟨loaded, hmore, hmiddle⟩
      rw [Progress.loadAll, hnext', Option.bind_eq_bind, Option.bind_some, hended,
        if_neg Bool.false_ne_true, hall fuel (Nat.le_trans (Nat.le_max_right _ _) hfuel),
        hcontinued]

/-! ## The end of the program -/

/-- What a batch ends with after those results. -/
def Outcome.ofResults (results : List (Except Error Halt)) (last : Session) : Outcome where
  failed := results.any hasFailed && !results.any hasEnded
  output := last.machine.state.output.text
  errors := results.filterMap complaint?

theorem hasFailed_iff {result : Except Error Halt} :
    hasFailed result = true ↔ ∃ error, result = .error error := by
  rcases result with error | halt <;> simp [hasFailed]

theorem failed_ofResults_iff (results : List (Except Error Halt)) (last : Session) :
    (Outcome.ofResults results last).failed = true ↔
      (∃ error, .error error ∈ results) ∧ .ok .bye ∉ results := by
  rw [Outcome.ofResults, Bool.and_eq_true, Bool.not_eq_true', ← Bool.not_eq_true, List.any_eq_true,
    List.any_eq_true]
  simp only [hasFailed_iff, hasEnded_iff]
  constructor
  · rintro ⟨⟨result, hmem, error, rfl⟩, hbye⟩
    exact ⟨⟨error, hmem⟩, fun hmem => hbye ⟨_, hmem, rfl⟩⟩
  · rintro ⟨⟨error, hmem⟩, hbye⟩
    exact ⟨⟨_, hmem, error, rfl⟩, fun ⟨result, hmem, heq⟩ => hbye (heq ▸ hmem)⟩

section Running

variable {editor : LineEditor} {arguments : List String} {options : Options} {order : NameOrder}

/-- A batch is nothing but its files. -/
theorem run_eq (hread : ({} : Options).read arguments = .ok options) (hbatch : options.batch = true)
    (hhelp : options.help = false) (hversion : options.version = false) (fuel : Nat) :
    run fuel readFile editor arguments order =
      (Session.build fuel options.settings order).bind fun built =>
        match built with
        | .error error => some (.failure error.cause.message)
        | .ok session =>
          (Progress.loadAll fuel readFile { session } options.files).map fun progress =>
            { failed := progress.failed
              output := progress.session.machine.state.output.text
              errors := progress.errors } := by
  unfold run begin
  simp only [hread, hhelp, hversion, hbatch, Bool.false_eq_true, if_false, true_or, if_true]
  rcases Session.build fuel options.settings order with _ | error | session
  · rfl
  · rfl
  · simp only [Option.bind_eq_bind, Option.bind_some]
    rcases Progress.loadAll fuel readFile { session } options.files with _ | progress <;> rfl

/-- A batch comes to an end exactly if each of its files does, up to a goodbye, and the results of
the files say to which. -/
theorem run_batch (hread : ({} : Options).read arguments = .ok options)
    (hbatch : options.batch = true) (hhelp : options.help = false)
    (hversion : options.version = false) (order : NameOrder) :
    ∃ fresh, (∃ fuel, Session.build fuel options.settings order = some (.ok fresh)) ∧
      ∀ outcome, (∃ fuel, run fuel readFile editor arguments order = some outcome) ↔
        ∃ results last, Loads readFile fresh options.files results last ∧
          outcome = .ofResults results last := by
  have hlimit : options.settings.stepLimit = none := rfl
  let fresh := Session.initial options.settings order
  obtain ⟨least, hfresh⟩ := Session.exists_build hlimit order
  have hcontinued : ∀ results last, Progress.continued { session := fresh } results last =
      { session := last
        failed := results.any hasFailed && !results.any hasEnded
        errors := results.filterMap complaint?
        ended := results.any hasEnded } := by
    intro results last
    simp [Progress.continued]
  refine ⟨fresh, ⟨least, hfresh⟩, fun outcome => ?_⟩
  constructor
  · rintro ⟨fuel, hrun⟩
    rw [run_eq hread hbatch hhelp hversion, Option.bind_eq_some_iff] at hrun
    obtain ⟨built, hbuilt, hrun⟩ := hrun
    have hlong := Session.build_mono (Nat.le_max_left fuel least) hbuilt
    have hlong' := Session.build_mono (Nat.le_max_right fuel least) hfresh
    obtain rfl : built = .ok fresh := Option.some.inj (hlong.symm.trans hlong')
    obtain ⟨progress, hprogress, rfl⟩ := Option.map_eq_some_iff.mp hrun
    obtain ⟨results, last, hloads, rfl⟩ := exists_loads_of_loadAll rfl hprogress
    refine ⟨results, last, hloads, ?_⟩
    rw [hcontinued]
    rfl
  · rintro ⟨results, last, hloads, rfl⟩
    have hbegun : ({ session := fresh } : Progress).ended = false := rfl
    obtain ⟨least', hall⟩ := hloads.exists_loadAll rfl hbegun
    refine ⟨max least least', ?_⟩
    rw [run_eq hread hbatch hhelp hversion,
      Session.build_mono (Nat.le_max_left least least') hfresh, Option.bind_some]
    dsimp only
    rw [hall _ (Nat.le_max_right least least'), hcontinued]
    rfl

/-- **A batch fails exactly if one of its files has failed and none says goodbye.**  Let the
arguments ask for a batch, and let the dictionary draw any order.  The program ends exactly if all
files that it loads come to an end, and these are all files up to the first one that says goodbye
without having failed.  Then it ends with success if there is such a file, and also if none of them
could not be read or has failed; else it ends with failure.  It prints what the session has printed,
and complains of what could not be read. -/
theorem batch_fails_iff (hread : ({} : Options).read arguments = .ok options)
    (hbatch : options.batch = true) (hhelp : options.help = false)
    (hversion : options.version = false) (order : NameOrder) :
    ∃ fresh, (∃ fuel, Session.build fuel options.settings order = some (.ok fresh)) ∧
      ∀ outcome, (∃ fuel, run fuel readFile editor arguments order = some outcome) ↔
        ∃ results last, Loads readFile fresh options.files results last ∧
          (outcome.failed = true ↔ (∃ error, .error error ∈ results) ∧ .ok .bye ∉ results) ∧
          outcome.output = last.machine.state.output.text ∧
          outcome.errors = results.filterMap complaint? := by
  obtain ⟨fresh, hbuild, hrun⟩ := run_batch hread hbatch hhelp hversion order
  refine ⟨fresh, hbuild, fun outcome => ?_⟩
  rw [hrun]
  constructor
  · rintro ⟨results, last, hloads, rfl⟩
    exact ⟨results, last, hloads, failed_ofResults_iff results last, rfl, rfl⟩
  · rintro ⟨results, last, hloads, hfailed, houtput, herrors⟩
    refine ⟨results, last, hloads, ?_⟩
    obtain ⟨failed, output, errors⟩ := outcome
    rw [← failed_ofResults_iff results last] at hfailed
    rw [Outcome.mk.injEq]
    exact ⟨Bool.eq_iff_iff.mpr hfailed, houtput, herrors⟩

end Running

/-! ## Two batches -/

/-- A file that fails and one that says goodbye; there is no other. -/
def twoFiles : String → Except FileError String
  | "a.fs" => .ok "NOPE"
  | "b.fs" => .ok "BYE"
  | _ => .error .missing

/-- A batch of two files, without the prelude. -/
def batchOf (first second : String) : Options where
  files := [first, second]
  batch := true
  withoutPrelude := true

theorem exists_loaded_twoFiles :
    ∃ fresh ∈ (Session.build 0 { prelude := false, banner := false }).bind Except.toOption,
    ∃ first ∈ fresh.load 100 (content twoFiles "a.fs"),
    ∃ second ∈ first.2.load 100 (content twoFiles "b.fs"),
      (hasFailed first.1 = true ∧ complaint? first.1 = none) ∧ second.1 = .ok .bye := by
  decide +kernel

/-- In a new session the first file fails, and the second one then says goodbye. -/
theorem loads_twoFiles {fuel : Nat} {fresh : Session}
    (hbuild : Session.build fuel { prelude := false, banner := false } = some (.ok fresh)) :
    ∃ error middle last, complaint? (.error error) = none ∧
      LoadsFile twoFiles fresh "a.fs" (.error error) middle ∧
      LoadsFile twoFiles middle "b.fs" (.ok .bye) last := by
  obtain ⟨fresh', hfresh', ⟨result, middle⟩, hfirst, ⟨_, last⟩, hsecond,
    ⟨hfailed, hcomplaint⟩, rfl⟩ := exists_loaded_twoFiles
  have hwithout : ({ prelude := false, banner := false } : Settings).prelude = false := rfl
  have hbare := Session.build_bare hwithout
  obtain rfl : fresh' = fresh := by
    rw [hbare] at hbuild hfresh'
    cases hbuild
    cases hfresh'
    rfl
  obtain ⟨error, rfl⟩ := hasFailed_iff.mp hfailed
  exact ⟨error, middle, last, hcomplaint, ⟨100, hfirst⟩, 100, hsecond⟩

/-- A file fails and the next one is missing, so the batch fails. -/
theorem batch_fails_iff_missing : ∃ fuel outcome,
    run fuel twoFiles {} ["-b", "--no-prelude", "a.fs", "c.fs"] = some outcome ∧
      outcome.failed = true ∧
      outcome.errors = [complaint "i/o error: c.fs: No such file or directory (os error 2)"] := by
  have hread : ({} : Options).read ["-b", "--no-prelude", "a.fs", "c.fs"] =
      .ok (batchOf "a.fs" "c.fs") := rfl
  obtain ⟨fresh, ⟨fuel, hbuild⟩, hrun⟩ :=
    @batch_fails_iff twoFiles {} _ _ hread rfl rfl rfl default
  obtain ⟨error, middle, -, hcomplaint, hfirst, -⟩ := loads_twoFiles hbuild
  have hsecond : LoadsFile twoFiles middle "c.fs"
      (.error { cause := .io "c.fs: No such file or directory (os error 2)" }) middle := ⟨0, rfl⟩
  obtain ⟨fuel', hbatch⟩ := (hrun {
      failed := true
      output := middle.machine.state.output.text
      errors := [complaint "i/o error: c.fs: No such file or directory (os error 2)"] }).mpr
    ⟨_, middle, .more hfirst nofun (.more hsecond nofun .done), by simp, rfl, by
      rw [List.filterMap_cons_none hcomplaint]; rfl⟩
  exact ⟨fuel', _, hbatch, rfl, rfl⟩

/-- **A goodbye hides a failure.**  The first of two files fails, the second one says goodbye, and
the program ends with success. -/
theorem batch_forgets_failure : ∃ fresh,
    (∃ fuel, Session.build fuel (batchOf "a.fs" "b.fs").settings = some (.ok fresh)) ∧
    (∃ error last, Loads twoFiles fresh ["a.fs", "b.fs"] [.error error, .ok .bye] last) ∧
    ∃ fuel outcome, run fuel twoFiles {} ["-b", "--no-prelude", "a.fs", "b.fs"] = some outcome ∧
      outcome.failed = false := by
  have hread : ({} : Options).read ["-b", "--no-prelude", "a.fs", "b.fs"] =
      .ok (batchOf "a.fs" "b.fs") := rfl
  obtain ⟨fresh, ⟨fuel, hbuild⟩, hrun⟩ :=
    @run_batch twoFiles {} _ _ hread rfl rfl rfl default
  obtain ⟨error, middle, last, -, hfirst, hsecond⟩ := loads_twoFiles hbuild
  have hloads : Loads twoFiles fresh ["a.fs", "b.fs"] [.error error, .ok .bye] last :=
    .more hfirst nofun (.ended hsecond)
  obtain ⟨fuel', hbatch⟩ := (hrun _).mpr ⟨_, last, hloads, rfl⟩
  exact ⟨fresh, ⟨fuel, hbuild⟩, ⟨error, last, hloads⟩, fuel', _, hbatch, rfl⟩

end CommandLine

end ThreadedForth
