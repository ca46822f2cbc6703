import BuildFront.Proofs.Application.Stages

/-!
What a whole run comes to once its command line is accepted. The exit code is zero if every stage
has succeeded, the writing of the plan among them; an engine's own code is passed on, and every
other failure is told by one. Printing a plan asks nothing of engines, and none is started for a run
that stops before the hand-over.
-/

namespace BuildFront

theorem EngineError.exitCode_ne_zero (e : EngineError) : e.exitCode ≠ 0 := by
  unfold exitCode
  split
  · split
    · exact Int.one_ne_zero
    · assumption
  · exact Int.one_ne_zero

theorem RunError.exitCode_ne_zero (e : RunError) : e.exitCode ≠ 0 := by
  cases e with
  | directory | config | rejected => exact Int.one_ne_zero
  | engine e => exact e.exitCode_ne_zero

/-- An outcome as it follows from the end of a run. -/
structure Outcome.Shows (out : Outcome) (x : Ending) : Prop where
  launched : out.launched = x.launched
  output : out.output = x.output ++ (Application.printed x.launched).1
  succeeds : out.exitCode = 0 ↔ x.result = .ok ()
  reports : ∀ e, x.result = .error e →
    out.exitCode = e.exitCode ∧ Utf8.ofString (e.report false) <:+ out.errors

namespace Application

open CommandLine

/-- An engine was run, was not kept from reading, and has exited by itself. -/
def Exits (host : Host) (g : Registry) (m : Matches) (n : Nat) : Prop :=
  ∃ cwd config plan engine i child, Prepared host g m cwd config plan engine i ∧
    host.launch i = .started child ∧ child.Served ∧ child.verdict = .ok (.code n)

/-- The plan was asked for, it has a text, and standard output takes the text. -/
structure Prints (host : Host) (g : Registry) (m : Matches) (text : String) : Prop
    extends Printable host g m text where
  takes : host.output.Takes (PlanWriter.line text)

/-- The plan was asked for, and standard output takes some of its text but not all. -/
structure Breaks (host : Host) (g : Registry) (m : Matches) (text : String) (part : Bytes) : Prop
    extends Printable host g m text where
  overflows : ¬host.output.Takes (PlanWriter.line text)
  part_isPrefix : part <+: PlanWriter.line text

variable {host host' : Host} {g : Registry} {m : Matches} {argv : List String} {x : Ending}
  {config : Config} {plan : BuildPlan}

theorem shows_conclude (verbose : Bool) :
    (conclude verbose (stages host g m).1 (stages host g m).2).Shows (ending host g m) where
  launched := rfl
  output := rfl
  succeeds := by
    cases h : (stages host g m).2 with
    | ok => simp [conclude, ending, h]
    | error e => simp [conclude, ending, h, e.exitCode_ne_zero]
  reports := by
    intro e h
    change (stages host g m).2 = .error e at h
    rw [h]
    exact ⟨rfl, List.suffix_append _ _⟩

/-- An engine has the last word, or the plan is printed, or one tells of the failure. -/
theorem Ends.exits_or_prints (h : Ends host g m x) :
    (∃ n, Exits host g m n) ∨ (∃ text, Prints host g m text) ∨
      ∃ e, x.result = .error e ∧ e.exitCode = 1 := by
  cases h with
  | built h hl hs hv | failed h hl hs hv _ => exact .inl ⟨_, _, _, _, _, _, _, h, hl, hs, hv⟩
  | printed h ht => exact .inr (.inl ⟨_, h, ht⟩)
  | lost | misconfigured | rejected | unprintable | unwritten | unlocated | unserialized | refused
  | unfed | unawaited | killed => exact .inr (.inr ⟨_, rfl, rfl⟩)

theorem Ends.of_printing (h : Ends host g m x) (hp : (Request.ofMatches m).plan = true) :
    (∃ text, Prints host g m text ∧
        x = ⟨host.output.written ++ PlanWriter.line text, none, .ok ()⟩) ∨
      (∃ text part, Breaks host g m text part ∧
        x = ⟨host.output.written ++ part, none, .error (.engine .write)⟩) ∨
      ∃ e, e.exitCode = 1 ∧ x = .early host e := by
  cases h with
  | lost | misconfigured | rejected | unprintable => exact .inr (.inr ⟨_, rfl, rfl⟩)
  | @unwritten text h ht =>
      obtain ⟨part, hpart, written⟩ := host.output.exists_written_put_eq (PlanWriter.line text)
      rw [written]
      exact .inr (.inl ⟨text, part, ⟨h, ht, hpart⟩, rfl⟩)
  | printed h ht => exact .inl ⟨_, ⟨h, ht⟩, rfl⟩
  | unlocated _ engages _ | unserialized _ engages _ _ => cases hp.symm.trans engages
  | refused h _ | unfed h _ _ | unawaited h _ _ _ | killed h _ _ _ | failed h _ _ _ _
  | built h _ _ _ => cases hp.symm.trans h.engages

theorem Ends.launched_iff (h : Ends host g m x) (i : Invocation) (l : Launch) :
    x.launched = some (i, l) ↔
      l = host.launch i ∧ ∃ cwd config plan engine, Prepared host g m cwd config plan engine i := by
  constructor
  · intro hx
    cases h with
    | refused h hl | unfed h hl _ | unawaited h hl _ _ | killed h hl _ _ | failed h hl _ _ _
    | built h hl _ _ =>
        cases hx
        exact ⟨hl.symm, _, _, _, _, h⟩
    | lost | misconfigured | rejected | unprintable | unwritten | printed | unlocated
    | unserialized => cases hx
  · rintro ⟨rfl, cwd, config, plan, engine, prepared⟩
    rw [eq_ending_of_ends h, ending_of_prepared prepared]
    rfl

theorem deliver_of_printing (houtput : host'.output = host.output)
    (hp : (Request.ofMatches m).plan = true) :
    deliver host' (Request.ofMatches m) config plan =
      deliver host (Request.ofMatches m) config plan := by
  simp only [deliver, hp, if_true, houtput]

theorem deliver_of_unprepared (launch : Invocation → Launch) {cwd : Path}
    (h : Planned host g m cwd config plan)
    (unprepared : ∀ cwd config plan engine i, ¬Prepared host g m cwd config plan engine i) :
    deliver { host with launch } (Request.ofMatches m) config plan =
      deliver host (Request.ofMatches m) config plan := by
  cases hp : (Request.ofMatches m).plan with
  | true => exact deliver_of_printing rfl hp
  | false =>
      simp only [deliver, hp, Bool.false_eq_true, if_false]
      split
      · rfl
      · next found engine hl =>
          have selected : selection host m config = .ok engine := by rw [selection, hl]
          cases hc : engine.command host.isDirectory host.env plan with
          | error e => simp only [Engine.configure, hc]
          | ok i => exact absurd ⟨h, hp, selected, hc⟩ (unprepared cwd config plan engine i)

/-- Two hosts that differ only in what a delivery asks of them go through the same stages where
every delivery that comes to pass is the same. -/
theorem stages_congr (hcwd : host'.cwd = host.cwd) (houtput : host'.output = host.output)
    (hhome : host'.home = host.home) (hfiles : host'.files = host.files)
    (hd : ∀ cwd config plan, Planned host g m cwd config plan →
      deliver host' (Request.ofMatches m) config plan =
        deliver host (Request.ofMatches m) config plan) :
    stages host' g m = stages host g m := by
  simp only [stages, hcwd, houtput]
  cases located : host.cwd with
  | error e => rfl
  | ok cwd =>
      simp only [stagesFrom, configuration, hhome, hfiles, houtput]
      split
      · rfl
      · next loading config hconfig =>
          split
          · rfl
          · next resolving plan hplan =>
              have planned : Planned host g m cwd config plan :=
                ⟨located, by rw [configuration, hconfig], by rw [resolution, hplan]⟩
              rw [hd cwd config plan planned]

/-! ### Runs whose command line is accepted -/

section Accepted

variable (hread : read (Request.arguments g) host.env argv = .ok m)
  (hrun : (Request.ofMatches m).completions = none)
include hread hrun

theorem run_of_read :
    run host g argv =
      conclude (Request.ofMatches m).verbose (stages host g m).1 (stages host g m).2 := by
  simp [run, hread, hrun]

theorem run_shows (h : Ends host g m x) : (run host g argv).Shows x := by
  rw [run_of_read hread hrun, eq_ending_of_ends h]
  exact shows_conclude _

theorem exitCode_of_exits {n : Nat} (h : Exits host g m n) : (run host g argv).exitCode = n := by
  obtain ⟨cwd, config, plan, engine, i, child, prepared, hl, hs, hv⟩ := h
  by_cases hn : n = 0
  · subst hn
    exact (run_shows hread hrun (.built prepared hl hs hv)).succeeds.mpr rfl
  · rw [((run_shows hread hrun (.failed prepared hl hs hv hn)).reports _ rfl).1]
    simp [RunError.exitCode, EngineError.exitCode, hn]

theorem exitCode_of_prints {text : String} (h : Prints host g m text) :
    (run host g argv).exitCode = 0 :=
  (run_shows hread hrun (.printed h.toPrintable h.takes)).succeeds.mpr rfl

theorem exitCode_eq_zero_iff :
    (run host g argv).exitCode = 0 ↔ Exits host g m 0 ∨ ∃ text, Prints host g m text := by
  have ends := ends_ending host g m
  constructor
  · intro zero
    obtain ⟨n, h⟩ | h | ⟨e, he, one⟩ := ends.exits_or_prints
    · have code := exitCode_of_exits hread hrun h
      obtain rfl : n = 0 := by omega
      exact .inl h
    · exact .inr h
    · have code := ((run_shows hread hrun ends).reports e he).1
      omega
  · rintro (h | ⟨text, h⟩)
    · exact exitCode_of_exits hread hrun h
    · exact exitCode_of_prints hread hrun h

theorem exitCode_eq_one (nonzero : (run host g argv).exitCode ≠ 0)
    (none_exits : ∀ n, ¬Exits host g m n) : (run host g argv).exitCode = 1 := by
  have ends := ends_ending host g m
  obtain ⟨n, h⟩ | ⟨text, h⟩ | ⟨e, he, one⟩ := ends.exits_or_prints
  · exact absurd h (none_exits n)
  · exact absurd (exitCode_of_prints hread hrun h) nonzero
  · exact ((run_shows hread hrun ends).reports e he).1.trans one

/-- A run that is to print its plan launches nothing. It prints the plan, or as much of it as
standard output takes, or nothing. -/
theorem run_of_printing (hp : (Request.ofMatches m).plan = true) :
    (run host g argv).launched = none ∧
      ((∃ text, Prints host g m text ∧ (run host g argv).exitCode = 0 ∧
          (run host g argv).output = host.output.written ++ PlanWriter.line text) ∨
        (∃ text part, Breaks host g m text part ∧ (run host g argv).exitCode = 1 ∧
          (run host g argv).output = host.output.written ++ part) ∨
        ((run host g argv).exitCode = 1 ∧ (run host g argv).output = host.output.written)) := by
  have ends := ends_ending host g m
  have told := run_shows hread hrun ends
  obtain ⟨text, h, hx⟩ | ⟨text, part, h, hx⟩ | ⟨e, one, hx⟩ := ends.of_printing hp
  · rw [hx] at told
    refine ⟨told.launched, .inl ⟨text, h, told.succeeds.mpr rfl, ?_⟩⟩
    exact told.output.trans (List.append_nil _)
  · rw [hx] at told
    refine ⟨told.launched, .inr (.inl ⟨text, part, h, (told.reports _ rfl).1, ?_⟩)⟩
    exact told.output.trans (List.append_nil _)
  · rw [hx] at told
    refine ⟨told.launched, .inr (.inr ⟨(told.reports _ rfl).1.trans one, ?_⟩)⟩
    exact told.output.trans (List.append_nil _)

/-- Standard output that takes everything has the whole plan in the end, or nothing new. -/
theorem run_of_taking (hp : (Request.ofMatches m).plan = true)
    (taking : ∀ bs, host.output.Takes bs) :
    ((run host g argv).exitCode = 0 ∧ ∃ text, Printable host g m text ∧
        (run host g argv).output = host.output.written ++ PlanWriter.line text) ∨
      ((run host g argv).exitCode ≠ 0 ∧ (run host g argv).output = host.output.written) := by
  obtain ⟨-, ⟨text, h, zero, output⟩ | ⟨text, part, h, -, -⟩ | ⟨one, output⟩⟩ :=
    run_of_printing hread hrun hp
  · exact .inl ⟨zero, text, h.toPrintable, output⟩
  · exact absurd (taking _) h.overflows
  · exact .inr ⟨by omega, output⟩

theorem run_congr (he : host'.env = host.env) (hs : stages host' g m = stages host g m) :
    run host' g argv = run host g argv := by
  rw [run_of_read (he ▸ hread) hrun, run_of_read hread hrun, hs]

end Accepted

/-- A run ends in one way, with the first stage that fails or after the last. It exits with zero if
none has failed, with the code of an engine that was served and has exited, and with one otherwise.
Where only the plan is asked for, no engine is looked for or started; the plan is printed as far as
standard output takes it, and is whole if the run succeeds. An engine is started only for a run that
has come to a command. A run without a working directory looks at nothing. -/
theorem run_ends_at_first_failure (host : Host) (g : Registry) (argv : List String) (m : Matches)
    (hread : read (Request.arguments g) host.env argv = .ok m)
    (hrun : (Request.ofMatches m).completions = none) :
    let out := run host g argv
    (∃! x, Ends host g m x) ∧ (∀ x, Ends host g m x → out.Shows x) ∧
    (out.exitCode = 0 ↔ Exits host g m 0 ∨ ∃ text, Prints host g m text) ∧
    (∀ n, Exits host g m n → out.exitCode = n) ∧
    (out.exitCode ≠ 0 → (∀ n, ¬Exits host g m n) → out.exitCode = 1) ∧
    ((Request.ofMatches m).plan = true →
      (out.launched = none ∧
        ((∃ text, Prints host g m text ∧ out.exitCode = 0 ∧
            out.output = host.output.written ++ PlanWriter.line text) ∨
          (∃ text part, Breaks host g m text part ∧ out.exitCode = 1 ∧
            out.output = host.output.written ++ part) ∨
          (out.exitCode = 1 ∧ out.output = host.output.written))) ∧
      ((∀ bs, host.output.Takes bs) →
        (out.exitCode = 0 ∧ ∃ text, Printable host g m text ∧
            out.output = host.output.written ++ PlanWriter.line text) ∨
          (out.exitCode ≠ 0 ∧ out.output = host.output.written))) ∧
    (∀ i l, out.launched = some (i, l) ↔
      l = host.launch i ∧ ∃ cwd config plan engine, Prepared host g m cwd config plan engine i) ∧
    ((Request.ofMatches m).plan = true ∨ (∀ cwd config plan, ¬Planned host g m cwd config plan) →
      ∀ search isDirectory launch, run { host with search, isDirectory, launch } g argv = out) ∧
    ((∀ cwd config plan engine i, ¬Prepared host g m cwd config plan engine i) →
      ∀ launch, run { host with launch } g argv = out) ∧
    ∀ e, host.cwd = .error e → ∀ home files search isDirectory launch,
      run { host with home, files, search, isDirectory, launch } g argv = out := by
  intro out
  have ends := ends_ending host g m
  refine ⟨⟨_, ends, fun x => eq_ending_of_ends⟩, fun x => run_shows hread hrun,
    exitCode_eq_zero_iff hread hrun, fun n => exitCode_of_exits hread hrun,
    exitCode_eq_one hread hrun,
    fun hp => ⟨run_of_printing hread hrun hp, run_of_taking hread hrun hp⟩,
    fun i l => ?_, ?_, ?_, ?_⟩
  · rw [(run_shows hread hrun ends).launched]
    exact ends.launched_iff i l
  · intro unasked search isDirectory launch
    refine run_congr hread hrun rfl (stages_congr rfl rfl rfl rfl fun cwd config plan planned => ?_)
    obtain hp | unplanned := unasked
    · exact deliver_of_printing rfl hp
    · exact absurd planned (unplanned cwd config plan)
  · intro unprepared launch
    refine run_congr hread hrun rfl (stages_congr rfl rfl rfl rfl fun cwd config plan planned => ?_)
    exact deliver_of_unprepared launch planned unprepared
  · intro e lost home files search isDirectory launch
    refine run_congr hread hrun rfl ?_
    simp only [stages, lost]

/-- An engine that stops reading early and exits with three ends the run with three. A plan that is
to be printed to a full standard output ends it with one. -/
theorem engine_and_output_are_heeded :
    let launch : Invocation → Launch := fun _ => .started ⟨.brokenPipe, .ok (.code 3), [], []⟩
    let host : Host := ⟨.ok (.ofString "/work"), none, .empty,
      ⟨fun _ => false, fun _ => .error .notUtf8⟩, fun _ => false, fun _ => none, launch,
      .bounded 0, fun _ _ => []⟩
    let argv := ["--engine", "./tools/ambuild"]
    let m : Matches := NameMap.empty.insert "engine" (.value "./tools/ambuild")
    let m' : Matches := NameMap.empty.insert "plan" .on
    read (Request.arguments .standard) host.env argv = .ok m ∧
      (Request.ofMatches m).completions = none ∧ Exits host .standard m 3 ∧
      (run host .standard argv).exitCode = 3 ∧
      read (Request.arguments .standard) host.env ["--plan"] = .ok m' ∧
      (∃ text, Printable host .standard m' text) ∧ (run host .standard ["--plan"]).exitCode = 1 := by
  intro launch host argv m m'
  let config := Config.empty.merge .empty
  let plan : BuildPlan := ⟨.ofString "/work", .ofString "/work", ⟨["cs2"]⟩, .engineDefault, none,
    none, none, false, true⟩
  obtain ⟨j, hj⟩ : ∃ j, plan.toJson? = some j := Option.isSome_iff_exists.mp (by decide)
  have hread : read (Request.arguments .standard) host.env argv = .ok m := by decide
  have hread' : read (Request.arguments .standard) host.env ["--plan"] = .ok m' := by decide
  have planned : Planned host .standard m (.ofString "/work") config plan :=
    ⟨rfl, by decide, by decide⟩
  have planned' : Planned host .standard m' (.ofString "/work") config plan :=
    ⟨rfl, by decide, by decide⟩
  have selected : selection host m config = .ok ⟨.ofString "./tools/ambuild", []⟩ := by decide
  obtain ⟨i, hi, -⟩ := Engine.exists_command_of_json hj
  have exits : Exits host .standard m 3 :=
    ⟨_, config, plan, _, i, _, ⟨planned, rfl, selected, hi⟩, rfl, .inr rfl, rfl⟩
  have printable : ∃ text, Printable host .standard m' text :=
    ⟨_, rfl, _, config, plan, planned', BuildPlan.text?_of_toJson? hj⟩
  have full (text : String) : ¬host.output.Takes (PlanWriter.line text) := by
    intro takes
    have fits := takes.1 0 rfl
    simp [PlanWriter.line, PlanWriter.lineEnd] at fits
  have ends := run_ends_at_first_failure host .standard argv m hread rfl
  have ends' := run_ends_at_first_failure host .standard ["--plan"] m' hread' rfl
  refine ⟨hread, rfl, exits, ends.2.2.2.1 3 exits, hread', printable, ?_⟩
  obtain ⟨-, ⟨text, h, -⟩ | ⟨-, -, -, one, -⟩ | ⟨one, -⟩⟩ := (ends'.2.2.2.2.2.1 rfl).1
  · exact absurd h.takes (full text)
  · exact one
  · exact one

end Application
end BuildFront
