import BuildFront.Application
import BuildFront.Proofs.Engine.Command
import BuildFront.Proofs.PlanWriter.Writing

/-!
How a run ends, said stage by stage: the working directory, configuration, resolution, the choice of
an engine, the text of the plan, the hand-over. Each stage goes on with what the one before it left,
the first that fails is the last, and the exit code tells which failures were the engine's own.
-/

namespace BuildFront

theorem exists_eq_mk_of_snd {α : Type u} {β : Type v} {x : α × β} {b : β} (h : x.2 = b) :
    ∃ a, x = (a, b) :=
  ⟨x.1, Prod.ext rfl h⟩

/-- The engine has read all that it cared to read. -/
def Child.Served (child : Child) : Prop :=
  child.feed = .complete ∨ child.feed = .brokenPipe

/-- What is left of a run when it is over: what stands in standard output by the front end's doing,
the command that was launched, and the failure that ended it. -/
structure Ending where
  output : Bytes
  launched : Option (Invocation × Launch)
  result : Except RunError Unit

/-- A run that ends before anything is printed or launched. -/
def Ending.early (host : Host) (e : RunError) : Ending :=
  ⟨host.output.written, none, .error e⟩

/-- A run that ends after a launch. -/
def Ending.late (host : Host) (i : Invocation) (launch : Launch) (result : Except RunError Unit) :
    Ending :=
  ⟨host.output.written, some (i, launch), result⟩

theorem Invocation.supervise_unfed {i : Invocation} {child : Child} {e : OsError}
    (hi : i.input ≠ none) (h : child.feed = .failed e) :
    (i.supervise (.started child)).2 = .error (.feed i.program e) := by
  obtain ⟨data, hdata⟩ := Option.ne_none_iff_exists'.mp hi
  simp only [supervise, hdata, h]

theorem Invocation.supervise_served (i : Invocation) {child : Child} (h : child.Served) :
    (i.supervise (.started child)).2 = i.verdictOf child := by
  rcases h with h | h <;> cases hi : i.input <;> simp only [supervise, hi, h]

theorem Child.served_or_failed (child : Child) : child.Served ∨ ∃ e, child.feed = .failed e := by
  cases h : child.feed with
  | complete => exact .inl (.inl h)
  | brokenPipe => exact .inl (.inr h)
  | failed e => exact .inr ⟨e, rfl⟩

theorem Engine.notFound_of_locate {search : String → Option Path} {program : Option String}
    {args : List String} {e : EngineError} (h : (locate search program args).2 = .error e) :
    ∃ name, e = .notFound name := by
  simp only [locate] at h
  split at h
  · cases h
  · split at h <;> cases h
    exact ⟨_, rfl⟩

namespace Application

open CommandLine

section Stages

variable (host : Host) (g : Registry) (m : Matches)

/-- The resolution, under the configuration that was read before it. -/
def resolution (cwd : Path) (config : Config) : Except Rejection BuildPlan :=
  ((resolver cwd g (Request.ofMatches m)).resolve host.files.present (rawInput g m config)).2

/-- The choice of an engine, for the command line or else the configuration names it. -/
def selection (config : Config) : Except EngineError Engine :=
  (Engine.locate host.search ((Request.ofMatches m).engine.or config.engine.program)
    config.engine.args).2

/-- The working directory is known, and configuration and resolution have succeeded. -/
structure Planned (cwd : Path) (config : Config) (plan : BuildPlan) : Prop where
  located : host.cwd = .ok cwd
  configured : (configuration host cwd (Request.ofMatches m)).2 = .ok config
  resolved : resolution host g m cwd config = .ok plan

/-- A plan is to be printed, and this is its text. -/
structure Printable (text : String) : Prop where
  prints : (Request.ofMatches m).plan = true
  planned : ∃ cwd config plan, Planned host g m cwd config plan ∧ plan.text? = some text

/-- All stages before the hand-over have succeeded, and this is the command they have led to. -/
structure Prepared (cwd : Path) (config : Config) (plan : BuildPlan) (engine : Engine)
    (i : Invocation) : Prop extends Planned host g m cwd config plan where
  engages : (Request.ofMatches m).plan = false
  selected : selection host m config = .ok engine
  serialized : engine.command host.isDirectory host.env plan = .ok i

/-- The ways in which a run ends. -/
inductive Ends : Ending → Prop where
  | lost {e} : host.cwd = .error e → Ends (.early host (.directory e))
  | misconfigured {cwd e} : host.cwd = .ok cwd →
      (configuration host cwd (Request.ofMatches m)).2 = .error e →
      Ends (.early host (.config e))
  | rejected {cwd config e} : host.cwd = .ok cwd →
      (configuration host cwd (Request.ofMatches m)).2 = .ok config →
      resolution host g m cwd config = .error e → Ends (.early host (.rejected e))
  | unprintable {cwd config plan} : Planned host g m cwd config plan →
      (Request.ofMatches m).plan = true → plan.text? = none →
      Ends (.early host (.engine .serialize))
  | unwritten {text} : Printable host g m text → ¬host.output.Takes (PlanWriter.line text) →
      Ends ⟨(host.output.put (PlanWriter.line text)).1.written, none, .error (.engine .write)⟩
  | printed {text} : Printable host g m text → host.output.Takes (PlanWriter.line text) →
      Ends ⟨host.output.written ++ PlanWriter.line text, none, .ok ()⟩
  | unlocated {cwd config plan name} : Planned host g m cwd config plan →
      (Request.ofMatches m).plan = false → selection host m config = .error (.notFound name) →
      Ends (.early host (.engine (.notFound name)))
  | unserialized {cwd config plan engine} : Planned host g m cwd config plan →
      (Request.ofMatches m).plan = false → selection host m config = .ok engine →
      plan.text? = none → Ends (.early host (.engine .serialize))
  | refused {cwd config plan engine i fault} : Prepared host g m cwd config plan engine i →
      host.launch i = .refused fault →
      Ends (.late host i (.refused fault)
        (.error (.engine (.spawn i.display (LaunchError.spawn i.program fault).chain))))
  | unfed {cwd config plan engine i child e} : Prepared host g m cwd config plan engine i →
      host.launch i = .started child → child.feed = .failed e →
      Ends (.late host i (.started child)
        (.error (.engine (.spawn i.display (LaunchError.feed i.program e).chain))))
  | unawaited {cwd config plan engine i child e} : Prepared host g m cwd config plan engine i →
      host.launch i = .started child → child.Served → child.verdict = .error e →
      Ends (.late host i (.started child)
        (.error (.engine (.spawn i.display (LaunchError.wait i.program e).chain))))
  | killed {cwd config plan engine i child number} : Prepared host g m cwd config plan engine i →
      host.launch i = .started child → child.Served → child.verdict = .ok (.signal number) →
      Ends (.late host i (.started child) (.error (.engine (.failed i.display none))))
  | failed {cwd config plan engine i child n} : Prepared host g m cwd config plan engine i →
      host.launch i = .started child → child.Served → child.verdict = .ok (.code n) → n ≠ 0 →
      Ends (.late host i (.started child) (.error (.engine (.failed i.display (some n)))))
  | built {cwd config plan engine i child} : Prepared host g m cwd config plan engine i →
      host.launch i = .started child → child.Served → child.verdict = .ok (.code 0) →
      Ends (.late host i (.started child) (.ok ()))

/-- The end of a run as the stages bring it about. -/
def ending : Ending :=
  ⟨(stages host g m).1.output.written, (stages host g m).1.launched, (stages host g m).2⟩

end Stages

variable {host : Host} {g : Registry} {m : Matches} {cwd : Path} {config : Config}
  {plan : BuildPlan} {engine : Engine} {i : Invocation} {text : String}

theorem ending_of_lost {e : OsError} (h : host.cwd = .error e) :
    ending host g m = .early host (.directory e) := by
  simp only [ending, stages, h, Ending.early]

theorem stages_of_located (h : host.cwd = .ok cwd) :
    stages host g m = stagesFrom host cwd g m := by
  rw [stages, h]

theorem ending_of_misconfigured {e : ConfigError} (hcwd : host.cwd = .ok cwd)
    (h : (configuration host cwd (Request.ofMatches m)).2 = .error e) :
    ending host g m = .early host (.config e) := by
  obtain ⟨loading, hc⟩ := exists_eq_mk_of_snd h
  simp only [ending, stages_of_located hcwd, stagesFrom, hc, Ending.early]

theorem ending_of_rejected {e : Rejection} (hcwd : host.cwd = .ok cwd)
    (h : (configuration host cwd (Request.ofMatches m)).2 = .ok config)
    (he : resolution host g m cwd config = .error e) :
    ending host g m = .early host (.rejected e) := by
  obtain ⟨loading, hc⟩ := exists_eq_mk_of_snd h
  obtain ⟨resolving, hr⟩ := exists_eq_mk_of_snd he
  simp only [ending, stages_of_located hcwd, stagesFrom, hc, hr, Ending.early]

theorem ending_of_planned (h : Planned host g m cwd config plan) :
    ending host g m =
      ⟨(deliver host (Request.ofMatches m) config plan).1.output.written,
        (deliver host (Request.ofMatches m) config plan).1.launched,
        (deliver host (Request.ofMatches m) config plan).2.mapError .engine⟩ := by
  obtain ⟨loading, hc⟩ := exists_eq_mk_of_snd h.configured
  obtain ⟨resolving, hr⟩ := exists_eq_mk_of_snd h.resolved
  simp only [ending, stages_of_located h.located, stagesFrom, hc, hr]

theorem ending_of_printing (h : Planned host g m cwd config plan)
    (hp : (Request.ofMatches m).plan = true) :
    ending host g m =
      ⟨(PlanWriter.configure host.output plan).1.written, none,
        (PlanWriter.configure host.output plan).2.mapError .engine⟩ := by
  rw [ending_of_planned h]
  simp only [deliver, hp, if_true]

theorem ending_of_unprintable (h : Planned host g m cwd config plan)
    (hp : (Request.ofMatches m).plan = true) (ht : plan.text? = none) :
    ending host g m = .early host (.engine .serialize) := by
  rw [ending_of_printing h hp, PlanWriter.configure_of_no_text _ ht]
  rfl

theorem ending_of_written (h : Printable host g m text)
    (ht : host.output.Takes (PlanWriter.line text)) :
    ending host g m = ⟨host.output.written ++ PlanWriter.line text, none, .ok ()⟩ := by
  obtain ⟨cwd, config, plan, planned, htext⟩ := h.planned
  rw [ending_of_printing planned h.prints, PlanWriter.configure_of_takes htext ht,
    ht.written_put]
  rfl

theorem ending_of_unwritten (h : Printable host g m text)
    (ht : ¬host.output.Takes (PlanWriter.line text)) :
    ending host g m = ⟨(host.output.put (PlanWriter.line text)).1.written, none,
      .error (.engine .write)⟩ := by
  obtain ⟨cwd, config, plan, planned, htext⟩ := h.planned
  rw [ending_of_printing planned h.prints, PlanWriter.configure_of_not_takes htext ht]
  rfl

theorem ending_of_unselected {e : EngineError} (h : Planned host g m cwd config plan)
    (hp : (Request.ofMatches m).plan = false) (he : selection host m config = .error e) :
    ending host g m = .early host (.engine e) := by
  obtain ⟨found, hl⟩ := exists_eq_mk_of_snd he
  rw [ending_of_planned h]
  simp [deliver, hp, hl, Except.mapError, Ending.early]

theorem ending_of_selected (h : Planned host g m cwd config plan)
    (hp : (Request.ofMatches m).plan = false) (he : selection host m config = .ok engine) :
    ending host g m = ⟨host.output.written, (engine.configure host plan).launched,
      (engine.configure host plan).result.mapError .engine⟩ := by
  obtain ⟨found, hl⟩ := exists_eq_mk_of_snd he
  rw [ending_of_planned h]
  simp [deliver, hp, hl]

theorem ending_of_unserialized (h : Planned host g m cwd config plan)
    (hp : (Request.ofMatches m).plan = false) (he : selection host m config = .ok engine)
    (ht : plan.text? = none) : ending host g m = .early host (.engine .serialize) := by
  have command : engine.command host.isDirectory host.env plan = .error .serialize :=
    Engine.command_of_no_json (Option.map_eq_none_iff.mp ht)
  rw [ending_of_selected h hp he]
  simp [Engine.configure, command, Except.mapError, Ending.early]

theorem ending_of_prepared (h : Prepared host g m cwd config plan engine i) :
    ending host g m = .late host i (host.launch i)
      ((Engine.judge i.display (i.supervise (host.launch i)).2).mapError .engine) := by
  rw [ending_of_selected h.toPlanned h.engages h.selected]
  simp [Engine.configure, h.serialized, Ending.late]

theorem ending_of_served {child : Child} (h : Prepared host g m cwd config plan engine i)
    (hl : host.launch i = .started child) (hs : child.Served) :
    ending host g m = .late host i (.started child)
      ((Engine.judge i.display (i.verdictOf child)).mapError .engine) := by
  rw [ending_of_prepared h, hl, i.supervise_served hs]

theorem eq_ending_of_ends {x : Ending} (h : Ends host g m x) : x = ending host g m := by
  cases h with
  | lost h => exact (ending_of_lost h).symm
  | misconfigured hcwd he => exact (ending_of_misconfigured hcwd he).symm
  | rejected hcwd hc he => exact (ending_of_rejected hcwd hc he).symm
  | unprintable h hp ht => exact (ending_of_unprintable h hp ht).symm
  | unwritten h ht => exact (ending_of_unwritten h ht).symm
  | printed h ht => exact (ending_of_written h ht).symm
  | unlocated h hp he => exact (ending_of_unselected h hp he).symm
  | unserialized h hp he ht => exact (ending_of_unserialized h hp he ht).symm
  | refused h hl =>
      rw [ending_of_prepared h, hl]
      rfl
  | unfed h hl hf =>
      have input := Engine.input_of_command h.serialized
      rw [ending_of_prepared h, hl, Invocation.supervise_unfed input hf]
      rfl
  | unawaited h hl hs hv =>
      rw [ending_of_served h hl hs, Invocation.verdictOf, hv]
      rfl
  | killed h hl hs hv =>
      rw [ending_of_served h hl hs, Invocation.verdictOf, hv]
      rfl
  | failed h hl hs hv hn =>
      rw [ending_of_served h hl hs, Invocation.verdictOf, hv]
      simp [Engine.judge, Except.mapError, ExitStatus.success, ExitStatus.code?, hn]
  | built h hl hs hv =>
      rw [ending_of_served h hl hs, Invocation.verdictOf, hv]
      rfl

theorem exists_ends_of_prepared (h : Prepared host g m cwd config plan engine i) :
    ∃ x, Ends host g m x := by
  cases hl : host.launch i with
  | refused fault => exact ⟨_, .refused h hl⟩
  | started child =>
      obtain hs | ⟨e, hf⟩ := child.served_or_failed
      · cases hv : child.verdict with
        | error e => exact ⟨_, .unawaited h hl hs hv⟩
        | ok status =>
            cases status with
            | signal number => exact ⟨_, .killed h hl hs hv⟩
            | code n =>
                by_cases hn : n = 0
                · subst hn
                  exact ⟨_, .built h hl hs hv⟩
                · exact ⟨_, .failed h hl hs hv hn⟩
      · exact ⟨_, .unfed h hl hf⟩

theorem exists_ends_of_printing (h : Planned host g m cwd config plan)
    (hp : (Request.ofMatches m).plan = true) : ∃ x, Ends host g m x := by
  cases htext : plan.text? with
  | none => exact ⟨_, .unprintable h hp htext⟩
  | some text =>
      have printable : Printable host g m text := ⟨hp, _, _, _, h, htext⟩
      by_cases ht : host.output.Takes (PlanWriter.line text)
      · exact ⟨_, .printed printable ht⟩
      · exact ⟨_, .unwritten printable ht⟩

theorem exists_ends_of_planned (h : Planned host g m cwd config plan) :
    ∃ x, Ends host g m x := by
  cases hp : (Request.ofMatches m).plan with
  | true => exact exists_ends_of_printing h hp
  | false =>
      cases he : selection host m config with
      | error e =>
          obtain ⟨name, rfl⟩ := Engine.notFound_of_locate he
          exact ⟨_, .unlocated h hp he⟩
      | ok engine =>
          cases ht : plan.toJson? with
          | none => exact ⟨_, .unserialized h hp he (BuildPlan.text?_of_no_json ht)⟩
          | some j =>
              obtain ⟨i, hi, -⟩ := Engine.exists_command_of_json ht
              exact exists_ends_of_prepared ⟨h, hp, he, hi⟩

/-- Some rule applies to every run, and a rule that applies tells what the stages bring about. -/
theorem ends_ending (host : Host) (g : Registry) (m : Matches) :
    Ends host g m (ending host g m) := by
  obtain ⟨x, hx⟩ : ∃ x, Ends host g m x := by
    cases hcwd : host.cwd with
    | error e => exact ⟨_, .lost hcwd⟩
    | ok cwd =>
        cases hc : (configuration host cwd (Request.ofMatches m)).2 with
        | error e => exact ⟨_, .misconfigured hcwd hc⟩
        | ok config =>
            cases hr : resolution host g m cwd config with
            | error e => exact ⟨_, .rejected hcwd hc hr⟩
            | ok plan => exact exists_ends_of_planned ⟨hcwd, hc, hr⟩
  exact eq_ending_of_ends hx ▸ hx

end Application
end BuildFront
