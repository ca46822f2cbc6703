import BuildFront.Proofs.Application.Outcome
import BuildFront.Proofs.Launch.Supervision

/-!
An engine's verdict on a plan. How much of the plan it has read does not matter, nor where it closed
its input: once it is started and not kept from reading, its exit is the answer.
-/

namespace BuildFront

namespace Conduct

/-- It can be started, and reads all that it cares to read. -/
structure Serves (c : Conduct) (data : Bytes) : Prop where
  starts : c.refusal = none
  served : (c.child data).Served

/-- It was not hindered, and has ended so. -/
structure Exits (c : Conduct) (data : Bytes) (status : ExitStatus) : Prop
    extends c.Serves data where
  ends : c.ends (c.taken data) = .ok status

/-- It cannot be started, or be fed, or be waited for. -/
inductive Fails (c : Conduct) (data : Bytes) : Prop where
  | refused {fault} : c.refusal = some fault → Fails c data
  | unfed {e} : c.feed data = .failed e → Fails c data
  | unawaited {e} : c.ends (c.taken data) = .error e → Fails c data

variable {c : Conduct} {data : Bytes} {i : Invocation}

theorem exits_or_fails (c : Conduct) (data : Bytes) :
    (∃ status, c.Exits data status) ∨ c.Fails data := by
  cases hc : c.refusal with
  | some fault => exact .inr (.refused hc)
  | none =>
      cases hends : c.ends (c.taken data) with
      | error e => exact .inr (.unawaited hends)
      | ok status =>
          obtain hserved | ⟨e, hfeed⟩ := (c.child data).served_or_failed
          · exact .inl ⟨status, ⟨hc, hserved⟩, hends⟩
          · exact .inr (.unfed hfeed)

theorem launch_of_input (hc : c.refusal = none) (hi : i.input = some data) :
    c.launch i = .started (c.child data) := by
  rw [launch_of_start hc, hi, Option.getD_some]

theorem Serves.supervise (h : c.Serves data) (hi : i.input = some data) :
    (i.supervise (c.launch i)).2 = (c.ends (c.taken data)).mapError (.wait i.program) := by
  rw [launch_of_input h.starts hi]
  exact i.supervise_served h.served

theorem Fails.supervise (h : c.Fails data) (hi : i.input = some data) :
    ∃ err, (i.supervise (c.launch i)).2 = .error err := by
  cases hc : c.refusal with
  | some fault =>
      rw [launch_of_refusal hc]
      exact ⟨_, rfl⟩
  | none =>
      obtain hserved | ⟨e, hfeed⟩ := (c.child data).served_or_failed
      · rw [Serves.supervise ⟨hc, hserved⟩ hi]
        cases h with
        | refused hrefused => cases hc.symm.trans hrefused
        | unfed hfeed =>
            rcases hserved with hfed | hfed <;> cases hfed.symm.trans hfeed
        | unawaited hends =>
            rw [hends]
            exact ⟨_, rfl⟩
      · rw [launch_of_input hc hi]
        exact ⟨_, Invocation.supervise_unfed (by simp [hi]) hfeed⟩

theorem supervise_ok_iff (hi : i.input = some data) (status : ExitStatus) :
    (i.supervise (c.launch i)).2 = .ok status ↔ c.Exits data status := by
  constructor
  · intro h
    rcases c.exits_or_fails data with ⟨status', hexits⟩ | hfails
    · rw [hexits.supervise hi, hexits.ends] at h
      cases h
      exact hexits
    · obtain ⟨err, herr⟩ := hfails.supervise hi
      cases herr.symm.trans h
  · intro h
    rw [h.supervise hi, h.ends]
    rfl

theorem supervise_error_iff (hi : i.input = some data) :
    (∃ err, (i.supervise (c.launch i)).2 = .error err) ↔ c.Fails data := by
  constructor
  · rintro ⟨err, herr⟩
    rcases c.exits_or_fails data with ⟨status, hexits⟩ | hfails
    · cases herr.symm.trans ((supervise_ok_iff hi status).mpr hexits)
    · exact hfails
  · exact fun h => h.supervise hi

end Conduct

/-- The same surroundings, with programs of some conduct. -/
def Host.running (host : Host) (c : Conduct) : Host :=
  { host with launch := c.launch }

namespace Engine

/-! ### What an exit means -/

variable {command : String} {exit : Except LaunchError ExitStatus}

/-- The four ways in which a program is judged. -/
inductive Judged (command : String) : Except LaunchError ExitStatus → Except EngineError Unit → Prop
  | hindered {err} : Judged command (.error err) (.error (.spawn command err.chain))
  | succeeded : Judged command (.ok (.code 0)) (.ok ())
  | failed {n : Nat} : n ≠ 0 →
      Judged command (.ok (.code n)) (.error (.failed command (some (n : Int))))
  | killed {number} : Judged command (.ok (.signal number)) (.error (.failed command none))

theorem judged (command : String) (exit : Except LaunchError ExitStatus) :
    Judged command exit (judge command exit) := by
  rcases exit with err | n | number
  · exact .hindered
  · by_cases hn : n = 0
    · subst hn
      exact .succeeded
    · have success : ExitStatus.success (.code n) = false := beq_false_of_ne hn
      simp only [judge, success]
      exact .failed hn
  · exact .killed

namespace Judged

variable {result : Except EngineError Unit} (h : Judged command exit result)
include h

theorem ok_iff : result = .ok () ↔ exit = .ok (.code 0) := by
  cases h <;> simp_all

theorem failed_iff {n : Nat} (hn : n ≠ 0) :
    result = .error (.failed command (some n)) ↔ exit = .ok (.code n) := by
  cases h with
  | hindered | killed => simp
  | succeeded => simp [hn.symm]
  | failed =>
      simp only [Except.error.injEq, EngineError.failed.injEq, true_and, Option.some.injEq,
        Except.ok.injEq, ExitStatus.code.injEq]
      exact Int.ofNat_inj

theorem killed_iff :
    result = .error (.failed command none) ↔ ∃ number, exit = .ok (.signal number) := by
  cases h <;> simp

theorem hindered_iff :
    (∃ message, result = .error (.spawn command message)) ↔ ∃ err, exit = .error err := by
  cases h <;> simp

theorem exitCode {err : EngineError} (herr : result = .error err) :
    (∀ n : Nat, exit = .ok (.code n) → err.exitCode = n) ∧
      ((∀ n, exit ≠ .ok (.code n)) → err.exitCode = 1) := by
  cases h with
  | hindered | killed =>
      cases herr
      simp [EngineError.exitCode]
  | succeeded => cases herr
  | failed hn =>
      cases herr
      simp [EngineError.exitCode, hn]

end Judged

/-! ### What comes of handing a plan over -/

/-- A handover as it follows from the conduct of the program that gets the input. -/
structure Handover.Follows (h : Handover) (i : Invocation) (data : Bytes) (c : Conduct) : Prop where
  launched : h.launched = some (i, c.launch i)
  supervised : ∃ exit, h.result = judge i.display exit ∧
    ∀ acts exit', i.Run c .starting acts (.over exit') ↔ acts = h.acts ∧ exit' = exit
  acts : c.refusal = none → h.acts = [.spawn, .write, .close, .wait]
  reaped : h.acts.count .spawn = h.acts.count .wait
  succeeds : h.result = .ok () ↔ c.Exits data (.code 0)
  fails : ∀ n : Nat, n ≠ 0 →
    (h.result = .error (.failed i.display (some n)) ↔ c.Exits data (.code n))
  killed : h.result = .error (.failed i.display none) ↔ ∃ number, c.Exits data (.signal number)
  hindered : (∃ message, h.result = .error (.spawn i.display message)) ↔ c.Fails data
  exitCode : ∀ err, h.result = .error err →
    (∀ n : Nat, c.Exits data (.code n) → err.exitCode = n) ∧
      ((∀ n, ¬c.Exits data (.code n)) → err.exitCode = 1)

variable {e : Engine} {host : Host} {plan : BuildPlan} {i : Invocation} {data : Bytes}
  {c : Conduct}

theorem exists_command_of_text {isDirectory : Path → Bool} {env : NameMap String} {text : String}
    (h : plan.text? = some text) :
    ∃ i, e.command isDirectory env plan = .ok i ∧ i.input = some (Utf8.ofString text) := by
  obtain ⟨j, hj, rfl⟩ := Option.map_eq_some_iff.mp h
  obtain ⟨i, hi, input, -⟩ := exists_command_of_json hj
  rw [Utf8.ofString, String.toList_ofList]
  exact ⟨i, hi, input⟩

theorem configure_of_command (h : e.command host.isDirectory host.env plan = .ok i)
    (c : Conduct) :
    (e.configure (host.running c) plan).launched = some (i, c.launch i) ∧
      (e.configure (host.running c) plan).acts = (i.supervise (c.launch i)).1 ∧
      (e.configure (host.running c) plan).result =
        judge i.display (i.supervise (c.launch i)).2 := by
  simp only [configure, Host.running, h, and_self]

theorem configure_follows (h : e.command host.isDirectory host.env plan = .ok i)
    (hi : i.input = some data) (c : Conduct) :
    (e.configure (host.running c) plan).Follows i data c := by
  obtain ⟨launched, acts, result⟩ := configure_of_command h c
  have verdict := judged i.display (i.supervise (c.launch i)).2
  rw [← result] at verdict
  exact {
    launched
    supervised := by
      refine ⟨_, result, fun acts' exit' => ?_⟩
      rw [Invocation.run_iff_supervise, acts, Prod.ext_iff, eq_comm, @eq_comm _ exit']
    acts := by
      intro starts
      rw [acts, Conduct.launch_of_input starts hi, Invocation.supervise_child hi]
    reaped := by
      rw [acts]
      exact Invocation.supervise_reaps i c
    succeeds := by rw [verdict.ok_iff, Conduct.supervise_ok_iff hi]
    fails := by
      intro n hn
      rw [verdict.failed_iff hn, Conduct.supervise_ok_iff hi]
    killed := by simp only [verdict.killed_iff, Conduct.supervise_ok_iff hi]
    hindered := by rw [verdict.hindered_iff, Conduct.supervise_error_iff hi]
    exitCode := by
      intro err herr
      simpa only [Conduct.supervise_ok_iff hi, ne_eq] using verdict.exitCode herr }

/-- Nothing is started for a plan without a JSON form. For any other plan the answer follows from
the conduct of the engine: from its exit alone, if it is not hindered, whichever part of the plan it
has taken; and an engine that was started is waited for. No failure is told by zero. -/
theorem verdict_is_the_exit (e : Engine) (host : Host) (plan : BuildPlan) :
    (plan.text? = none → ∀ launch : Invocation → Launch,
      e.configure { host with launch } plan = ⟨[], none, [], .error .serialize⟩) ∧
    (∀ text, plan.text? = some text →
      let data := Utf8.ofString text
      ∃ i, e.command host.isDirectory host.env plan = .ok i ∧ i.input = some data ∧
        (∀ c : Conduct, c.taken data <+: data ∧ (c.feed data = .complete ↔ c.taken data = data) ∧
          (e.configure (host.running c) plan).Follows i data c) ∧
        (∀ c c' : Conduct, c.Serves data → c'.Serves data →
          c.ends (c.taken data) = c'.ends (c'.taken data) →
          (e.configure (host.running c) plan).result =
            (e.configure (host.running c') plan).result) ∧
        ∀ (c : Conduct) (part left : Bytes), c.refusal = none → part ++ left = data → left ≠ [] →
          (c.closing part.length).Serves data ∧ (c.closing part.length).taken data = part) ∧
    ∀ err : EngineError, err.exitCode ≠ 0 := by
  refine ⟨?_, ?_, EngineError.exitCode_ne_zero⟩
  · intro htext launch
    have refused : e.command host.isDirectory host.env plan = .error .serialize :=
      command_of_no_json (Option.map_eq_none_iff.mp htext)
    simp only [configure, refused]
  · intro text htext data
    obtain ⟨i, hcommand, hi⟩ := exists_command_of_text htext
    refine ⟨i, hcommand, hi, fun c =>
      ⟨c.taken_isPrefix data, c.feed_complete_iff data, configure_follows hcommand hi c⟩, ?_, ?_⟩
    · intro c c' serves serves' same
      rw [(configure_of_command hcommand c).2.2,
        (configure_of_command hcommand c').2.2, serves.supervise hi, serves'.supervise hi,
        same]
    · intro c part left starts hdata hleft
      obtain ⟨b, left, rfl⟩ := List.exists_cons_of_ne_nil hleft
      have poured := c.pour_closing part b left
      rw [hdata] at poured
      exact ⟨⟨starts, .inr (congrArg Prod.snd poured)⟩, congrArg Prod.fst poured⟩

end Engine
end BuildFront
