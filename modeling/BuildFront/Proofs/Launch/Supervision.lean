import BuildFront.Launch

/-!
Running a program that takes its input a part at a time. It may stop reading wherever it likes, and
a write to it may fail; whoever runs it writes until nothing is left or nothing more can be written,
closes the input, and waits. These steps, taken one after another, come to what supervising a
program gives, and none that was started is left unwaited for.
-/

namespace BuildFront

/-- What comes of one write to a program's input. Where some is taken it is a byte and `more`, or all
that is left. -/
inductive Go where
  | takes (more : Nat)
  | closed
  | fails (e : OsError)

/-- A program as whoever runs it sees it: why it cannot be started, if it cannot; what comes of each
write to its input; and, by what it has taken, what waiting for it gives and what it prints. -/
structure Conduct where
  refusal : Option SpawnFault
  goes : Nat → Go
  ends : Bytes → Except OsError ExitStatus
  prints : Bytes → Bytes × Bytes

namespace Conduct

/-- Write an input part by part, `n` writes having been made: what is taken of it, and how the
writing ends. -/
def pour (c : Conduct) (n : Nat) : Bytes → Bytes × Feed
  | [] => ([], .complete)
  | b :: rest =>
    match c.goes n with
    | .takes more =>
      let (taken, feed) := c.pour (n + 1) (rest.drop more)
      ((b :: rest.take more) ++ taken, feed)
    | .closed => ([], .brokenPipe)
    | .fails e => ([], .failed e)
termination_by data => data.length
decreasing_by
  simp only [List.length_drop, List.length_cons]
  omega

def taken (c : Conduct) (data : Bytes) : Bytes :=
  (c.pour 0 data).1

def feed (c : Conduct) (data : Bytes) : Feed :=
  (c.pour 0 data).2

def child (c : Conduct) (data : Bytes) : Child :=
  ⟨c.feed data, c.ends (c.taken data), (c.prints (c.taken data)).1, (c.prints (c.taken data)).2⟩

def launch (c : Conduct) (i : Invocation) : Launch :=
  match c.refusal with
  | some fault => .refused fault
  | none => .started (c.child (i.input.getD []))

/-- The same program, but that it closes its input when it has taken `k` bytes. -/
def closing (c : Conduct) (k : Nat) : Conduct :=
  { c with goes := fun n =>
      match n, k with
      | 0, k + 1 => .takes k
      | _, _ => .closed }

variable {c : Conduct}

theorem launch_of_refusal {fault : SpawnFault} (h : c.refusal = some fault) (i : Invocation) :
    c.launch i = .refused fault := by
  rw [launch, h]

theorem launch_of_start (h : c.refusal = none) (i : Invocation) :
    c.launch i = .started (c.child (i.input.getD [])) := by
  rw [launch, h]

/-! ### What is taken of an input -/

theorem pour_nil (c : Conduct) (n : Nat) : c.pour n [] = ([], .complete) := by
  rw [pour]

theorem pour_takes {n more : Nat} (h : c.goes n = .takes more) (b : UInt8) (rest : Bytes) :
    c.pour n (b :: rest) =
      ((b :: rest.take more) ++ (c.pour (n + 1) (rest.drop more)).1,
        (c.pour (n + 1) (rest.drop more)).2) := by
  rw [pour, h]

theorem pour_closed {n : Nat} (h : c.goes n = .closed) (b : UInt8) (rest : Bytes) :
    c.pour n (b :: rest) = ([], .brokenPipe) := by
  rw [pour, h]

theorem pour_fails {n : Nat} {e : OsError} (h : c.goes n = .fails e) (b : UInt8) (rest : Bytes) :
    c.pour n (b :: rest) = ([], .failed e) := by
  rw [pour, h]

/-- What is taken is where the input begins, and it is all of it if the writing is completed. -/
theorem pour_takes_prefix (c : Conduct) (n : Nat) (data : Bytes) :
    ∃ left, (c.pour n data).1 ++ left = data ∧ ((c.pour n data).2 = .complete ↔ left = []) := by
  fun_induction pour c n data with
  | case1 => exact ⟨[], rfl, by simp⟩
  | case2 n b rest more h taken feed hpour ih =>
      rw [hpour] at ih
      obtain ⟨left, hleft, hcomplete⟩ := ih
      refine ⟨left, ?_, hcomplete⟩
      rw [List.append_assoc, hleft, List.cons_append, List.take_append_drop]
  | case3 n b rest h => exact ⟨b :: rest, rfl, by simp⟩
  | case4 n b rest e h => exact ⟨b :: rest, rfl, by simp⟩

theorem taken_isPrefix (c : Conduct) (data : Bytes) : c.taken data <+: data := by
  obtain ⟨left, hleft, -⟩ := c.pour_takes_prefix 0 data
  exact ⟨left, hleft⟩

theorem feed_complete_iff (c : Conduct) (data : Bytes) :
    c.feed data = .complete ↔ c.taken data = data := by
  obtain ⟨left, hleft, hcomplete⟩ := c.pour_takes_prefix 0 data
  rw [feed, hcomplete, taken]
  constructor
  · rintro rfl
    rwa [List.append_nil] at hleft
  · intro h
    rw [h] at hleft
    exact List.append_right_eq_self.mp hleft

theorem pour_closing (c : Conduct) (part : Bytes) (b : UInt8) (left : Bytes) :
    (c.closing part.length).pour 0 (part ++ b :: left) = (part, .brokenPipe) := by
  cases part with
  | nil => exact pour_closed rfl b left
  | cons first part =>
      rw [List.cons_append, pour_takes rfl, List.take_left, List.drop_left, pour_closed rfl,
        List.append_nil]

end Conduct

/-! ### The steps of a supervision -/

inductive Phase where
  | starting
  | writing (n : Nat) (taken rest : Bytes)
  | written (taken : Bytes) (feed : Feed)
  | closed (taken : Bytes) (feed : Feed)
  | over (exit : Except LaunchError ExitStatus)

/-- Whether there is a program that has been started and not waited for. -/
def Phase.running : Phase → Bool
  | .starting | .over _ => false
  | .writing .. | .written .. | .closed .. => true

namespace Invocation

/-- What is done next, and what comes of it. -/
inductive Step (i : Invocation) (c : Conduct) : Phase → List Act → Phase → Prop where
  | refused {fault} : c.refusal = some fault →
      Step i c .starting [] (.over (.error (.spawn i.program fault)))
  | fed {data} : c.refusal = none → i.input = some data →
      Step i c .starting [.spawn] (.writing 0 [] data)
  | unfed : c.refusal = none → i.input = none → Step i c .starting [.spawn] (.closed [] .complete)
  | takes {n taken b rest more} : c.goes n = .takes more →
      Step i c (.writing n taken (b :: rest)) []
        (.writing (n + 1) (taken ++ b :: rest.take more) (rest.drop more))
  | completes {n taken} : Step i c (.writing n taken []) [.write] (.written taken .complete)
  | breaks {n taken b rest} : c.goes n = .closed →
      Step i c (.writing n taken (b :: rest)) [.write] (.written taken .brokenPipe)
  | fails {n taken b rest e} : c.goes n = .fails e →
      Step i c (.writing n taken (b :: rest)) [.write] (.written taken (.failed e))
  | closes {taken feed} : Step i c (.written taken feed) [.close] (.closed taken feed)
  | blames {taken e} :
      Step i c (.closed taken (.failed e)) [.wait] (.over (.error (.feed i.program e)))
  | waits {taken feed} : (∀ e, feed ≠ .failed e) →
      Step i c (.closed taken feed) [.wait] (.over ((c.ends taken).mapError (.wait i.program)))

inductive Run (i : Invocation) (c : Conduct) : Phase → List Act → Phase → Prop where
  | refl (p) : Run i c p [] p
  | step {p q r acts more} : Step i c p acts q → Run i c q more r → Run i c p (acts ++ more) r

variable {i : Invocation} {c : Conduct}

def exitFor (i : Invocation) (c : Conduct) (taken : Bytes) :
    Feed → Except LaunchError ExitStatus
  | .failed e => .error (.feed i.program e)
  | .complete | .brokenPipe => (c.ends taken).mapError (.wait i.program)

/-- What is left to be done in a phase, and what it comes to. -/
def outlook (i : Invocation) (c : Conduct) : Phase → List Act × Except LaunchError ExitStatus
  | .starting => i.supervise (c.launch i)
  | .writing n taken rest =>
    ([.write, .close, .wait], i.exitFor c (taken ++ (c.pour n rest).1) (c.pour n rest).2)
  | .written taken feed => ([.close, .wait], i.exitFor c taken feed)
  | .closed taken feed => ([.wait], i.exitFor c taken feed)
  | .over exit => ([], exit)

theorem exitFor_of_served {feed : Feed} (h : ∀ e, feed ≠ .failed e) (taken : Bytes) :
    i.exitFor c taken feed = (c.ends taken).mapError (.wait i.program) := by
  cases feed with
  | complete | brokenPipe => rfl
  | failed e => exact absurd rfl (h e)

theorem supervise_child {data : Bytes} (hi : i.input = some data) :
    i.supervise (.started (c.child data)) =
      ([.spawn, .write, .close, .wait], i.exitFor c (c.taken data) (c.feed data)) := by
  have acts : i.acts = [.spawn, .write, .close, .wait] := by rw [Invocation.acts, hi]; rfl
  cases hf : c.feed data <;>
    simp only [supervise, hi, Conduct.child, hf, acts, exitFor, verdictOf]

/-- A step does what is to be done first, and leaves what it comes to as it is. -/
theorem Step.outlook {p q : Phase} {acts : List Act} (h : Step i c p acts q) :
    i.outlook c p = (acts ++ (i.outlook c q).1, (i.outlook c q).2) := by
  cases h with
  -- The first steps: what supervising gives is told from the start.
  | refused hc => rw [Invocation.outlook, Conduct.launch_of_refusal hc]; rfl
  | fed hc hi =>
      rw [Invocation.outlook, Conduct.launch_of_start hc, hi, Option.getD_some, supervise_child hi]
      rfl
  | unfed hc hi =>
      rw [Invocation.outlook, Conduct.launch_of_start hc, hi, Option.getD_none]
      simp [Invocation.outlook, supervise, hi, Invocation.acts, Conduct.child, Conduct.taken,
        Conduct.pour_nil, exitFor, verdictOf]
  -- A write leaves the rest to be poured, after what it has taken.
  | takes hc =>
      simp only [Invocation.outlook, Conduct.pour_takes hc, List.append_assoc, List.cons_append,
        List.nil_append]
  | completes => simp only [Invocation.outlook, Conduct.pour_nil, List.append_nil]; rfl
  | breaks hc => simp only [Invocation.outlook, Conduct.pour_closed hc, List.append_nil]; rfl
  | fails hc => simp only [Invocation.outlook, Conduct.pour_fails hc, List.append_nil]; rfl
  | closes | blames => rfl
  | waits hserved => simp only [Invocation.outlook, exitFor_of_served hserved]; rfl

theorem Run.outlook {p q : Phase} {acts : List Act} (h : Run i c p acts q) :
    i.outlook c p = (acts ++ (i.outlook c q).1, (i.outlook c q).2) := by
  induction h with
  | refl => rfl
  | step hstep _ ih => rw [hstep.outlook, ih, List.append_assoc]

/-- Between starting a program and waiting for it, there is one that runs. -/
theorem Step.running {p q : Phase} {acts : List Act} (h : Step i c p acts q) :
    acts.count .spawn + p.running.toNat = acts.count .wait + q.running.toNat := by
  cases h <;> rfl

theorem Run.running {p q : Phase} {acts : List Act} (h : Run i c p acts q) :
    acts.count .spawn + p.running.toNat = acts.count .wait + q.running.toNat := by
  induction h with
  | refl => rfl
  | step hstep _ ih =>
      have first := hstep.running
      rw [List.count_append, List.count_append]
      omega

/-! ### Every run comes to its end -/

theorem exists_run_closed (i : Invocation) (c : Conduct) (taken : Bytes) (feed : Feed) :
    ∃ exit, Run i c (.closed taken feed) [.wait] (.over exit) := by
  cases feed with
  | failed e => exact ⟨_, .step .blames (.refl _)⟩
  | complete | brokenPipe => exact ⟨_, .step (.waits (by simp)) (.refl _)⟩

theorem exists_run_written (i : Invocation) (c : Conduct) (taken : Bytes) (feed : Feed) :
    ∃ exit, Run i c (.written taken feed) [.close, .wait] (.over exit) := by
  obtain ⟨exit, hrun⟩ := exists_run_closed i c taken feed
  exact ⟨exit, .step .closes hrun⟩

theorem exists_run_writing (i : Invocation) (c : Conduct) (n : Nat) (taken rest : Bytes) :
    ∃ exit, Run i c (.writing n taken rest) [.write, .close, .wait] (.over exit) := by
  fun_induction Conduct.pour c n rest generalizing taken with
  | case1 n =>
      obtain ⟨exit, hrun⟩ := exists_run_written i c taken .complete
      exact ⟨exit, .step .completes hrun⟩
  | case2 n b rest more h _ _ _ ih =>
      obtain ⟨exit, hrun⟩ := ih (taken ++ b :: rest.take more)
      exact ⟨exit, .step (.takes h) hrun⟩
  | case3 n b rest h =>
      obtain ⟨exit, hrun⟩ := exists_run_written i c taken .brokenPipe
      exact ⟨exit, .step (.breaks h) hrun⟩
  | case4 n b rest e h =>
      obtain ⟨exit, hrun⟩ := exists_run_written i c taken (.failed e)
      exact ⟨exit, .step (.fails h) hrun⟩

theorem exists_run (i : Invocation) (c : Conduct) :
    ∃ acts exit, Run i c .starting acts (.over exit) := by
  cases hc : c.refusal with
  | some fault => exact ⟨_, _, .step (.refused hc) (.refl _)⟩
  | none =>
      cases hi : i.input with
      | none =>
          obtain ⟨exit, hrun⟩ := exists_run_closed i c [] .complete
          exact ⟨_, exit, .step (.unfed hc hi) hrun⟩
      | some data =>
          obtain ⟨exit, hrun⟩ := exists_run_writing i c 0 [] data
          exact ⟨_, exit, .step (.fed hc hi) hrun⟩

/-- Step by step a program is run to the end that its supervision tells at once. -/
theorem run_iff_supervise (acts : List Act) (exit : Except LaunchError ExitStatus) :
    Run i c .starting acts (.over exit) ↔ i.supervise (c.launch i) = (acts, exit) := by
  have told {acts exit} (h : Run i c .starting acts (.over exit)) :
      i.supervise (c.launch i) = (acts, exit) := by
    simpa only [Invocation.outlook, List.append_nil] using h.outlook
  constructor
  · exact told
  · intro h
    -- Some run ends, and what it comes to is what supervising gives.
    obtain ⟨acts', exit', hrun⟩ := exists_run i c
    cases h.symm.trans (told hrun)
    exact hrun

theorem supervise_reaps (i : Invocation) (c : Conduct) :
    (i.supervise (c.launch i)).1.count .spawn = (i.supervise (c.launch i)).1.count .wait :=
  ((run_iff_supervise _ _).mpr rfl).running

end Invocation
end BuildFront
