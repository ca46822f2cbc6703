import BuildFront.PlanWriter
import Mathlib.Logic.Relation

/-!
Writing one plan to a writer that takes bytes as it likes: some of what is offered, none for now, or
none at all from some point on. The text is offered until all of it is taken or a write fails, then
the line end in the same way, and then the writer is flushed.
-/

namespace BuildFront

/-- What comes of one write. Where some is taken it is a byte and `more`, or all that is offered. -/
inductive Taking where
  | takes (more : Nat)
  | interrupted
  | fails

/-- A writer by what comes of each write and of each flush, counted from its first one. -/
structure Writer where
  writes : Nat → Taking
  flushes : Nat → Bool

namespace Sink

/-- There is room for some bytes, and flushing them succeeds. -/
def Takes (s : Sink) (bs : Bytes) : Prop :=
  (∀ room, s.room = some room → bs.length ≤ room) ∧ s.flushes = true

theorem put_eq_true_iff (s : Sink) (bs : Bytes) :
    (s.put bs).2 = true ↔ ∀ room, s.room = some room → bs.length ≤ room := by
  rw [put]
  cases s.room <;> simp

theorem flushes_put (s : Sink) (bs : Bytes) : (s.put bs).1.flushes = s.flushes := by
  rw [put]
  split <;> rfl

theorem Takes.written_put {s : Sink} {bs : Bytes} (h : s.Takes bs) :
    (s.put bs).1.written = s.written ++ bs := by
  have fits := h.1
  rw [put]
  cases hr : s.room with
  | none => rfl
  | some room => exact congrArg (s.written ++ ·) (List.take_of_length_le (fits room hr))

theorem exists_written_put_eq (s : Sink) (bs : Bytes) :
    ∃ part, part <+: bs ∧ (s.put bs).1.written = s.written ++ part := by
  rw [put]
  cases s.room with
  | none => exact ⟨bs, List.prefix_rfl, rfl⟩
  | some room => exact ⟨bs.take room, List.take_prefix room bs, rfl⟩

end Sink

namespace PlanWriter

/-- How often a writer has been written to and flushed, and what it has taken in all. -/
structure Position where
  writes : Nat
  flushes : Nat
  written : Bytes

def Position.take (p : Position) (bs : Bytes) : Position :=
  ⟨p.writes + 1, p.flushes, p.written ++ bs⟩

def Position.flush (p : Position) : Position :=
  ⟨p.writes, p.flushes + 1, p.written⟩

inductive Stage where
  | starting
  | writing (rest : Bytes) (parts : List Bytes)
  | over (result : Except EngineError Unit)

abbrev State := Position × Stage

/-- What a flush answers is the answer of the call. -/
def flushResult (flushed : Bool) : Except EngineError Unit :=
  if flushed then .ok () else .error .write

inductive Step (w : Writer) (plan : BuildPlan) : State → State → Prop where
  | refuses {p} : plan.text? = none → Step w plan (p, .starting) (p, .over (.error .serialize))
  | begins {p text} : plan.text? = some text →
      Step w plan (p, .starting) (p, .writing (Utf8.ofString text) [lineEnd])
  | takes {p b rest parts more} : w.writes p.writes = .takes more →
      Step w plan (p, .writing (b :: rest) parts)
        (p.take (b :: rest.take more), .writing (rest.drop more) parts)
  | retries {p b rest parts} : w.writes p.writes = .interrupted →
      Step w plan (p, .writing (b :: rest) parts) (p.take [], .writing (b :: rest) parts)
  | breaks {p b rest parts} : w.writes p.writes = .fails →
      Step w plan (p, .writing (b :: rest) parts) (p.take [], .over (.error .write))
  | goesOn {p part parts} :
      Step w plan (p, .writing [] (part :: parts)) (p, .writing part parts)
  | flushes {p} :
      Step w plan (p, .writing [] []) (p.flush, .over (flushResult (w.flushes p.flushes)))

abbrev Run (w : Writer) (plan : BuildPlan) : State → State → Prop :=
  Relation.ReflTransGen (Step w plan)

/-- A plan is handed over at one position, and the call ends at another with a result. -/
def Called (w : Writer) (plan : BuildPlan) (p : Position) (result : Except EngineError Unit)
    (q : Position) : Prop :=
  Run w plan (p, .starting) (q, .over result)

/-- None of the writes between two positions has failed. -/
def Sound (w : Writer) (p q : Position) : Prop :=
  ∀ k, p.writes ≤ k → k < q.writes → w.writes k ≠ .fails

/-- How far a call has come that was begun at a position. -/
inductive Stands (w : Writer) (plan : BuildPlan) (p : Position) : State → Prop where
  | starting : Stands w plan p (p, .starting)
  | unserialized : plan.text? = none → Stands w plan p (p, .over (.error .serialize))
  | writing {q text part rest parts} : plan.text? = some text → p.writes ≤ q.writes →
      Sound w p q → q.flushes = p.flushes → q.written = p.written ++ part →
      part ++ (rest ++ parts.flatten) = line text → Stands w plan p (q, .writing rest parts)
  | broken {q text part left k} : plan.text? = some text → p.writes ≤ k → q.writes = k + 1 →
      w.writes k = .fails → q.written = p.written ++ part → part ++ left = line text → left ≠ [] →
      Stands w plan p (q, .over (.error .write))
  | flushed {q text} : plan.text? = some text → p.writes ≤ q.writes → Sound w p q →
      q.flushes = p.flushes + 1 → q.written = p.written ++ line text →
      Stands w plan p (q, .over (flushResult (w.flushes p.flushes)))

variable {w : Writer} {plan : BuildPlan} {p q : Position}

theorem Sound.take {bs : Bytes} (h : Sound w p q) (hw : w.writes q.writes ≠ .fails) :
    Sound w p (q.take bs) := by
  intro k hk hlt
  rcases Nat.lt_succ_iff_lt_or_eq.mp hlt with hlt | rfl
  · exact h k hk hlt
  · exact hw

/-- What has been taken and what is still to be written make up the line at every step. -/
theorem stands_step {s t : State} (h : Stands w plan p s) (hstep : Step w plan s t) :
    Stands w plan p t := by
  cases hstep with
  | refuses htext =>
      cases h
      exact .unserialized htext
  | begins htext =>
      cases h
      have nothing : p.written = p.written ++ [] := (List.append_nil _).symm
      refine .writing htext (Nat.le_refl _) ?_ rfl nothing (by simp [line])
      intro k hk hlt
      omega
  | @takes q b rest parts more hw =>
      cases h with
      | @writing _ _ part _ _ htext hle hsound hflushes hwritten hline =>
          have taken : (q.take (b :: rest.take more)).written =
              p.written ++ (part ++ b :: rest.take more) := by
            simp [Position.take, hwritten]
          have offered : rest.take more ++ (rest.drop more ++ parts.flatten) =
              rest ++ parts.flatten := by
            rw [← List.append_assoc, List.take_append_drop]
          refine .writing htext (Nat.le_succ_of_le hle) (hsound.take (by simp [hw])) hflushes
            taken ?_
          simp only [← hline, List.append_assoc, List.cons_append, offered]
  | retries hw =>
      cases h with
      | writing htext hle hsound hflushes hwritten hline =>
          refine .writing htext (Nat.le_succ_of_le hle) (hsound.take (by simp [hw])) hflushes ?_
            hline
          simpa [Position.take] using hwritten
  | breaks hw =>
      cases h with
      | writing htext hle hsound hflushes hwritten hline =>
          refine .broken htext hle rfl hw ?_ hline (by simp)
          simpa [Position.take] using hwritten
  | goesOn =>
      cases h with
      | writing htext hle hsound hflushes hwritten hline =>
          exact .writing htext hle hsound hflushes hwritten hline
  | flushes =>
      cases h with
      | writing htext hle hsound hflushes hwritten hline =>
          rw [hflushes]
          refine .flushed htext hle hsound (congrArg (· + 1) hflushes) ?_
          rw [← hline]
          simpa [Position.flush] using hwritten

theorem stands_run {s t : State} (h : Stands w plan p s) (hrun : Run w plan s t) :
    Stands w plan p t := by
  induction hrun with
  | refl => exact h
  | tail _ hstep ih => exact stands_step ih hstep

theorem stands_of_called {result : Except EngineError Unit} (h : Called w plan p result q) :
    Stands w plan p (q, .over result) :=
  stands_run .starting h

/-! ### Every call comes to its end -/

/-- It is not interrupted for ever. -/
def Patient (w : Writer) : Prop :=
  ∀ n, ∃ m, n ≤ m ∧ w.writes m ≠ .interrupted

theorem exists_answered (hw : Patient w) (plan : BuildPlan) (p : Position) (b : UInt8)
    (rest : Bytes) (parts : List Bytes) :
    ∃ q, Run w plan (p, .writing (b :: rest) parts) (q, .writing (b :: rest) parts) ∧
      w.writes q.writes ≠ .interrupted := by
  obtain ⟨m, hle, hm⟩ := hw p.writes
  obtain ⟨k, rfl⟩ := Nat.exists_eq_add_of_le hle
  clear hle
  induction k generalizing p with
  | zero => exact ⟨p, .refl, hm⟩
  | succ k ih =>
      by_cases hi : w.writes p.writes = .interrupted
      · have later : w.writes ((p.take []).writes + k) ≠ .interrupted := by
          rwa [Position.take, Nat.add_assoc, Nat.add_comm 1 k]
        obtain ⟨q, hrun, hq⟩ := ih (p.take []) later
        exact ⟨q, .head (.retries hi) hrun, hq⟩
      · exact ⟨p, .refl, hi⟩

theorem exists_part_written (hw : Patient w) (plan : BuildPlan) (p : Position) (rest : Bytes)
    (parts : List Bytes) :
    ∃ q, Run w plan (p, .writing rest parts) (q, .writing [] parts) ∨
      Run w plan (p, .writing rest parts) (q, .over (.error .write)) := by
  induction hn : rest.length using Nat.strongRecOn generalizing p rest with
  | _ n ih =>
      cases rest with
      | nil => exact ⟨p, .inl .refl⟩
      | cons b rest =>
          obtain ⟨q, hrun, hq⟩ := exists_answered hw plan p b rest parts
          cases hwrite : w.writes q.writes with
          | interrupted => exact absurd hwrite hq
          | fails => exact ⟨_, .inr (hrun.tail (.breaks hwrite))⟩
          | takes more =>
              have shorter : (rest.drop more).length < n := by
                rw [← hn, List.length_drop, List.length_cons]
                omega
              obtain ⟨r, hr⟩ := ih _ shorter (q.take (b :: rest.take more)) (rest.drop more) rfl
              exact ⟨r, hr.imp ((hrun.tail (.takes hwrite)).trans ·)
                ((hrun.tail (.takes hwrite)).trans ·)⟩

theorem exists_over (hw : Patient w) (plan : BuildPlan) (p : Position) (rest : Bytes)
    (parts : List Bytes) :
    ∃ result q, Run w plan (p, .writing rest parts) (q, .over result) := by
  induction parts generalizing p rest with
  | nil =>
      obtain ⟨q, hrun | hrun⟩ := exists_part_written hw plan p rest []
      · exact ⟨_, _, hrun.tail .flushes⟩
      · exact ⟨_, q, hrun⟩
  | cons part parts ih =>
      obtain ⟨q, hrun | hrun⟩ := exists_part_written hw plan p rest (part :: parts)
      · obtain ⟨result, r, hr⟩ := ih q part
        exact ⟨result, r, (hrun.tail .goesOn).trans hr⟩
      · exact ⟨_, q, hrun⟩

theorem exists_called (hw : Patient w) (plan : BuildPlan) (p : Position) :
    ∃ result q, Called w plan p result q := by
  cases htext : plan.text? with
  | none => exact ⟨_, p, .single (.refuses htext)⟩
  | some text =>
      obtain ⟨result, q, hrun⟩ := exists_over hw plan p (Utf8.ofString text) [lineEnd]
      exact ⟨result, q, .head (.begins htext) hrun⟩

/-! ### A writer that fails -/

/-- A call on a writer that fails from here on, before and after the write that shows it. -/
def Stuck (w : Writer) (plan : BuildPlan) (p : Position) : State → Prop
  | (q, .starting) => q = p
  | (q, .writing rest parts) => q = p ∧ plan.text? ≠ none ∧ rest ++ parts.flatten ≠ []
  | (q, .over result) => q.written = p.written ∧ w.writes q.writes = .fails ∧
      (plan.text? ≠ none → result = .error .write)

theorem stuck_step {s t : State} (hw : ∀ k, p.writes ≤ k → w.writes k = .fails)
    (h : Stuck w plan p s) (hstep : Step w plan s t) : Stuck w plan p t := by
  cases hstep with
  | refuses htext =>
      cases h
      exact ⟨rfl, hw _ (Nat.le_refl _), absurd htext⟩
  | begins htext =>
      cases h
      exact ⟨rfl, by simp [htext], by simp [lineEnd]⟩
  | takes hwrite | retries hwrite =>
      obtain ⟨rfl, -, -⟩ := h
      cases hwrite.symm.trans (hw _ (Nat.le_refl _))
  | breaks =>
      obtain ⟨rfl, -, -⟩ := h
      exact ⟨List.append_nil _, hw _ (Nat.le_succ _), fun _ => rfl⟩
  | goesOn => exact h
  | flushes => exact absurd rfl h.2.2

theorem stuck_of_called {result : Except EngineError Unit}
    (hw : ∀ k, p.writes ≤ k → w.writes k = .fails) (h : Called w plan p result q) :
    Stuck w plan p (q, .over result) := by
  have kept {t : State} (hrun : Run w plan (p, .starting) t) : Stuck w plan p t := by
    induction hrun with
    | refl => exact rfl
    | tail _ hstep ih => exact stuck_step hw ih hstep
  exact kept h

/-! ### Calls and sinks -/

theorem configure_of_no_text (sink : Sink) (h : plan.text? = none) :
    configure sink plan = (sink, .error .serialize) := by
  simp [configure, h]

theorem configure_of_text {text : String} (sink : Sink) (h : plan.text? = some text) :
    configure sink plan =
      ((sink.put (line text)).1,
        flushResult ((sink.put (line text)).2 && (sink.put (line text)).1.flushes)) := by
  simp [configure, h, flushResult]

theorem configure_of_takes {text : String} {sink : Sink} (h : plan.text? = some text)
    (ht : sink.Takes (line text)) : configure sink plan = ((sink.put (line text)).1, .ok ()) := by
  rw [configure_of_text sink h, (sink.put_eq_true_iff _).mpr ht.1, Sink.flushes_put, ht.2]
  rfl

theorem configure_of_not_takes {text : String} {sink : Sink} (h : plan.text? = some text)
    (ht : ¬sink.Takes (line text)) :
    configure sink plan = ((sink.put (line text)).1, .error .write) := by
  have incomplete : ((sink.put (line text)).2 && sink.flushes) = false := by
    rw [Sink.Takes, ← sink.put_eq_true_iff, ← Bool.and_eq_true_iff, Bool.not_eq_true] at ht
    exact ht
  rw [configure_of_text sink h, Sink.flushes_put, incomplete]
  rfl

/-- What comes of a call is what comes of it on a sink with room for as much as the writer takes. -/
theorem exists_sink_of_called {result : Except EngineError Unit} (h : Called w plan p result q) :
    ∃ sink sink' : Sink, sink.written = p.written ∧ configure sink plan = (sink', result) ∧
      sink'.written = q.written := by
  cases stands_of_called h with
  | unserialized htext => exact ⟨⟨p.written, none, true⟩, _, rfl, configure_of_no_text _ htext, rfl⟩
  | @broken _ text part left _ htext _ _ _ hwritten hline hleft =>
      have some_left : ¬(part ++ left).length ≤ part.length := by
        have := List.length_pos_iff.mpr hleft
        rw [List.length_append]
        omega
      have answer := configure_of_text ⟨p.written, some part.length, true⟩ htext
      simp only [← hline, Sink.put, some_left, decide_false, Bool.false_and, List.take_left]
        at answer
      exact ⟨_, _, rfl, answer, hwritten.symm⟩
  | flushed htext _ _ _ hwritten =>
      refine ⟨⟨p.written, none, w.flushes p.flushes⟩, _, rfl, configure_of_text _ htext, ?_⟩
      exact hwritten.symm

end PlanWriter
end BuildFront
