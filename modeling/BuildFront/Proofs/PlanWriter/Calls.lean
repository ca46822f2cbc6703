import BuildFront.Proofs.BuildPlan.JsonForm
import BuildFront.Proofs.PlanWriter.Writing
import Mathlib.Data.List.Induction

/-!
Plans handed to a writer one after another. While no write fails, what has been written are the
lines of the plans that have a text, in order and whole; the call in which a write fails leaves the
beginning of that.
-/

namespace BuildFront
namespace PlanWriter

/-- What a plan adds to the output if it is written whole. -/
def lineOf (plan : BuildPlan) : Bytes :=
  plan.text?.elim [] line

def linesOf (plans : List BuildPlan) : Bytes :=
  plans.flatMap lineOf

/-- A write that has failed is followed by none that does not fail. -/
def Quits (w : Writer) : Prop :=
  ∀ n, w.writes n = .fails → w.writes (n + 1) = .fails

/-- Calls one after another from a position on, with their plans and results. -/
inductive Series (w : Writer) (p : Position) :
    List (BuildPlan × Except EngineError Unit) → Position → Prop where
  | nil : Series w p [] p
  | snoc {calls q plan result r} : Series w p calls q → Called w plan q result r →
      Series w p (calls ++ [(plan, result)]) r

/-- What the result of one call tells of what was written. -/
structure Answers (w : Writer) (plan : BuildPlan) (p : Position)
    (result : Except EngineError Unit) (q : Position) : Prop where
  unserialized : plan.text? = none → result = .error .serialize ∧ q = p
  serialized : plan.text? ≠ none → result = .ok () ∨ result = .error .write
  fails : ¬Sound w p q → result = .error .write
  ok : result = .ok () → ∃ text, plan.text? = some text ∧ q.written = p.written ++ line text ∧
    q.flushes = p.flushes + 1 ∧ w.flushes p.flushes = true
  of_ok : plan.text? ≠ none → Sound w p q → w.flushes p.flushes = true → result = .ok ()

variable {w : Writer} {plan : BuildPlan} {p q r : Position} {result : Except EngineError Unit}
  {calls : List (BuildPlan × Except EngineError Unit)}

@[simp]
theorem linesOf_concat (plans : List BuildPlan) (plan : BuildPlan) :
    linesOf (plans ++ [plan]) = linesOf plans ++ lineOf plan := by
  simp [linesOf]

theorem lineOf_of_text {text : String} (h : plan.text? = some text) : lineOf plan = line text := by
  rw [lineOf, h, Option.elim_some]

theorem lineOf_of_no_text (h : plan.text? = none) : lineOf plan = [] := by
  rw [lineOf, h, Option.elim_none]

theorem Sound.refl (w : Writer) (p : Position) : Sound w p p := by
  intro k hk hlt
  omega

theorem Sound.left (h : Sound w p r) (hle : q.writes ≤ r.writes) : Sound w p q :=
  fun k hk hlt => h k hk (Nat.lt_of_lt_of_le hlt hle)

theorem Sound.right (h : Sound w p r) (hle : p.writes ≤ q.writes) : Sound w q r :=
  fun k hk hlt => h k (Nat.le_trans hle hk) hlt

theorem Sound.trans (h : Sound w p q) (h' : Sound w q r) : Sound w p r := by
  intro k hk hlt
  by_cases hq : k < q.writes
  · exact h k hk hq
  · exact h' k (Nat.le_of_not_lt hq) hlt

theorem Quits.fails {n : Nat} (h : Quits w) (hn : w.writes n = .fails) {k : Nat} (hk : n ≤ k) :
    w.writes k = .fails := by
  induction hk with
  | refl => exact hn
  | step _ ih => exact h _ ih

theorem not_sound_of_fails {k : Nat} (hle : p.writes ≤ k) (hlt : k < q.writes)
    (hk : w.writes k = .fails) : ¬Sound w p q :=
  fun h => h k hle hlt hk

/-! ### One call -/

theorem flushResult_eq_ok_iff (flushed : Bool) : flushResult flushed = .ok () ↔ flushed = true := by
  cases flushed <;> simp [flushResult]

theorem writes_le_of_called (h : Called w plan p result q) : p.writes ≤ q.writes := by
  cases stands_of_called h <;> omega

theorem written_of_called (h : Called w plan p result q) (hsound : Sound w p q) :
    q.written = p.written ++ lineOf plan := by
  cases stands_of_called h with
  | unserialized htext => rw [lineOf_of_no_text htext, List.append_nil]
  | broken _ hle hlast hk => exact absurd hsound (not_sound_of_fails hle (by omega) hk)
  | flushed htext _ _ _ hwritten => rw [hwritten, lineOf_of_text htext]

theorem written_isPrefix_of_called (h : Called w plan p result q) :
    q.written <+: p.written ++ lineOf plan := by
  cases stands_of_called h with
  | unserialized => exact List.prefix_append _ _
  | broken htext _ _ _ hwritten hline =>
      rw [lineOf_of_text htext, ← hline, hwritten, ← List.append_assoc]
      exact List.prefix_append _ _
  | flushed htext _ _ _ hwritten =>
      rw [lineOf_of_text htext]
      exact hwritten ▸ List.prefix_rfl

theorem answers_of_called (h : Called w plan p result q) : Answers w plan p result q := by
  cases stands_of_called h with
  | unserialized htext =>
      exact ⟨fun _ => ⟨rfl, rfl⟩, absurd htext, fun hs => absurd (.refl w p) hs, nofun,
        absurd htext⟩
  | broken htext hle hlast hk =>
      have unsound := not_sound_of_fails (q := q) hle (by omega) hk
      exact ⟨by simp [htext], fun _ => .inr rfl, fun _ => rfl, nofun,
        fun _ hsound => absurd hsound unsound⟩
  | flushed htext _ hsound hflushes hwritten =>
      refine ⟨by simp [htext], fun _ => ?_, absurd hsound, fun hok => ?_, fun _ _ hflush => ?_⟩
      · cases w.flushes p.flushes
        · exact .inr rfl
        · exact .inl rfl
      · exact ⟨_, htext, hwritten, hflushes, (flushResult_eq_ok_iff _).mp hok⟩
      · exact (flushResult_eq_ok_iff _).mpr hflush

/-! ### Calls one after another -/

theorem Series.writes_le (h : Series w p calls q) : p.writes ≤ q.writes := by
  induction h with
  | nil => exact Nat.le_refl _
  | snoc _ hcall ih => exact Nat.le_trans ih (writes_le_of_called hcall)

theorem Series.written (h : Series w p calls q) (hsound : Sound w p q) :
    q.written = p.written ++ linesOf (calls.map Prod.fst) := by
  induction h with
  | nil => simp [linesOf]
  | snoc hseries hcall ih =>
      have before := ih (hsound.left (writes_le_of_called hcall))
      rw [written_of_called hcall (hsound.right hseries.writes_le), before]
      simp

theorem Series.isPrefix_of_called (h : Series w p calls q) (hsound : Sound w p q)
    (hcall : Called w plan q result r) :
    r.written <+: p.written ++ linesOf (calls.map Prod.fst ++ [plan]) := by
  rw [linesOf_concat, ← List.append_assoc, ← h.written hsound]
  exact written_isPrefix_of_called hcall

/-- Either no write has failed or all that are to come will, and then nothing more is written. -/
theorem Series.sound_or_stuck (h : Series w p calls q) (hw : Quits w) :
    Sound w p q ∨ (w.writes q.writes = .fails ∧
      q.written <+: p.written ++ linesOf (calls.map Prod.fst)) := by
  induction h with
  | nil => exact .inl (.refl w p)
  | @snoc calls q plan result r hseries hcall ih =>
      rcases ih with hsound | ⟨hfails, hprefix⟩
      · by_cases hcalled : Sound w q r
        · exact .inl (hsound.trans hcalled)
        · refine .inr ⟨?_, by simpa using hseries.isPrefix_of_called hsound hcall⟩
          cases stands_of_called hcall with
          | unserialized => exact absurd (.refl w q) hcalled
          | broken _ _ hlast hk =>
              rw [hlast]
              exact hw _ hk
          | flushed _ _ hsound' => exact absurd hsound' hcalled
      · obtain ⟨hwritten, hnext, -⟩ := stuck_of_called (fun k hk => hw.fails hfails hk) hcall
        refine .inr ⟨hnext, ?_⟩
        rw [hwritten, List.map_append, List.map_singleton, linesOf_concat, ← List.append_assoc]
        exact hprefix.trans (List.prefix_append _ _)

theorem Series.isPrefix (h : Series w p calls q) (hw : Quits w) :
    q.written <+: p.written ++ linesOf (calls.map Prod.fst) := by
  rcases h.sound_or_stuck hw with hsound | ⟨-, hprefix⟩
  · exact h.written hsound ▸ List.prefix_rfl
  · exact hprefix

theorem exists_series (hw : Patient w) (p : Position) (plans : List BuildPlan) :
    ∃ calls q, Series w p calls q ∧ calls.map Prod.fst = plans := by
  induction plans using List.reverseRecOn with
  | nil => exact ⟨[], p, .nil, rfl⟩
  | append_singleton plans plan ih =>
      obtain ⟨calls, q, hseries, rfl⟩ := ih
      obtain ⟨result, r, hcall⟩ := exists_called hw plan q
      exact ⟨_, r, hseries.snoc hcall, by simp⟩

/-! ### A sink as a writer -/

/-- Hand plans to a sink one after another. -/
def configureEach (sink : Sink) (plans : List BuildPlan) :
    Sink × List (Except EngineError Unit) :=
  plans.foldl (fun s plan =>
    ((configure s.1 plan).1, s.2 ++ [(configure s.1 plan).2])) (sink, [])

/-- From a position on, a writer takes byte after byte as long as a sink has room. -/
structure Follows (w : Writer) (p : Position) (sink : Sink) : Prop where
  written : p.written = sink.written
  writes : ∀ n, w.writes (p.writes + n) = if sink.room.all (n < ·) then .takes 0 else .fails
  flushes : ∀ n, w.flushes n = sink.flushes

end PlanWriter

namespace Sink

def writer (s : Sink) : Writer :=
  ⟨fun n => if s.room.all (n < ·) then .takes 0 else .fails, fun _ => s.flushes⟩

def putByte (s : Sink) (b : UInt8) : Sink :=
  ⟨s.written ++ [b], s.room.map (· - 1), s.flushes⟩

theorem put_nil (s : Sink) : s.put [] = (s, true) := by
  obtain ⟨written, room, flushes⟩ := s
  cases room <;> simp [put]

theorem put_cons_of_full {s : Sink} (h : s.room = some 0) (b : UInt8) (bs : Bytes) :
    s.put (b :: bs) = (s, false) := by
  obtain ⟨written, room, flushes⟩ := s
  cases h
  simp [put]

theorem put_cons_of_room {s : Sink} (h : s.room ≠ some 0) (b : UInt8) (bs : Bytes) :
    s.put (b :: bs) = (s.putByte b).put bs := by
  obtain ⟨written, room, flushes⟩ := s
  cases room with
  | none => simp [put, putByte]
  | some room =>
      obtain ⟨room, rfl⟩ := Nat.exists_eq_succ_of_ne_zero (by simpa using h)
      simp [put, putByte]

end Sink

namespace PlanWriter

variable {sink : Sink}

theorem follows_writer (sink : Sink) : Follows sink.writer ⟨0, 0, sink.written⟩ sink :=
  ⟨rfl, fun n => by rw [Nat.zero_add]; rfl, fun _ => rfl⟩

theorem Follows.writes_of_full (h : Follows w p sink) (hroom : sink.room = some 0) (n : Nat) :
    w.writes (p.writes + n) = .fails := by
  rw [h.writes, hroom]
  rfl

theorem Follows.writes_of_room (h : Follows w p sink) (hroom : sink.room ≠ some 0) :
    w.writes p.writes = .takes 0 := by
  have first := h.writes 0
  cases hr : sink.room with
  | none => simpa [hr] using first
  | some room =>
      have : 0 < room := Nat.pos_of_ne_zero (by simpa [hr] using hroom)
      simpa [hr, this] using first

theorem Follows.full (h : Follows w p sink) (hroom : sink.room = some 0) :
    Follows w (p.take []) sink := by
  refine ⟨by simpa [Position.take] using h.written, fun n => ?_, h.flushes⟩
  rw [Position.take, Nat.add_assoc, h.writes_of_full hroom, hroom]
  rfl

theorem Follows.putByte (h : Follows w p sink) (hroom : sink.room ≠ some 0) (b : UInt8) :
    Follows w (p.take [b]) (sink.putByte b) := by
  refine ⟨by rw [Position.take, h.written]; rfl, fun n => ?_, h.flushes⟩
  rw [Position.take, Nat.add_assoc, h.writes, Sink.putByte]
  cases hr : sink.room with
  | none => rfl
  | some room =>
      have : 0 < room := Nat.pos_of_ne_zero (by simpa [hr] using hroom)
      have : 1 + n < room ↔ n < room - 1 := by omega
      simp [this]

/-- Writing comes to the end that a sink gives for all that is left. -/
def EndsAs (w : Writer) (plan : BuildPlan) (p : Position) (sink : Sink) (rest : Bytes)
    (parts : List Bytes) : Prop :=
  let put := sink.put (rest ++ parts.flatten)
  ∃ q, Run w plan (p, .writing rest parts) (q, .over (flushResult (put.2 && sink.flushes))) ∧
    Follows w q put.1

theorem endsAs_of_nil {parts : List Bytes}
    (hnil : ∀ {p sink}, Follows w p sink → EndsAs w plan p sink [] parts) (h : Follows w p sink)
    (rest : Bytes) : EndsAs w plan p sink rest parts := by
  induction rest generalizing p sink with
  | nil => exact hnil h
  | cons b rest ih =>
      by_cases hroom : sink.room = some 0
      · refine ⟨p.take [], ?_, ?_⟩
        · rw [List.cons_append, Sink.put_cons_of_full hroom]
          exact .single (.breaks (h.writes_of_full hroom 0))
        · rw [List.cons_append, Sink.put_cons_of_full hroom]
          exact h.full hroom
      · obtain ⟨q, hrun, hfollows⟩ := ih (h.putByte hroom b)
        refine ⟨q, .head (.takes (h.writes_of_room hroom)) ?_, ?_⟩
        · rw [List.cons_append, Sink.put_cons_of_room hroom]
          exact hrun
        · rw [List.cons_append, Sink.put_cons_of_room hroom]
          exact hfollows

theorem Follows.endsAs (h : Follows w p sink) (plan : BuildPlan) (rest : Bytes)
    (parts : List Bytes) : EndsAs w plan p sink rest parts := by
  induction parts generalizing p sink rest with
  | nil =>
      refine endsAs_of_nil (fun {p sink} h => ⟨p.flush, ?_, ?_⟩) h rest
      · have flushed : w.flushes p.flushes = sink.flushes := h.flushes _
        rw [List.flatten_nil, List.append_nil, Sink.put_nil, Bool.true_and, ← flushed]
        exact .single .flushes
      · rw [List.flatten_nil, List.append_nil, Sink.put_nil]
        exact ⟨h.written, h.writes, h.flushes⟩
  | cons part parts ih =>
      refine endsAs_of_nil (fun h => ?_) h rest
      obtain ⟨q, hrun, hfollows⟩ := ih h part
      exact ⟨q, .head .goesOn hrun, hfollows⟩

theorem Follows.exists_called (h : Follows w p sink) (plan : BuildPlan) :
    ∃ q, Called w plan p (configure sink plan).2 q ∧ Follows w q (configure sink plan).1 := by
  cases htext : plan.text? with
  | none =>
      rw [configure_of_no_text sink htext]
      exact ⟨p, .single (.refuses htext), h⟩
  | some text =>
      obtain ⟨q, hrun, hfollows⟩ := h.endsAs plan (Utf8.ofString text) [lineEnd]
      rw [List.flatten_singleton] at hrun hfollows
      rw [configure_of_text sink htext, Sink.flushes_put]
      exact ⟨q, .head (.begins htext) hrun, hfollows⟩

theorem exists_series_of_sink (sink : Sink) (plans : List BuildPlan) :
    ∃ calls q, Series sink.writer ⟨0, 0, sink.written⟩ calls q ∧ calls.map Prod.fst = plans ∧
      calls.map Prod.snd = (configureEach sink plans).2 ∧
      Follows sink.writer q (configureEach sink plans).1 := by
  induction plans using List.reverseRecOn with
  | nil => exact ⟨[], _, .nil, rfl, rfl, follows_writer sink⟩
  | append_singleton plans plan ih =>
      obtain ⟨calls, q, hseries, rfl, hresults, hfollows⟩ := ih
      obtain ⟨r, hcall, hnext⟩ := hfollows.exists_called plan
      refine ⟨_, r, hseries.snoc hcall, by simp, ?_, ?_⟩
      · simp [configureEach, hresults]
      · simpa [configureEach] using hnext

/-- While no write fails, a writer has been given the lines of the plans that have a text, in order
and whole. The call in which the first write fails leaves a beginning of that with its own line, and
so does every later call if the writer has quit. What a call answers tells which of it has come
about, and a call that is not held up for ever answers. A call on a writer comes to what it comes to
on a sink with as much room, and calls on one sink are calls on a writer. -/
theorem plans_are_written_whole (w : Writer) (p : Position) :
    (∀ calls q, Series w p calls q →
      let plans := calls.map Prod.fst
      (Sound w p q → q.written = p.written ++ linesOf plans) ∧
      (Quits w → q.written <+: p.written ++ linesOf plans) ∧
      ∀ plan result r, Called w plan q result r → Answers w plan q result r ∧
        (Sound w p q → r.written <+: p.written ++ linesOf (plans ++ [plan]))) ∧
    (Patient w → ∀ plans, ∃ calls q, Series w p calls q ∧ calls.map Prod.fst = plans) ∧
    (∀ plan result q, Called w plan p result q →
      ∃ sink sink' : Sink, sink.written = p.written ∧ configure sink plan = (sink', result) ∧
        sink'.written = q.written) ∧
    ∀ (sink : Sink) (plans : List BuildPlan), ∃ calls q,
      Series sink.writer ⟨0, 0, sink.written⟩ calls q ∧ calls.map Prod.fst = plans ∧
        calls.map Prod.snd = (configureEach sink plans).2 ∧
        q.written = (configureEach sink plans).1.written := by
  refine ⟨fun calls q h => ⟨h.written, h.isPrefix, fun plan result r hcall => ?_⟩,
    fun hw => exists_series hw p, fun plan result q => exists_sink_of_called, ?_⟩
  · exact ⟨answers_of_called hcall, fun hsound => h.isPrefix_of_called hsound hcall⟩
  · intro sink plans
    obtain ⟨calls, q, hseries, hplans, hresults, hfollows⟩ := exists_series_of_sink sink plans
    exact ⟨calls, q, hseries, hplans, hresults, hfollows.written⟩

/-- A plan handed to a sink that has room comes out whole and is answered with success; so is the
one after it, and both stand there in order. -/
theorem two_plans_are_written :
    let plan : BuildPlan := ⟨.ofString "/src", .ofString "/b", ⟨["cs2"]⟩, .engineDefault, none,
      none, none, false, true⟩
    let plan' : BuildPlan := { plan with debug := true }
    ∃ text text' q, plan.text? = some text ∧ plan'.text? = some text' ∧
      Series Sink.unbounded.writer ⟨0, 0, []⟩ [(plan, .ok ()), (plan', .ok ())] q ∧
      q.written = line text ++ line text' := by
  intro plan plan'
  obtain ⟨j, hj⟩ : ∃ j, plan.toJson? = some j := Option.isSome_iff_exists.mp (by decide)
  obtain ⟨j', hj'⟩ : ∃ j, plan'.toJson? = some j := Option.isSome_iff_exists.mp (by decide)
  have htext := BuildPlan.text?_of_toJson? hj
  have htext' := BuildPlan.text?_of_toJson? hj'
  obtain ⟨calls, q, hseries, hplans, hresults, hwritten⟩ :=
    (plans_are_written_whole Sink.unbounded.writer ⟨0, 0, []⟩).2.2.2 .unbounded [plan, plan']
  have each : configureEach .unbounded [plan, plan'] =
      (⟨line (.ofList j.pretty) ++ line (.ofList j'.pretty), none, true⟩, [.ok (), .ok ()]) := by
    simp [configureEach, configure_of_text _ htext, configure_of_text _ htext', Sink.put,
      Sink.unbounded, flushResult]
  rw [each] at hresults hwritten
  have called : calls = [(plan, .ok ()), (plan', .ok ())] := List.zip_of_prod hplans hresults
  exact ⟨_, _, q, htext, htext', called ▸ hseries, hwritten⟩

end PlanWriter
end BuildFront
