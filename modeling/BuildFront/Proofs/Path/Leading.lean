import BuildFront.Proofs.Path.Canonical

/-!
Where a path leads, said without folding: from the empty stack of names if it has a root and from a
given one otherwise, a name goes in and `..` goes out as far as there is anything to leave. Folding
keeps this and forgets all else: two paths are folded to the same bytes if both have a root or
neither has, and they lead from everywhere to the same end.
-/

namespace BuildFront
namespace Path

/-- One piece of a path taken from a stack of names, the innermost first. -/
def enter (names : List Bytes) (piece : Bytes) : List Bytes :=
  if piece = [] ∨ piece = [dot] then names
  else if piece = [dot, dot] then names.tail
  else piece :: names

/-- Where a path leads from a stack of names. -/
def lead (p : Path) (start : List Bytes) : List Bytes :=
  p.pieces.foldl enter (if p.isRooted then [] else start)

/-- The spelling of a folded path: after a root names alone, and without one some steps up before
the names, with single slashes in between. -/
inductive Normal : Bool → Path → Prop where
  | rooted {names} : (∀ n ∈ names, Plain n) → Normal true ⟨slash :: [slash].intercalate names⟩
  | unrooted {ups names} : (∀ n ∈ names, Plain n) →
      Normal false ⟨[slash].intercalate (List.replicate ups [dot, dot] ++ names)⟩

/-- One part taken from a stack of names. -/
def Part.enter (names : List Bytes) : Part → List Bytes
  | .root | .here => names
  | .name n => n :: names
  | .up => names.tail

theorem enter_eq (names : List Bytes) (piece : Bytes) :
    enter names piece = ((partOf? piece).map (Part.enter names)).getD names := by
  rw [enter, partOf?]
  split
  · rfl
  · split <;> rfl

theorem lead_eq_foldl_parts (p : Path) (start : List Bytes) :
    p.lead start = p.parts.foldl Part.enter (if p.isRooted then [] else start) := by
  rw [foldl_parts (fun _ => rfl) (fun _ => rfl), List.foldl_filterMap, lead]
  congr
  funext names piece
  rw [enter_eq]
  cases partOf? piece <;> rfl

theorem Walked.enter_step {rooted : Bool} {stack : List Part} {start : List Bytes} (part : Part)
    (h : Walked rooted stack) (hstart : rooted = true → start = []) :
    (step rooted stack part).reverse.foldl Part.enter start =
      Part.enter (stack.reverse.foldl Part.enter start) part := by
  cases part with
  | root | here => rfl
  | name n => rw [step, List.reverse_cons, List.foldl_concat]
  | up =>
      cases h with
      | start =>
          cases rooted with
          | true =>
              rw [hstart rfl]
              rfl
          | false => rfl
      | up _ _ _ => rw [step, List.reverse_cons, List.foldl_concat]
      | name _ _ =>
          rw [step, List.reverse_cons, List.foldl_concat]
          rfl

/-- What is left of a walk leads to where the walk went. -/
theorem Walked.foldl_enter {rooted : Bool} {parts stack : List Part} {start : List Bytes}
    (hparts : ∀ part ∈ parts, part.Given) (h : Walked rooted stack)
    (hstart : rooted = true → start = []) :
    (parts.foldl (step rooted) stack).reverse.foldl Part.enter start =
      parts.foldl Part.enter (stack.reverse.foldl Part.enter start) := by
  induction parts generalizing stack with
  | nil => rfl
  | cons part rest ih =>
      rw [List.forall_mem_cons] at hparts
      rw [List.foldl_cons, List.foldl_cons, ih hparts.2 (walked_step hparts.1 h),
        h.enter_step part hstart]

theorem lead_ofParts {rooted : Bool} {stack : List Part} (h : Walked rooted stack)
    (start : List Bytes) :
    (ofParts rooted stack.reverse).lead start =
      stack.reverse.foldl Part.enter (if rooted then [] else start) := by
  rw [lead_eq_foldl_parts, parts_ofParts h, isRooted_ofParts h, List.foldl_append]
  cases rooted <;> rfl

theorem lead_normalize (p : Path) (start : List Bytes) : p.normalize.lead start = p.lead start := by
  have walked : Walked p.isRooted (p.parts.foldl (step p.isRooted) []) :=
    walked_foldl (fun _ => given_of_mem_parts) .start
  rw [normalize, lead_ofParts walked, lead_eq_foldl_parts]
  exact Walked.start.foldl_enter (fun _ => given_of_mem_parts) fun h => if_pos h

theorem foldl_enter_up (ups : Nat) (start : List Bytes) :
    (List.replicate ups Part.up).foldl Part.enter start = start.drop ups := by
  induction ups generalizing start with
  | zero => rfl
  | succ ups ih => rw [List.replicate_succ, List.foldl_cons, ih, Part.enter, List.drop_tail]

theorem foldl_enter_name (names start : List Bytes) :
    (names.map Part.name).foldl Part.enter start = names.reverse ++ start := by
  induction names generalizing start with
  | nil => rfl
  | cons n rest ih => simp only [List.map_cons, List.foldl_cons, ih, Part.enter, List.reverse_cons,
      List.append_assoc, List.singleton_append]

/-- A walk leaves steps up, none of them below a root, and then names. -/
theorem Walked.exists_ups_names {rooted : Bool} {stack : List Part} (h : Walked rooted stack) :
    ∃ (ups : Nat) (names : List Bytes), (rooted = true → ups = 0) ∧ (∀ n ∈ names, Plain n) ∧
      stack.reverse = List.replicate ups .up ++ names.map .name := by
  induction h with
  | start => exact ⟨0, [], fun _ => rfl, by simp, rfl⟩
  | @up stack hrooted hall _ _ =>
      refine ⟨stack.length + 1, [], by simp [hrooted], by simp, ?_⟩
      rw [List.reverse_cons, List.eq_replicate_of_mem hall]
      simp [List.replicate_succ']
  | @name n _ hn _ ih =>
      obtain ⟨ups, names, hups, hnames, hstack⟩ := ih
      refine ⟨ups, names ++ [n], hups, ?_, by simp [hstack]⟩
      rw [List.forall_mem_append]
      exact ⟨hnames, by simpa using hn⟩

/-- The steps up and the names of a folded path say where the path leads. -/
theorem exists_ups_names_normalize (p : Path) :
    ∃ (ups : Nat) (names : List Bytes), (p.isRooted = true → ups = 0) ∧ (∀ n ∈ names, Plain n) ∧
      p.normalize = ofParts p.isRooted (List.replicate ups .up ++ names.map .name) ∧
      ∀ start, p.lead start = names.reverse ++ (if p.isRooted then [] else start).drop ups := by
  obtain ⟨stack, hstack, hp⟩ := exists_walked_normalize p
  obtain ⟨ups, names, hups, hnames, hl⟩ := hstack.exists_ups_names
  refine ⟨ups, names, hups, hnames, hl ▸ hp, ?_⟩
  intro start
  rw [← lead_normalize, hp, lead_ofParts hstack, hl, List.foldl_append, foldl_enter_up,
    foldl_enter_name]

theorem map_bytes_names (names : List Bytes) :
    (names.map Part.name).map Part.bytes = names := by
  rw [List.map_map]
  exact List.map_id names

theorem map_bytes_ups_names (ups : Nat) (names : List Bytes) :
    (List.replicate ups Part.up ++ names.map Part.name).map Part.bytes =
      List.replicate ups [dot, dot] ++ names := by
  rw [List.map_append, List.map_replicate, map_bytes_names]
  rfl

theorem normal_normalize (p : Path) : Normal p.isRooted p.normalize := by
  obtain ⟨ups, names, hups, hnames, hp, -⟩ := p.exists_ups_names_normalize
  rw [hp, ofParts, map_bytes_ups_names]
  cases hrooted : p.isRooted with
  | true =>
      rw [hups hrooted]
      exact .rooted hnames
  | false => exact .unrooted hnames

theorem walked_up (ups : Nat) : Walked false (List.replicate ups .up) := by
  induction ups with
  | zero => exact .start
  | succ ups ih => exact .up rfl (fun _ => List.eq_of_mem_replicate) ih

theorem walked_names {rooted : Bool} {stack : List Part} {names : List Bytes}
    (hnames : ∀ n ∈ names, Plain n) (h : Walked rooted stack) :
    Walked rooted ((names.map Part.name).reverse ++ stack) := by
  induction names generalizing stack with
  | nil => exact h
  | cons n rest ih =>
      rw [List.forall_mem_cons] at hnames
      rw [List.map_cons, List.reverse_cons, List.append_assoc]
      exact ih hnames.2 (.name hnames.1 h)

theorem Normal.exists_walked {rooted : Bool} {p : Path} (h : Normal rooted p) :
    ∃ stack, Walked rooted stack ∧ p = ofParts rooted stack.reverse := by
  cases h with
  | rooted hnames =>
      refine ⟨_, walked_names hnames .start, ?_⟩
      rw [List.append_nil, List.reverse_reverse, ofParts, map_bytes_names]
      rfl
  | @unrooted ups names hnames =>
      refine ⟨_, walked_names hnames (walked_up ups), ?_⟩
      rw [List.reverse_append, List.reverse_reverse, List.reverse_replicate, ofParts,
        map_bytes_ups_names]
      rfl

/-- The paths in normal form are those that folding leaves as they are. -/
theorem normalize_eq_self_iff (p : Path) : p.normalize = p ↔ Normal p.isRooted p := by
  constructor
  · intro h
    have normal := p.normal_normalize
    rwa [h] at normal
  · intro h
    obtain ⟨stack, hstack, hp⟩ := h.exists_walked
    generalize p.isRooted = rooted at *
    rw [hp, normalize_ofParts hstack]

/-- What stands between the slashes of a folded path. -/
def Kept (n : Bytes) : Prop :=
  n = [dot, dot] ∨ Plain n

theorem Kept.filled {n : Bytes} (h : Kept n) : slash ∉ n ∧ n ≠ [] ∧ n ≠ [dot] := by
  rcases h with rfl | h
  · decide
  · exact ⟨h.1, h.2.1, h.2.2.1⟩

/-- A folded path is, after its root if it has one, nothing or steps up before names. -/
theorem Normal.exists_kept {rooted : Bool} {p : Path} (h : Normal rooted p) :
    ∃ l, p.bytes = (if rooted then [slash] else []) ++ [slash].intercalate l ∧
      (∀ n ∈ l, Kept n) ∧ l.Pairwise (fun a b => b = [dot, dot] → a = [dot, dot]) ∧
      (rooted = true → [dot, dot] ∉ l) := by
  cases h with
  | @rooted names hnames =>
      have absent : [dot, dot] ∉ names := fun hmem => (hnames _ hmem).2.2.2 rfl
      refine ⟨names, rfl, fun n hn => .inr (hnames n hn), ?_, fun _ => absent⟩
      exact List.pairwise_of_forall_mem_list fun _ _ b hb heq => absurd (heq ▸ hb) absent
  | @unrooted ups names hnames =>
      refine ⟨_, rfl, ?_, ?_, nofun⟩
      · rw [List.forall_mem_append]
        exact ⟨fun n hn => .inl (List.eq_of_mem_replicate hn), fun n hn => .inr (hnames n hn)⟩
      · rw [List.pairwise_append]
        refine ⟨?_, ?_, ?_⟩
        · exact List.pairwise_replicate.mpr (.inr fun _ => rfl)
        · exact List.pairwise_of_forall_mem_list fun _ _ b hb heq => absurd heq (hnames b hb).2.2.2
        · exact fun a ha _ _ _ => List.eq_of_mem_replicate ha

theorem Normal.exists_pieces {rooted : Bool} {p : Path} (h : Normal rooted p) :
    ∃ back, p.pieces = (if rooted then [[]] else []) ++ back ∧ [dot] ∉ back ∧
      back.Pairwise (fun a b => b = [dot, dot] → a = [dot, dot]) ∧
      (rooted = true → [dot, dot] ∉ back) ∧
      ([] ∈ back → back = [[]] ∧ p.bytes = if rooted then [slash] else []) := by
  obtain ⟨l, hbytes, kept, ordered, absent⟩ := h.exists_kept
  have hpieces : p.pieces =
      (if rooted then [[]] else []) ++ ([slash].intercalate l).splitOn slash := by
    rw [pieces, hbytes]
    cases rooted with
    | true => exact List.splitOn_append_cons_self [] _
    | false => rfl
  refine ⟨_, hpieces, ?_⟩
  by_cases hl : l = []
  · subst hl
    refine ⟨by decide, List.pairwise_singleton _ _, fun _ => by decide, fun _ => ⟨rfl, ?_⟩⟩
    simpa using hbytes
  · rw [List.splitOn_intercalate slash (fun n hn => (kept n hn).filled.1) hl]
    exact ⟨fun hmem => (kept _ hmem).filled.2.2 rfl, ordered, absent,
      fun hmem => absurd rfl (kept _ hmem).filled.2.1⟩

theorem Normal.undotted {rooted : Bool} {p : Path} (h : Normal rooted p) : [dot] ∉ p.pieces := by
  obtain ⟨back, hpieces, undotted, -⟩ := h.exists_pieces
  rw [hpieces, List.mem_append, not_or]
  exact ⟨by cases rooted <;> decide, undotted⟩

theorem Normal.ups_first {rooted : Bool} {p : Path} (h : Normal rooted p) :
    p.pieces.Pairwise (fun a b => b = [dot, dot] → a = [dot, dot]) := by
  obtain ⟨back, hpieces, -, ordered, absent, -⟩ := h.exists_pieces
  rw [hpieces]
  cases rooted with
  | true => exact .cons (fun b hb heq => absurd (heq ▸ hb) (absent rfl)) ordered
  | false => exact ordered

theorem Normal.slash_not_last {rooted : Bool} {p : Path} (h : Normal rooted p)
    (hlast : p.bytes.getLast? = some slash) : p.bytes = [slash] := by
  have empty := nil_mem_tail_of_getLast? hlast
  obtain ⟨back, hpieces, -, -, -, vacant⟩ := h.exists_pieces
  rw [hpieces] at empty
  cases rooted with
  | true => exact (vacant empty).2
  | false =>
      rw [(vacant (List.mem_of_mem_tail empty)).1] at empty
      cases empty

/-- Folded paths that lead from all names to the same end are the same path. -/
theorem normalize_eq_of_lead_eq {p q : Path} (hrooted : p.isRooted = q.isRooted)
    (h : ∀ start, (∀ n ∈ start, Plain n) → p.lead start = q.lead start) :
    p.normalize = q.normalize := by
  obtain ⟨ups, names, hups, -, hp, leadp⟩ := p.exists_ups_names_normalize
  obtain ⟨ups', names', hups', -, hq, leadq⟩ := q.exists_ups_names_normalize
  -- Nothing can be left from the empty stack, so what is there in the end are the names.
  have names_eq : names = names' := by
    have ends := h [] (by simp)
    rw [leadp, leadq] at ends
    simpa using ends
  -- From a stack that is deep enough, what is there in the end tells the steps up.
  have ups_eq : ups = ups' := by
    cases hr : p.isRooted with
    | true => rw [hups hr, hups' (hrooted ▸ hr)]
    | false =>
        have ends := h (List.replicate (ups + ups') [0x61]) (by simp [Plain, slash, dot])
        rw [leadp, leadq, ← hrooted, hr, names_eq] at ends
        have lengths := congrArg List.length ends
        simp only [Bool.false_eq_true, if_false, List.length_append, List.length_drop,
          List.length_replicate] at lengths
        omega
  rw [hp, hq, hrooted, names_eq, ups_eq]

/-- Folding is the lexical meaning of a path and no more: it keeps the root and where the path leads,
it leaves the path in normal form, and two paths come out the same if and only if they agree on the
root and lead from every stack of names to the same end. What is in normal form stays as it is. -/
theorem normalize_is_meaning (p : Path) :
    (p.normalize.isRooted = p.isRooted ∧ ∀ start, p.normalize.lead start = p.lead start) ∧
    (Normal p.isRooted p.normalize ∧ [dot] ∉ p.normalize.pieces ∧
      p.normalize.pieces.Pairwise (fun a b => b = [dot, dot] → a = [dot, dot]) ∧
      (p.normalize.bytes.getLast? = some slash → p.normalize.bytes = [slash])) ∧
    (∀ q : Path, p.normalize.bytes = q.normalize.bytes ↔ p.isRooted = q.isRooted ∧
      ∀ start, (∀ n ∈ start, Plain n) → p.lead start = q.lead start) ∧
    p.normalize.normalize = p.normalize ∧ (p.normalize = p ↔ Normal p.isRooted p) := by
  have normal := p.normal_normalize
  refine ⟨⟨isRooted_normalize p, lead_normalize p⟩, ⟨normal, normal.undotted, normal.ups_first,
    normal.slash_not_last⟩, ?_, normalize_normalize p, normalize_eq_self_iff p⟩
  intro q
  constructor
  · intro h
    have same : p.normalize = q.normalize := congrArg Path.mk h
    refine ⟨?_, fun start _ => ?_⟩
    · rw [← isRooted_normalize p, same, isRooted_normalize]
    · rw [← lead_normalize p, same, lead_normalize]
  · rintro ⟨hrooted, h⟩
    rw [normalize_eq_of_lead_eq hrooted h]

/-- Where the way out and back in is spelt differently, the end is the same and so is the folded
path. -/
theorem detours_fold_alike :
    let p := ofString "a/../../b/."
    let q := ofString "./..//b/c/../"
    p.normalize.bytes = q.normalize.bytes ∧ p.lead [[0x78], [0x79]] = [[0x62], [0x79]] ∧
      Normal false p.normalize := by
  intro p q
  have meaning := normalize_is_meaning p
  have parts_p : p.parts = [.name [0x61], .up, .up, .name [0x62]] := by decide
  have parts_q : q.parts = [.here, .up, .name [0x62], .name [0x63], .up] := by decide
  refine ⟨(meaning.2.2.1 q).mpr ⟨by decide, fun start _ => ?_⟩, by decide, meaning.2.1.1⟩
  rw [lead_eq_foldl_parts, lead_eq_foldl_parts, parts_p, parts_q]
  rfl

end Path
end BuildFront
