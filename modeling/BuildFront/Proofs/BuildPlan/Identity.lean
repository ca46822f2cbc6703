import BuildFront.Proofs.BuildPlan.JsonForm
import BuildFront.Proofs.Json.Squeeze
import BuildFront.Proofs.Resolver.PathOptions

/-!
The JSON texts and the fingerprint of a plan identify it. Paths are compared by what they are made
of and written byte by byte; for the folded paths of resolved plans the two come to the same.
-/

namespace BuildFront

theorem Hex.ofBytes_injective : Function.Injective Hex.ofBytes := by
  have digits {m n : Nat} (hm : m < 16) (hn : n < 16) (h : digit m = digit n) : m = n := by
    have hv := congrArg value? h
    rw [value?_digit m hm, value?_digit n hn] at hv
    exact Option.some.inj hv
  intro bs
  induction bs with
  | nil =>
      intro cs h
      cases cs with
      | nil => rfl
      | cons c cs => cases h
  | cons b bs ih =>
      intro cs h
      cases cs with
      | nil => cases h
      | cons c cs =>
          simp only [ofBytes, ofByte, List.flatMap_cons, List.cons_append, List.nil_append,
            List.cons.injEq] at h
          have hb := b.toNat_lt
          have hc := c.toNat_lt
          have high := digits (by omega) (by omega) h.1
          have low := digits (by omega) (by omega) h.2.1
          have same : b = c := UInt8.toNat_inj.mp (by omega)
          rw [same, ih h.2.2]

/-- Paths are the same if they are made of the same parts, however they are spelt. -/
def Path.Same (p q : Path) : Prop :=
  p.parts = q.parts

/-- A path as folding leaves it. -/
def Path.Folded (p : Path) : Prop :=
  ∃ q : Path, p = q.normalize

theorem Path.Same.eq {p q : Path} (h : p.Same q) (hp : p.Folded) (hq : q.Folded) : p = q := by
  obtain ⟨p', rfl⟩ := hp
  obtain ⟨q', rfl⟩ := hq
  exact normalize_eq_of_parts_eq h

structure ResolvedPath.Same (p q : ResolvedPath) : Prop where
  path : p.path.Same q.path
  check : p.check = q.check
  present : p.present = q.present

namespace BuildPlan

/-- Plans are the same if they are so field by field. -/
structure Same (a b : BuildPlan) : Prop where
  sourceDir : a.sourceDir.Same b.sourceDir
  buildDir : a.buildDir.Same b.buildDir
  sdks : a.sdks = b.sdks
  targets : a.targets = b.targets
  sdkRoot : Option.Rel ResolvedPath.Same a.sdkRoot b.sdkRoot
  sdkManifests : Option.Rel ResolvedPath.Same a.sdkManifests b.sdkManifests
  hostFramework : Option.Rel ResolvedPath.Same a.hostFramework b.hostFramework
  debug : a.debug = b.debug
  optimize : a.optimize = b.optimize

/-- A plan whose paths are all folded. -/
structure Folded (p : BuildPlan) : Prop where
  sourceDir : p.sourceDir.Folded
  buildDir : p.buildDir.Folded
  sdkRoot : ∀ x, p.sdkRoot = some x → x.path.Folded
  sdkManifests : ∀ x, p.sdkManifests = some x → x.path.Folded
  hostFramework : ∀ x, p.hostFramework = some x → x.path.Folded

theorem Same.refl (a : BuildPlan) : a.Same a := by
  have rel (p : Option ResolvedPath) : Option.Rel ResolvedPath.Same p p := by
    cases p with
    | none => exact .none
    | some p => exact .some ⟨rfl, rfl, rfl⟩
  exact ⟨rfl, rfl, rfl, rfl, rel _, rel _, rel _, rfl, rfl⟩

theorem eq_of_rel_same {p q : Option ResolvedPath} (h : Option.Rel ResolvedPath.Same p q)
    (hp : ∀ x, p = some x → x.path.Folded) (hq : ∀ x, q = some x → x.path.Folded) : p = q := by
  cases h with
  | none => rfl
  | @some x y hxy =>
      have path := hxy.path.eq (hp x rfl) (hq y rfl)
      have check := hxy.check
      have there := hxy.present
      cases x
      cases y
      simp_all

theorem Same.eq {a b : BuildPlan} (h : a.Same b) (ha : a.Folded) (hb : b.Folded) : a = b := by
  have source := h.sourceDir.eq ha.sourceDir hb.sourceDir
  have build := h.buildDir.eq ha.buildDir hb.buildDir
  have root := eq_of_rel_same h.sdkRoot ha.sdkRoot hb.sdkRoot
  have manifests := eq_of_rel_same h.sdkManifests ha.sdkManifests hb.sdkManifests
  have framework := eq_of_rel_same h.hostFramework ha.hostFramework hb.hostFramework
  obtain ⟨-, -, sdks, targets, -, -, -, debug, optimize⟩ := h
  cases a
  cases b
  simp_all

end BuildPlan

namespace Resolver

variable {g : Registry} {cwd : Path} {dir : Option Path} {present : Path → Bool} {raw : RawInput}

theorem folded_of_resolve {plan : BuildPlan}
    (h : ((make g cwd dir).resolve present raw).2 = .ok plan) : plan.Folded := by
  have options : ∀ name x, (name, some x) ∈ plan.pathOptions → x.path.Folded := by
    intro name x hx
    obtain ⟨_, _, _, _, s, -, hfind⟩ := find?_of_resolve h hx
    exact ⟨_, (ResolvedPath.find?_eq_some_iff.mp hfind).2.1⟩
  obtain ⟨root, manifests, framework⟩ := BuildPlan.forall_pathOptions_iff.mp options
  have build : plan.buildDir.Folded := ⟨_, buildDir_of_resolve h⟩
  refine ⟨?_, build, root, manifests, framework⟩
  rw [sourceDir_of_resolve h]
  cases dir with
  | none => exact build
  | some dir => exact ⟨_, rfl⟩

/-- Of two plans that were resolved in any way and have a JSON form, each of the two texts is the
same exactly if the plans are, and then so is the fingerprint. Plans with one fingerprint are the
same unless the digest is the same for different texts. -/
theorem json_identifies_plan {g g' : Registry} {cwd cwd' : Path} {dir dir' : Option Path}
    {present present' : Path → Bool} {raw raw' : RawInput} {a b : BuildPlan} {ja jb : Json}
    (ha : ((make g cwd dir).resolve present raw).2 = .ok a)
    (hb : ((make g' cwd' dir').resolve present' raw').2 = .ok b)
    (hja : a.toJson? = some ja) (hjb : b.toJson? = some jb) :
    (Utf8.encode ja.compact = Utf8.encode jb.compact ↔ a.Same b) ∧
    (a.text? = b.text? ↔ a.Same b) ∧
    (a.Same b → a.fingerprint? = b.fingerprint?) ∧
    ((Digest.sha256 (Utf8.encode ja.compact) = Digest.sha256 (Utf8.encode jb.compact) →
      Utf8.encode ja.compact = Utf8.encode jb.compact) →
      a.fingerprint? = b.fingerprint? → a.Same b) := by
  have same_of_json (h : ja = jb) : a.Same b := by
    rw [BuildPlan.eq_of_toJson? hja (h ▸ hjb)]
    exact .refl b
  have json_of_same (h : a.Same b) : ja = jb := by
    have heq := h.eq (folded_of_resolve ha) (folded_of_resolve hb)
    rw [heq, hjb] at hja
    exact (Option.some.inj hja).symm
  have compact : Utf8.encode ja.compact = Utf8.encode jb.compact ↔ a.Same b := by
    constructor
    · intro h
      exact same_of_json (Json.compact_injective (Utf8.encode_injective h))
    · intro h
      rw [json_of_same h]
  refine ⟨compact, ?_, ?_, ?_⟩
  · rw [BuildPlan.text?, BuildPlan.text?, hja, hjb]
    constructor
    · intro h
      have pretty : ja.pretty = jb.pretty := String.ofList_inj.mp (Option.some.inj h)
      exact same_of_json (Json.pretty_injective pretty)
    · intro h
      rw [json_of_same h]
  · intro h
    rw [BuildPlan.fingerprint?, BuildPlan.fingerprint?, hja, hjb, json_of_same h]
  · intro collision_free h
    rw [BuildPlan.fingerprint?, BuildPlan.fingerprint?, hja, hjb] at h
    have digits := String.ofList_inj.mp (Option.some.inj h)
    exact compact.mp (collision_free (Hex.ofBytes_injective digits))

/-- Directories spelt with detours and a list with repetitions lead to one plan; debugging makes it
another one, with other texts, and with another fingerprint unless the digest collides. -/
theorem debugging_changes_texts :
    let plan : BuildPlan := ⟨.ofString "/work/mod", .ofString "/work/mod", ⟨["cs2"]⟩,
      .engineDefault, none, none, none, false, true⟩
    let other : BuildPlan := { plan with debug := true }
    let detour := make .standard (.ofString "/work//x/.././mod/") (some (.ofString "."))
    let direct := make .standard (.ofString "/work/mod") none
    (detour.resolve (fun _ => false) (NameMap.empty.insert "sdks" (.text "cs2, cs2"))).2 =
      .ok plan ∧
    (direct.resolve (fun _ => true) (NameMap.empty.insert "enable-debug" .flag)).2 = .ok other ∧
    ∃ j k, plan.toJson? = some j ∧ other.toJson? = some k ∧
      Utf8.encode j.compact ≠ Utf8.encode k.compact ∧ plan.text? ≠ other.text? ∧
      (Digest.sha256 (Utf8.encode j.compact) ≠ Digest.sha256 (Utf8.encode k.compact) →
        plan.fingerprint? ≠ other.fingerprint?) := by
  intro plan other detour direct
  have hplan : (detour.resolve (fun _ => false)
      (NameMap.empty.insert "sdks" (.text "cs2, cs2"))).2 = .ok plan := by rfl
  have hother : (direct.resolve (fun _ => true)
      (NameMap.empty.insert "enable-debug" .flag)).2 = .ok other := by rfl
  obtain ⟨j, hj⟩ : ∃ j, plan.toJson? = some j := ⟨_, rfl⟩
  obtain ⟨k, hk⟩ : ∃ k, other.toJson? = some k := ⟨_, rfl⟩
  have different : ¬plan.Same other := fun h => Bool.noConfusion h.debug
  obtain ⟨compact, pretty, -, fingerprint⟩ := json_identifies_plan hplan hother hj hk
  refine ⟨hplan, hother, j, k, hj, hk, ?_, ?_, ?_⟩
  · exact fun h => different (compact.mp h)
  · exact fun h => different (pretty.mp h)
  · exact fun hne h => different (fingerprint (fun heq => absurd heq hne) h)

end Resolver
end BuildFront
