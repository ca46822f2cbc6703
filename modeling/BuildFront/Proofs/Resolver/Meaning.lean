import BuildFront.Proofs.IdList.Reading
import BuildFront.Resolver

/-!
What a value means for an option, said without the resolver: which values make sense for which kind,
and by which rule each of the others is refused. Resolving one option agrees with both.
-/

namespace BuildFront

/-- The value that an option goes by: the one supplied, else its default. -/
def OptionSpec.value (spec : OptionSpec) : Option RawValue → Preset
  | some (.text s) => .text s
  | some .flag => .switch true
  | none => spec.preset

def Preset.text? : Preset → Option String
  | .text s => some s
  | _ => none

/-- The text that a refusal shows: that of the supplied value, or of the default if nothing was
supplied. -/
def OptionSpec.shownText? (spec : OptionSpec) : Option RawValue → Option String
  | some v => v.text?
  | none => spec.preset.text?

/-- The path that a text names, unless the text is blank or the path has to be there and is not. -/
def ResolvedPath.find? (cwd : Path) (present : Path → Bool) (check : PathCheck) (s : String) :
    Option ResolvedPath :=
  let path := Path.absolutize cwd (.ofString s)
  if Text.allBlank s = true ∨ (check = .eager ∧ present path = false) then none
  else some ⟨path, check, present path⟩

/-- What a value says for an option of a kind, if it makes sense there. -/
def OptionKind.meaning? (cwd : Path) (present : Path → Bool) : OptionKind → Preset → Option Resolved
  | .flag, .unset => some (.flag false)
  | .flag, .switch on => some (.flag on)
  | .list, .unset => some (.list none)
  | .list, .text s => (IdList.parse s).toOption.map (fun l => .list (some l))
  | .path _, .unset => some (.path none)
  | .path check, .text s => (ResolvedPath.find? cwd present check s).map (fun p => .path (some p))
  | _, _ => none

/-- The rules by which a supplied value, or the default where nothing is supplied, is refused. -/
inductive Refuses (cwd : Path) (present : Path → Bool) (spec : OptionSpec) (raw : Option RawValue) :
    Rejection → Prop where
  | flagText {s} : spec.kind = .flag → raw = some (.text s) →
      Refuses cwd present spec raw ⟨spec.name, some s,
        .kindMismatch "flag" "flags take no value; pass the switch to enable it"⟩
  | flagDefault {s} : spec.kind = .flag → raw = none → spec.preset = .text s →
      Refuses cwd present spec raw ⟨spec.name, some s,
        .kindMismatch "flag" "registry default is not a boolean"⟩
  | bareList : spec.kind = .list → raw = some .flag →
      Refuses cwd present spec raw ⟨spec.name, none,
        .kindMismatch "list" "a comma-separated value is required"⟩
  | barePath {check} : spec.kind = .path check → raw = some .flag →
      Refuses cwd present spec raw ⟨spec.name, none, .kindMismatch "path" "a path is required"⟩
  | switchDefault {on} : spec.kind ≠ .flag → raw = none → spec.preset = .switch on →
      Refuses cwd present spec raw ⟨spec.name, none,
        .kindMismatch spec.kind.label "registry default is a boolean"⟩
  | vacantList {s} : spec.kind = .list → spec.value raw = .text s → IdList.Vacant s →
      Refuses cwd present spec raw ⟨spec.name, some s, .emptyList ⟨s⟩⟩
  | blankPath {check s} : spec.kind = .path check → spec.value raw = .text s →
      Text.allBlank s = true →
      Refuses cwd present spec raw ⟨spec.name, some s, .kindMismatch "path" "path is empty"⟩
  | missingPath {s} : spec.kind = .path .eager → spec.value raw = .text s →
      Text.allBlank s = false → present (Path.absolutize cwd (.ofString s)) = false →
      Refuses cwd present spec raw ⟨spec.name, some s,
        .pathNotFound (Path.absolutize cwd (.ofString s))⟩

theorem OptionSpec.value_eq_text {spec : OptionSpec} {raw : Option RawValue} {s : String}
    (h : spec.value raw = .text s) :
    raw = some (.text s) ∨ (raw = none ∧ spec.preset = .text s) := by
  cases raw with
  | none => exact .inr ⟨rfl, h⟩
  | some v =>
      cases v with
      | text t =>
          cases h
          exact .inl rfl
      | flag => cases h

theorem OptionSpec.value_eq_switch {spec : OptionSpec} {raw : Option RawValue} {on : Bool}
    (h : spec.value raw = .switch on) :
    raw = some .flag ∨ (raw = none ∧ spec.preset = .switch on) := by
  cases raw with
  | none => exact .inr ⟨rfl, h⟩
  | some v =>
      cases v with
      | text s => cases h
      | flag => exact .inl rfl

namespace Resolver

variable {r : Resolver} {present : Path → Bool} {spec : OptionSpec} {raw : Option RawValue}

theorem valueText_of_text {missing s : String} (h : spec.value raw = .text s) :
    valueText spec missing raw = .ok (some s) := by
  cases raw with
  | none =>
      change spec.preset = .text s at h
      simp only [valueText, h]
  | some v => cases v <;> simp_all [valueText, OptionSpec.value]

theorem valueText_of_unset {missing : String} (h : spec.value raw = .unset) :
    valueText spec missing raw = .ok none := by
  cases raw with
  | none =>
      change spec.preset = .unset at h
      simp only [valueText, h]
  | some v => cases v <;> cases h

theorem resolveFlag_of_switch {on : Bool} (h : spec.value raw = .switch on) :
    resolveFlag spec raw = .ok on := by
  cases raw with
  | none =>
      change spec.preset = .switch on at h
      simp only [resolveFlag, h]
  | some v =>
      cases v with
      | text s => cases h
      | flag =>
          cases h
          rfl

theorem resolveFlag_of_unset (h : spec.value raw = .unset) : resolveFlag spec raw = .ok false := by
  cases raw with
  | none =>
      change spec.preset = .unset at h
      simp only [resolveFlag, h]
  | some v => cases v <;> cases h

theorem resolveOne_flag (hk : spec.kind = .flag) :
    r.resolveOne present spec raw = (resolveFlag spec raw).map (fun on => (.flag on, [])) := by
  simp only [resolveOne, hk]
  cases resolveFlag spec raw <;> rfl

theorem resolveOne_list (hk : spec.kind = .list) :
    r.resolveOne present spec raw = (resolveList spec raw).map (fun l => (.list l, [])) := by
  simp only [resolveOne, hk]
  cases resolveList spec raw <;> rfl

theorem resolveList_of_text {s : String} (h : spec.value raw = .text s) :
    resolveList spec raw =
      match IdList.parse s with
      | .ok l => .ok (some l)
      | .error e => .error ⟨spec.name, some e.input, .emptyList e⟩ := by
  simp only [resolveList, valueText_of_text h]
  rfl

theorem resolveOne_path {check : PathCheck} {s : String} (hk : spec.kind = .path check)
    (h : spec.value raw = .text s) :
    r.resolveOne present spec raw =
      (checkPath spec check r.cwd present s).map (fun c => (.path (some c.1), c.2)) := by
  simp only [resolveOne, hk, valueText_of_text h]
  cases h : checkPath spec check r.cwd present s <;> simp [h, bind, Except.bind, Except.map]
  rfl

theorem resolveOne_of_refuses {e : Rejection} (h : Refuses r.cwd present spec raw e) :
    r.resolveOne present spec raw = .error e := by
  cases h with
  | flagText hk hr =>
      rw [resolveOne_flag hk, hr, resolveFlag, mismatch, hk]
      rfl
  | flagDefault hk hr hp =>
      rw [resolveOne_flag hk, hr]
      simp only [resolveFlag, hp, mismatch, hk]
      rfl
  | bareList hk hr =>
      rw [resolveOne_list hk, hr, resolveList, valueText, mismatch, hk]
      rfl
  | barePath hk hr =>
      simp only [resolveOne, hk, hr, valueText, mismatch]
      rfl
  | switchDefault hk hr hp =>
      cases hkind : spec.kind with
      | flag => exact absurd hkind hk
      | list =>
          rw [resolveOne_list hkind, hr, resolveList, valueText, hp, mismatch, hkind]
          rfl
      | path check =>
          simp only [resolveOne, hkind, hr, valueText, hp, mismatch]
          rfl
  | vacantList hk hv hs =>
      rw [resolveOne_list hk, resolveList_of_text hv, IdList.parse_of_vacant hs]
      rfl
  | blankPath hk hv hs =>
      rw [resolveOne_path hk hv, checkPath, if_pos hs, mismatch, hk]
      rfl
  | missingPath hk hv hs hmissing =>
      rw [resolveOne_path hk hv, checkPath]
      simp only [hs, hmissing, if_false, Bool.false_eq_true]
      rfl

/-- A value that makes sense is taken as what it means, and any other meets a rule that refuses
it. -/
theorem resolveOne_cases (r : Resolver) (present : Path → Bool) (spec : OptionSpec)
    (raw : Option RawValue) :
    (∃ v ws, spec.kind.meaning? r.cwd present (spec.value raw) = some v ∧
      r.resolveOne present spec raw = .ok (v, ws)) ∨
    (∃ e, spec.kind.meaning? r.cwd present (spec.value raw) = none ∧
      Refuses r.cwd present spec raw e) := by
  cases hk : spec.kind with
  | flag =>
      cases hv : spec.value raw with
      | unset =>
          refine .inl ⟨.flag false, [], rfl, ?_⟩
          rw [resolveOne_flag hk, resolveFlag_of_unset hv]
          rfl
      | switch on =>
          refine .inl ⟨.flag on, [], rfl, ?_⟩
          rw [resolveOne_flag hk, resolveFlag_of_switch hv]
          rfl
      | text s =>
          rcases OptionSpec.value_eq_text hv with hr | ⟨hr, hp⟩
          · exact .inr ⟨_, rfl, .flagText hk hr⟩
          · exact .inr ⟨_, rfl, .flagDefault hk hr hp⟩
  | list =>
      cases hv : spec.value raw with
      | unset =>
          refine .inl ⟨.list none, [], rfl, ?_⟩
          rw [resolveOne_list hk, resolveList, valueText_of_unset hv]
          rfl
      | switch on =>
          rcases OptionSpec.value_eq_switch hv with hr | ⟨hr, hp⟩
          · exact .inr ⟨_, rfl, .bareList hk hr⟩
          · exact .inr ⟨_, rfl, .switchDefault (by simp [hk]) hr hp⟩
      | text s =>
          by_cases hs : IdList.Vacant s
          · refine .inr ⟨_, ?_, .vacantList hk hv hs⟩
            rw [OptionKind.meaning?, IdList.parse_of_vacant hs]
            rfl
          · obtain ⟨l, hl⟩ := IdList.parse_of_not_vacant hs
            refine .inl ⟨.list (some l), [], ?_, ?_⟩
            · rw [OptionKind.meaning?, hl]
              rfl
            · rw [resolveOne_list hk, resolveList_of_text hv, hl]
              rfl
  | path check =>
      cases hv : spec.value raw with
      | unset =>
          refine .inl ⟨.path none, [], rfl, ?_⟩
          simp only [resolveOne, hk, valueText_of_unset hv]
          rfl
      | switch on =>
          rcases OptionSpec.value_eq_switch hv with hr | ⟨hr, hp⟩
          · exact .inr ⟨_, rfl, .barePath hk hr⟩
          · exact .inr ⟨_, rfl, .switchDefault (by simp [hk]) hr hp⟩
      | text s =>
          cases hs : Text.allBlank s with
          | true =>
              refine .inr ⟨_, ?_, .blankPath hk hv hs⟩
              simp [OptionKind.meaning?, ResolvedPath.find?, hs]
          | false =>
              rw [resolveOne_path hk hv, checkPath, OptionKind.meaning?, ResolvedPath.find?]
              generalize hpath : Path.absolutize r.cwd (.ofString s) = path
              cases hpresent : present path with
              | true =>
                  refine .inl ⟨.path (some ⟨path, check, true⟩), [], ?_, ?_⟩
                  · simp [hs]
                  · simp [hs, hpresent, Except.map]
              | false =>
                  cases check with
                  | eager =>
                      subst hpath
                      exact .inr ⟨_, by simp, .missingPath hk hv hs hpresent⟩
                  | lazy =>
                      refine .inl ⟨.path (some ⟨path, .lazy, false⟩),
                        [.pathMissing spec.name path], ?_, ?_⟩
                      · simp [hs]
                      · simp [hs, hpresent, Except.map]

theorem resolveOne_ok_iff (v : Resolved) :
    (∃ ws, r.resolveOne present spec raw = .ok (v, ws)) ↔
      spec.kind.meaning? r.cwd present (spec.value raw) = some v := by
  rcases resolveOne_cases r present spec raw with ⟨v', ws, hm, hok⟩ | ⟨e, hm, he⟩
  · simp [hm, hok, eq_comm]
  · simp [hm, resolveOne_of_refuses he]

/-- An option is refused by the rules and in no other way. -/
theorem resolveOne_error_iff (e : Rejection) :
    r.resolveOne present spec raw = .error e ↔ Refuses r.cwd present spec raw e := by
  constructor
  · intro h
    rcases resolveOne_cases r present spec raw with ⟨v, ws, -, hok⟩ | ⟨e', -, he⟩
    · rw [hok] at h
      cases h
    · rw [resolveOne_of_refuses he] at h
      cases h
      exact he
  · exact resolveOne_of_refuses

theorem refuses_unique {e e' : Rejection} (h : Refuses r.cwd present spec raw e)
    (h' : Refuses r.cwd present spec raw e') : e = e' := by
  have heq := (resolveOne_of_refuses h).symm.trans (resolveOne_of_refuses h')
  exact Except.error.inj heq

theorem meaning?_eq_none_iff :
    spec.kind.meaning? r.cwd present (spec.value raw) = none ↔
      ∃ e, Refuses r.cwd present spec raw e := by
  rcases resolveOne_cases r present spec raw with ⟨v, ws, hm, hok⟩ | ⟨e, hm, he⟩
  · simp [hm, ← resolveOne_error_iff, hok]
  · simpa [hm] using ⟨e, he⟩

end Resolver

namespace Refuses

variable {cwd : Path} {present : Path → Bool} {spec : OptionSpec} {raw : Option RawValue}
  {e : Rejection}

theorem option_eq (h : Refuses cwd present spec raw e) : e.option = spec.name := by
  cases h <;> rfl

theorem value_eq (h : Refuses cwd present spec raw e) : e.value = spec.shownText? raw := by
  have shown {s : String} (hv : spec.value raw = .text s) : some s = spec.shownText? raw := by
    rcases OptionSpec.value_eq_text hv with rfl | ⟨rfl, hp⟩
    · rfl
    · rw [OptionSpec.shownText?, hp, Preset.text?]
  cases h with
  | flagText _ hr | bareList _ hr | barePath _ hr =>
      rw [hr]
      rfl
  | flagDefault _ hr hp | switchDefault _ hr hp =>
      rw [hr, OptionSpec.shownText?, hp]
      rfl
  | vacantList _ hv _ | blankPath _ hv _ | missingPath _ hv _ _ => exact shown hv

end Refuses
end BuildFront
