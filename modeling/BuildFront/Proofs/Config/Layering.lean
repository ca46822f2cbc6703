import BuildFront.Proofs.Config.Precedence

/-!
Any number of configurations laid over one another, in any grouping. Each setting is that of the
last configuration that has it; turned into raw input, the whole is what the parts give when they
fill each other's gaps, unless an option that is set below is switched off above.
-/

namespace BuildFront

/-- The last item of a list that has a value has this one. -/
def LastHas {α : Type u} {β : Type v} (f : α → Option β) (l : List α) (value : β) : Prop :=
  ∃ before x after, l = before ++ x :: after ∧ f x = some value ∧ ∀ y ∈ after, f y = none

theorem findSome?_reverse_eq_some_iff {α : Type u} {β : Type v} {f : α → Option β} {l : List α}
    {value : β} : l.reverse.findSome? f = some value ↔ LastHas f l value := by
  rw [List.findSome?_eq_some_iff]
  constructor
  · rintro ⟨after, x, before, hl, hx, hafter⟩
    refine ⟨before.reverse, x, after.reverse, ?_, hx, fun y hy => hafter y (List.mem_reverse.mp hy)⟩
    rw [← List.reverse_reverse l, hl]
    simp
  · rintro ⟨before, x, after, rfl, hx, hafter⟩
    refine ⟨after.reverse, x, before.reverse, by simp, hx, ?_⟩
    exact fun y hy => hafter y (List.mem_reverse.mp hy)

/-- The arguments of an engine, if there are any. -/
def EngineConfig.someArgs? (e : EngineConfig) : Option (List String) :=
  if e.args.isEmpty then none else some e.args

theorem EngineConfig.args_eq (e : EngineConfig) : e.args = e.someArgs?.getD [] := by
  rw [someArgs?]
  split <;> simp_all

namespace Config

/-- Configurations to be merged, grouped somehow, lower ones first. -/
inductive Grouping where
  | nothing
  | layer (c : Config)
  | stack (lower upper : Grouping)

namespace Grouping

def layers : Grouping → List Config
  | .nothing => []
  | .layer c => [c]
  | .stack lower upper => lower.layers ++ upper.layers

def merged : Grouping → Config
  | .nothing => .empty
  | .layer c => c
  | .stack lower upper => lower.merged.merge upper.merged

end Grouping

/-- A setting that an upper configuration has or leaves to the lower one. -/
structure Setting {β : Type u} (f : Config → Option β) : Prop where
  empty : f .empty = none
  merge : ∀ lower upper, f (lower.merge upper) = (f upper).or (f lower)

theorem setting_option (name : String) : Setting (·.options.get? name) :=
  ⟨rfl, fun lower upper => get?_merge lower upper name⟩

theorem setting_program : Setting (·.engine.program) :=
  ⟨rfl, fun _ _ => rfl⟩

theorem setting_someArgs : Setting (·.engine.someArgs?) := by
  refine ⟨rfl, fun lower upper => ?_⟩
  simp only [merge, EngineConfig.someArgs?]
  split <;> simp_all

theorem Setting.merged {β : Type u} {f : Config → Option β} (hf : Setting f) (t : Grouping) :
    f t.merged = t.layers.reverse.findSome? f := by
  induction t with
  | nothing => exact hf.empty
  | layer c => simp [Grouping.merged, Grouping.layers]
  | stack lower upper ihl ihu =>
      rw [Grouping.merged, hf.merge, ihl, ihu, Grouping.layers, List.reverse_append,
        List.findSome?_append]

/-- A configuration is known by its settings. -/
theorem ext_settings {c c' : Config}
    (hoptions : ∀ name, c.options.get? name = c'.options.get? name)
    (hprogram : c.engine.program = c'.engine.program)
    (hargs : c.engine.someArgs? = c'.engine.someArgs?) : c = c' := by
  change (⟨c.options, c.engine.program, c.engine.args⟩ : Config) =
    ⟨c'.options, c'.engine.program, c'.engine.args⟩
  rw [NameMap.ext_get? hoptions, hprogram, c.engine.args_eq, c'.engine.args_eq, hargs]

/-- The grouping does not matter, nor do empty configurations among the others. -/
theorem merged_eq_of_layers_eq {t t' : Grouping} (h : t.layers = t'.layers) :
    t.merged = t'.merged := by
  refine ext_settings (fun name => ?_) ?_ ?_
  · rw [(setting_option name).merged, (setting_option name).merged, h]
  · rw [setting_program.merged, setting_program.merged, h]
  · rw [setting_someArgs.merged, setting_someArgs.merged, h]

theorem foldl_merge_eq (cs : List Config) (t : Grouping) :
    cs.foldl merge t.merged = (cs.foldl (fun t c => Grouping.stack t (.layer c)) t).merged ∧
      (cs.foldl (fun t c => Grouping.stack t (.layer c)) t).layers = t.layers ++ cs := by
  -- `t` stands for what is merged so far
  induction cs generalizing t with
  | nil => simp
  | cons c rest ih => simpa [Grouping.layers, Grouping.merged] using ih (.stack t (.layer c))

/-- However they are grouped, configurations come to what they give one after another. -/
theorem merged_eq_foldl (t : Grouping) : t.merged = t.layers.foldl merge .empty := by
  obtain ⟨merged, layers⟩ := foldl_merge_eq t.layers .nothing
  exact (merged_eq_of_layers_eq layers.symm).trans merged.symm

theorem merge_assoc (a b c : Config) : (a.merge b).merge c = a.merge (b.merge c) := by
  have same : (Grouping.stack (.stack (.layer a) (.layer b)) (.layer c)).layers =
      (Grouping.stack (.layer a) (.stack (.layer b) (.layer c))).layers := rfl
  exact merged_eq_of_layers_eq same

theorem empty_merge (c : Config) : Config.empty.merge c = c := by
  have same : (Grouping.stack .nothing (.layer c)).layers = (Grouping.layer c).layers := rfl
  exact merged_eq_of_layers_eq same

theorem merge_empty (c : Config) : c.merge .empty = c := by
  have same : (Grouping.stack (.layer c) .nothing).layers = (Grouping.layer c).layers := rfl
  exact merged_eq_of_layers_eq same

/-- The raw input of each configuration, the last first, with gaps filled from the one before. -/
def filled (cs : List Config) : RawInput :=
  cs.foldr (fun c raw => raw.fillFrom c.toRawInput) .empty

theorem get?_filled (cs : List Config) (name : String) :
    (filled cs).get? name = cs.reverse.findSome? (fun c => c.toRawInput.get? name) := by
  induction cs with
  | nil => rfl
  | cons c rest ih =>
      change ((filled rest).fillFrom c.toRawInput).get? name = _
      rw [NameMap.get?_fillFrom, ih, List.reverse_cons, List.findSome?_append]
      simp

theorem rawValue?_eq_none_iff (v : ConfigValue) : rawValue? v = none ↔ v = .switch false := by
  cases v with
  | switch on => cases on <;> simp [rawValue?]
  | text s => simp [rawValue?]
  | list items => simp [rawValue?]

/-- The last configuration that mentions an option switches it off, and one before it sets the
option to something else. -/
def SwitchedOver (cs : List Config) (name : String) : Prop :=
  ∃ before c after, cs = before ++ c :: after ∧
    c.options.get? name = some (.switch false) ∧ (∀ c' ∈ after, c'.options.get? name = none) ∧
    ∃ c' ∈ before, ∃ v, c'.options.get? name = some v ∧ v ≠ .switch false

theorem switchedOver_iff {cs : List Config} {name : String} :
    SwitchedOver cs name ↔ LastHas (·.options.get? name) cs (.switch false) ∧
      ∃ c ∈ cs, ∃ v, c.options.get? name = some v ∧ v ≠ .switch false := by
  constructor
  · rintro ⟨before, c, after, rfl, hc, hafter, c', hc', hset⟩
    exact ⟨⟨before, c, after, rfl, hc, hafter⟩, c', List.mem_append_left _ hc', hset⟩
  · rintro ⟨⟨before, c, after, rfl, hc, hafter⟩, c', hc', v, hv, hne⟩
    refine ⟨before, c, after, rfl, hc, hafter, c', ?_, v, hv, hne⟩
    rcases List.mem_append.mp hc' with hc' | hc'
    · exact hc'
    · rcases List.mem_cons.mp hc' with rfl | hc'
      · simp_all
      · simp_all

/-- For one name, to convert the last mention is to take the last that converts, unless a value is
switched over. -/
theorem bind_rawValue?_eq_iff (cs : List Config) (name : String) :
    (cs.reverse.findSome? (·.options.get? name)).bind rawValue? =
        cs.reverse.findSome? (fun c => (c.options.get? name).bind rawValue?) ↔
      ¬SwitchedOver cs name := by
  rw [switchedOver_iff, ← findSome?_reverse_eq_some_iff]
  constructor
  · rintro heq ⟨last, c, hc, v, hv, hne⟩
    rw [last, Option.bind_some, rawValue?, eq_comm, List.findSome?_eq_none_iff] at heq
    have unset := heq c (List.mem_reverse.mpr hc)
    rw [hv, Option.bind_some, rawValue?_eq_none_iff] at unset
    exact hne unset
  · intro h
    cases hlast : (cs.reverse.findSome? (·.options.get? name)).bind rawValue? with
    | some raw =>
        obtain ⟨v, hv, hraw⟩ := Option.bind_eq_some_iff.mp hlast
        obtain ⟨after, c, before, hsplit, hc, hafter⟩ := List.findSome?_eq_some_iff.mp hv
        refine (List.findSome?_eq_some_iff.mpr ⟨after, c, before, hsplit, ?_, ?_⟩).symm
        · rw [hc, Option.bind_some, hraw]
        · intro c' hc'
          rw [hafter c' hc', Option.bind_none]
    | none =>
        -- the last mention switches off or there is none, so no other may supply a value
        rw [eq_comm, List.findSome?_eq_none_iff]
        intro c hc
        rw [Option.bind_eq_none_iff]
        intro v hv
        rw [rawValue?_eq_none_iff]
        by_contra hne
        refine h ⟨?_, c, List.mem_reverse.mp hc, v, hv, hne⟩
        cases hfound : cs.reverse.findSome? (·.options.get? name) with
        | none =>
            have := List.findSome?_eq_none_iff.mp hfound c hc
            simp [hv] at this
        | some w =>
            rw [hfound, Option.bind_some, rawValue?_eq_none_iff] at hlast
            rw [hlast]

/-- Merging first and converting then, or converting first and filling gaps then. -/
theorem toRawInput_merged_eq_filled_iff (t : Grouping) :
    t.merged.toRawInput = filled t.layers ↔ ¬∃ name, SwitchedOver t.layers name := by
  have answers (name : String) :
      t.merged.toRawInput.get? name = (filled t.layers).get? name ↔
        ¬SwitchedOver t.layers name := by
    rw [get?_toRawInput, (setting_option name).merged, get?_filled, ← bind_rawValue?_eq_iff]
    simp only [get?_toRawInput]
  rw [not_exists]
  constructor
  · intro h name
    exact (answers name).mp (h ▸ rfl)
  · intro h
    exact NameMap.ext_get? fun name => (answers name).mpr (h name)

theorem contains_toRawInput_iff (c : Config) (name : String) :
    c.toRawInput.contains name = true ↔ ∃ v, c.options.get? name = some v ∧ v ≠ .switch false := by
  rw [NameMap.contains, get?_toRawInput, Option.isSome_iff_ne_none, Ne, Option.bind_eq_none_iff]
  simp only [rawValue?_eq_none_iff, not_forall, exists_prop]

theorem contains_toRawInput_merged_iff (t : Grouping) (name : String) :
    t.merged.toRawInput.contains name = true ↔
      ∃ v, LastHas (·.options.get? name) t.layers v ∧ v ≠ .switch false := by
  rw [contains_toRawInput_iff, (setting_option name).merged]
  simp only [findSome?_reverse_eq_some_iff]

/-- However many configurations are merged, and however they are grouped, an option has the value of
the last one that mentions it, the engine is the last one named, and its arguments are the last that
are any; so merging is associative, and an empty configuration adds nothing. An option is supplied
if its last mention does not switch it off. Converting each configuration and filling gaps from the
last to the first gives the same raw input, unless an option's last mention switches off what an
earlier one sets. -/
theorem last_mention_decides (t : Grouping) :
    t.merged = t.layers.foldl merge .empty ∧
    (∀ name v, t.merged.options.get? name = some v ↔
      LastHas (·.options.get? name) t.layers v) ∧
    (∀ program, t.merged.engine.program = some program ↔
      LastHas (·.engine.program) t.layers program) ∧
    (∀ args, t.merged.engine.someArgs? = some args ↔
      LastHas (·.engine.someArgs?) t.layers args) ∧
    (∀ a b c : Config, (a.merge b).merge c = a.merge (b.merge c)) ∧
    (∀ c : Config, Config.empty.merge c = c ∧ c.merge .empty = c) ∧
    (∀ name, t.merged.toRawInput.contains name = true ↔
      ∃ v, LastHas (·.options.get? name) t.layers v ∧ v ≠ .switch false) ∧
    (t.merged.toRawInput = filled t.layers ↔ ¬∃ name, SwitchedOver t.layers name) := by
  have setting {β : Type} {f : Config → Option β} (hf : Setting f) (value : β) :
      f t.merged = some value ↔ LastHas f t.layers value := by
    rw [hf.merged, findSome?_reverse_eq_some_iff]
  refine ⟨merged_eq_foldl t, ?_, setting setting_program, setting setting_someArgs, merge_assoc,
    fun c => ⟨empty_merge c, merge_empty c⟩, contains_toRawInput_merged_iff t,
    toRawInput_merged_eq_filled_iff t⟩
  exact fun name => setting (setting_option name)

/-- A list that the user's configuration sets and the project's switches off is not supplied, though
it would be if gaps were filled. -/
theorem switched_off_list_is_not_supplied :
    let user : Config :=
      ⟨NameMap.empty.insert "sdks" (.text "hl2"), ⟨some "ambuild", ["--no-color"]⟩⟩
    let project : Config := ⟨NameMap.empty.insert "sdks" (.switch false), .empty⟩
    let t := Grouping.stack .nothing (.stack (.layer user) (.layer project))
    SwitchedOver t.layers "sdks" ∧ t.merged.toRawInput.contains "sdks" = false ∧
      t.merged.toRawInput ≠ filled t.layers ∧ (filled t.layers).get? "sdks" = some (.text "hl2") ∧
      t.merged.engine = ⟨some "ambuild", ["--no-color"]⟩ := by
  intro user project t
  have switched : SwitchedOver t.layers "sdks" :=
    ⟨[user], project, [], rfl, rfl, by simp, user, by simp, .text "hl2", rfl, by simp⟩
  obtain ⟨-, -, -, -, -, -, -, same⟩ := last_mention_decides t
  refine ⟨switched, rfl, ?_, rfl, rfl⟩
  intro heq
  exact same.mp heq ⟨"sdks", switched⟩

end Config
end BuildFront
