import BuildFront.Machine
import BuildFront.Proofs.Machine.Links
import BuildFront.Proofs.Text.Legible
import Mathlib.Data.List.Forall2

/-!
Configuration from files. A file that is found to be there is read as a whole or ends the loading
with its error, the first of several; what is not found adds nothing. Whatever keeps a file from
being found passes it over in silence. Among files without permissions only a link does that, one
that stands at a path but leads nowhere; with permissions a directory that must not be searched
would hide a file in the same way.
-/

namespace BuildFront

theorem exists_of_mem_forall₂ {α : Type u} {β : Type v} {R : α → β → Prop} {l : List α}
    {l' : List β} (h : List.Forall₂ R l l') {x : α} (hx : x ∈ l) : ∃ y, R x y := by
  induction h with
  | nil => cases hx
  | cons hxy _ ih =>
      rcases List.mem_cons.mp hx with rfl | hx
      · exact ⟨_, hxy⟩
      · exact ih hx

namespace Config

/-- A file's contents are UTF-8, and a configuration from beginning to end. -/
def Reads (files : FileAccess) (path : Path) (c : Config) : Prop :=
  ∃ s, files.read path = .ok (Utf8.ofString s) ∧ parse? s = some c

/-- Why there is no configuration in a file. -/
inductive Unusable (files : FileAccess) (path : Path) : ConfigError → Prop where
  | unread {fault} : files.read path = .error fault →
      Unusable files path (.unreadable path fault)
  | undecoded {bytes} : files.read path = .ok bytes → (∀ s, bytes ≠ Utf8.ofString s) →
      Unusable files path (.unreadable path .notUtf8)
  | unparsed {s} : files.read path = .ok (Utf8.ofString s) → parse? s = none →
      Unusable files path (.malformed path)

/-- What a path adds to the configuration: what its file holds, or nothing if it leads nowhere. -/
def Yields (files : FileAccess) (path : Path) (c : Config) : Prop :=
  (files.present path = true ∧ Reads files path c) ∨ (files.present path = false ∧ c = .empty)

variable {files : FileAccess} {path project : Path} {global : Option Path}

theorem load_of_reads {c : Config} (h : Reads files path c) : load files path = .ok c := by
  obtain ⟨s, hread, hparse⟩ := h
  simp only [load, hread, Utf8.toString?_ofString, hparse]

theorem load_of_unusable {e : ConfigError} (h : Unusable files path e) :
    load files path = .error e := by
  cases h with
  | unread hread => simp only [load, hread]
  | @undecoded bytes hread hbytes =>
      have illegible : Utf8.toString? bytes = none := by
        cases hs : Utf8.toString? bytes with
        | none => rfl
        | some s => exact absurd (Utf8.ofString_of_toString? hs).symm (hbytes s)
      simp only [load, hread, illegible]
  | unparsed hread hparse => simp only [load, hread, Utf8.toString?_ofString, hparse]

theorem reads_or_unusable (files : FileAccess) (path : Path) :
    (∃ c, Reads files path c) ∨ ∃ e, Unusable files path e := by
  cases hread : files.read path with
  | error fault => exact .inr ⟨_, .unread hread⟩
  | ok bytes =>
      by_cases hs : ∃ s, bytes = Utf8.ofString s
      · obtain ⟨s, rfl⟩ := hs
        cases hparse : parse? s with
        | none => exact .inr ⟨_, .unparsed hread hparse⟩
        | some c => exact .inl ⟨c, s, hread, hparse⟩
      · exact .inr ⟨_, .undecoded hread (not_exists.mp hs)⟩

theorem load_ok_iff (c : Config) : load files path = .ok c ↔ Reads files path c := by
  refine ⟨fun h => ?_, load_of_reads⟩
  rcases reads_or_unusable files path with ⟨c', hc⟩ | ⟨e, he⟩
  · rw [load_of_reads hc] at h
    cases h
    exact hc
  · rw [load_of_unusable he] at h
    cases h

theorem load_error_iff (e : ConfigError) :
    load files path = .error e ↔ Unusable files path e := by
  refine ⟨fun h => ?_, load_of_unusable⟩
  rcases reads_or_unusable files path with ⟨c, hc⟩ | ⟨e', he⟩
  · rw [load_of_reads hc] at h
    cases h
  · rw [load_of_unusable he] at h
    cases h
    exact he

theorem loadOrEmpty_ok_iff (c : Config) :
    (loadOrEmpty files path).2 = .ok c ↔ Yields files path c := by
  rw [loadOrEmpty, Yields]
  cases files.present path with
  | true => simp [load_ok_iff]
  | false => simp [eq_comm]

theorem loadOrEmpty_error_iff (e : ConfigError) :
    (loadOrEmpty files path).2 = .error e ↔
      files.present path = true ∧ Unusable files path e := by
  rw [loadOrEmpty]
  cases files.present path with
  | true => simp [load_error_iff]
  | false => simp

theorem yields_or_unusable (files : FileAccess) (path : Path) :
    (∃ c, Yields files path c) ∨ (files.present path = true ∧ ∃ e, Unusable files path e) := by
  cases hpresent : files.present path with
  | false => exact .inl ⟨.empty, .inr ⟨hpresent, rfl⟩⟩
  | true =>
      rcases reads_or_unusable files path with ⟨c, hc⟩ | he
      · exact .inl ⟨c, .inl ⟨hpresent, hc⟩⟩
      · exact .inr ⟨rfl, he⟩

/-- Lay the file at a path over what has been loaded. -/
def layer (files : FileAccess) (lower : Config) (path : Path) : Except ConfigError Config :=
  (loadOrEmpty files path).2.map (merge lower)

theorem layer_of_yields {c : Config} (lower : Config) (h : Yields files path c) :
    layer files lower path = .ok (lower.merge c) := by
  rw [layer, (loadOrEmpty_ok_iff c).mpr h]
  rfl

theorem layer_of_unusable {e : ConfigError} (lower : Config) (hpresent : files.present path = true)
    (h : Unusable files path e) : layer files lower path = .error e := by
  rw [layer, (loadOrEmpty_error_iff e).mpr ⟨hpresent, h⟩]
  rfl

theorem Yields.unique {c c' : Config} (h : Yields files path c) (h' : Yields files path c') :
    c = c' :=
  Except.ok.inj (((loadOrEmpty_ok_iff c).mpr h).symm.trans ((loadOrEmpty_ok_iff c').mpr h'))

theorem Unusable.unique {e e' : ConfigError} (h : Unusable files path e)
    (h' : Unusable files path e') : e = e' :=
  Except.error.inj (((load_error_iff e).mpr h).symm.trans ((load_error_iff e').mpr h'))

theorem Yields.not_unusable {c : Config} {e : ConfigError} (h : Yields files path c)
    (hpresent : files.present path = true) : ¬Unusable files path e := by
  intro he
  cases ((loadOrEmpty_ok_iff c).mpr h).symm.trans ((loadOrEmpty_error_iff e).mpr ⟨hpresent, he⟩)

theorem foldlM_layer_ok_iff (paths : List Path) (lower c : Config) :
    paths.foldlM (layer files) lower = .ok c ↔
      ∃ cs, List.Forall₂ (Yields files) paths cs ∧ c = cs.foldl merge lower := by
  induction paths generalizing lower with
  | nil => simp [pure, Except.pure, eq_comm]
  | cons path rest ih =>
      simp only [List.forall₂_cons_left_iff]
      rcases yields_or_unusable files path with ⟨c', hc⟩ | ⟨hpresent, e, he⟩
      · rw [List.foldlM_cons, layer_of_yields lower hc]
        refine (ih (lower.merge c')).trans ⟨?_, ?_⟩
        · rintro ⟨cs, hcs, rfl⟩
          exact ⟨_, ⟨c', cs, hc, hcs, rfl⟩, rfl⟩
        · rintro ⟨_, ⟨c'', cs, hc', hcs, rfl⟩, rfl⟩
          exact ⟨cs, hcs, by rw [hc.unique hc']; rfl⟩
      · rw [List.foldlM_cons, layer_of_unusable lower hpresent he]
        refine ⟨nofun, ?_⟩
        rintro ⟨_, ⟨c', cs, hc, -, -⟩, -⟩
        exact absurd he (hc.not_unusable hpresent)

/-- The first path whose file cannot be used ends the loading, whatever the later ones are. -/
theorem foldlM_layer_error_iff (paths : List Path) (lower : Config) (e : ConfigError) :
    paths.foldlM (layer files) lower = .error e ↔
      ∃ before path after, paths = before ++ path :: after ∧
        (∀ q ∈ before, ∃ c, Yields files q c) ∧ files.present path = true ∧
        Unusable files path e := by
  induction paths generalizing lower with
  | nil => simp [pure, Except.pure]
  | cons path rest ih =>
      rcases yields_or_unusable files path with ⟨c, hc⟩ | ⟨hpresent, e', he'⟩
      · rw [List.foldlM_cons, layer_of_yields lower hc]
        refine (ih (lower.merge c)).trans ⟨?_, ?_⟩
        · rintro ⟨before, q, after, rfl, hbefore, hq⟩
          exact ⟨path :: before, q, after, rfl, List.forall_mem_cons.mpr ⟨⟨c, hc⟩, hbefore⟩, hq⟩
        · rintro ⟨before, q, after, hsplit, hbefore, hpresent, he⟩
          cases before with
          | nil =>
              cases hsplit
              exact absurd he (hc.not_unusable hpresent)
          | cons _ before =>
              cases hsplit
              exact ⟨before, q, after, rfl, fun x hx => hbefore x (.tail _ hx), hpresent, he⟩
      · rw [List.foldlM_cons, layer_of_unusable lower hpresent he']
        constructor
        · intro h
          cases h
          exact ⟨[], path, rest, rfl, by simp, hpresent, he'⟩
        · rintro ⟨before, q, after, hsplit, hbefore, -, he⟩
          cases before with
          | nil =>
              cases hsplit
              rw [he.unique he']
              rfl
          | cons _ before =>
              cases hsplit
              obtain ⟨c, hc⟩ := hbefore _ (.head _)
              exact absurd he' (hc.not_unusable hpresent)

/-- The paths that are looked at, lower layers first. -/
def layerPaths (global : Option Path) (project : Path) : List Path :=
  global.toList ++ [project]

theorem loadLayers_eq_foldlM (files : FileAccess) (global : Option Path) (project : Path) :
    (loadLayers files global project).2 =
      (layerPaths global project).foldlM (layer files) .empty := by
  have last (lower : Config) : [project].foldlM (layer files) lower = layer files lower project := by
    rw [List.foldlM_cons]
    exact bind_pure _
  cases global with
  | none => exact (last .empty).symm
  | some path =>
      rw [layerPaths, Option.toList_some, List.singleton_append, List.foldlM_cons, layer, loadLayers]
      cases hlower : loadOrEmpty files path with
      | mk events result =>
          cases result with
          | error e => rfl
          | ok lower => exact (last (Config.empty.merge lower)).symm

theorem loadLayers_ok_iff (files : FileAccess) (global : Option Path) (project : Path)
    (c : Config) :
    (loadLayers files global project).2 = .ok c ↔
      ∃ cs, List.Forall₂ (Yields files) (layerPaths global project) cs ∧
        c = cs.foldl merge .empty := by
  rw [loadLayers_eq_foldlM, foldlM_layer_ok_iff]

theorem loadLayers_error_iff (files : FileAccess) (global : Option Path) (project : Path)
    (e : ConfigError) :
    (loadLayers files global project).2 = .error e ↔
      ∃ before path after, layerPaths global project = before ++ path :: after ∧
        (∀ q ∈ before, ∃ c, Yields files q c) ∧ files.present path = true ∧
        Unusable files path e := by
  rw [loadLayers_eq_foldlM, foldlM_layer_error_iff]

/-- Where configuration is loaded, a path without a file that has been read has none to be found. -/
theorem reads_or_absent_of_loadLayers {c : Config}
    (h : (loadLayers files global project).2 = .ok c) (hpath : path ∈ layerPaths global project) :
    (∃ c', Reads files path c') ∨ files.present path = false := by
  obtain ⟨cs, hcs, -⟩ := (loadLayers_ok_iff files global project c).mp h
  obtain ⟨c', ⟨-, hreads⟩ | ⟨habsent, -⟩⟩ := exists_of_mem_forall₂ hcs hpath
  · exact .inl ⟨c', hreads⟩
  · exact .inr habsent

/-- What a path adds on a machine: what the file that stands there holds, unless it is a link that
leads nowhere. -/
def Adds (m : Machine) (path : Path) (c : Config) : Prop :=
  (m.files.Stands m.cwd path ∧ ¬m.files.Dangles m.cwd path ∧ Reads m.fileAccess path c) ∨
    ((¬m.files.Stands m.cwd path ∨ m.files.Dangles m.cwd path) ∧ c = .empty)

theorem yields_iff_adds (m : Machine) (path : Path) (c : Config) :
    Yields m.fileAccess path c ↔ Adds m path c := by
  have leads : m.fileAccess.present path = true ↔
      m.files.Stands m.cwd path ∧ ¬m.files.Dangles m.cwd path := FileTree.present_eq_true_iff
  rw [Yields, Adds, ← Bool.not_eq_true, leads, and_assoc, not_and_or, not_not]

theorem Adds.exists_reads {m : Machine} {c : Config} (h : Adds m path c)
    (hstands : m.files.Stands m.cwd path) (hleads : ¬m.files.Dangles m.cwd path) :
    ∃ c, Reads m.fileAccess path c := by
  rcases h with ⟨-, -, hreads⟩ | ⟨hno | hdangles, -⟩
  · exact ⟨c, hreads⟩
  · exact absurd hstands hno
  · exact absurd hdangles hleads

theorem not_reads_of_dangles {m : Machine} (h : m.files.Dangles m.cwd path) (c : Config) :
    ¬Reads m.fileAccess path c := by
  rintro ⟨s, hread, -⟩
  obtain ⟨fault, hfault⟩ := h.exists_read_error
  cases hread.symm.trans hfault

/-- Configuration is loaded if every file that is found at one of the paths can be read as a whole,
and is then what they hold, upper layers over lower ones and over the empty configuration; the first
file that cannot be read, decoded or understood ends it with its error. That is so for all files that
can be asked for. On a machine the files that are found are those that stand at a path, links that
lead nowhere left out: these add nothing and refuse nothing. So where configuration is loaded there,
all that stands at the paths has been read exactly if none of it is such a link. -/
theorem standing_files_are_read (global : Option Path) (project : Path) :
    let paths := layerPaths global project
    (∀ files : FileAccess,
      let result := (loadLayers files global project).2
      (∀ c, result = .ok c ↔
        ∃ cs, List.Forall₂ (Yields files) paths cs ∧ c = cs.foldl merge .empty) ∧
      (∀ e, result = .error e ↔
        ∃ before path after, paths = before ++ path :: after ∧
          (∀ q ∈ before, ∃ c, Yields files q c) ∧ files.present path = true ∧
          Unusable files path e) ∧
      ∀ c, result = .ok c →
        ∀ path ∈ paths, (∃ c', Reads files path c') ∨ files.present path = false) ∧
    ∀ m : Machine,
      let result := (loadLayers m.fileAccess global project).2
      (∀ c, result = .ok c ↔
        ∃ cs, List.Forall₂ (Adds m) paths cs ∧ c = cs.foldl merge .empty) ∧
      (∀ e, result = .error e ↔
        ∃ before path after, paths = before ++ path :: after ∧
          (∀ q ∈ before, ∃ c, Adds m q c) ∧ m.files.Stands m.cwd path ∧
          ¬m.files.Dangles m.cwd path ∧ Unusable m.fileAccess path e) ∧
      ∀ c, result = .ok c →
        ((∀ path ∈ paths, m.files.Stands m.cwd path → ∃ c', Reads m.fileAccess path c') ↔
          ∀ path ∈ paths, ¬m.files.Dangles m.cwd path) := by
  intro paths
  refine ⟨fun files => ⟨loadLayers_ok_iff files global project,
    loadLayers_error_iff files global project, fun c h path => reads_or_absent_of_loadLayers h⟩, ?_⟩
  intro m result
  have accepted (c : Config) : result = .ok c ↔
      ∃ cs, List.Forall₂ (Adds m) paths cs ∧ c = cs.foldl merge .empty := by
    have same : Yields m.fileAccess = Adds m :=
      funext fun path => funext fun c => propext (yields_iff_adds m path c)
    rw [← same]
    exact loadLayers_ok_iff m.fileAccess global project c
  refine ⟨accepted, ?_, ?_⟩
  · intro e
    have leads (path : Path) : m.fileAccess.present path = true ↔
        m.files.Stands m.cwd path ∧ ¬m.files.Dangles m.cwd path := FileTree.present_eq_true_iff
    simp only [result, loadLayers_error_iff, yields_iff_adds, paths, leads, and_assoc]
  · intro c h
    constructor
    · intro hread path hpath hdangles
      obtain ⟨c', hc'⟩ := hread path hpath hdangles.stands
      exact not_reads_of_dangles hdangles c' hc'
    · intro hleads path hpath hstands
      obtain ⟨cs, hcs, -⟩ := (accepted c).mp h
      obtain ⟨c', hc'⟩ := exists_of_mem_forall₂ hcs hpath
      exact hc'.exists_reads hstands (hleads path hpath)

/-- A configuration file that is a link to itself cannot be read, and is taken for no file. -/
theorem looping_link_is_passed_over :
    let dir : Place := [Utf8.ofString "proj", Utf8.ofString ".cs2kit"]
    let place : Place := dir ++ [Utf8.ofString "config.toml"]
    let files : FileTree := ⟨[(dir.take 1, .directory), (dir, .directory),
      (place, .link (.ofString "config.toml"))]⟩
    let m : Machine := ⟨files, [], .empty⟩
    let path := projectFile (.ofString "/proj")
    m.files.Stands m.cwd path ∧ m.fileAccess.read path = .error (.os .tooManyLinks) ∧
      (∀ c, ¬Reads m.fileAccess path c) ∧ (loadLayers m.fileAccess none path).2 = .ok .empty := by
  intro dir place files m path
  have steps : FileTree.stepsOf path = place := by decide
  have loop : files.entryAt? place = some (.link (.ofString "config.toml")) := by decide
  have walk (follow : Bool) : files.walk follow FileTree.maxLinks [] place =
      files.walk follow FileTree.maxLinks dir [Utf8.ofString "config.toml"] := by
    refine (FileTree.walk_into (by decide) (by decide) _).trans ?_
    exact FileTree.walk_into (by decide) (by decide) _
  have find (follow : Bool) : files.find [] path follow =
      (files.walk follow FileTree.maxLinks dir [Utf8.ofString "config.toml"]).mapError .os := by
    rw [← walk, ← steps]
    rfl
  have stands : files.StandsAs [] path (.link (.ofString "config.toml")) := by
    refine ⟨place, ?_⟩
    rw [find, FileTree.walk_to_link (by decide) loop]
    rfl
  have lookup : files.lookup [] path = .error (.os .tooManyLinks) := by
    rw [FileTree.lookup, find,
      FileTree.walk_own_link (by decide) loop (by decide) (by decide) (by decide)]
    rfl
  have dangles : m.files.Dangles m.cwd path := ⟨_, stands, _, lookup⟩
  refine ⟨⟨_, stands⟩, ?_, not_reads_of_dangles dangles, ?_⟩
  · change files.read [] path = _
    rw [FileTree.read, lookup]
    rfl
  · have adds : Yields m.fileAccess path .empty := (yields_iff_adds _ _ _).mpr
      (.inr ⟨.inr dangles, rfl⟩)
    rw [loadLayers_ok_iff]
    exact ⟨[.empty], .cons adds .nil, rfl⟩

end Config
end BuildFront
