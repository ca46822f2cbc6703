import BuildFront.Proofs.NameMap.Layers
import BuildFront.CommandLine.Reading
import Mathlib.Data.List.TakeWhile

/-!
What a command line that is read without a refusal gives an argument: its switch or its value as
they stand among the words, or else the value of its variable, and nothing besides.
-/

namespace BuildFront.CommandLine

/-- The switch of a name stands on a command line. Two dashes alone name nothing. -/
def Switched (argv : List String) (name : String) : Prop :=
  name ≠ "" ∧ '=' ∉ name.toList ∧ "--" ++ name ∈ argv

/-- A command line has a value for a name, after `=` or as the next word. -/
def Valued (argv : List String) (name text : String) : Prop :=
  '=' ∉ name.toList ∧ ("--" ++ name ++ "=" ++ text ∈ argv ∨ ["--" ++ name, text] <:+: argv)

/-- What a command line gives an argument. -/
def Gives (a : Argument) (argv : List String) : Given → Prop
  | .on => a.takesValue = false ∧ Switched argv a.name
  | .value text => a.takesValue = true ∧ Valued argv a.name text
  | .fromEnvironment _ => False

/-- An argument that is the only one of its name and has no one-letter form. -/
structure Sole (args : List Argument) (a : Argument) : Prop where
  mem : a ∈ args
  only : ∀ b ∈ args, b.name = a.name → b = a
  long : a.action.short = none

theorem exists_of_bind_eq_ok {ε : Type u} {α : Type v} {β : Type v} {x : Except ε α}
    {f : α → Except ε β} {b : β} (h : x >>= f = .ok b) : ∃ a, x = .ok a ∧ f a = .ok b := by
  cases x with
  | error e => cases h
  | ok a => exact ⟨a, rfl, h⟩

theorem ne_of_not_mem {name : String} (h : '=' ∉ name.toList) :
    ∀ c ∈ name.toList, (c != '=') = true := by
  intro c hc
  rw [bne_iff_ne]
  rintro rfl
  exact h hc

theorem splitValue_of_name {name : String} (h : '=' ∉ name.toList) :
    splitValue name.toList = (name, none) := by
  have all := ne_of_not_mem h
  rw [splitValue, List.dropWhile_eq_nil_iff.mpr all, List.takeWhile_eq_self_iff.mpr all,
    String.ofList_toList]

theorem splitValue_of_value {name : String} (text : String) (h : '=' ∉ name.toList) :
    splitValue (name.toList ++ '=' :: text.toList) = (name, some text) := by
  have all := ne_of_not_mem h
  rw [splitValue, List.dropWhile_append_of_pos all, List.takeWhile_append_of_pos all]
  simp

/-- A long word is a name, or a name and a value. -/
theorem splitValue_cases (cs : List Char) :
    (∃ name, splitValue cs = (name, none) ∧ '=' ∉ name.toList ∧ cs = name.toList) ∨
      ∃ name text, splitValue cs = (name, some text) ∧ '=' ∉ name.toList ∧
        cs = name.toList ++ '=' :: text.toList := by
  have front : '=' ∉ cs.takeWhile (· != '=') := fun h => by
    simpa using List.mem_takeWhile_imp h
  have whole := List.takeWhile_append_dropWhile (p := (· != '=')) (l := cs)
  rw [splitValue]
  cases hrest : cs.dropWhile (· != '=') with
  | nil =>
      rw [hrest, List.append_nil] at whole
      exact .inl ⟨_, rfl, by simpa using front, by simp [whole]⟩
  | cons c value =>
      have first := List.dropWhile_get_zero_not (· != '=') cs (by simp [hrest])
      simp only [hrest, List.get_eq_getElem, List.getElem_cons_zero, bne_iff_ne, ne_eq,
        not_not] at first
      subst first
      rw [hrest] at whole
      exact .inr ⟨_, _, rfl, by simpa using front, by simp [whole]⟩

theorem splitValue_eq_none_iff {cs : List Char} {name : String} :
    splitValue cs = (name, none) ↔ '=' ∉ name.toList ∧ cs = name.toList := by
  constructor
  · intro h
    rcases splitValue_cases cs with ⟨x, hx, spelt⟩ | ⟨x, v, hx, -⟩ <;> cases h.symm.trans hx
    exact spelt
  · rintro ⟨h, rfl⟩
    exact splitValue_of_name h

theorem splitValue_eq_some_iff {cs : List Char} {name text : String} :
    splitValue cs = (name, some text) ↔
      '=' ∉ name.toList ∧ cs = name.toList ++ '=' :: text.toList := by
  constructor
  · intro h
    rcases splitValue_cases cs with ⟨x, hx, -⟩ | ⟨x, v, hx, spelt⟩ <;> cases h.symm.trans hx
    exact spelt
  · rintro ⟨h, rfl⟩
    exact splitValue_of_value text h

/-! ### What is shown, and what is waited for -/

/-- What a command line read in part has for a name. -/
def Progress.Shows (p : Progress) (name : String) (g : Given) : Prop :=
  p.given.get? name = some g ∨
    ∃ a text, p.pending = some (a, some text) ∧ a.name = name ∧ g = .value text

/-- The next word is to be the value of a name. -/
def Progress.Awaits (p : Progress) (name : String) : Prop :=
  ∃ a, p.pending = some (a, none) ∧ a.name = name

theorem eq_insert_of_record {a : Argument} {g : Given} {m m' : Matches}
    (h : record a g m = .ok m') : m.get? a.name = none ∧ m' = m.insert a.name g := by
  unfold record at h
  split at h
  · cases h
  · next absent =>
      refine ⟨by simpa [NameMap.contains] using absent, ?_⟩
      split at h
      · split at h <;> cases h
        rfl
      · split at h <;> cases h
        rfl
      · cases h
        rfl

theorem get?_of_record {a : Argument} {g : Given} {m m' : Matches} (h : record a g m = .ok m')
    (name : String) (g' : Given) :
    m'.get? name = some g' ↔ m.get? name = some g' ∨ (name = a.name ∧ g' = g) := by
  obtain ⟨absent, rfl⟩ := eq_insert_of_record h
  rw [NameMap.get?_insert]
  split
  · next heq =>
      subst heq
      simp [absent, eq_comm]
  · next hne => simp [Ne.symm hne]

namespace Progress

variable {p p' : Progress} {a : Argument}

theorem not_awaits_of_settled {given : Matches} (name : String) :
    ¬(Progress.mk given none).Awaits name := by
  rintro ⟨a, h, -⟩
  cases h

theorem shows_of_settled {given : Matches} {name : String} {g : Given} :
    (Progress.mk given none).Shows name g ↔ given.get? name = some g := by
  simp [Shows]

theorem settle_ok {m : Matches} (h : p.settle = .ok m) (name : String) :
    ¬p.Awaits name ∧ ∀ g, m.get? name = some g ↔ p.Shows name g := by
  obtain ⟨given, pending⟩ := p
  rcases pending with _ | ⟨b, _ | text⟩
  · cases h
    exact ⟨not_awaits_of_settled name, fun g => shows_of_settled.symm⟩
  · cases h
  · refine ⟨by simp [Awaits], fun g => ?_⟩
    rw [get?_of_record h, Shows]
    simp [eq_comm]

/-- Recording one more argument once the pending one is settled. -/
theorem shows_of_record {g : Given} {m m' : Matches} {name : String} (hm : p.settle = .ok m)
    (hm' : record a g m = .ok m') (g' : Given) :
    (Progress.mk m' none).Shows name g' ↔ p.Shows name g' ∨ (name = a.name ∧ g' = g) := by
  rw [shows_of_settled, get?_of_record hm', (settle_ok hm name).2]

theorem take_ok (h : p.take a = .ok p') (name : String) :
    ¬p.Awaits name ∧ ¬p'.Awaits name ∧
      ∀ g, p'.Shows name g ↔ p.Shows name g ∨ (name = a.name ∧ g = .on) := by
  obtain ⟨m, hm, h⟩ := exists_of_bind_eq_ok h
  split at h
  · cases h
  · cases h
  · obtain ⟨m', hm', h⟩ := exists_of_bind_eq_ok h
    cases h
    exact ⟨(settle_ok hm name).1, not_awaits_of_settled name, shows_of_record hm hm'⟩

theorem takeValue_ok {text : String} (h : p.takeValue a text = .ok p') (name : String) :
    ¬p.Awaits name ∧ ¬p'.Awaits name ∧
      ∀ g, p'.Shows name g ↔ p.Shows name g ∨ (name = a.name ∧ g = .value text) := by
  obtain ⟨m, hm, h⟩ := exists_of_bind_eq_ok h
  obtain ⟨m', hm', h⟩ := exists_of_bind_eq_ok h
  cases h
  exact ⟨(settle_ok hm name).1, not_awaits_of_settled name, shows_of_record hm hm'⟩

theorem await_ok (h : p.await a = .ok p') (name : String) :
    ¬p.Awaits name ∧ (p'.Awaits name ↔ name = a.name) ∧ ∀ g, p'.Shows name g ↔ p.Shows name g := by
  obtain ⟨m, hm, h⟩ := exists_of_bind_eq_ok h
  cases h
  refine ⟨(settle_ok hm name).1, by simp [Awaits, eq_comm], fun g => ?_⟩
  rw [← (settle_ok hm name).2, Shows]
  simp

theorem readWord_ok {word : String} (h : readWord word p = .ok p') (name : String) :
    ¬p'.Awaits name ∧
      ∀ g, p'.Shows name g ↔ p.Shows name g ∨ (p.Awaits name ∧ g = .value word) := by
  obtain ⟨given, pending⟩ := p
  rcases pending with _ | ⟨b, _ | text⟩
  · cases h
  · cases h
    simp [Awaits, Shows]
  · cases h

end Progress

/-! ### One word after another -/

section Reading

variable {args : List Argument} {a : Argument} {p p' : Progress}

theorem findLong_ok {name : String} {b : Argument} (h : findLong args name = some b) :
    b ∈ args ∧ b.name = name :=
  ⟨List.mem_of_find?_eq_some h, by simpa using List.find?_some h⟩

theorem Sole.findLong (sole : Sole args a) {name : String} {b : Argument}
    (h : findLong args name = some b) : a.name = name ↔ b = a := by
  obtain ⟨hmem, rfl⟩ := findLong_ok h
  exact ⟨fun heq => sole.only b hmem heq.symm, fun heq => heq ▸ rfl⟩

theorem Sole.ne_of_findShort (sole : Sole args a) {c : Char} {b : Argument}
    (h : findShort args c = some b) : a.name ≠ b.name := by
  intro heq
  have short : b.action.short = some c := by simpa using List.find?_some h
  rw [sole.only b (List.mem_of_find?_eq_some h) heq.symm, sole.long] at short
  cases short

theorem readShort_ok (sole : Sole args a) {letters : List Char}
    (h : readShort args letters p = .ok p') :
    (¬p.Awaits a.name → ¬p'.Awaits a.name) ∧ (letters ≠ [] → ¬p.Awaits a.name) ∧
      ∀ g, p'.Shows a.name g ↔ p.Shows a.name g := by
  induction letters generalizing p with
  | nil =>
      cases h
      exact ⟨id, by simp, fun g => Iff.rfl⟩
  | cons c rest ih =>
      rw [readShort] at h
      split at h
      · cases h
      · next b hb =>
          obtain ⟨q, hq, hrest⟩ := exists_of_bind_eq_ok h
          obtain ⟨before, after, shown⟩ := Progress.take_ok hq a.name
          obtain ⟨kept, -, rest_shown⟩ := ih hrest
          refine ⟨fun _ => kept after, fun _ => before, fun g => ?_⟩
          rw [rest_shown, shown]
          simp [sole.ne_of_findShort hb]

/-- A word names an argument, or gives it a value. -/
def NamedBy (a : Argument) (word : String) : Prop :=
  '=' ∉ a.name.toList ∧ word = "--" ++ a.name

def SetBy (a : Argument) (word text : String) : Prop :=
  '=' ∉ a.name.toList ∧ word = "--" ++ a.name ++ "=" ++ text

theorem namedBy_iff {word : String} {cs : List Char} (h : word.toList = '-' :: '-' :: cs) :
    NamedBy a word ↔ splitValue cs = (a.name, none) := by
  rw [NamedBy, splitValue_eq_none_iff, ← String.toList_inj, h]
  simp

theorem setBy_iff {word text : String} {cs : List Char} (h : word.toList = '-' :: '-' :: cs) :
    SetBy a word text ↔ splitValue cs = (a.name, some text) := by
  rw [SetBy, splitValue_eq_some_iff, ← String.toList_inj, h]
  simp

/-- What one word does for an argument: it is the value waited for, or gives the argument at once,
or has the next word waited for. -/
structure Advances (a : Argument) (word : String) (p p' : Progress) : Prop where
  awaits : p'.Awaits a.name ↔ a.takesValue = true ∧ NamedBy a word
  shows : ∀ g, p'.Shows a.name g ↔ p.Shows a.name g ∨ (p.Awaits a.name ∧ g = .value word) ∨
    (a.takesValue = false ∧ NamedBy a word ∧ g = .on) ∨
    (a.takesValue = true ∧ ∃ text, SetBy a word text ∧ g = .value text)

theorem advances_of_readLong (sole : Sole args a) {word : String} {cs : List Char}
    (hword : word.toList = '-' :: '-' :: cs) (h : readLong args cs p = .ok p') :
    Advances a word p p' := by
  unfold readLong at h
  rcases hsplit : splitValue cs with ⟨name, value⟩
  have named : NamedBy a word ↔ name = a.name ∧ value = none := by
    rw [namedBy_iff hword, hsplit, Prod.mk.injEq]
  have set (text : String) : SetBy a word text ↔ name = a.name ∧ value = some text := by
    rw [setBy_iff hword, hsplit, Prod.mk.injEq]
  rw [hsplit] at h
  dsimp only at h
  cases hb : findLong args name with
  | none =>
      rw [hb] at h
      cases h
  | some b =>
      rw [hb] at h
      -- The argument of this name is the one in question, or else the word says nothing of it.
      have same : name = a.name ↔ b = a := eq_comm.trans (sole.findLong hb)
      obtain ⟨-, rfl⟩ := findLong_ok hb
      dsimp only at h
      split at h
      · next text takes =>
          obtain ⟨before, after, shown⟩ := Progress.takeValue_ok h a.name
          refine ⟨by simp [after, named], fun g => ?_⟩
          rw [shown]
          grind
      · next takes =>
          obtain ⟨before, after, shown⟩ := Progress.await_ok h a.name
          exact ⟨by grind, fun g => by grind⟩
      · cases h
      · next takes =>
          obtain ⟨before, after, shown⟩ := Progress.take_ok h a.name
          refine ⟨by grind, fun g => ?_⟩
          rw [shown]
          grind

theorem not_namedBy {word : String} (h : ∀ cs, word.toList ≠ '-' :: '-' :: cs) :
    ¬NamedBy a word := by
  rintro ⟨-, rfl⟩
  exact h a.name.toList (by simp)

theorem not_setBy {word : String} (h : ∀ cs, word.toList ≠ '-' :: '-' :: cs) (text : String) :
    ¬SetBy a word text := by
  rintro ⟨-, rfl⟩
  exact h (a.name.toList ++ '=' :: text.toList) (by simp)

theorem advances_of_readShort (sole : Sole args a) {word : String} {letters : List Char}
    (hword : ∀ cs, word.toList ≠ '-' :: '-' :: cs) (some_letter : letters ≠ [])
    (h : readShort args letters p = .ok p') : Advances a word p p' := by
  obtain ⟨kept, idle, shown⟩ := readShort_ok sole h
  have before := idle some_letter
  refine ⟨by simp [kept before, not_namedBy hword], fun g => ?_⟩
  rw [shown]
  simp [before, not_namedBy hword, not_setBy hword]

theorem advances_of_readWord {word : String} (hword : ∀ cs, word.toList ≠ '-' :: '-' :: cs)
    (h : readWord word p = .ok p') : Advances a word p p' := by
  obtain ⟨after, shown⟩ := Progress.readWord_ok h a.name
  refine ⟨by simp [after, not_namedBy hword], fun g => ?_⟩
  rw [shown]
  simp [not_namedBy hword, not_setBy hword]

theorem readWords_cons_ok (sole : Sole args a) {word : String} {words : List String}
    (h : readWords args (word :: words) p = .ok p') :
    (word = "--" ∧ words = [] ∧ p' = p) ∨
      word ≠ "--" ∧ ∃ q, Advances a word p q ∧ readWords args words q = .ok p' := by
  rw [readWords] at h
  split at h
  · next hword =>
      split at h
      · next hend =>
          cases h
          exact .inl ⟨String.toList_inj.mp hword, List.isEmpty_iff.mp hend, rfl⟩
      · cases h
  · next cs named hword =>
      obtain ⟨q, hq, h⟩ := exists_of_bind_eq_ok h
      refine .inr ⟨?_, q, advances_of_readLong sole hword hq, h⟩
      rintro rfl
      exact named (by simpa using hword.symm)
  · next c cs _ other hword =>
      obtain ⟨q, hq, h⟩ := exists_of_bind_eq_ok h
      have short : ∀ cs', word.toList ≠ '-' :: '-' :: cs' := fun cs' heq => by
        rw [hword, List.cons.injEq, List.cons.injEq] at heq
        exact other heq.2.1
      refine .inr ⟨?_, q, advances_of_readShort sole short (List.cons_ne_nil c cs) hq, h⟩
      rintro rfl
      exact short [] rfl
  · next _ plain _ =>
      obtain ⟨q, hq, h⟩ := exists_of_bind_eq_ok h
      refine .inr ⟨?_, q, advances_of_readWord plain hq, h⟩
      rintro rfl
      exact plain [] rfl

theorem gives_cons {word : String} {words : List String} {g : Given} (h : word ≠ "--") :
    Gives a (word :: words) g ↔
      (a.takesValue = false ∧ NamedBy a word ∧ g = .on) ∨
      (a.takesValue = true ∧ ∃ text, SetBy a word text ∧ g = .value text) ∨
      (a.takesValue = true ∧ NamedBy a word ∧
        ∃ text rest, words = text :: rest ∧ g = .value text) ∨
      Gives a words g := by
  cases g with
  | on =>
      have named : NamedBy a word → a.name ≠ "" := by
        rintro ⟨-, rfl⟩ heq
        exact h (by rw [heq]; rfl)
      simp only [Gives, Switched, List.mem_cons, NamedBy] at named ⊢
      grind
  | value text =>
      simp only [Gives, Valued, List.mem_cons, List.infix_cons_iff, List.cons_prefix_iff,
        List.nil_prefix, and_true, NamedBy, SetBy]
      grind
  | fromEnvironment text => simp [Gives]

theorem gives_nil {g : Given} : ¬Gives a [] g := by
  cases g <;> simp [Gives, Switched, Valued]

theorem not_gives_dashes {g : Given} : ¬Gives a ["--"] g := by
  cases g with
  | on =>
      rintro ⟨-, named, -, h⟩
      rw [List.mem_singleton, ← String.toList_inj] at h
      exact named (by simpa using h)
  | value text =>
      rintro ⟨-, -, h | h⟩
      · rw [List.mem_singleton, ← String.toList_inj] at h
        simp at h
      · simpa using h.length_le
  | fromEnvironment text => exact id

/-- What an argument has after some words is what it had before them, or the value it waited for, or
what the words give it. -/
theorem readWords_ok (sole : Sole args a) {words : List String} {m : Matches}
    (h : readWords args words p = .ok p') (hm : p'.settle = .ok m) (g : Given) :
    m.get? a.name = some g ↔
      p.Shows a.name g ∨
      (p.Awaits a.name ∧ ∃ text rest, words = text :: rest ∧ g = .value text) ∨
      Gives a words g := by
  induction words generalizing p with
  | nil =>
      cases h
      rw [(Progress.settle_ok hm a.name).2]
      simp [gives_nil]
  | cons word words ih =>
      obtain ⟨rfl, rfl, rfl⟩ | ⟨hword, q, advances, h⟩ := readWords_cons_ok sole h
      · rw [(Progress.settle_ok hm a.name).2]
        simp [(Progress.settle_ok hm a.name).1, not_gives_dashes]
      · -- What is waited for after the first word is what makes a name and a value of two words.
        rw [ih h, advances.shows, advances.awaits, gives_cons hword]
        simp only [List.cons.injEq]
        grind

/-- A variable stands in for an argument that was not given. -/
theorem fillFromEnvironment_ok {env : NameMap String} {l : List Argument} {m m' : Matches}
    (only : ∀ b ∈ l, b.name = a.name → b = a) (h : fillFromEnvironment env l m = .ok m')
    (g : Given) :
    m'.get? a.name = some g ↔ m.get? a.name = some g ∨
      (m.get? a.name = none ∧ a ∈ l ∧
        ∃ text, a.env.bind env.get? = some text ∧ g = .fromEnvironment text) := by
  induction l generalizing m with
  | nil =>
      cases h
      simp
  | cons b rest ih =>
      have ih {m : Matches} := ih (m := m) fun c hc => only c (List.mem_cons_of_mem b hc)
      have same := only b List.mem_cons_self
      rw [fillFromEnvironment] at h
      split at h
      · next text set =>
          split at h
          · next given =>
              rw [ih h]
              obtain ⟨g', hg'⟩ := (NameMap.contains_eq_true_iff m b.name).mp given
              grind
          · next missing =>
              obtain ⟨m₁, hm₁, h⟩ := exists_of_bind_eq_ok h
              obtain ⟨absent, rfl⟩ := eq_insert_of_record hm₁
              rw [ih h, NameMap.get?_insert]
              grind
      · next unset =>
          rw [ih h]
          grind

/-- What is read for an argument is what the command line gives it, and the value of its variable
where the command line gives nothing. -/
theorem read_ok (sole : Sole args a) {env : NameMap String} {argv : List String} {m : Matches}
    (h : read args env argv = .ok m) (g : Given) :
    m.get? a.name = some g ↔ Gives a argv g ∨
      ((∀ g', ¬Gives a argv g') ∧
        ∃ text, a.env.bind env.get? = some text ∧ g = .fromEnvironment text) := by
  obtain ⟨p, hp, h⟩ := exists_of_bind_eq_ok h
  obtain ⟨m₁, hm₁, h⟩ := exists_of_bind_eq_ok h
  have words (g : Given) : m₁.get? a.name = some g ↔ Gives a argv g := by
    rw [readWords_ok sole hp hm₁]
    simp [Progress.Shows, Progress.Awaits]
  rw [fillFromEnvironment_ok sole.only h, Option.eq_none_iff_forall_ne_some]
  simp [words, sole.mem]

end Reading

/-- A reader of command lines gives an argument that is the only one of its name what the line has
for it, or else the value of its variable. Which lines it refuses is left open. -/
def Faithful (parse : List Argument → NameMap String → List String → Except Refusal Matches) :
    Prop :=
  ∀ args a, Sole args a → ∀ env argv m, parse args env argv = .ok m → ∀ g : Given,
    m.get? a.name = some g ↔ Gives a argv g ∨
      ((∀ g', ¬Gives a argv g') ∧
        ∃ text, a.env.bind env.get? = some text ∧ g = .fromEnvironment text)

theorem faithful_read : Faithful read :=
  fun _ _ sole _ _ _ h => read_ok sole h

end BuildFront.CommandLine
