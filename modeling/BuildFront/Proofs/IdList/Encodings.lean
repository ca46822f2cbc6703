import BuildFront.Proofs.Config.Precedence
import BuildFront.Proofs.IdList.Display

/-!
The written forms of a list of identifiers: a text with commas, several texts, a JSON array, an
array in a configuration. Each of them is read as the same list, whatever stands in the texts, and a
list that was read once is read again from each of its own.
-/

namespace BuildFront
namespace IdList

/-- A list that was read from a text or from a JSON array. -/
def WasRead (l : IdList) : Prop :=
  (∃ s, parse s = .ok l) ∨ ∃ j, ofJson j = .ok l

theorem mapM_text?_map_str (texts : List String) :
    (texts.map Json.str).mapM Json.text? = some texts := by
  rw [List.mapM_map]
  change texts.mapM (fun s => pure (id s)) = _
  rw [List.mapM_pure, List.map_id]
  rfl

theorem ofJson_arr (texts : List String) :
    ofJson (.arr (texts.map .str)) = (ofTexts texts).mapError .empty := by
  rw [ofJson, mapM_text?_map_str]

theorem exists_ofTexts_of_ofJson {j : Json} {l : IdList} (h : ofJson j = .ok l) :
    ∃ texts, ofTexts texts = .ok l := by
  cases j with
  | null | bool | str | obj => cases h
  | arr items =>
      rw [ofJson] at h
      split at h
      · next texts _ =>
          refine ⟨texts, ?_⟩
          cases hl : ofTexts texts with
          | error e =>
              rw [hl] at h
              cases h
          | ok l' =>
              rw [hl] at h
              cases h
              rfl
      · cases h

theorem WasRead.tidy {l : IdList} (h : l.WasRead) : l.Tidy := by
  rcases h with ⟨s, hs⟩ | ⟨j, hj⟩
  · exact tidy_of_parse hs
  · obtain ⟨texts, htexts⟩ := exists_ofTexts_of_ofJson hj
    exact tidy_of_parse htexts

theorem Tidy.ofTexts_items {l : IdList} (h : l.Tidy) : ofTexts l.items = .ok l :=
  parse_display h

theorem Tidy.ofJson_toJson {l : IdList} (h : l.Tidy) : ofJson l.toJson = .ok l := by
  rw [toJson, ofJson_arr, h.ofTexts_items]
  rfl

theorem vacant_intercalate_iff (texts : List String) :
    Vacant (",".intercalate texts) ↔ ∀ s ∈ texts, Vacant s := by
  rw [← itemsOf_eq_nil_iff, itemsOf_intercalate, List.flatMap_eq_nil_iff]
  simp only [itemsOf_eq_nil_iff]

theorem exists_ofTexts_error_iff (texts : List String) :
    (∃ e, ofTexts texts = .error e) ↔ ∀ s ∈ texts, Vacant s := by
  rw [← vacant_intercalate_iff]
  simp only [ofTexts, parse_eq_error_iff, exists_and_left, exists_eq, and_true]

end IdList

namespace Resolver

variable {r : Resolver} {present : Path → Bool} {spec : OptionSpec} {v : Option RawValue}

/-- An option that goes by several texts resolves as those texts are read. -/
theorem resolveOne_texts (hk : spec.kind = .list) {texts : List String}
    (hv : spec.value v = .text (",".intercalate texts)) :
    r.resolveOne present spec v =
      match IdList.ofTexts texts with
      | .ok l => .ok (.list (some l), [])
      | .error e => .error ⟨spec.name, some e.input, .emptyList e⟩ := by
  rw [resolveOne_list hk, resolveList_of_text hv, IdList.ofTexts]
  cases IdList.parse _ <;> rfl

theorem get?_resolveOptions_texts {raw : RawInput} (hspec : spec ∈ r.registry.specs)
    (hk : spec.kind = .list) {texts : List String}
    (hv : spec.value (raw.get? spec.name) = .text (",".intercalate texts)) {o : ResolvedOptions}
    (ho : (r.resolveOptions present raw).2 = .ok o) :
    ∃ l, IdList.ofTexts texts = .ok l ∧ o.get? spec.name = some (.list (some l)) := by
  have accepted := (exists_resolveOptions_ok_iff.mp ⟨o, ho⟩).2 spec hspec
  have found := resolveOptions_get?_of_mem hspec ho
  rw [meaningOf?, hv, hk, OptionKind.meaning?] at accepted found
  rw [IdList.ofTexts]
  cases hl : IdList.parse (",".intercalate texts) with
  | error e => simp [hl, Except.toOption] at accepted
  | ok l =>
      rw [hl] at found
      exact ⟨l, rfl, found⟩

end Resolver

namespace IdList

/-- A list that was read is read again from its text, its items and its JSON array; so its text
tells it from all others. Several texts are read as one after another: the items of each that were
not seen before are put at the end, and it is an error if there are none at all. An array in a
configuration resolves as the same array in JSON is read. -/
theorem written_lists_read_back :
    (∀ l, WasRead l →
      parse l.display = .ok l ∧ ofTexts l.items = .ok l ∧ ofJson l.toJson = .ok l) ∧
    (∀ l l', WasRead l → WasRead l' → l.display = l'.display → l = l') ∧
    (∀ texts, ofTexts texts = ofRead (",".intercalate texts) (texts.foldl absorb []) ∧
      ((∃ e, ofTexts texts = .error e) ↔ ∀ s ∈ texts, Vacant s)) ∧
    (∀ s t, parse (s ++ "," ++ t) =
      ofRead (s ++ "," ++ t) (listed s ++ (listed t).filter (· ∉ listed s))) ∧
    ∀ (r : Resolver) (present : Path → Bool) (given : RawInput) (config : Config)
      (spec : OptionSpec) (texts : List String), spec ∈ r.registry.specs → spec.kind = .list →
      given.get? spec.name = none → config.options.get? spec.name = some (.list texts) →
      let raw := given.fillFrom config.toRawInput
      let decoded := ofJson (.arr (texts.map .str))
      (∀ l, decoded = .ok l →
        r.resolveOne present spec (raw.get? spec.name) = .ok (.list (some l), [])) ∧
      (∀ e, decoded = .error e → ∃ vacant, e = .empty vacant ∧
        r.resolveOne present spec (raw.get? spec.name) =
          .error ⟨spec.name, some vacant.input, .emptyList vacant⟩) ∧
      ∀ o, (r.resolveOptions present raw).2 = .ok o →
        ∃ l, decoded = .ok l ∧ o.get? spec.name = some (.list (some l)) := by
  refine ⟨?_, ?_, ?_, parse_append_comma, ?_⟩
  · intro l hl
    exact ⟨parse_display hl.tidy, hl.tidy.ofTexts_items, hl.tidy.ofJson_toJson⟩
  · intro l l' hl hl' same
    have again := parse_display hl.tidy
    rw [same, parse_display hl'.tidy] at again
    exact (Except.ok.inj again).symm
  · exact fun texts => ⟨ofTexts_eq_foldl texts, exists_ofTexts_error_iff texts⟩
  · intro r present given config spec texts hspec hk hgiven hconfig raw decoded
    have value : spec.value (raw.get? spec.name) = .text (",".intercalate texts) := by
      rw [NameMap.get?_fillFrom, hgiven, Config.get?_toRawInput, hconfig]
      rfl
    have one := @Resolver.resolveOne_texts r present spec _ hk texts value
    have decodes : decoded = (ofTexts texts).mapError .empty := ofJson_arr texts
    refine ⟨?_, ?_, ?_⟩
    · intro l hl
      rw [decodes] at hl
      cases htexts : ofTexts texts with
      | error e =>
          rw [htexts] at hl
          cases hl
      | ok l' =>
          rw [htexts] at hl one
          cases hl
          exact one
    · intro e he
      rw [decodes] at he
      cases htexts : ofTexts texts with
      | error vacant =>
          rw [htexts] at he one
          cases he
          exact ⟨vacant, rfl, one⟩
      | ok l =>
          rw [htexts] at he
          cases he
    · intro o ho
      obtain ⟨l, hl, found⟩ := Resolver.get?_resolveOptions_texts hspec hk value ho
      rw [hl] at decodes
      exact ⟨l, decodes, found⟩

/-- Commas and blanks in the items of an array are read over, and what stands in one item is not
taken from another. -/
theorem array_with_commas_reads_back :
    let texts := [" hl2,cs2", "", "cs2 ,\tmy sdk"]
    let l : IdList := ⟨["hl2", "cs2", "my sdk"]⟩
    let config : Config := ⟨NameMap.empty.insert "sdks" (.list texts), .empty⟩
    let r := Resolver.new .standard (.ofString "/work")
    let sdks : OptionSpec := Registry.standardSpecs[3]
    let raw := NameMap.empty.fillFrom config.toRawInput
    ofJson (.arr (texts.map .str)) = .ok l ∧ WasRead l ∧ parse l.display = .ok l ∧
      ofTexts texts = ofRead " hl2,cs2,,cs2 ,\tmy sdk" (texts.foldl absorb []) ∧
      parse "hl2,cs2,cs2,my sdk" = .ok l ∧
      r.resolveOne (fun _ => false) sdks (raw.get? "sdks") = .ok (.list (some l), []) := by
  intro texts l config r sdks raw
  have decoded : ofJson (.arr (texts.map .str)) = .ok l := by decide
  have laws := written_lists_read_back
  have resolved := laws.2.2.2.2 r (fun _ => false) .empty config sdks texts (by decide) rfl rfl
    (by decide)
  have joined := laws.2.2.2.1 "hl2,cs2" "cs2,my sdk"
  refine ⟨decoded, .inr ⟨_, decoded⟩, (laws.1 l (.inr ⟨_, decoded⟩)).1, (laws.2.2.1 texts).1, ?_,
    resolved.1 l decoded⟩
  exact joined

end IdList
end BuildFront
