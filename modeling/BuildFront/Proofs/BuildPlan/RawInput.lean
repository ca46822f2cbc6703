import BuildFront.BuildPlan
import BuildFront.Proofs.NameMap.Layers
import BuildFront.RawInput

/-!
Asking for a plan again: the raw input in which every option of a plan is supplied as the plan has
it.
-/

namespace BuildFront

/-- The raw input in which the options that have a value are supplied. -/
def RawInput.ofSupply (supply : List (String × Option RawValue)) : RawInput :=
  supply.foldl (fun raw e => match e.2 with
    | some v => raw.insert e.1 v
    | none => raw) .empty

theorem RawInput.get?_ofSupply {supply : List (String × Option RawValue)}
    (distinct : (supply.map (·.1)).Nodup) (name : String) :
    (ofSupply supply).get? name = (supply.find? (fun e => e.1 == name)).bind (·.2) := by
  have step (acc : RawInput) (e : String × Option RawValue) (name : String) :
      (match e.2 with
        | some v => acc.insert e.1 v
        | none => acc).get? name =
          if e.1 = name then e.2.or (acc.get? name) else acc.get? name := by
    cases he : e.2 with
    | none => simp
    | some v => simp [NameMap.get?_insert]
  rw [ofSupply, NameMap.get?_foldl_of_step step supply distinct, NameMap.get?_empty, Option.or_none]

namespace BuildPlan

/-- A path option as it is supplied again. -/
def pathValue? (field : Option ResolvedPath) : Option RawValue :=
  field.bind (fun x => x.path.text?.map .text)

def flagValue? (on : Bool) : Option RawValue :=
  if on then some .flag else none

/-- What to supply for each option to ask for the plan again. -/
def supply (p : BuildPlan) : List (String × Option RawValue) :=
  [("hl2sdk-root", pathValue? p.sdkRoot),
   ("hl2sdk-manifests", pathValue? p.sdkManifests),
   ("mms-path", pathValue? p.hostFramework),
   ("sdks", some (.text p.sdks.display)),
   ("targets", p.targets.archs?.map (fun archs => .text archs.display)),
   ("enable-debug", flagValue? p.debug),
   ("enable-optimize", flagValue? p.optimize)]

def rawInput (p : BuildPlan) : RawInput :=
  .ofSupply p.supply

theorem names_supply (p : BuildPlan) : p.supply.map (·.1) =
    ["hl2sdk-root", "hl2sdk-manifests", "mms-path", "sdks", "targets", "enable-debug",
      "enable-optimize"] := rfl

theorem nodup_supply (p : BuildPlan) : (p.supply.map (·.1)).Nodup := by
  rw [names_supply]
  decide

theorem get?_rawInput (p : BuildPlan) :
    p.rawInput.get? "hl2sdk-root" = pathValue? p.sdkRoot ∧
    p.rawInput.get? "hl2sdk-manifests" = pathValue? p.sdkManifests ∧
    p.rawInput.get? "mms-path" = pathValue? p.hostFramework ∧
    p.rawInput.get? "sdks" = some (.text p.sdks.display) ∧
    p.rawInput.get? "targets" = p.targets.archs?.map (fun archs => .text archs.display) ∧
    p.rawInput.get? "enable-debug" = flagValue? p.debug ∧
    p.rawInput.get? "enable-optimize" = flagValue? p.optimize := by
  have lookup : ∀ e ∈ p.supply, p.rawInput.get? e.1 = e.2 := by
    intro e he
    rw [rawInput, RawInput.get?_ofSupply p.nodup_supply,
      (find?_key_eq_some_iff p.nodup_supply e.1 e).mpr ⟨he, rfl⟩]
    rfl
  simpa only [supply, List.forall_mem_cons, List.not_mem_nil, false_imp_iff, implies_true,
    and_true] using lookup

theorem mem_supply_of_contains {p : BuildPlan} {name : String}
    (h : p.rawInput.contains name = true) : name ∈ p.supply.map (·.1) := by
  obtain ⟨v, hv⟩ := (NameMap.contains_eq_true_iff _ name).mp h
  rw [rawInput, RawInput.get?_ofSupply p.nodup_supply] at hv
  obtain ⟨e, he, -⟩ := Option.bind_eq_some_iff.mp hv
  obtain ⟨hmem, rfl⟩ := (find?_key_eq_some_iff p.nodup_supply name e).mp he
  exact List.mem_map_of_mem hmem

end BuildPlan

end BuildFront
