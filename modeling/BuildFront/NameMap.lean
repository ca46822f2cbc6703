/-!
Finite maps from names, kept in the order of the names. Two maps with the same answers are the same
map, and the listing is in byte order, which is the order of strings.
-/

namespace BuildFront

structure NameMap (α : Type u) where
  entries : List (String × α)
  sorted : entries.Pairwise (fun x y => x.1 < y.1)
  deriving DecidableEq

namespace NameMap

variable {α : Type u} {β : Type v}

def lookup (name : String) : List (String × α) → Option α
  | [] => none
  | (k, v) :: rest => if k = name then some v else lookup name rest

/-- Put an entry in its place; an entry of the same name gives way. -/
def place (name : String) (value : α) : List (String × α) → List (String × α)
  | [] => [(name, value)]
  | (k, v) :: rest =>
    if name < k then (name, value) :: (k, v) :: rest
    else if k = name then (name, value) :: rest
    else (k, v) :: place name value rest

theorem forall_place {name : String} {value : α} {l : List (String × α)} {p : String → Prop}
    (hn : p name) (hl : ∀ e ∈ l, p e.1) : ∀ e ∈ place name value l, p e.1 := by
  induction l with
  | nil => simpa [place] using hn
  | cons e rest ih => grind [place]

theorem sorted_place {name : String} {value : α} {l : List (String × α)}
    (h : l.Pairwise (fun x y => x.1 < y.1)) :
    (place name value l).Pairwise (fun x y => x.1 < y.1) := by
  induction l with
  | nil => simp [place]
  | cons e rest ih =>
    obtain ⟨k, v⟩ := e
    rw [List.pairwise_cons] at h
    unfold place
    split
    · rename_i hlt
      refine List.pairwise_cons.2 ⟨?_, List.pairwise_cons.2 h⟩
      intro x hx
      rcases List.mem_cons.1 hx with rfl | hx
      · exact hlt
      · exact String.lt_trans hlt (h.1 x hx)
    · split
      · rename_i heq
        subst heq
        exact List.pairwise_cons.2 ⟨h.1, h.2⟩
      · rename_i hlt hne
        refine List.pairwise_cons.2 ⟨?_, ih h.2⟩
        exact forall_place (p := fun n => k < n) (by grind) h.1

def empty : NameMap α :=
  ⟨[], List.Pairwise.nil⟩

instance : Inhabited (NameMap α) :=
  ⟨empty⟩

def get? (m : NameMap α) (name : String) : Option α :=
  lookup name m.entries

def contains (m : NameMap α) (name : String) : Bool :=
  (m.get? name).isSome

def insert (m : NameMap α) (name : String) (value : α) : NameMap α :=
  ⟨place name value m.entries, sorted_place m.sorted⟩

def erase (m : NameMap α) (name : String) : NameMap α :=
  ⟨m.entries.filter (fun e => e.1 != name), m.sorted.filter _⟩

/-- Later entries win. -/
def ofList (l : List (String × α)) : NameMap α :=
  l.foldl (fun m e => m.insert e.1 e.2) empty

def size (m : NameMap α) : Nat :=
  m.entries.length

def isEmpty (m : NameMap α) : Bool :=
  m.entries.isEmpty

def names (m : NameMap α) : List String :=
  m.entries.map (·.1)

def override (m upper : NameMap α) : NameMap α :=
  upper.entries.foldl (fun acc e => acc.insert e.1 e.2) m

/-- The entries of `lower` for the names that `m` lacks, added to it. -/
def fillFrom (m lower : NameMap α) : NameMap α :=
  lower.entries.foldl (fun acc e => if acc.contains e.1 then acc else acc.insert e.1 e.2) m

@[simp] theorem get?_empty (name : String) : (empty : NameMap α).get? name = none := rfl

theorem lookup_place (name other : String) (value : α) (l : List (String × α))
    (h : l.Pairwise (fun x y => x.1 < y.1)) :
    lookup other (place name value l) = if name = other then some value else lookup other l := by
  induction l with
  | nil => simp [place, lookup]
  | cons e rest ih =>
    obtain ⟨k, v⟩ := e
    rw [List.pairwise_cons] at h
    have := ih h.2
    grind [place, lookup]

@[simp] theorem get?_insert (m : NameMap α) (name other : String) (value : α) :
    (m.insert name value).get? other = if name = other then some value else m.get? other :=
  lookup_place name other value m.entries m.sorted

end NameMap
end BuildFront
