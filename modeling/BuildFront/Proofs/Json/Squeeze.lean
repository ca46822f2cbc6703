import BuildFront.Proofs.Json.Unambiguous

/-!
The indented form with the spaces and line breaks between its tokens left out is the compact form,
so that it, too, tells values apart.
-/

namespace BuildFront

theorem Hex.digit_plain {n : Nat} (h : n < 16) : digit n ≠ '\\' ∧ digit n ≠ '"' := by
  revert n
  decide

namespace Json

/-- Where in a JSON text a character stands. -/
inductive Place where
  | between
  | inside
  | escaped

/-- A JSON text without the spaces and line breaks that stand in no string literal. -/
def squeeze : Place → List Char → List Char
  | _, [] => []
  | .between, c :: rest =>
    if c = ' ' ∨ c = '\n' then squeeze .between rest
    else if c = '"' then c :: squeeze .inside rest
    else c :: squeeze .between rest
  | .inside, c :: rest =>
    if c = '\\' then c :: squeeze .escaped rest
    else if c = '"' then c :: squeeze .between rest
    else c :: squeeze .inside rest
  | .escaped, c :: rest => c :: squeeze .inside rest

theorem squeeze_inside_plain {cs : List Char} (h : ∀ c ∈ cs, c ≠ '\\' ∧ c ≠ '"')
    (rest : List Char) : squeeze .inside (cs ++ rest) = cs ++ squeeze .inside rest := by
  induction cs with
  | nil => rfl
  | cons c cs ih =>
      rw [List.forall_mem_cons] at h
      rw [List.cons_append, squeeze, if_neg h.1.1, if_neg h.1.2, ih h.2, List.cons_append]

theorem squeeze_inside_escape (c : Char) (rest : List Char) :
    squeeze .inside (escape c ++ rest) = escape c ++ squeeze .inside rest := by
  rcases escape_cases c with ⟨e, h, -⟩ | ⟨h, hlow⟩ | ⟨h, -, hquote, hslash⟩
  · rw [h]
    rfl
  · have high : c.toNat / 16 < 16 := by omega
    have low : c.toNat % 16 < 16 := by omega
    have digits : ∀ d ∈ ['0', '0', Hex.digit (c.toNat / 16), Hex.digit (c.toNat % 16)],
        d ≠ '\\' ∧ d ≠ '"' := by
      simp [Hex.digit_plain high, Hex.digit_plain low]
    rw [h]
    exact congrArg (['\\', 'u'] ++ ·) (squeeze_inside_plain digits rest)
  · rw [h]
    exact squeeze_inside_plain (by simp [hquote, hslash]) rest

theorem squeeze_inside_text (cs rest : List Char) :
    squeeze .inside (cs.flatMap escape ++ '"' :: rest) =
      cs.flatMap escape ++ '"' :: squeeze .between rest := by
  induction cs with
  | nil => rfl
  | cons c cs ih =>
      rw [List.flatMap_cons, List.append_assoc, squeeze_inside_escape, ih, List.append_assoc]

theorem squeeze_quote (s : String) (rest : List Char) :
    squeeze .between (quote s ++ rest) = quote s ++ squeeze .between rest := by
  have inside := squeeze_inside_text s.toList rest
  simp only [quote, List.cons_append, List.append_assoc, List.nil_append]
  rw [squeeze, if_neg (by decide), if_pos rfl, inside]

theorem squeeze_newline (level : Nat) (rest : List Char) :
    squeeze .between (newline level ++ rest) = squeeze .between rest := by
  have spaces (n : Nat) :
      squeeze .between (List.replicate n ' ' ++ rest) = squeeze .between rest := by
    induction n with
    | zero => rfl
    | succ n ih => rw [List.replicate_succ, List.cons_append, squeeze, if_pos (.inl rfl), ih]
  rw [newline, List.cons_append, squeeze, if_pos (.inr rfl), spaces]

theorem squeeze_between_cons {c : Char} (h : c ≠ ' ' ∧ c ≠ '\n' ∧ c ≠ '"') (rest : List Char) :
    squeeze .between (c :: rest) = c :: squeeze .between rest := by
  rw [squeeze, if_neg (by simp [h.1, h.2.1]), if_neg h.2.2]

mutual

theorem squeeze_indented (level : Nat) (j : Json) (rest : List Char) :
    squeeze .between (indented level j ++ rest) = compact j ++ squeeze .between rest := by
  match j with
  | .null => rfl
  | .bool true => rfl
  | .bool false => rfl
  | .str s => exact squeeze_quote s rest
  | .arr [] => rfl
  | .arr (item :: items) =>
      simp only [indented, compact, List.cons_append, List.append_assoc]
      rw [squeeze_between_cons (by decide), squeeze_newline, squeeze_indented,
        squeeze_indentedItems]
  | .obj [] => rfl
  | .obj ((name, value) :: members) =>
      simp only [indented, compact, List.cons_append, List.append_assoc]
      rw [squeeze_between_cons (by decide), squeeze_newline, squeeze_quote,
        squeeze_between_cons (by decide), squeeze, if_pos (.inl rfl), squeeze_indented,
        squeeze_indentedMembers]

theorem squeeze_indentedItems (level : Nat) (items : List Json) (rest : List Char) :
    squeeze .between (indentedItems level items ++ rest) =
      compactItems items ++ squeeze .between rest := by
  match items with
  | [] =>
      rw [indentedItems, List.append_assoc, squeeze_newline]
      rfl
  | item :: items =>
      simp only [indentedItems, compactItems, List.cons_append, List.append_assoc]
      rw [squeeze_between_cons (by decide), squeeze_newline, squeeze_indented,
        squeeze_indentedItems]

theorem squeeze_indentedMembers (level : Nat) (members : List (String × Json)) (rest : List Char) :
    squeeze .between (indentedMembers level members ++ rest) =
      compactMembers members ++ squeeze .between rest := by
  match members with
  | [] =>
      rw [indentedMembers, List.append_assoc, squeeze_newline]
      rfl
  | (name, value) :: members =>
      simp only [indentedMembers, compactMembers, List.cons_append, List.append_assoc]
      rw [squeeze_between_cons (by decide), squeeze_newline, squeeze_quote,
        squeeze_between_cons (by decide), squeeze, if_pos (.inl rfl), squeeze_indented,
        squeeze_indentedMembers]

end

/-- Without its blanks the indented text is the compact one. -/
theorem squeeze_pretty (j : Json) : squeeze .between (pretty j) = compact j := by
  have h := squeeze_indented 0 j []
  rwa [List.append_nil, squeeze, List.append_nil] at h

theorem pretty_injective : Function.Injective pretty := by
  intro j k h
  apply compact_injective
  rw [← squeeze_pretty, h, squeeze_pretty]

end Json
end BuildFront
