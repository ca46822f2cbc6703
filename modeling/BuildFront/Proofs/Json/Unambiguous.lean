import BuildFront.Json

/-!
What is written in JSON can be told apart: no written form is the beginning of another one, neither
of a character in a string literal, nor of a literal, nor of a value.
-/

namespace BuildFront

/-- The number that a lower-case hexadecimal digit stands for. -/
def Hex.value? (c : Char) : Option Nat :=
  if '0' ≤ c ∧ c ≤ '9' then some (c.toNat - 0x30)
  else if 'a' ≤ c ∧ c ≤ 'f' then some (c.toNat - 0x57)
  else none

theorem Hex.value?_digit (n : Nat) (h : n < 16) : value? (digit n) = some n := by
  revert n
  decide

namespace Json

/-- The character that a letter stands for after a backslash. -/
def meant? (c : Char) : Option Char :=
  if c = '"' ∨ c = '\\' then some c
  else if c = 'b' then some '\x08'
  else if c = 't' then some '\t'
  else if c = 'n' then some '\n'
  else if c = 'f' then some '\x0C'
  else if c = 'r' then some '\r'
  else none

/-- What follows a backslash: four digits after a `u`, or a letter that means a character. -/
def unescape? : List Char → Option (Char × List Char)
  | 'u' :: a :: b :: c :: d :: rest => do
    let n := (((← Hex.value? a) * 16 + (← Hex.value? b)) * 16 + (← Hex.value? c)) * 16 +
      (← Hex.value? d)
    return (Char.ofNat n, rest)
  | c :: rest => (meant? c).map (·, rest)
  | [] => none

/-- The first character of a string literal's inside, and what comes after it. -/
def readChar? : List Char → Option (Char × List Char)
  | [] => none
  | c :: rest => if c = '\\' then unescape? rest else some (c, rest)

/-- An escaped character is a letter that means it after a backslash, or four digits if it is a
control character without such a letter, or itself. -/
theorem escape_cases (c : Char) :
    (∃ e, escape c = ['\\', e] ∧ meant? e = some c) ∨
      (escape c = ['\\', 'u', '0', '0', Hex.digit (c.toNat / 16), Hex.digit (c.toNat % 16)] ∧
        c.toNat < 0x20) ∨
      (escape c = [c] ∧ 0x20 ≤ c.toNat ∧ c ≠ '"' ∧ c ≠ '\\') := by
  have short {d e : Char} (h : c.toNat = d.toNat) (hd : meant? e = some d) :
      ∃ e', ['\\', e] = ['\\', e'] ∧ meant? e' = some c :=
    ⟨e, rfl, by rw [hd, Char.toNat_inj.mp h]⟩
  unfold escape
  split
  · next h => exact .inl (short (congrArg Char.toNat h) rfl)
  next hquote =>
  split
  · next h => exact .inl (short (congrArg Char.toNat h) rfl)
  next hslash =>
  split
  · next h => exact .inl (short (d := '\x08') h rfl)
  split
  · next h => exact .inl (short (d := '\t') h rfl)
  split
  · next h => exact .inl (short (d := '\n') h rfl)
  split
  · next h => exact .inl (short (d := '\x0C') h rfl)
  split
  · next h => exact .inl (short (d := '\r') h rfl)
  split
  · next h => exact .inr (.inl ⟨rfl, h⟩)
  · next h => exact .inr (.inr ⟨rfl, by omega, hquote, hslash⟩)

theorem readChar?_escape (c : Char) (rest : List Char) :
    readChar? (escape c ++ rest) = some (c, rest) := by
  rcases escape_cases c with ⟨e, h, he⟩ | ⟨h, hlow⟩ | ⟨h, -, -, hslash⟩
  · rw [h]
    change unescape? (e :: rest) = _
    rw [unescape?, he]
    · rfl
    · rintro a b c d more rfl
      cases he
  · have high := Hex.value?_digit (c.toNat / 16) (by omega)
    have low := Hex.value?_digit (c.toNat % 16) (by omega)
    have zero : Hex.value? '0' = some 0 := rfl
    have sum : ((0 * 16 + 0) * 16 + c.toNat / 16) * 16 + c.toNat % 16 = c.toNat := by omega
    rw [h]
    change unescape?
      ('u' :: '0' :: '0' :: Hex.digit (c.toNat / 16) :: Hex.digit (c.toNat % 16) :: rest) = _
    simp only [unescape?, zero, high, low, Option.bind_eq_bind, Option.bind_some, sum,
      Char.ofNat_toNat]
    rfl
  · rw [h, List.singleton_append, readChar?, if_neg hslash]

theorem escape_append_inj {c d : Char} {s t : List Char} (h : escape c ++ s = escape d ++ t) :
    c = d ∧ s = t := by
  have heq := congrArg readChar? h
  rw [readChar?_escape, readChar?_escape] at heq
  cases heq
  exact ⟨rfl, rfl⟩

theorem escape_append_ne_quote (c : Char) (s t : List Char) : escape c ++ s ≠ '"' :: t := by
  intro h
  have heq := congrArg readChar? h
  rw [readChar?_escape, readChar?, if_neg (by decide)] at heq
  cases heq
  simp [escape] at h

theorem flatMap_escape_append_inj {cs ds s t : List Char}
    (h : cs.flatMap escape ++ '"' :: s = ds.flatMap escape ++ '"' :: t) : cs = ds ∧ s = t := by
  induction cs generalizing ds with
  | nil =>
      cases ds with
      | nil => exact ⟨rfl, (List.cons.inj h).2⟩
      | cons d ds =>
          rw [List.flatMap_cons, List.append_assoc] at h
          exact absurd h.symm (escape_append_ne_quote d _ _)
  | cons c cs ih =>
      cases ds with
      | nil =>
          rw [List.flatMap_cons, List.append_assoc] at h
          exact absurd h (escape_append_ne_quote c _ _)
      | cons d ds =>
          rw [List.flatMap_cons, List.flatMap_cons, List.append_assoc, List.append_assoc] at h
          obtain ⟨rfl, hrest⟩ := escape_append_inj h
          obtain ⟨rfl, hst⟩ := ih hrest
          exact ⟨rfl, hst⟩

theorem quote_append_inj {x y : String} {s t : List Char} (h : quote x ++ s = quote y ++ t) :
    x = y ∧ s = t := by
  simp only [quote, List.cons_append, List.append_assoc, List.nil_append, List.cons.injEq,
    true_and] at h
  obtain ⟨hxy, hst⟩ := flatMap_escape_append_inj h
  exact ⟨String.toList_inj.mp hxy, hst⟩

/-- The character that a value begins with. -/
def lead : Json → Char
  | .null => 'n'
  | .bool true => 't'
  | .bool false => 'f'
  | .str _ => '"'
  | .arr _ => '['
  | .obj _ => '{'

theorem exists_compact_eq_cons (j : Json) : ∃ rest, compact j = j.lead :: rest := by
  cases j with
  | null => exact ⟨_, rfl⟩
  | bool b => cases b <;> exact ⟨_, rfl⟩
  | str s => exact ⟨_, by rw [compact, quote]; rfl⟩
  | arr items => cases items <;> exact ⟨_, by rw [compact]; rfl⟩
  | obj members => cases members <;> exact ⟨_, by rw [compact]; rfl⟩

theorem lead_eq_of_compact_append {j k : Json} {s t : List Char}
    (h : compact j ++ s = compact k ++ t) : j.lead = k.lead := by
  obtain ⟨r, hr⟩ := exists_compact_eq_cons j
  obtain ⟨q, hq⟩ := exists_compact_eq_cons k
  rw [hr, hq] at h
  exact (List.cons.inj h).1

theorem compact_append_ne_bracket (j : Json) (s t : List Char) : compact j ++ s ≠ ']' :: t := by
  intro h
  obtain ⟨r, hr⟩ := exists_compact_eq_cons j
  rw [hr] at h
  have hlead : j.lead = ']' := (List.cons.inj h).1
  cases j with
  | bool b => cases b <;> simp [lead] at hlead
  | _ => simp [lead] at hlead

mutual

/-- The compact form of a value is told apart from that of any other one, whatever follows them. -/
theorem compact_append_inj (j k : Json) (s t : List Char) (h : compact j ++ s = compact k ++ t) :
    j = k ∧ s = t := by
  -- Values of different kinds differ in their first character.
  have hlead := lead_eq_of_compact_append h
  cases j with
  | null =>
      cases k with
      | null => exact ⟨rfl, List.append_cancel_left h⟩
      | bool b => cases b <;> simp [lead] at hlead
      | _ => simp [lead] at hlead
  | bool b =>
      cases k with
      | bool c =>
          cases b <;> cases c <;> simp only [lead, Char.reduceEq] at hlead
          case true.true | false.false => exact ⟨rfl, List.append_cancel_left h⟩
      | _ => cases b <;> simp [lead] at hlead
  | str x =>
      cases k with
      | str y =>
          rw [compact, compact] at h
          obtain ⟨rfl, hst⟩ := quote_append_inj h
          exact ⟨rfl, hst⟩
      | bool b => cases b <;> simp [lead] at hlead
      | _ => simp [lead] at hlead
  | arr xs =>
      cases k with
      | arr ys =>
          match xs, ys with
          | [], [] => exact ⟨rfl, by simpa [compact] using h⟩
          | x :: xs, y :: ys =>
              have items : compactItems (x :: xs) ++ s = compactItems (y :: ys) ++ t := by
                simpa [compact, compactItems] using h
              obtain ⟨heq, hst⟩ := compactItems_append_inj (x :: xs) (y :: ys) s t items
              exact ⟨congrArg arr heq, hst⟩
          | [], y :: ys =>
              simp only [compact, List.cons_append, List.append_assoc, List.cons.injEq,
                true_and, List.nil_append] at h
              exact absurd h.symm (compact_append_ne_bracket y _ _)
          | x :: xs, [] =>
              simp only [compact, List.cons_append, List.append_assoc, List.cons.injEq,
                true_and, List.nil_append] at h
              exact absurd h (compact_append_ne_bracket x _ _)
      | bool b => cases b <;> simp [lead] at hlead
      | _ => simp [lead] at hlead
  | obj ms =>
      cases k with
      | obj ns =>
          match ms, ns with
          | [], [] => exact ⟨rfl, by simpa [compact] using h⟩
          | m :: ms, n :: ns =>
              have members : compactMembers (m :: ms) ++ s = compactMembers (n :: ns) ++ t := by
                simpa [compact, compactMembers] using h
              obtain ⟨heq, hst⟩ := compactMembers_append_inj (m :: ms) (n :: ns) s t members
              exact ⟨congrArg obj heq, hst⟩
          | [], n :: ns => simp [compact, quote] at h
          | m :: ms, [] => simp [compact, quote] at h
      | bool b => cases b <;> simp [lead] at hlead
      | _ => simp [lead] at hlead

theorem compactItems_append_inj (xs ys : List Json) (s t : List Char)
    (h : compactItems xs ++ s = compactItems ys ++ t) : xs = ys ∧ s = t := by
  match xs, ys with
  | [], [] => exact ⟨rfl, by simpa [compactItems] using h⟩
  | x :: xs, y :: ys =>
      simp only [compactItems, List.cons_append, List.append_assoc, List.cons.injEq, true_and] at h
      obtain ⟨rfl, hrest⟩ := compact_append_inj x y _ _ h
      obtain ⟨rfl, hst⟩ := compactItems_append_inj xs ys s t hrest
      exact ⟨rfl, hst⟩
  | [], y :: ys => simp [compactItems] at h
  | x :: xs, [] => simp [compactItems] at h

theorem compactMembers_append_inj (ms ns : List (String × Json)) (s t : List Char)
    (h : compactMembers ms ++ s = compactMembers ns ++ t) : ms = ns ∧ s = t := by
  match ms, ns with
  | [], [] => exact ⟨rfl, by simpa [compactMembers] using h⟩
  | (x, v) :: ms, (y, w) :: ns =>
      simp only [compactMembers, List.cons_append, List.append_assoc, List.cons.injEq,
        true_and] at h
      obtain ⟨rfl, hv⟩ := quote_append_inj h
      obtain ⟨rfl, hrest⟩ := compact_append_inj v w _ _ (List.cons.inj hv).2
      obtain ⟨rfl, hst⟩ := compactMembers_append_inj ms ns s t hrest
      exact ⟨rfl, hst⟩
  | [], n :: ns => simp [compactMembers] at h
  | m :: ms, [] => simp [compactMembers] at h

end

theorem compact_injective : Function.Injective compact := by
  intro j k h
  exact (compact_append_inj j k [] [] (congrArg (· ++ []) h)).1

end Json
end BuildFront
