import BuildFront.Proofs.Json.Grammar
import BuildFront.Proofs.Text.Legible

/-!
A reader of JSON texts: characters are scanned one at a time into tokens, and a value is read from
the tokens. It gives the value of every spelling.
-/

namespace BuildFront
namespace Json

/-- Where scanning stands: between tokens or inside a string literal of which some characters are
read, with the characters of a symbol or a spelling that has begun. -/
inductive Scan where
  | between (begun : List Char)
  | inside (read begun : List Char)

def scan : Scan → List Char → Option (List Token)
  | .between begun, [] => if begun = [] then some [] else none
  | .inside _ _, [] => none
  | .between begun, c :: rest =>
    if begun = [] ∧ isSpace c = true then scan (.between []) rest
    else if begun = [] ∧ c = '"' then scan (.inside [] []) rest
    else match symbols.lookup (begun ++ [c]) with
      | some a => (scan (.between []) rest).map (a :: ·)
      | none => scan (.between (begun ++ [c])) rest
  | .inside read begun, c :: rest =>
    if begun = [] ∧ c = '"' then
      (scan (.between []) rest).map (.str (String.ofList read) :: ·)
    else match spelled? (begun ++ [c]) with
      | some d => scan (.inside (read ++ [d]) []) rest
      | none => scan (.inside read (begun ++ [c])) rest

mutual

/-- The first value of some tokens, and the tokens after it. -/
def readValue : Nat → List Token → Option (Json × List Token)
  | _ + 1, .null :: rest => some (.null, rest)
  | _ + 1, .bool b :: rest => some (.bool b, rest)
  | _ + 1, .str s :: rest => some (.str s, rest)
  | _ + 1, .openArr :: .closeArr :: rest => some (.arr [], rest)
  | n + 1, .openArr :: rest => do
    let (item, rest) ← readValue n rest
    let (items, rest) ← readItems n rest
    return (.arr (item :: items), rest)
  | _ + 1, .openObj :: .closeObj :: rest => some (.obj [], rest)
  | n + 1, .openObj :: .str name :: .colon :: rest => do
    let (value, rest) ← readValue n rest
    let (members, rest) ← readMembers n rest
    return (.obj ((name, value) :: members), rest)
  | _, _ => none

def readItems : Nat → List Token → Option (List Json × List Token)
  | _ + 1, .closeArr :: rest => some ([], rest)
  | n + 1, .comma :: rest => do
    let (item, rest) ← readValue n rest
    let (items, rest) ← readItems n rest
    return (item :: items, rest)
  | _, _ => none

def readMembers : Nat → List Token → Option (List (String × Json) × List Token)
  | _ + 1, .closeObj :: rest => some ([], rest)
  | n + 1, .comma :: .str name :: .colon :: rest => do
    let (value, rest) ← readValue n rest
    let (members, rest) ← readMembers n rest
    return ((name, value) :: members, rest)
  | _, _ => none

end

/-- The value of a text that spells one. Every value takes a token of its own, so that their number
bounds how deep values are nested. -/
def readText (t : List Char) : Option Json := do
  let ts ← scan (.between []) t
  match ← readValue ts.length ts with
  | (j, []) => some j
  | _ => none

def read (bs : Bytes) : Option Json :=
  (Utf8.decode? bs).bind readText

/-- A spelling is a character, or a backslash with a letter, or four digits, or twice four digits. It
goes on after four digits if and only if they make no character. -/
theorem spelled?_cases {p : List Char} {c : Char} (h : spelled? p = some c) :
    (∃ d, p = [d] ∧ d ≠ '"' ∧ d ≠ '\\') ∨ (∃ e, p = ['\\', e] ∧ e ≠ 'u') ∨
      ∃ a b d e more n, p = '\\' :: 'u' :: a :: b :: d :: e :: more ∧
        Hex.quad? a b d e = some n ∧ more.length = if n.isValidChar then 0 else 6 := by
  unfold spelled? at h
  split at h
  · next d =>
      rw [Option.ite_none_right_eq_some] at h
      exact .inl ⟨d, rfl, h.1.2⟩
  · next e =>
      refine .inr (.inl ⟨e, rfl, ?_⟩)
      intro he
      rw [he] at h
      cases h
  · next a b d e =>
      obtain ⟨n, hn, hchar⟩ := Option.bind_eq_some_iff.mp h
      rw [Option.ite_none_right_eq_some] at hchar
      exact .inr (.inr ⟨a, b, d, e, [], n, rfl, hn, by rw [if_pos hchar.1]; rfl⟩)
  · next a b d e _ _ _ _ =>
      obtain ⟨n, hn, hlow⟩ := Option.bind_eq_some_iff.mp h
      obtain ⟨m, -, hchar⟩ := Option.bind_eq_some_iff.mp hlow
      rw [Option.ite_none_right_eq_some] at hchar
      have surrogate : ¬n.isValidChar := by
        rw [Nat.isValidChar]
        omega
      exact .inr (.inr ⟨a, b, d, e, _, n, rfl, hn, by rw [if_neg surrogate]; rfl⟩)
  · cases h

/-- What begins with a spelling and goes on is no spelling. -/
theorem spelled?_append_eq_none {p q : List Char} {c : Char} (h : spelled? p = some c)
    (hq : q ≠ []) : spelled? (p ++ q) = none := by
  by_contra hne
  obtain ⟨c', h'⟩ := Option.ne_none_iff_exists'.mp hne
  rcases spelled?_cases h with ⟨d, rfl, hd⟩ | ⟨e, rfl, he⟩ | ⟨a, b, d, e, more, n, rfl, hn, hmore⟩
  · rcases spelled?_cases h' with ⟨_, heq, -⟩ | ⟨_, heq, -⟩ | ⟨_, _, _, _, _, _, heq, -⟩ <;> simp_all
  · rcases spelled?_cases h' with ⟨_, heq, -⟩ | ⟨_, heq, -⟩ | ⟨_, _, _, _, _, _, heq, -⟩ <;> simp_all
  · rcases spelled?_cases h' with ⟨_, heq, -⟩ | ⟨_, heq, -⟩ | ⟨_, _, _, _, _, n', heq, hn', hmore'⟩
    · simp at heq
    · simp at heq
    · simp only [List.cons_append, List.cons.injEq, true_and] at heq
      obtain ⟨rfl, rfl, rfl, rfl, rfl⟩ := heq
      have hlonger := List.length_pos_iff.mpr hq
      rw [hn, Option.some.injEq] at hn'
      rw [← hn', ← hmore, List.length_append] at hmore'
      omega

theorem spelled?_quote_cons (p : List Char) : spelled? ('"' :: p) = none := by
  by_contra hne
  obtain ⟨c, h⟩ := Option.ne_none_iff_exists'.mp hne
  rcases spelled?_cases h with ⟨d, heq, hd, -⟩ | ⟨_, heq, -⟩ | ⟨_, _, _, _, _, _, heq, -⟩
  · exact hd (List.cons.inj heq).1.symm
  · cases heq
  · cases heq

theorem scan_spelled {read begun p : List Char} {c : Char} (h : spelled? (begun ++ p) = some c)
    (hp : p ≠ []) (t : List Char) :
    scan (.inside read begun) (p ++ t) = scan (.inside (read ++ [c]) []) t := by
  induction p generalizing begun with
  | nil => exact absurd rfl hp
  | cons x p ih =>
      have hquote : ¬(begun = [] ∧ x = '"') := by
        rintro ⟨rfl, rfl⟩
        rw [List.nil_append, spelled?_quote_cons] at h
        cases h
      rw [List.cons_append, scan, if_neg hquote]
      by_cases hnil : p = []
      · rw [hnil] at h ⊢
        rw [h]
        rfl
      · -- A proper beginning of a spelling is no spelling, so nothing is put out before its end.
        rw [List.append_cons] at h
        have hbegun : spelled? (begun ++ [x]) = none := by
          cases hb : spelled? (begun ++ [x]) with
          | none => rfl
          | some d =>
              rw [spelled?_append_eq_none hb hnil] at h
              cases h
        rw [hbegun]
        exact ih h hnil

theorem ne_nil_of_spelled? {p : List Char} {c : Char} (h : spelled? p = some c) : p ≠ [] := by
  rintro rfl
  cases h

theorem scan_inside {body cs : List Char} (h : Inside body cs) (read t : List Char) :
    scan (.inside read []) (body ++ '"' :: t) =
      (scan (.between []) t).map (.str (String.ofList (read ++ cs)) :: ·) := by
  induction h generalizing read with
  | nil => simp [scan]
  | @cons p c body cs first _ ih =>
      have hfirst : spelled? ([] ++ p) = some c := first
      rw [List.append_assoc, scan_spelled hfirst (ne_nil_of_spelled? first), ih,
        List.append_assoc, List.singleton_append]

theorem scan_symbol (t : List Char) : ∀ e ∈ symbols,
    scan (.between []) (e.1 ++ t) = (scan (.between []) t).map (e.2 :: ·) := by
  simp only [symbols, List.forall_mem_cons, List.not_mem_nil, false_imp_iff, implies_true,
    and_true]
  exact ⟨rfl, rfl, rfl, rfl, rfl, rfl, rfl, rfl, rfl⟩

/-- However a text divides into tokens, these are the tokens that are scanned. -/
theorem scan_of_lexed {t : List Char} {ts : List Token} (h : Lexed t ts) :
    scan (.between []) t = some ts := by
  induction h with
  | nil => rfl
  | space hspace _ ih => rw [scan, if_pos ⟨rfl, hspace⟩, ih]
  | symbol hsymbol _ ih => rw [scan_symbol _ _ hsymbol, ih, Option.map_some]
  | @str body cs t ts hinside _ ih =>
      rw [List.cons_append, scan, if_neg (by decide), if_pos ⟨rfl, rfl⟩, scan_inside hinside, ih]
      rfl

theorem tokens_append_ne_closeArr (j : Json) (ts rest : List Token) :
    j.tokens ++ ts ≠ .closeArr :: rest := by
  cases j with
  | null | bool b | str s => simp [tokens]
  | arr items => cases items <;> simp [tokens]
  | obj members => cases members <;> simp [tokens]

theorem exists_eq_succ_of_tokens {j : Json} {n : Nat} (hn : j.tokens.length ≤ n) :
    ∃ m, n = m + 1 := by
  have hpos : 0 < j.tokens.length := by
    cases j with
    | null | bool b | str s => simp [tokens]
    | arr items => cases items <;> simp [tokens]
    | obj members => cases members <;> simp [tokens]
  exact ⟨n - 1, by omega⟩

-- The bound need not be met exactly, so that the parts of a value share the one that is left to it.
mutual

theorem readValue_tokens (j : Json) {n : Nat} (hn : j.tokens.length ≤ n) (ts : List Token) :
    readValue n (j.tokens ++ ts) = some (j, ts) := by
  obtain ⟨n, rfl⟩ := exists_eq_succ_of_tokens hn
  match j with
  | .null | .bool b | .str s => rfl
  | .arr [] | .obj [] => rfl
  | .arr (item :: items) =>
      simp only [tokens, List.cons_append, List.append_assoc, List.length_cons,
        List.length_append] at hn ⊢
      have first := readValue_tokens item (n := n) (by omega) (tokensOfItems items ++ ts)
      have more := readItems_tokens items (n := n) (by omega) ts
      rw [readValue, first]
      · simp [more]
      · exact fun rest => tokens_append_ne_closeArr item _ rest
  | .obj ((name, value) :: members) =>
      simp only [tokens, List.cons_append, List.append_assoc, List.length_cons,
        List.length_append] at hn ⊢
      have first := readValue_tokens value (n := n) (by omega) (tokensOfMembers members ++ ts)
      have more := readMembers_tokens members (n := n) (by omega) ts
      rw [readValue, first]
      simp [more]

theorem readItems_tokens (items : List Json) {n : Nat} (hn : (tokensOfItems items).length ≤ n)
    (ts : List Token) : readItems n (tokensOfItems items ++ ts) = some (items, ts) := by
  match items, n with
  | [], 0 => simp [tokensOfItems] at hn
  | [], n + 1 => rfl
  | item :: items, 0 => simp [tokensOfItems] at hn
  | item :: items, n + 1 =>
      simp only [tokensOfItems, List.cons_append, List.append_assoc, List.length_cons,
        List.length_append] at hn ⊢
      have first := readValue_tokens item (n := n) (by omega) (tokensOfItems items ++ ts)
      have more := readItems_tokens items (n := n) (by omega) ts
      rw [readItems, first]
      simp [more]

theorem readMembers_tokens (members : List (String × Json)) {n : Nat}
    (hn : (tokensOfMembers members).length ≤ n) (ts : List Token) :
    readMembers n (tokensOfMembers members ++ ts) = some (members, ts) := by
  match members, n with
  | [], 0 => simp [tokensOfMembers] at hn
  | [], n + 1 => rfl
  | (name, value) :: members, 0 => simp [tokensOfMembers] at hn
  | (name, value) :: members, n + 1 =>
      simp only [tokensOfMembers, List.cons_append, List.append_assoc, List.length_cons,
        List.length_append] at hn ⊢
      have first := readValue_tokens value (n := n) (by omega) (tokensOfMembers members ++ ts)
      have more := readMembers_tokens members (n := n) (by omega) ts
      rw [readMembers, first]
      simp [more]

end

theorem read_of_spelt {t : List Char} {j : Json} (h : Spelt t j) :
    read (Utf8.encode t) = some j := by
  have value := readValue_tokens j (Nat.le_refl _) []
  rw [List.append_nil] at value
  rw [read, Utf8.decode?_encode, Option.bind_some, readText, scan_of_lexed h]
  simp [value]

theorem standard_read (limit : Nat) : Standard limit read :=
  fun _ _ h _ _ => read_of_spelt h

end Json
end BuildFront
