import BuildFront.Text.Utf8

/-!
UTF-8 as an order-preserving code that can be read back: texts are ordered as their bytes are, and
bytes that can be read are the bytes of what was read. Each of the two makes different texts have
different bytes.
-/

namespace BuildFront
namespace Utf8

/-- A byte after the first one of a character. -/
def Tail (b : UInt8) : Prop :=
  0x80 ≤ b.toNat ∧ b.toNat < 0xC0

/-- Bytes that spell a number. The bounds on the number leave out spellings longer than needed. -/
inductive Spells : Bytes → Nat → Prop where
  | one {a n} : a.toNat < 0x80 → n = a.toNat → Spells [a] n
  | two {a b n} : 0xC0 ≤ a.toNat → a.toNat < 0xE0 → Tail b → 0x80 ≤ n →
      n = (a.toNat - 0xC0) * 64 + (b.toNat - 0x80) → Spells [a, b] n
  | three {a b c n} : 0xE0 ≤ a.toNat → a.toNat < 0xF0 → Tail b → Tail c → 0x800 ≤ n →
      n = ((a.toNat - 0xE0) * 64 + (b.toNat - 0x80)) * 64 + (c.toNat - 0x80) → Spells [a, b, c] n
  | four {a b c d n} : 0xF0 ≤ a.toNat → a.toNat < 0xF8 → Tail b → Tail c → Tail d → 0x10000 ≤ n →
      n = (((a.toNat - 0xF0) * 64 + (b.toNat - 0x80)) * 64 + (c.toNat - 0x80)) * 64 +
        (d.toNat - 0x80) → Spells [a, b, c, d] n

theorem spells_utf8EncodeChar (c : Char) : Spells (String.utf8EncodeChar c) c.toNat := by
  have hvalid : c.val.toNat < 0x110000 := by
    have := c.valid
    simp only [UInt32.isValidChar, Nat.isValidChar] at this
    omega
  change Spells _ c.val.toNat
  simp only [String.utf8EncodeChar]
  generalize c.val.toNat = n at hvalid
  split
  · refine .one ?_ ?_ <;> rw [UInt8.toNat_ofNat'] <;> omega
  · split
    · refine .two ?_ ?_ ⟨?_, ?_⟩ ?_ ?_ <;> (try simp only [UInt8.toNat_ofNat']) <;> omega
    · split
      · refine .three ?_ ?_ ⟨?_, ?_⟩ ⟨?_, ?_⟩ ?_ ?_ <;>
          (try simp only [UInt8.toNat_ofNat']) <;> omega
      · refine .four ?_ ?_ ⟨?_, ?_⟩ ⟨?_, ?_⟩ ⟨?_, ?_⟩ ?_ ?_ <;>
          (try simp only [UInt8.toNat_ofNat']) <;> omega

/-- Numbers in order are spelt by bytes in order, whatever follows. -/
theorem Spells.append_lt {bs bs' : Bytes} {n n' : Nat} (h : Spells bs n) (h' : Spells bs' n')
    (hn : n < n') (s t : Bytes) : bs ++ s < bs' ++ t := by
  cases h <;> cases h' <;>
    simp only [Tail, List.cons_append, List.nil_append, List.cons_lt_cons_iff,
      UInt8.lt_iff_toNat_lt, ← UInt8.toNat_inj] at * <;>
    omega

theorem Spells.unique {bs bs' : Bytes} {n : Nat} (h : Spells bs n) (h' : Spells bs' n) :
    bs = bs' := by
  cases h <;> cases h' <;>
    simp only [Tail, List.cons.injEq, and_true, ← UInt8.toNat_inj] at * <;>
    omega

theorem Spells.eq_utf8EncodeChar {bs : Bytes} {n : Nat} (h : Spells bs n) (hn : n.isValidChar) :
    String.utf8EncodeChar (Char.ofNat n) = bs := by
  have hc : (Char.ofNat n).toNat = n := by
    rw [Char.ofNat, dif_pos hn]
    rfl
  exact (hc ▸ spells_utf8EncodeChar (Char.ofNat n)).unique h

theorem encode_cons (c : Char) (cs : List Char) :
    encode (c :: cs) = String.utf8EncodeChar c ++ encode cs :=
  List.flatMap_cons

/-- Encoding keeps the order of texts. -/
theorem encode_lt_encode {cs ds : List Char} (h : cs < ds) : encode cs < encode ds := by
  induction cs generalizing ds with
  | nil =>
      cases ds with
      | nil => cases h
      | cons d ds =>
          obtain ⟨b, bs, hb⟩ := List.exists_cons_of_ne_nil (String.utf8EncodeChar_ne_nil (c := d))
          rw [encode_cons, hb]
          exact .nil
  | cons c cs ih =>
      cases ds with
      | nil => cases h
      | cons d ds =>
          rw [encode_cons, encode_cons]
          rcases List.cons_lt_cons_iff.mp h with hlt | ⟨rfl, hlt⟩
          · exact (spells_utf8EncodeChar c).append_lt (spells_utf8EncodeChar d) hlt _ _
          · exact List.append_left_lt (ih hlt)

theorem encode_lt_encode_iff (cs ds : List Char) : encode cs < encode ds ↔ cs < ds := by
  constructor
  · intro h
    by_cases hlt : cs < ds
    · exact hlt
    · rcases List.le_iff_lt_or_eq.mp (List.not_lt.mp hlt) with hgt | rfl
      · exact absurd (encode_lt_encode hgt) (List.lt_asymm h)
      · exact absurd h (List.lt_irrefl _)
  · exact encode_lt_encode

/-- The order of strings is the order of their bytes. -/
theorem ofString_le_ofString_iff (s t : String) : ofString s ≤ ofString t ↔ s ≤ t := by
  rw [← List.not_lt, ← String.not_lt, ofString, ofString, encode_lt_encode_iff]
  exact Iff.rfl

theorem encode_injective : Function.Injective encode := by
  intro cs ds h
  have hcs : ¬cs < ds := by
    rw [← encode_lt_encode_iff, h]
    exact List.lt_irrefl _
  have hds : ¬ds < cs := by
    rw [← encode_lt_encode_iff, h]
    exact List.lt_irrefl _
  exact List.le_antisymm (List.not_lt.mp hds) (List.not_lt.mp hcs)

theorem mapM_id_eq_some_iff {α : Type u} (l : List (Option α)) (xs : List α) :
    l.mapM id = some xs ↔ l = xs.map some := by
  induction l generalizing xs with
  | nil => cases xs <;> simp
  | cons x rest ih =>
      cases x with
      | none => cases xs <;> simp
      | some y =>
          cases xs with
          | nil => simp [List.mapM_cons, Option.bind_eq_some_iff]
          | cons z zs =>
              simp only [List.mapM_cons, id, Option.bind_eq_bind, Option.bind_some,
                Option.bind_eq_some_iff, ih, Option.pure_def, Option.some.injEq, List.cons.injEq,
                List.map_cons]
              constructor
              · rintro ⟨ys, rfl, rfl, rfl⟩
                exact ⟨rfl, rfl⟩
              · rintro ⟨rfl, rfl⟩
                exact ⟨zs, rfl, rfl, rfl⟩

/-- Where bytes after a begun character can be read, the next of them is in range and either
completes the character or leaves one byte less to come. -/
theorem piecesAfter_some_eq {p : Pending} {bs : Bytes} {cs : List Char}
    (h : piecesAfter (some p) bs = cs.map some) :
    ∃ b rest, bs = b :: rest ∧ p.low.toNat ≤ b.toNat ∧ b.toNat ≤ p.high.toNat ∧
      if p.missing ≤ 1 then
        ∃ ds, cs = Char.ofNat (p.bits * 64 + (b.toNat - 0x80)) :: ds ∧
          piecesAfter none rest = ds.map some
      else
        piecesAfter (some ⟨p.bits * 64 + (b.toNat - 0x80), p.missing - 1, 0x80, 0xBF⟩) rest =
          cs.map some := by
  cases bs with
  | nil => cases cs <;> simp [piecesAfter] at h
  | cons b rest =>
      refine ⟨b, rest, rfl, ?_⟩
      rw [piecesAfter, feed] at h
      split at h
      · next hrange =>
          refine ⟨hrange.1, hrange.2, ?_⟩
          split at h
          · next hlast =>
              rw [if_pos hlast]
              cases cs with
              | nil => cases h
              | cons c ds =>
                  simp only [List.cons_append, List.nil_append, List.map_cons, List.cons.injEq,
                    Option.some.injEq] at h
                  exact ⟨ds, by rw [h.1], h.2⟩
          · next hmore =>
              rw [if_neg hmore]
              exact h
      · cases cs <;> simp at h

/-- What stands fixed once the first of several bytes is read. -/
theorem begin_eq_pending {a : UInt8} {out : List (Option Char)} {p : Pending}
    (h : begin a = (out, some p)) :
    out = [] ∧ 0x80 ≤ p.low.toNat ∧ p.high.toNat < 0xC0 ∧
      ((p.missing = 1 ∧ 0xC2 ≤ a.toNat ∧ a.toNat < 0xE0 ∧ p.bits = a.toNat - 0xC0) ∨
      (p.missing = 2 ∧ 0xE0 ≤ a.toNat ∧ a.toNat < 0xF0 ∧ p.bits = a.toNat - 0xE0 ∧
        (p.bits = 0 → 0xA0 ≤ p.low.toNat) ∧ (p.bits = 0xD → p.high.toNat < 0xA0)) ∨
      (p.missing = 3 ∧ 0xF0 ≤ a.toNat ∧ a.toNat < 0xF5 ∧ p.bits = a.toNat - 0xF0 ∧
        (p.bits = 0 → 0x90 ≤ p.low.toNat) ∧ (p.bits = 4 → p.high.toNat < 0x90))) := by
  unfold begin at h
  dsimp only at h
  repeat' split at h
  all_goals simp only [Prod.mk.injEq, Option.some.injEq, reduceCtorEq, and_false] at h
  all_goals obtain ⟨rfl, rfl⟩ := h
  all_goals refine ⟨rfl, ?_⟩
  all_goals simp only [UInt8.reduceToNat, true_and, and_true, forall_const]
  all_goals omega

theorem exists_spells_of_begin {a : UInt8} {p : Pending} {bs : Bytes} {cs : List Char}
    (hbegin : begin a = ([], some p)) (h : piecesAfter (some p) bs = cs.map some) :
    ∃ front rest n ds, bs = front ++ rest ∧ Spells (a :: front) n ∧ n.isValidChar ∧
      cs = Char.ofNat n :: ds ∧ piecesAfter none rest = ds.map some := by
  obtain ⟨-, hlow, hhigh, hp⟩ := begin_eq_pending hbegin
  obtain ⟨b, rest, rfl, hblow, hbhigh, hb⟩ := piecesAfter_some_eq h
  clear h
  -- The cases are the numbers of bytes to come; the ranges of `b` keep overlong spellings out.
  rcases hp with ⟨hm, ha, ha', hbits⟩ | ⟨hm, ha, ha', hbits, hfirst, hlast⟩ |
    ⟨hm, ha, ha', hbits, hfirst, hlast⟩
  · rw [if_pos (by omega)] at hb
    obtain ⟨ds, rfl, hrest⟩ := hb
    refine ⟨[b], rest, _, ds, rfl, .two ?_ ?_ ⟨?_, ?_⟩ ?_ (by rw [hbits]), ?_, rfl, hrest⟩ <;>
      (try simp only [Nat.isValidChar]) <;> omega
  · rw [if_neg (by omega)] at hb
    obtain ⟨c, rest, rfl, hclow, hchigh, hc⟩ := piecesAfter_some_eq hb
    clear hb
    simp only [hm, UInt8.reduceToNat] at hclow hchigh hc
    obtain ⟨ds, rfl, hrest⟩ := hc
    refine ⟨[b, c], rest, _, ds, rfl, .three ?_ ?_ ⟨?_, ?_⟩ ⟨?_, ?_⟩ ?_ (by rw [hbits]), ?_, rfl,
      hrest⟩ <;>
      (try simp only [Nat.isValidChar]) <;> omega
  · rw [if_neg (by omega)] at hb
    obtain ⟨c, rest, rfl, hclow, hchigh, hc⟩ := piecesAfter_some_eq hb
    clear hb
    simp only [hm, UInt8.reduceToNat] at hclow hchigh hc
    obtain ⟨d, rest, rfl, hdlow, hdhigh, hd⟩ := piecesAfter_some_eq hc
    clear hc
    simp only [UInt8.reduceToNat] at hdlow hdhigh hd
    obtain ⟨ds, rfl, hrest⟩ := hd
    refine ⟨[b, c, d], rest, _, ds, rfl,
      .four ?_ ?_ ⟨?_, ?_⟩ ⟨?_, ?_⟩ ⟨?_, ?_⟩ ?_ (by rw [hbits]), ?_, rfl, hrest⟩ <;>
      (try simp only [Nat.isValidChar]) <;> omega

theorem begin_eq_done {a : UInt8} {out : List (Option Char)} (h : begin a = (out, none)) :
    out = [none] ∨ (a.toNat < 0x80 ∧ out = [some (Char.ofNat a.toNat)]) := by
  unfold begin at h
  dsimp only at h
  split at h
  · next ha =>
      cases h
      exact .inr ⟨ha, rfl⟩
  · refine .inl ?_
    repeat' split at h
    all_goals simp only [Prod.mk.injEq, reduceCtorEq, and_false, and_true] at h
    all_goals exact h.symm

theorem encode_of_piecesAfter_none (bs : Bytes) (cs : List Char)
    (h : piecesAfter none bs = cs.map some) : encode cs = bs := by
  -- On the number of bytes: reading goes on behind a character, which takes up to four of them.
  induction hn : bs.length using Nat.strongRecOn generalizing bs cs with
  | ind n ih =>
      cases bs with
      | nil =>
          cases cs with
          | nil => rfl
          | cons c cs => simp [piecesAfter] at h
      | cons a rest =>
          have spelt {front rest' : Bytes} {m : Nat} {ds : List Char}
              (hrest : rest = front ++ rest') (hm : Spells (a :: front) m) (hvalid : m.isValidChar)
              (hds : piecesAfter none rest' = ds.map some) :
              encode (Char.ofNat m :: ds) = a :: rest := by
            have shorter : rest'.length < n := by
              rw [← hn, hrest, List.length_cons, List.length_append]
              omega
            rw [encode_cons, hm.eq_utf8EncodeChar hvalid, ih _ shorter _ _ hds rfl, hrest,
              List.cons_append]
          obtain ⟨out, next, hbegin⟩ : ∃ out next, begin a = (out, next) := ⟨_, _, rfl⟩
          rw [piecesAfter, feed, hbegin] at h
          cases next with
          | none =>
              rcases begin_eq_done hbegin with rfl | ⟨ha, rfl⟩
              · cases cs <;> cases h
              · cases cs with
                | nil => cases h
                | cons c ds =>
                    rw [List.singleton_append, List.map_cons, List.cons.injEq,
                      Option.some.injEq] at h
                    rw [← h.1]
                    exact spelt rfl (.one ha rfl) (by simp only [Nat.isValidChar]; omega) h.2
          | some p =>
              obtain ⟨rfl, -⟩ := begin_eq_pending hbegin
              obtain ⟨front, rest', m, ds, hrest, hm, hvalid, rfl, hds⟩ :=
                exists_spells_of_begin hbegin h
              exact spelt hrest hm hvalid hds

theorem encode_of_decode? {bs : Bytes} {cs : List Char} (h : decode? bs = some cs) :
    encode cs = bs :=
  encode_of_piecesAfter_none bs cs ((mapM_id_eq_some_iff _ _).mp h)

theorem ofString_of_toString? {bs : Bytes} {s : String} (h : toString? bs = some s) :
    ofString s = bs := by
  obtain ⟨cs, hcs, rfl⟩ := Option.map_eq_some_iff.mp h
  rw [ofString, String.toList_ofList, encode_of_decode? hcs]

end Utf8
end BuildFront
