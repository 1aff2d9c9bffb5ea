import Mathlib
import LogWatch.Text.Utf8

/-!
Reading bytes that may be damaged.

The bytes of a character are those that its first byte asks for, and no others are read as that
character. Damage does not spread: a piece ends at the latest before the next byte that can start
one, so what comes before a character does not change how the character is read. So a text stands
in what is read where its bytes stand in the bytes, and nowhere else, except for replacement
characters.
-/

namespace LogWatch.Text

/-! ### The bytes of a character -/

/-- The bytes of the character with the number `n`. -/
inductive Encoded (n : ℕ) : List UInt8 → Prop
  | one {a : UInt8} (lt : n < 0x80) (first : a.toNat = n) : Encoded n [a]
  | two {a b : UInt8} (ge : 0x80 ≤ n) (lt : n < 0x800) (first : a.toNat = 0xc0 + n / 0x40)
      (second : b.toNat = 0x80 + n % 0x40) : Encoded n [a, b]
  | three {a b c : UInt8} (ge : 0x800 ≤ n) (lt : n < 0x10000)
      (first : a.toNat = 0xe0 + n / 0x1000) (second : b.toNat = 0x80 + n / 0x40 % 0x40)
      (third : c.toNat = 0x80 + n % 0x40) : Encoded n [a, b, c]
  | four {a b c d : UInt8} (ge : 0x10000 ≤ n) (lt : n < 0x110000)
      (first : a.toNat = 0xf0 + n / 0x40000) (second : b.toNat = 0x80 + n / 0x1000 % 0x40)
      (third : c.toNat = 0x80 + n / 0x40 % 0x40) (fourth : d.toNat = 0x80 + n % 0x40) :
      Encoded n [a, b, c, d]

lemma toNat_lt (c : Char) : c.toNat < 0xd800 ∨ 0xdfff < c.toNat ∧ c.toNat < 0x110000 := c.valid

lemma encoded_utf8EncodeChar (c : Char) : Encoded c.toNat (String.utf8EncodeChar c) := by
  have hvalid := toNat_lt c
  have hbyte : ∀ n m, n < 0x100 → n = m → (UInt8.ofNat n).toNat = m := fun n m hlt hn => by
    rw [UInt8.toNat_ofNat_of_lt' hlt, hn]
  unfold String.utf8EncodeChar
  rw [show c.val.toNat = c.toNat from rfl]
  dsimp only
  split_ifs with h₁ h₂ h₃
  · exact .one (by omega) (hbyte _ _ (by omega) rfl)
  · refine .two (by omega) (by omega) (hbyte _ _ ?_ ?_) (hbyte _ _ ?_ ?_) <;> omega
  · refine .three (by omega) (by omega) (hbyte _ _ ?_ ?_) (hbyte _ _ ?_ ?_)
      (hbyte _ _ ?_ ?_) <;> omega
  · refine .four (by omega) (by omega) (hbyte _ _ ?_ ?_) (hbyte _ _ ?_ ?_) (hbyte _ _ ?_ ?_)
      (hbyte _ _ ?_ ?_) <;> omega

lemma Encoded.unique {n : ℕ} {bytes bytes' : List UInt8} (h : Encoded n bytes)
    (h' : Encoded n bytes') : bytes = bytes' := by
  cases h <;> cases h' <;> first
    | omega
    | simp only [List.cons.injEq, and_true, ← UInt8.toNat_inj]; omega

lemma encoded_iff {c : Char} {bytes : List UInt8} :
    Encoded c.toNat bytes ↔ bytes = String.utf8EncodeChar c := by
  refine ⟨fun h => h.unique (encoded_utf8EncodeChar c), ?_⟩
  rintro rfl
  exact encoded_utf8EncodeChar c

lemma Encoded.eq_toNat {n : ℕ} {bytes : List UInt8} (h : Encoded n bytes) {b : UInt8}
    (hb : b ∈ bytes) (hlt : b.toNat < 0x80) : n = b.toNat := by
  cases h with
  | one _ first =>
    rw [List.mem_singleton.mp hb]
    exact first.symm
  | two | three | four =>
    simp only [List.mem_cons, List.not_mem_nil, or_false] at hb
    rcases hb with rfl | rfl | rfl | rfl <;> omega

lemma mem_of_mem_encode {p : String} {b : UInt8} (h : b ∈ encode p) (hlt : b.toNat < 0x80) :
    Char.ofNat b.toNat ∈ p.toList := by
  obtain ⟨c, hc, hb⟩ := List.mem_flatMap.mp h
  rwa [← (encoded_utf8EncodeChar c).eq_toNat hb hlt, Char.ofNat_toNat]

/-! ### What a first byte asks for -/

/-- The byte lies in the range. -/
def Within (b : UInt8) (range : UInt8 × UInt8) : Prop :=
  range.1.toNat ≤ b.toNat ∧ b.toNat ≤ range.2.toNat

/-- The bytes that may follow a first byte. -/
inductive Asks (a : UInt8) : List (UInt8 × UInt8) → Prop
  | one (lt : a.toNat < 0x80) : Asks a []
  | two (ge : 0xc2 ≤ a.toNat) (lt : a.toNat < 0xe0) : Asks a [(0x80, 0xbf)]
  | three {lo hi : UInt8} (ge : 0xe0 ≤ a.toNat) (lt : a.toNat < 0xf0)
      (lo_eq : a.toNat = 0xe0 ∧ lo.toNat = 0xa0 ∨ a.toNat ≠ 0xe0 ∧ lo.toNat = 0x80)
      (hi_eq : a.toNat = 0xed ∧ hi.toNat = 0x9f ∨ a.toNat ≠ 0xed ∧ hi.toNat = 0xbf) :
      Asks a [(lo, hi), (0x80, 0xbf)]
  | four {lo hi : UInt8} (ge : 0xf0 ≤ a.toNat) (le : a.toNat ≤ 0xf4)
      (lo_eq : a.toNat = 0xf0 ∧ lo.toNat = 0x90 ∨ a.toNat ≠ 0xf0 ∧ lo.toNat = 0x80)
      (hi_eq : a.toNat = 0xf4 ∧ hi.toNat = 0x8f ∨ a.toNat ≠ 0xf4 ∧ hi.toNat = 0xbf) :
      Asks a [(lo, hi), (0x80, 0xbf), (0x80, 0xbf)]

/-- A byte that starts no character is one that follows others, or it is never used. -/
lemma tails_spec (a : UInt8) :
    (∃ ranges, tails a = some ranges ∧ Asks a ranges) ∨
      tails a = none ∧ (0x80 ≤ a.toNat ∧ a.toNat < 0xc2 ∨ 0xf4 < a.toNat) := by
  fun_cases tails a <;>
    simp only [UInt8.lt_iff_toNat_lt, ← UInt8.toNat_inj, UInt8.reduceToNat] at *
  case case1 lt => exact .inl ⟨_, rfl, .one lt⟩
  case case3 => exact .inl ⟨_, rfl, .two (by omega) (by omega)⟩
  -- the first bytes that allow only some of the bytes after them stand apart
  case case4 | case5 | case6 =>
    exact .inl ⟨_, rfl, .three (by omega) (by omega) (by simp; omega) (by simp; omega)⟩
  case case7 | case8 | case9 =>
    exact .inl ⟨_, rfl, .four (by omega) (by omega) (by simp; omega) (by simp; omega)⟩
  case case2 | case10 => exact .inr ⟨trivial, by omega⟩

lemma asks_of_tails {a : UInt8} {ranges : List (UInt8 × UInt8)} (h : tails a = some ranges) :
    Asks a ranges := by
  obtain ⟨ranges', hranges, hasks⟩ | ⟨hnone, -⟩ := tails_spec a
  · rw [hranges] at h
    exact Option.some.inj h ▸ hasks
  · rw [hnone] at h
    cases h

lemma Asks.bounds {a : UInt8} {ranges : List (UInt8 × UInt8)} (h : Asks a ranges) :
    ∀ range ∈ ranges, 0x80 ≤ range.1.toNat ∧ range.2.toNat ≤ 0xbf := by
  cases h with
  | one => simp
  | two => simp
  | three _ _ hlo hhi =>
    simp only [List.forall_mem_cons, List.not_mem_nil, false_imp_iff, implies_true, and_true]
    exact ⟨by omega, by simp⟩
  | four _ _ hlo hhi =>
    simp only [List.forall_mem_cons, List.not_mem_nil, false_imp_iff, implies_true, and_true]
    exact ⟨by omega, by simp, by simp⟩

section Character

variable (a b c d : UInt8)

lemma character_one : character a [] = Char.ofNat a.toNat := rfl

lemma character_two :
    character a [b] = Char.ofNat (a.toNat % 0x20 * 0x40 + b.toNat % 0x40) := rfl

lemma character_three : character a [b, c] =
    Char.ofNat ((a.toNat % 0x10 * 0x40 + b.toNat % 0x40) * 0x40 + c.toNat % 0x40) := rfl

lemma character_four : character a [b, c, d] = Char.ofNat
    (((a.toNat % 0x08 * 0x40 + b.toNat % 0x40) * 0x40 + c.toNat % 0x40) * 0x40 +
      d.toNat % 0x40) := rfl

end Character

lemma Encoded.asked {c : Char} {a : UInt8} {tail : List UInt8} (h : Encoded c.toNat (a :: tail)) :
    ∃ ranges, tails a = some ranges ∧ List.Forall₂ Within tail ranges ∧ character a tail = c := by
  have hvalid := toNat_lt c
  have hchar : ∀ n, n = c.toNat → Char.ofNat n = c := fun n hn => by rw [hn, Char.ofNat_toNat]
  obtain ⟨ranges, htails, hasks⟩ | ⟨-, hnone⟩ := tails_spec a
  · refine ⟨ranges, htails, ?_⟩
    -- the number of bytes tells which ranges these are
    cases h with
    | one lt first =>
      cases hasks <;> try omega
      exact ⟨.nil, hchar _ first⟩
    | two ge lt first second =>
      cases hasks <;> try omega
      rw [character_two]
      refine ⟨?_, hchar _ (by omega)⟩
      simp only [List.forall₂_cons, List.Forall₂.nil, and_true, Within, UInt8.reduceToNat]
      omega
    | three ge lt first second third =>
      cases hasks <;> try omega
      rw [character_three]
      refine ⟨?_, hchar _ (by omega)⟩
      simp only [List.forall₂_cons, List.Forall₂.nil, and_true, Within, UInt8.reduceToNat]
      omega
    | four ge lt first second third fourth =>
      cases hasks <;> try omega
      rw [character_four]
      refine ⟨?_, hchar _ (by omega)⟩
      simp only [List.forall₂_cons, List.Forall₂.nil, and_true, Within, UInt8.reduceToNat]
      omega
  · cases h <;> omega

lemma encoded_character {a : UInt8} {tail : List UInt8} {ranges : List (UInt8 × UInt8)}
    (htails : tails a = some ranges) (hwithin : List.Forall₂ Within tail ranges) :
    Encoded (character a tail).toNat (a :: tail) := by
  -- the number that such bytes make is the number of a character
  have hnat : ∀ n, n < 0xd800 ∨ 0xdfff < n ∧ n < 0x110000 → (Char.ofNat n).toNat = n :=
    fun n hn => by rw [Char.toNat_ofNat, if_pos hn]
  cases asks_of_tails htails with
  | one lt =>
    cases hwithin
    rw [character_one, hnat _ (by omega)]
    exact .one lt rfl
  | two ge lt =>
    rcases hwithin with _ | ⟨hb, ⟨⟩⟩
    simp only [Within, UInt8.reduceToNat] at hb
    rw [character_two, hnat _ (by omega)]
    exact .two (by omega) (by omega) (by omega) (by omega)
  | three ge lt =>
    rcases hwithin with _ | ⟨hb, _ | ⟨hc, ⟨⟩⟩⟩
    simp only [Within, UInt8.reduceToNat] at hb hc
    rw [character_three, hnat _ (by omega)]
    exact .three (by omega) (by omega) (by omega) (by omega) (by omega)
  | four ge le =>
    rcases hwithin with _ | ⟨hb, _ | ⟨hc, _ | ⟨hd, ⟨⟩⟩⟩⟩
    simp only [Within, UInt8.reduceToNat] at hb hc hd
    rw [character_four, hnat _ (by omega)]
    exact .four (by omega) (by omega) (by omega) (by omega) (by omega) (by omega)

/-! ### Piece after piece -/

section Fitting

variable {ranges : List (UInt8 × UInt8)} {bytes more tail : List UInt8}

lemma fitting_isPrefix (ranges : List (UInt8 × UInt8)) (bytes : List UInt8) :
    fitting ranges bytes <+: bytes := by
  fun_induction fitting ranges bytes with
  | case1 lo hi ranges b bytes hfits ih => exact (List.prefix_cons_inj b).mpr ih
  | case2 => exact List.nil_prefix
  | case3 => exact List.nil_prefix

lemma fitting_of_within (h : List.Forall₂ Within tail ranges) (more : List UInt8) :
    fitting ranges (tail ++ more) = tail := by
  induction h with
  | nil => cases more <;> rfl
  | cons hb _ ih =>
    rw [List.cons_append, fitting, if_pos, ih]
    exact ⟨UInt8.le_iff_toNat_le.mpr hb.1, UInt8.le_iff_toNat_le.mpr hb.2⟩

lemma within_of_fitting (h : (fitting ranges bytes).length = ranges.length) :
    List.Forall₂ Within (fitting ranges bytes) ranges := by
  fun_induction fitting ranges bytes with
  | case1 lo hi ranges b bytes hfits ih =>
    refine .cons ?_ (ih (Nat.succ.inj h))
    exact ⟨UInt8.le_iff_toNat_le.mp hfits.1, UInt8.le_iff_toNat_le.mp hfits.2⟩
  | case2 => simp at h
  | case3 ranges bytes hnot =>
    cases ranges with
    | nil => exact .nil
    | cons range ranges => simp at h

lemma fitting_append {b : UInt8} (h : ∀ range ∈ ranges, ¬ Within b range) :
    fitting ranges (bytes ++ b :: more) = fitting ranges bytes := by
  fun_induction fitting ranges bytes with
  | case1 lo hi ranges x bytes hfits ih =>
    rw [List.cons_append, fitting, if_pos hfits,
      ih fun range hrange => h range (List.mem_cons_of_mem _ hrange)]
  | case2 lo hi ranges x bytes hnot => rw [List.cons_append, fitting, if_neg hnot]
  -- where the bytes end, the byte that comes might fit the next range
  | case3 ranges bytes hnot =>
    cases ranges with
    | nil => cases bytes <;> rfl
    | cons range ranges =>
      cases bytes with
      | cons x bytes => exact absurd rfl (hnot _ _ _ _ _ rfl)
      | nil =>
        refine if_neg fun hfits => h range List.mem_cons_self ?_
        exact ⟨UInt8.le_iff_toNat_le.mp hfits.1, UInt8.le_iff_toNat_le.mp hfits.2⟩

end Fitting

variable {bytes more : List UInt8}

lemma decodeFrom_eq (n : ℕ) (bytes : List UInt8) : decodeFrom n bytes = decode (bytes.drop n) := by
  induction bytes generalizing n with
  | nil => cases n <;> rfl
  | cons b bytes ih =>
    cases n with
    | zero => rfl
    | succ n => exact ih n

lemma decode_of_none {b : UInt8} (h : tails b = none) (bytes : List UInt8) :
    decode (b :: bytes) = none :: decode bytes := by
  rw [decode, decodeFrom, h]
  rfl

lemma decode_of_some {b : UInt8} {ranges : List (UInt8 × UInt8)} (h : tails b = some ranges)
    (bytes : List UInt8) :
    decode (b :: bytes) =
      (if (fitting ranges bytes).length = ranges.length then
        some (character b (fitting ranges bytes)) else none)
        :: decode (bytes.drop (fitting ranges bytes).length) := by
  rw [decode, decodeFrom, h]
  simp only [decodeFrom_eq]

lemma exists_piece {x : Option Char} {rest : List (Option Char)} (h : decode bytes = x :: rest) :
    ∃ piece more, bytes = piece ++ more ∧ decode more = rest ∧
      ∀ c, x = some c → piece = String.utf8EncodeChar c := by
  cases bytes with
  | nil => cases h
  | cons b bytes =>
    obtain ⟨ranges, htails, -⟩ | ⟨hnone, -⟩ := tails_spec b
    · rw [decode_of_some htails] at h
      obtain ⟨hx, hrest⟩ := List.cons.inj h
      have hsplit := List.prefix_iff_eq_append.mp (fitting_isPrefix ranges bytes)
      refine ⟨b :: fitting ranges bytes, _, ?_, hrest, fun c hc => ?_⟩
      · rw [List.cons_append, hsplit]
      · rw [hc] at hx
        split at hx
        · rename_i hlength
          have hencoded := encoded_character htails (within_of_fitting hlength)
          rw [Option.some.inj hx] at hencoded
          exact encoded_iff.mp hencoded
        · cases hx
    · rw [decode_of_none hnone] at h
      obtain ⟨rfl, hrest⟩ := List.cons.inj h
      exact ⟨[b], bytes, rfl, hrest, fun c hc => by cases hc⟩

lemma exists_split {front rest : List (Option Char)} (h : decode bytes = front ++ rest) :
    ∃ before more, bytes = before ++ more ∧ decode more = rest := by
  induction front generalizing bytes with
  | nil => exact ⟨[], bytes, rfl, h⟩
  | cons x front ih =>
    obtain ⟨piece, more, rfl, hmore, -⟩ := exists_piece h
    obtain ⟨before, more', rfl, hmore'⟩ := ih hmore
    exact ⟨piece ++ before, more', (List.append_assoc ..).symm, hmore'⟩

lemma exists_more_of_decode {p : List Char} {rest : List (Option Char)}
    (h : decode bytes = p.map some ++ rest) :
    ∃ more, bytes = p.flatMap String.utf8EncodeChar ++ more := by
  induction p generalizing bytes with
  | nil => exact ⟨bytes, rfl⟩
  | cons c p ih =>
    obtain ⟨piece, more, rfl, hmore, hpiece⟩ := exists_piece h
    obtain ⟨more', rfl⟩ := ih hmore
    rw [hpiece c rfl]
    exact ⟨more', by rw [List.flatMap_cons, List.append_assoc]⟩

lemma decode_utf8EncodeChar (c : Char) (more : List UInt8) :
    decode (String.utf8EncodeChar c ++ more) = some c :: decode more := by
  have hencoded := encoded_utf8EncodeChar c
  cases hbytes : String.utf8EncodeChar c with
  | nil => rw [hbytes] at hencoded; cases hencoded
  | cons a tail =>
    rw [hbytes] at hencoded
    obtain ⟨ranges, htails, hwithin, hchar⟩ := hencoded.asked
    rw [List.cons_append, decode_of_some htails, fitting_of_within hwithin,
      if_pos hwithin.length_eq, hchar, List.drop_left]

lemma decode_encode (p : List Char) (more : List UInt8) :
    decode (p.flatMap String.utf8EncodeChar ++ more) = p.map some ++ decode more := by
  induction p with
  | nil => rfl
  | cons c p ih =>
    rw [List.flatMap_cons, List.append_assoc, decode_utf8EncodeChar, ih]
    rfl

/-! ### Damage does not spread -/

/-- A byte that can only follow others. -/
def Follows (b : UInt8) : Prop := 0x80 ≤ b.toNat ∧ b.toNat ≤ 0xbf

lemma Encoded.not_follows {n : ℕ} {a : UInt8} {tail : List UInt8} (h : Encoded n (a :: tail)) :
    ¬ Follows a := by
  unfold Follows
  cases h <;> omega

/-- What is read ends with a piece before every byte that cannot follow others. -/
lemma decodeFrom_append {b : UInt8} (hb : ¬ Follows b) {skip : ℕ} (h : skip ≤ bytes.length) :
    decodeFrom skip (bytes ++ b :: more) = decodeFrom skip bytes ++ decode (b :: more) := by
  fun_induction decodeFrom skip bytes with
  | case1 skip =>
    rw [Nat.le_zero.mp h]
    rfl
  | case2 skip x bytes ih => exact ih (Nat.le_of_succ_le_succ h)
  | case3 x bytes hnone ih =>
    rw [List.cons_append, decodeFrom, hnone]
    exact congrArg _ (ih (Nat.zero_le _))
  | case4 x bytes ranges htails tail ih =>
    -- what follows a first byte never fits a byte that starts a character
    have hsame : fitting ranges (bytes ++ b :: more) = fitting ranges bytes :=
      fitting_append fun range hrange hwithin => by
        have hbounds := (asks_of_tails htails).bounds range hrange
        exact hb ⟨hbounds.1.trans hwithin.1, hwithin.2.trans hbounds.2⟩
    rw [List.cons_append, decodeFrom, htails]
    dsimp only
    rw [hsame, ih (fitting_isPrefix ranges bytes).length_le]
    rfl

lemma decode_append {b : UInt8} (hb : ¬ Follows b) (bytes more : List UInt8) :
    decode (bytes ++ b :: more) = decode bytes ++ decode (b :: more) :=
  decodeFrom_append hb (Nat.zero_le _)

lemma map_some_infix_decode {p : List Char} (h : p.flatMap String.utf8EncodeChar <:+: bytes) :
    p.map some <:+: decode bytes := by
  cases p with
  | nil => exact List.nil_infix
  | cons c p =>
    obtain ⟨before, after, rfl⟩ := h
    have hencoded := encoded_utf8EncodeChar c
    rw [List.append_assoc]
    -- the first byte of the text starts a character, so what stands before is read by itself
    refine ⟨decode before, decode after, ?_⟩
    rw [List.append_assoc, ← decode_encode]
    cases hbytes : String.utf8EncodeChar c with
    | nil => rw [hbytes] at hencoded; cases hencoded
    | cons a tail =>
      rw [hbytes] at hencoded
      rw [List.flatMap_cons, hbytes, List.cons_append, List.cons_append,
        decode_append hencoded.not_follows]

/-- **A text stands in what is read of bytes, damaged or not, if its bytes stand in them; and only
if, unless it has replacement characters.** -/
theorem infix_decodeLossy (p : String) (bytes : List UInt8) :
    (encode p <:+: bytes → p.toList <:+: (decodeLossy bytes).toList) ∧
      (replacement ∉ p.toList → p.toList <:+: (decodeLossy bytes).toList →
        encode p <:+: bytes) := by
  rw [decodeLossy, String.toList_ofList]
  constructor
  · intro h
    have hmap := (map_some_infix_decode h).map (·.getD replacement)
    rwa [List.map_map, show (·.getD replacement) ∘ some = (id : Char → Char) from rfl,
      List.map_id] at hmap
  · rintro hgenuine ⟨front, rest, h⟩
    -- all that is read as the text are characters, none of them a damaged part
    obtain ⟨xs, zs, hdecode, hxs, -⟩ := List.map_eq_append_iff.mp h.symm
    obtain ⟨ws, ys, rfl, -, hys⟩ := List.map_eq_append_iff.mp hxs
    have hsome : ys = p.toList.map some := by
      rw [← hys, List.map_map]
      refine (List.map_id ys).symm.trans (List.map_congr_left fun y hy => ?_)
      cases y with
      | none => exact absurd (hys ▸ List.mem_map_of_mem hy) hgenuine
      | some c => rfl
    rw [List.append_assoc, hsome] at hdecode
    obtain ⟨before, more, rfl, hmore⟩ := exists_split hdecode
    obtain ⟨after, rfl⟩ := exists_more_of_decode hmore
    exact ⟨before, after, List.append_assoc ..⟩

end LogWatch.Text
