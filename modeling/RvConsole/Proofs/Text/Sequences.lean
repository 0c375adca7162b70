import RvConsole.Proofs.Text.Runes
import RvConsole.Text.Integer

/-! Runes of texts put together.

A rune is a stray byte or a whole sequence, and a whole sequence is decided by its own bytes, whatever follows
them (`Rune.stray_or_whole`). So the runes of two texts are those of the texts put together unless a rune reaches
from one into the other (`runes_append`), and runes that stand one after the other in a text are the runes of
their own text (`runes_ofRunes`). None of this needs the text to be valid. Nor does lower case: it takes the case
of ASCII letters from any text (`lower_map_lowerByte`). A text without stray bytes is the encoding of its code points
(`ofCodes_runes`). -/
namespace RvConsole

/-! ### Whole sequences -/

namespace Rune
variable {b c : UInt8} {rest s t : Text}

/-- A byte that starts no sequence here. -/
def stray (b : UInt8) : Rune := ⟨replacement, [b]⟩

/-- A rune that is a whole sequence: its own bytes decide it, whatever follows them. -/
def IsWhole (b : UInt8) (rest : Text) : Prop :=
  (first b rest).bytes.length = sequenceLength b ∧ sequenceLength b ≤ rest.length + 1 ∧
    ∀ more, first b (rest.take (sequenceLength b - 1) ++ more) = first b rest

/-- A rune is a stray byte or a whole sequence. -/
theorem stray_or_whole (b : UInt8) (rest : Text) : first b rest = stray b ∨ IsWhole b rest := by
  unfold IsWhole
  fun_cases first b rest with
  | case1 h | case2 _ _ h | case4 _ _ _ h | case6 _ _ _ _ h =>
    right
    simp [first, *]
  | case3 | case5 | case7 | case8 => exact .inl rfl

/-- A byte that belongs inside a sequence starts none. -/
theorem first_of_isTail (h : isTail b = true) (rest : Text) : first b rest = stray b := by
  have hlength : sequenceLength b = 0 := by
    simp only [isTail, Bool.and_eq_true, decide_eq_true_eq, UInt8.le_iff_toNat_le, UInt8.reduceToNat] at h
    simp only [sequenceLength, UInt8.lt_iff_toNat_lt, UInt8.reduceToNat]
    rw [if_neg (by omega), if_pos (by omega)]
  rcases stray_or_whole b rest with hstray | ⟨hbytes, -⟩
  · exact hstray
  · rw [bytes_first, List.length_cons, hlength] at hbytes
    omega

namespace IsWhole

theorem isTail (h : IsWhole b s) : ∀ c ∈ s.take (sequenceLength b - 1), isTail c = true := by
  have htail := isTail_of_mem_tail b s
  rwa [bytes_first, List.tail_cons, h.1] at htail

theorem congr (h : IsWhole b s) (ht : t.take (sequenceLength b - 1) = s.take (sequenceLength b - 1)) :
    first b t = first b s := by
  rw [← h.2.2 (t.drop (sequenceLength b - 1)), ← ht, List.take_append_drop]

theorem append (h : IsWhole b s) (t : Text) : first b (s ++ t) = first b s := by
  have hlength := h.2.1
  exact h.congr (List.take_append_of_le_length (by omega))

end IsWhole

/-- A rune that ends where a text ends, or before, is the first of that text. -/
theorem first_of_length (h : (first b (s ++ t)).bytes.length ≤ s.length + 1) : first b (s ++ t) = first b s := by
  rcases stray_or_whole b s with hstray | hwhole
  · rcases stray_or_whole b (s ++ t) with hstray' | hwhole
    · rw [hstray, hstray']
    · have hlength := hwhole.1
      exact (hwhole.congr (List.take_append_of_le_length (by omega)).symm).symm
  · exact hwhole.append t

/-- What follows a text does not change its runes if it does not start inside a sequence. -/
theorem first_append_of_head (ht : ∀ c ∈ t.head?, isTail c = false) : first b (s ++ t) = first b s := by
  by_contra hne
  have hlength : s.length + 1 < (first b (s ++ t)).bytes.length := by
    by_contra hle
    exact hne (first_of_length (not_lt.mp hle))
  -- the rune would reach into what follows
  cases t with
  | nil => exact hne (by rw [List.append_nil])
  | cons c t =>
    have htail : c ∈ (first b (s ++ c :: t)).bytes.tail := by
      rw [bytes_first, List.tail_cons, List.mem_take_iff_getElem]
      refine ⟨s.length, ?_, ?_⟩
      · simp
        omega
      · simp
    have := isTail_of_mem_tail _ _ c htail
    rw [ht c rfl] at this
    cases this

/-! ### Code points -/

theorem toNat_of_isTail {c : UInt8} (h : isTail c = true) : 0x80 ≤ c.toNat ∧ c.toNat ≤ 0xBF := by
  simp only [isTail, Bool.and_eq_true, decide_eq_true_eq, UInt8.le_iff_toNat_le] at h
  exact h

/-- The first byte of a sequence, by its length. -/
theorem toNat_of_sequenceLength (b : UInt8) :
    (sequenceLength b = 1 → b.toNat < 0x80) ∧
      (sequenceLength b = 2 → 0xC2 ≤ b.toNat ∧ b.toNat < 0xE0) ∧
      (sequenceLength b = 3 → 0xE0 ≤ b.toNat ∧ b.toNat < 0xF0) ∧
      (sequenceLength b = 4 → 0xF0 ≤ b.toNat ∧ b.toNat < 0xF5) := by
  have hliteral : UInt8.toNat 0x80 = 0x80 ∧ UInt8.toNat 0xC2 = 0xC2 ∧ UInt8.toNat 0xE0 = 0xE0 ∧
      UInt8.toNat 0xF0 = 0xF0 ∧ UInt8.toNat 0xF5 = 0xF5 := by decide
  unfold sequenceLength
  simp only [UInt8.lt_iff_toNat_lt]
  refine ⟨fun h => ?_, fun h => ?_, fun h => ?_, fun h => ?_⟩ <;> split_ifs at h <;> omega

/-- The second byte keeps a sequence from being longer than it need be, from surrogates and from numbers too large. -/
theorem toNat_of_inSecond {b c : UInt8} (h : inSecond b c = true) :
    (b.toNat = 0xE0 → 0xA0 ≤ c.toNat) ∧ (b.toNat = 0xED → c.toNat ≤ 0x9F) ∧
      (b.toNat = 0xF0 → 0x90 ≤ c.toNat) ∧ (b.toNat = 0xF4 → c.toNat ≤ 0x8F) := by
  simp only [inSecond, Bool.and_eq_true, decide_eq_true_eq, UInt8.le_iff_toNat_le] at h
  obtain ⟨hlow, hhigh⟩ := h
  refine ⟨fun hb => ?_, fun hb => ?_, fun hb => ?_, fun hb => ?_⟩
  · obtain rfl : b = 0xE0 := UInt8.toNat_inj.mp hb
    exact hlow
  · obtain rfl : b = 0xED := UInt8.toNat_inj.mp hb
    exact hhigh
  · obtain rfl : b = 0xF0 := UInt8.toNat_inj.mp hb
    exact hlow
  · obtain rfl : b = 0xF4 := UInt8.toNat_inj.mp hb
    exact hhigh

/-- A rune that is not made of stray bytes is the encoding of its code point. -/
theorem encode_first {b : UInt8} {rest : Text} (h : (first b rest).code ≠ replacement) :
    encode (first b rest).code = (first b rest).bytes := by
  obtain ⟨hone, htwo, hthree, hfour⟩ := toNat_of_sequenceLength b
  revert h
  fun_cases first b rest with
  | case1 rest hlength =>
    intro _
    simp [encode, hone hlength]
  | case2 c _ hlength hc =>
    intro _
    have hb := htwo hlength
    have hc := toNat_of_isTail hc
    simp only [tailBits]
    rw [encode, if_neg (by omega), if_pos (by omega)]
    simp only [List.cons.injEq, and_true, ← UInt8.toNat_inj, Nat.toUInt8, UInt8.toNat_ofNat']
    omega
  | case4 c d _ hlength hcd =>
    intro _
    obtain ⟨hsecond, hd⟩ := Bool.and_eq_true_iff.mp hcd
    have hb := hthree hlength
    have hc := toNat_of_isTail (isTail_of_inSecond hsecond)
    have hd := toNat_of_isTail hd
    obtain ⟨hlow, hhigh, -, -⟩ := toNat_of_inSecond hsecond
    simp only [tailBits]
    rw [encode, if_neg (by omega), if_neg (by omega), if_neg (by omega), if_pos (by omega)]
    simp only [List.cons.injEq, and_true, ← UInt8.toNat_inj, Nat.toUInt8, UInt8.toNat_ofNat']
    omega
  | case6 c d e _ hlength hcde =>
    intro _
    simp only [Bool.and_eq_true] at hcde
    have hb := hfour hlength
    have hc := toNat_of_isTail (isTail_of_inSecond hcde.1.1)
    have hd := toNat_of_isTail hcde.1.2
    have he := toNat_of_isTail hcde.2
    obtain ⟨-, -, hlow, hhigh⟩ := toNat_of_inSecond hcde.1.1
    simp only [tailBits]
    rw [encode, if_neg (by omega), if_neg (by omega), if_neg (by omega), if_neg (by omega)]
    simp only [List.cons.injEq, and_true, ← UInt8.toNat_inj, Nat.toUInt8, UInt8.toNat_ofNat']
    omega
  | _ => exact fun h => absurd rfl h

end Rune

namespace Text
variable {s t : Text} {rs : List Rune}

/-! ### Texts put together -/

theorem runesFrom_eq_drop (skip : Nat) (t : Text) : runesFrom skip t = runes (t.drop skip) := by
  fun_induction runesFrom skip t with
  | case1 => simp [runes, runesFrom]
  | case2 skip b rest ih => exact ih
  | case3 b rest r ih => rfl

theorem runes_cons (b : UInt8) (rest : Text) :
    runes (b :: rest) = Rune.first b rest :: runes (rest.drop ((Rune.first b rest).bytes.length - 1)) := by
  rw [← runesFrom_eq_drop]
  rfl

/-- What holds of no text, and of a text if it holds of what follows its first rune, holds of all texts. -/
theorem rune_induction {P : Text → Prop} (nil : P [])
    (cons : ∀ b rest, P (rest.drop ((Rune.first b rest).bytes.length - 1)) → P (b :: rest)) (t : Text) : P t := by
  induction hn : t.length using Nat.strong_induction_on generalizing t with
  | _ n ih =>
    cases t with
    | nil => exact nil
    | cons b rest =>
      refine cons b rest (ih _ ?_ _ rfl)
      rw [List.length_drop, ← hn, List.length_cons]
      omega

/-- The runes of two texts are those of the texts put together, if none reaches from one into the other. -/
theorem runes_append (h : ∀ b rest, Rune.first b rest ∈ s.runes → Rune.first b (rest ++ t) = Rune.first b rest) :
    (s ++ t).runes = s.runes ++ t.runes := by
  induction s using rune_induction with
  | nil => rfl
  | cons b rest ih =>
    rw [runes_cons] at h
    have hfirst := h b rest List.mem_cons_self
    have hrest := ih fun b' rest' hmem => h b' rest' (List.mem_cons_of_mem _ hmem)
    have hlength : (Rune.first b rest).bytes.length - 1 ≤ rest.length := by
      have hbytes := congrArg List.length (Rune.bytes_first b rest)
      rw [List.length_cons, List.length_take] at hbytes
      omega
    rw [List.cons_append, runes_cons, runes_cons, hfirst, List.drop_append_of_le_length hlength, hrest,
      List.cons_append]

theorem runes_ascii_append (h : Ascii s) (t : Text) : (s ++ t).runes = s.map asciiRune ++ t.runes := by
  induction s with
  | nil => rfl
  | cons b rest ih =>
    obtain ⟨hb, hrest⟩ := List.forall_mem_cons.mp h
    rw [List.cons_append, runes_cons, first_of_ascii hb, List.map_cons, List.cons_append, ← ih hrest]
    rfl

/-- **A text without stray bytes is the encoding of its code points.** -/
theorem ofCodes_runes (h : ∀ r ∈ t.runes, r.code ≠ Rune.replacement) : ofCodes (t.runes.map Rune.code) = t := by
  have hencode : t.runes.flatMap (fun r => Rune.encode r.code) = t.runes.flatMap Rune.bytes := by
    apply List.flatMap_congr
    intro r hr
    obtain ⟨b, rest, rfl⟩ := exists_first_of_mem hr
    exact Rune.encode_first (h _ hr)
  rw [ofCodes, List.flatMap_map, hencode]
  exact ofRunes_runes t

/-- The last runes of a text are the runes of their own text. -/
theorem runes_ofRunes_of_suffix (h : rs <:+ t.runes) : (ofRunes rs).runes = rs := by
  induction t using rune_induction with
  | nil =>
    obtain rfl := List.suffix_nil.mp h
    rfl
  | cons b rest ih =>
    rw [runes_cons] at h
    rcases List.suffix_cons_iff.mp h with rfl | h
    · rw [← runes_cons, ofRunes_runes]
    · exact ih h

/-- The first runes of a text are the runes of their own text. -/
theorem runes_ofRunes_of_initial (h : rs <+: t.runes) : (ofRunes rs).runes = rs := by
  induction t using rune_induction generalizing rs with
  | nil =>
    obtain rfl := List.prefix_nil.mp h
    rfl
  | cons b rest ih =>
    cases rs with
    | nil => rfl
    | cons r rs =>
      rw [runes_cons] at h
      obtain ⟨rfl, hinit⟩ := List.cons_prefix_cons.mp h
      have hrs := ih hinit
      obtain ⟨more, hmore⟩ := hinit
      -- the text starts with the bytes of its first rune and of those behind it
      have hbytes := Rune.bytes_first b rest
      have hlength := congrArg List.length hbytes
      generalize hk : (Rune.first b rest).bytes.length - 1 = k at hbytes hmore hlength
      rw [List.length_cons, List.length_take] at hlength
      have hrest : rest = (rest.take k ++ ofRunes rs) ++ ofRunes more := by
        have hdrop : ofRunes rs ++ ofRunes more = rest.drop k := by
          rw [← ofRunes_runes (rest.drop k), ← hmore, ofRunes, ofRunes, ofRunes, List.flatMap_append]
        rw [List.append_assoc, hdrop, List.take_append_drop]
      have hfirst : Rune.first b (rest.take k ++ ofRunes rs) = Rune.first b rest := by
        conv_rhs => rw [hrest]
        refine (Rune.first_of_length ?_).symm
        rw [← hrest, List.length_append, List.length_take]
        omega
      have htext : ofRunes (Rune.first b rest :: rs) = b :: (rest.take k ++ ofRunes rs) := by
        rw [ofRunes, List.flatMap_cons, hbytes]
        rfl
      have htake : (rest.take k).length = k := by
        rw [List.length_take]
        omega
      rw [htext, runes_cons, hfirst, hk, List.drop_left' htake, hrs]

/-- Runes that stand one after the other in a text are the runes of their own text. -/
theorem runes_ofRunes (h : rs <:+: t.runes) : (ofRunes rs).runes = rs := by
  obtain ⟨before, after, h⟩ := h
  have hsuffix : rs ++ after <:+ t.runes := ⟨before, by rw [← h, List.append_assoc]⟩
  have hruns := runes_ofRunes_of_suffix hsuffix
  exact runes_ofRunes_of_initial (hruns ▸ List.prefix_append rs after)

/-! ### Letter case -/

theorem toNat_lowerByte (b : UInt8) :
    (lowerByte b).toNat = if 65 ≤ b.toNat ∧ b.toNat ≤ 90 then b.toNat + 32 else b.toNat := by
  simp only [lowerByte, UInt8.le_iff_toNat_le, UInt8.reduceToNat]
  split_ifs
  · rw [UInt8.toNat_add]
    simp only [UInt8.reduceToNat]
    omega
  · rfl

theorem lowerByte_of_isTail {b : UInt8} (h : Rune.isTail (lowerByte b) = true ∨ Rune.isTail b = true) :
    lowerByte b = b := by
  have hlower := toNat_lowerByte b
  apply UInt8.toNat.inj
  simp only [Rune.isTail, Bool.and_eq_true, decide_eq_true_eq, UInt8.le_iff_toNat_le, UInt8.reduceToNat] at h
  split_ifs at hlower <;> omega

/-- Inside a sequence there are no letters. -/
theorem first_map_lowerByte (b : UInt8) (rest : Text) : Rune.first b (rest.map lowerByte) = Rune.first b rest := by
  have hfixed {k : Nat} (h : ∀ c ∈ rest.take k, lowerByte c = c) : (rest.map lowerByte).take k = rest.take k := by
    rw [← List.map_take]
    exact (List.map_congr_left h).trans (List.map_id _)
  rcases Rune.stray_or_whole b rest with hstray | hwhole
  · rcases Rune.stray_or_whole b (rest.map lowerByte) with hstray' | hwhole
    · rw [hstray, hstray']
    · refine (hwhole.congr (hfixed fun c hc => lowerByte_of_isTail (.inl ?_)).symm).symm
      apply hwhole.isTail
      rw [← List.map_take]
      exact List.mem_map_of_mem hc
  · exact hwhole.congr (hfixed fun c hc => lowerByte_of_isTail (.inr (hwhole.isTail c hc)))

/-- A letter in the other case is a rune of the same length, the same letter in lower case, and no white space. -/
theorem first_lowerByte (b : UInt8) (rest : Text) :
    (Rune.first (lowerByte b) (rest.map lowerByte)).bytes.length = (Rune.first b rest).bytes.length ∧
      lowerCode (Rune.first (lowerByte b) (rest.map lowerByte)).code = lowerCode (Rune.first b rest).code ∧
      (Rune.first (lowerByte b) (rest.map lowerByte)).isBlank = (Rune.first b rest).isBlank := by
  have hlower := toNat_lowerByte b
  by_cases hb : b.toNat < 128
  · have hb' : (lowerByte b).toNat < 128 := by split_ifs at hlower <;> omega
    rw [first_of_ascii hb, first_of_ascii hb']
    refine ⟨rfl, ?_, ?_⟩
    · show lowerCode (lowerByte b).toNat = lowerCode b.toNat
      rw [lowerCode, lowerCode, if_pos hb, if_pos hb']
      split_ifs at hlower ⊢ <;> omega
    · show isBlankCode (lowerByte b).toNat = isBlankCode b.toNat
      split_ifs at hlower with hletter
      · have hnot {c : Nat} (hc : 65 ≤ c ∧ c ≤ 122) : isBlankCode c = false := by
          simp only [isBlankCode, Bool.or_eq_false_iff, Bool.and_eq_false_iff, decide_eq_false_iff_not,
            beq_eq_false_iff_ne]
          omega
        rw [hnot (by omega), hnot (by omega)]
      · rw [hlower]
  · have hfixed : lowerByte b = b := by
      apply UInt8.toNat.inj
      split_ifs at hlower <;> omega
    rw [hfixed, first_map_lowerByte]
    exact ⟨rfl, rfl, rfl⟩

theorem lower_cons (b : UInt8) (rest : Text) : lower (b :: rest) =
    Rune.encode (lowerCode (Rune.first b rest).code) ++
      lower (rest.drop ((Rune.first b rest).bytes.length - 1)) := by
  rw [lower, runes_cons]
  rfl

/-- The case of ASCII letters makes no difference in lower case. -/
theorem lower_map_lowerByte (t : Text) : lower (t.map lowerByte) = lower t := by
  induction t using rune_induction with
  | nil => rfl
  | cons b rest ih =>
    obtain ⟨hlength, hcode, -⟩ := first_lowerByte b rest
    rw [List.map_cons, lower_cons, lower_cons, hlength, hcode, ← List.map_drop, ih]

theorem blankless_map_lowerByte (t : Text) : Blankless (t.map lowerByte) ↔ Blankless t := by
  induction t using rune_induction with
  | nil => rfl
  | cons b rest ih =>
    obtain ⟨hlength, -, hblank⟩ := first_lowerByte b rest
    rw [Blankless, Blankless, List.map_cons, runes_cons, runes_cons, hlength, ← List.map_drop, List.forall_mem_cons,
      List.forall_mem_cons, hblank]
    exact and_congr_right' ih

end Text

end RvConsole
