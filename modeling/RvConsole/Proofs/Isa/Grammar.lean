import RvConsole.Proofs.Isa.Literals
import RvConsole.Proofs.Text.Trimming

/-! What a register name, a memory operand and an access set are.

Each is said without its reader: names of registers by number and by family (`Register.Named`), an offset before a
register in parentheses (`MemoryOperand.Written`), some of the accesses in their order (`Order.Lists`). The readers
take these and nothing else. -/
namespace RvConsole
open Text (byte IsNumeral)

/-! ### Registers -/

namespace Register
variable {token : Text} {n : Nat} {r : Register}

/-- The names of registers, with the numbers of the registers. -/
inductive Named : Text → Nat → Prop where
  | own {token : Text} {n : Nat} : (token, n) ∈ aliases → Named token n
  | x {digits : Text} {n : Nat} : IsNumeral 10 digits n → n < 32 → Named (byte 'x' :: digits) n
  | a {digits : Text} {n : Nat} : IsNumeral 10 digits n → n < 8 → Named (byte 'a' :: digits) (n + 10)
  | sLow {digits : Text} {n : Nat} : IsNumeral 10 digits n → n < 2 → Named (byte 's' :: digits) (n + 8)
  | sHigh {digits : Text} {n : Nat} :
    IsNumeral 10 digits n → 2 ≤ n → n < 12 → Named (byte 's' :: digits) (n + 1)
  | tLow {digits : Text} {n : Nat} : IsNumeral 10 digits n → n < 3 → Named (byte 't' :: digits) (n + 5)
  | tHigh {digits : Text} {n : Nat} :
    IsNumeral 10 digits n → 3 ≤ n → n < 7 → Named (byte 't' :: digits) (n + 25)

theorem Named.lt (h : Named token n) : n < registerCount := by
  unfold registerCount
  cases h with
  | own hmem =>
    have haliases : ∀ p ∈ aliases, p.2 < 32 := by decide
    exact haliases _ hmem
  | _ => omega

theorem toNat_ofNat_of_lt (h : n < registerCount) : (BitVec.ofNat 32 n).toNat = n := by
  rw [BitVec.toNat_ofNat]
  exact Nat.mod_eq_of_lt (h.trans (by decide))

/-- A number within a family names the register that the family gives it. -/
theorem named_of_family {letter : UInt8} {digits : Text} {family : Family} (hfamily : family? letter = some family)
    (hdigits : IsNumeral 10 digits n) (hcount : n < family.count) (hregister : family.register n < registerCount) :
    Named (letter :: digits) (family.register n) := by
  unfold family? at hfamily
  unfold registerCount at hfamily hregister
  split_ifs at hfamily with hx ha hs ht
  · obtain rfl := Option.some.inj hfamily
    exact hx ▸ .x hdigits hcount
  · obtain rfl := Option.some.inj hfamily
    exact ha ▸ .a hdigits hcount
  · obtain rfl := Option.some.inj hfamily
    subst hs
    by_cases hn : n < 2
    · simpa only [if_pos hn] using Named.sLow hdigits hn
    · simpa only [if_neg hn] using Named.sHigh hdigits (not_lt.mp hn) hcount
  · obtain rfl := Option.some.inj hfamily
    subst ht
    by_cases hn : n < 3
    · simpa only [if_pos hn] using Named.tLow hdigits hn
    · simp only [if_neg hn] at hregister ⊢
      exact .tHigh hdigits (not_lt.mp hn) (by omega)

/-- What a token spells is a letter with a numeral that fits a word. -/
theorem exists_of_spelled {family : Family} (h : spelled? token = some (family, n)) :
    ∃ letter digits, token = letter :: digits ∧ family? letter = some family ∧ IsNumeral 10 digits n ∧
      n < 0x100000000 := by
  unfold spelled? at h
  split at h
  case h_1 letter digits =>
    split at h
    case h_1 hfamily hdigits =>
      split_ifs at h with hlt
      obtain ⟨rfl, rfl⟩ := Prod.mk.inj (Option.some.inj h)
      exact ⟨letter, digits, rfl, hfamily, (Text.natural?_eq_some_iff (by decide) _).mp hdigits, hlt⟩
    case h_2 => cases h
  case h_2 => cases h

theorem mem_of_lookup (h : aliases.lookup token = some n) : (token, n) ∈ aliases := by
  obtain ⟨before, rest, haliases, -⟩ := List.lookup_eq_some_iff.mp h
  exact haliases ▸ List.mem_append_right before List.mem_cons_self

theorem named_of_parse (h : parse token = .ok r) : Named token r.index.toNat := by
  unfold parse at h
  split at h
  case h_1 index hindex =>
    obtain rfl := Except.ok.inj h
    have hnamed : Named token index := .own (mem_of_lookup hindex)
    rwa [toNat_ofNat_of_lt hnamed.lt]
  case h_2 =>
    split at h
    case h_1 family n hspelled =>
      obtain ⟨letter, digits, rfl, hfamily, hdigits, -⟩ := exists_of_spelled hspelled
      simp only [Family.parse] at h
      split_ifs at h with hcount hregister
      obtain rfl := Except.ok.inj h
      rw [toNat_ofNat_of_lt (not_le.mp hregister)]
      exact named_of_family hfamily hdigits (not_le.mp hcount) (not_le.mp hregister)
    case h_2 => cases h

/-- A letter with a numeral that fits a word is left to the letter's family. -/
theorem parse_of_spelled (letter : UInt8) {digits : Text} {family : Family} (hfamily : family? letter = some family)
    (hdigits : IsNumeral 10 digits n) (hn : n < 0x100000000) : parse (letter :: digits) = family.parse n := by
  have hnatural : Text.natural? 10 digits = some n := (Text.natural?_eq_some_iff (by decide) _).mpr hdigits
  -- the other names have no numeral behind their first letter
  have halias : aliases.lookup (letter :: digits) = none := by
    have haliases : ∀ p ∈ aliases, Text.natural? 10 p.1.tail = none := by decide
    apply List.lookup_eq_none_iff.mpr
    intro p hp
    have hnone := haliases p hp
    rw [bne_iff_ne]
    intro heq
    rw [← heq, List.tail_cons, hnatural] at hnone
    cases hnone
  have hspelled : spelled? (letter :: digits) = some (family, n) := by
    simp only [spelled?, hfamily, hnatural]
    exact if_pos hn
  simp only [parse, halias, hspelled]

/-- A letter with a numeral is read by the letter's family. -/
theorem parse_of_family (letter : UInt8) {digits : Text} {family : Family} (hfamily : family? letter = some family)
    (hdigits : IsNumeral 10 digits n) (hcount : n < family.count) (hle : n < registerCount)
    (hregister : family.register n < registerCount) :
    parse (letter :: digits) = .ok ⟨BitVec.ofNat 32 (family.register n)⟩ := by
  rw [parse_of_spelled letter hfamily hdigits (hle.trans (by decide))]
  simp only [Family.parse, if_neg (not_le.mpr hcount), if_neg (not_le.mpr hregister)]

theorem parse_of_named (h : Named token n) : parse token = .ok ⟨BitVec.ofNat 32 n⟩ := by
  have hlt := h.lt
  unfold registerCount at hlt
  cases h with
  | own hmem =>
    have haliases : ∀ p ∈ aliases, parse p.1 = .ok ⟨BitVec.ofNat 32 p.2⟩ := by decide
    exact haliases _ hmem
  | x hdigits hn => exact parse_of_family (byte 'x') rfl hdigits hn hn hn
  | a hdigits hn => exact parse_of_family (byte 'a') rfl hdigits hn (hn.trans (by decide)) hlt
  | sLow hdigits hn =>
    have hparse := parse_of_family (byte 's') rfl hdigits (hn.trans (by decide)) (hn.trans (by decide))
    simp only [if_pos hn] at hparse
    exact hparse hlt
  | sHigh hdigits hlow hn =>
    have hparse := parse_of_family (byte 's') rfl hdigits hn (hn.trans (by decide))
    simp only [if_neg (not_lt.mpr hlow)] at hparse
    exact hparse hlt
  | tLow hdigits hn =>
    have hparse := parse_of_family (byte 't') rfl hdigits (hn.trans (by decide)) (hn.trans (by decide))
    simp only [if_pos hn] at hparse
    exact hparse hlt
  | tHigh hdigits hlow hn =>
    have hparse := parse_of_family (byte 't') rfl hdigits (hn.trans (by decide)) (hn.trans (by decide))
    simp only [if_neg (not_lt.mpr hlow)] at hparse
    exact hparse hlt

/-- **Reading takes the names of registers.** -/
theorem parse_eq_ok_iff : parse token = .ok r ↔ Named token r.index.toNat := by
  refine ⟨named_of_parse, fun h => ?_⟩
  rw [parse_of_named h, BitVec.ofNat_toNat, BitVec.setWidth_eq]

theorem Named.plain (h : Named token n) : token.Plain := by
  have hletter {letter : UInt8} {digits : Text} {n : Nat} (hdigits : IsNumeral 10 digits n)
      (h : 45 ≤ letter.toNat ∧ letter.toNat < 127) : Text.Plain (letter :: digits) :=
    List.forall_mem_cons.mpr ⟨h, hdigits.plain⟩
  cases h with
  | own hmem =>
    have haliases : ∀ p ∈ aliases, p.1.Plain := by decide
    exact haliases _ hmem
  | x hdigits | a hdigits | sLow hdigits | sHigh hdigits | tLow hdigits | tHigh hdigits =>
    exact hletter hdigits (by decide)

end Register

/-! ### Memory operands -/

namespace MemoryOperand
variable {kind : ImmKind} {token offset base : Text} {operand : MemoryOperand}

/-- Text without parentheses. -/
def Free (t : Text) : Prop := byte '(' ∉ t ∧ byte ')' ∉ t

/-- What stands before the parenthesis is an offset: nothing, which is zero, or an immediate. -/
def IsOffset (kind : ImmKind) (t : Text) (v : Int) : Prop :=
  t = [] ∧ v = 0 ∨ kind.Means t v ∧ kind.Admits v

/-- An offset and a register, each with any white space around it. -/
structure Indexed (kind : ImmKind) (offset base : Text) (operand : MemoryOperand) : Prop where
  offset_free : Free offset
  base_free : Free base
  named : Register.Named base.trim operand.base.index.toNat
  isOffset : IsOffset kind offset.trim operand.offset

/-- A register in parentheses behind its offset. -/
def around (offset base : Text) : Text := offset ++ "(" ++ base ++ ")"

/-- Memory operands: a register alone, or one in parentheses behind an offset. -/
inductive Written (kind : ImmKind) : Text → MemoryOperand → Prop where
  | bare {token : Text} {r : Register} : Register.Named token r.index.toNat → Written kind token ⟨r, 0⟩
  | indexed {offset base : Text} {operand : MemoryOperand} :
    Indexed kind offset base operand → Written kind (around offset base) operand

theorem parseOffset_eq_ok_iff {t : Text} {v : Int} : parseOffset kind t = .ok v ↔ IsOffset kind t v := by
  unfold parseOffset IsOffset
  by_cases ht : t = []
  · subst ht
    have hnot : ¬(kind.Means [] v ∧ kind.Admits v) := by
      rw [← ImmKind.parse_eq_ok_iff]
      intro h
      cases kind <;> cases h
    simp [hnot, eq_comm]
  · simp [ht, ImmKind.parse_eq_ok_iff]

theorem around_eq (offset base : Text) : around offset base = offset ++ byte '(' :: (base ++ [byte ')']) := by
  rw [around, List.append_assoc, List.append_assoc]
  rfl

theorem open_mem_around (offset base : Text) : byte '(' ∈ around offset base := by
  rw [around_eq]
  exact List.mem_append_right _ List.mem_cons_self

/-! The parts of a token are those around its first parentheses. -/

theorem parse_of_bare (h : byte '(' ∉ token) :
    parse kind token = (do return ⟨← Register.parse token, 0⟩) := by
  have hspan : token.span (· ≠ byte '(') = (token, []) := Text.span_of_not_mem h
  simp only [parse, hspan]

theorem parse_of_around (hopen : byte '(' ∉ offset) (hclose : byte ')' ∉ offset) (hbase : byte ')' ∉ base) :
    parse kind (around offset base) = (do
      let r ← Register.parse base.trim
      let v ← parseOffset kind offset.trim
      return ⟨r, v⟩) := by
  simp only [parse, around_eq, Text.span_sep hopen, Text.span_sep hbase, List.contains_eq_mem, hclose, decide_false,
    Bool.false_eq_true, if_false]

/-- A token with a parenthesis that is read has its parts where they belong. -/
theorem exists_around_of_parse (h : parse kind token = .ok operand) (hopen : byte '(' ∈ token) :
    ∃ offset base, token = around offset base ∧ byte '(' ∉ offset ∧ byte ')' ∉ offset ∧ byte ')' ∉ base := by
  obtain ⟨offset, inside, rfl, hoffset⟩ := List.eq_append_cons_of_mem hopen
  simp only [parse, Text.span_sep hoffset, List.contains_eq_mem, decide_eq_true_eq] at h
  split_ifs at h with hclose
  by_cases hinside : byte ')' ∈ inside
  · obtain ⟨base, rest, rfl, hbase⟩ := List.eq_append_cons_of_mem hinside
    simp only [Text.span_sep hbase] at h
    cases rest with
    | nil => exact ⟨offset, base, (around_eq offset base).symm, hoffset, hclose, hbase⟩
    | cons => cases h
  · simp only [Text.span_of_not_mem hinside] at h
    cases h

theorem written_of_parse (h : parse kind token = .ok operand) : Written kind token operand := by
  by_cases hopen : byte '(' ∈ token
  · obtain ⟨offset, base, rfl, hoffset, hclose, hbase⟩ := exists_around_of_parse h hopen
    rw [parse_of_around hoffset hclose hbase] at h
    obtain ⟨r, hr, h⟩ := bind_eq_ok.mp h
    obtain ⟨v, hv, h⟩ := bind_eq_ok.mp h
    obtain rfl := Except.ok.inj h
    have hnamed := Register.parse_eq_ok_iff.mp hr
    have hfree : byte '(' ∉ base := by
      rw [← Text.mem_trim_iff (by decide)]
      exact hnamed.plain.not_mem (by decide)
    exact .indexed ⟨⟨hoffset, hclose⟩, ⟨hfree, hbase⟩, hnamed, parseOffset_eq_ok_iff.mp hv⟩
  · rw [parse_of_bare hopen] at h
    obtain ⟨r, hr, h⟩ := bind_eq_ok.mp h
    obtain rfl := Except.ok.inj h
    exact .bare (Register.parse_eq_ok_iff.mp hr)

theorem parse_of_written (h : Written kind token operand) : parse kind token = .ok operand := by
  cases h with
  | bare hnamed =>
    rw [parse_of_bare (hnamed.plain.not_mem (by decide)), Register.parse_eq_ok_iff.mpr hnamed]
    rfl
  | indexed hparts =>
    rw [parse_of_around hparts.offset_free.1 hparts.offset_free.2 hparts.base_free.2,
      Register.parse_eq_ok_iff.mpr hparts.named, parseOffset_eq_ok_iff.mpr hparts.isOffset]
    rfl

/-- **Reading takes memory operands and nothing else.** -/
theorem parse_eq_ok_iff : parse kind token = .ok operand ↔ Written kind token operand :=
  ⟨written_of_parse, parse_of_written⟩

end MemoryOperand

/-! ### Access sets -/

namespace Order
variable {token : Text} {bits : Word}

/-- A token lists accesses in their order, and the bits are theirs. -/
def Lists (token : Text) (bits : Word) : Prop :=
  ∃ chosen, List.Sublist chosen accesses ∧ token = chosen.map Prod.fst ∧
    bits = chosen.foldl (fun bits access => bits ||| access.2) 0

theorem exists_chosen_of_take {accesses : List (UInt8 × Word)} {start : Word}
    (h : take accesses token start = (bits, [])) :
    ∃ chosen, List.Sublist chosen accesses ∧ token = chosen.map Prod.fst ∧
      bits = chosen.foldl (fun bits access => bits ||| access.2) start := by
  fun_induction take accesses token start with
  | case1 bit rest letter token start ih =>
    obtain ⟨chosen, hsublist, rfl, rfl⟩ := ih h
    exact ⟨(letter, bit) :: chosen, hsublist.cons_cons _, rfl, rfl⟩
  | case2 start letter bit rest b token _ ih =>
    obtain ⟨chosen, hsublist, htoken, rfl⟩ := ih h
    exact ⟨chosen, hsublist.cons _, htoken, rfl⟩
  | case3 accesses token start =>
    obtain ⟨rfl, rfl⟩ := Prod.mk.inj h
    exact ⟨[], List.nil_sublist _, rfl, rfl⟩

/-- **Reading takes some of the accesses in their order.** -/
theorem parse_eq_ok_iff : parse token = .ok bits ↔ Lists token bits := by
  constructor
  · intro h
    unfold parse at h
    split at h
    case h_1 taken htaken =>
      obtain rfl := Except.ok.inj h
      exact exists_chosen_of_take htaken
    case h_2 => cases h
  · rintro ⟨chosen, hsublist, rfl, rfl⟩
    have hall : ∀ chosen ∈ accesses.sublists, parse (chosen.map Prod.fst) =
        .ok (chosen.foldl (fun bits access => bits ||| access.2) 0) := by decide
    exact hall chosen (List.mem_sublists.mpr hsublist)

end Order

end RvConsole
