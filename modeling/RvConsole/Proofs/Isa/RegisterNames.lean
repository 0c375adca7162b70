import RvConsole.Display.Listing
import RvConsole.Proofs.Isa.Grammar

/-! Names of registers, read and shown.

Every token is one of three things to the reader: the name of a register (`Register.Named`), a number that its
family does not reach (`Register.Beyond`), or no name at all (`registers_read_exactly`). The names that the register
table shows come from another map, which goes by the calling convention. The two agree on every register but the
saved ones from `s2` on: those are shown for x18 to x27 and read as x3 to x12 (`abiName_reversed_iff`). -/
namespace RvConsole
open Text (byte IsNumeral)

namespace Register
variable {token : Text} {n : Nat} {r : Register}

/-! ### Numbers out of reach -/

/-- The letters of the families, and how many numbers each has. -/
def counts : List (UInt8 × Nat) := [(byte 'x', 32), (byte 'a', 8), (byte 's', 12), (byte 't', 8)]

/-- Numbers behind a letter that mean no register, with the range that each is outside of. -/
inductive Beyond : Text → OperandError → Prop where
  | count {letter : UInt8} {bound n : Nat} {digits : Text} :
    (letter, bound) ∈ counts → IsNumeral 10 digits n → bound ≤ n → n < 0x100000000 →
      Beyond (letter :: digits) (.outsideRange n 0 (bound - 1))
  /-- The last number of its family would be a register past the last one. -/
  | last {digits : Text} : IsNumeral 10 digits 7 → Beyond (byte 't' :: digits) (.outsideRange 32 0 31)

theorem family?_of_mem_counts {letter : UInt8} {bound : Nat} (h : (letter, bound) ∈ counts) :
    ∃ family, family? letter = some family ∧ family.count = bound := by
  simp only [counts, List.mem_cons, Prod.mk.injEq, List.not_mem_nil, or_false] at h
  obtain ⟨rfl, rfl⟩ | ⟨rfl, rfl⟩ | ⟨rfl, rfl⟩ | ⟨rfl, rfl⟩ := h
  all_goals exact ⟨_, rfl, rfl⟩

theorem parse_of_beyond {e : OperandError} (h : Beyond token e) : parse token = .error e := by
  cases h with
  | @count letter _ _ _ hmem hdigits hbound hn =>
    obtain ⟨family, hfamily, rfl⟩ := family?_of_mem_counts hmem
    rw [parse_of_spelled letter hfamily hdigits hn]
    exact if_pos hbound
  | last hdigits =>
    rw [parse_of_spelled (byte 't') rfl hdigits (by decide)]
    rfl

/-- A number that is in its family and means no register is the last one of the `t` registers. -/
theorem beyond_of_family {letter : UInt8} {digits : Text} {family : Family} (hfamily : family? letter = some family)
    (hdigits : IsNumeral 10 digits n) (hcount : n < family.count) (hregister : registerCount ≤ family.register n) :
    ∃ e, Beyond (letter :: digits) e := by
  unfold family? at hfamily
  unfold registerCount at hfamily hregister
  split_ifs at hfamily with hx ha hs ht
  all_goals
    obtain rfl := Option.some.inj hfamily
    dsimp only [id] at hcount hregister
  · omega
  · omega
  · split at hregister <;> omega
  · obtain rfl : n = 7 := by split at hregister <;> omega
    subst ht
    exact ⟨_, .last hdigits⟩

theorem mem_counts {letter : UInt8} {family : Family} (h : family? letter = some family) :
    (letter, family.count) ∈ counts := by
  unfold family? at h
  split_ifs at h with hx ha hs ht
  all_goals
    obtain rfl := Option.some.inj h
    subst letter
    simp [counts, registerCount]

/-- Whatever a token spells is a register or out of reach. -/
theorem named_or_beyond {family : Family} (h : spelled? token = some (family, n)) :
    (∃ n, Named token n) ∨ ∃ e, Beyond token e := by
  obtain ⟨letter, digits, rfl, hfamily, hdigits, hn⟩ := exists_of_spelled h
  by_cases hcount : n < family.count
  · by_cases hregister : family.register n < registerCount
    · exact .inl ⟨_, named_of_family hfamily hdigits hcount hregister⟩
    · exact .inr (beyond_of_family hfamily hdigits hcount (not_lt.mp hregister))
  · exact .inr ⟨_, .count (mem_counts hfamily) hdigits (not_lt.mp hcount) hn⟩

/-- Refused as no register is what neither names one nor is out of reach. -/
theorem parse_eq_notRegister_iff :
    parse token = .error (.notRegister token) ↔ (¬ ∃ n, Named token n) ∧ ¬ ∃ e, Beyond token e := by
  constructor
  · intro h
    constructor
    · rintro ⟨n, hnamed⟩
      rw [parse_of_named hnamed] at h
      cases h
    · rintro ⟨e, hbeyond⟩
      rw [parse_of_beyond hbeyond] at h
      obtain rfl := Except.error.inj h
      cases hbeyond
  · rintro ⟨hnamed, hbeyond⟩
    unfold parse
    split
    case h_1 index hindex => exact absurd ⟨index, .own (mem_of_lookup hindex)⟩ hnamed
    case h_2 =>
      split
      case h_1 family n hspelled => exact absurd (named_or_beyond hspelled) (not_or.mpr ⟨hnamed, hbeyond⟩)
      case h_2 => rfl

/-! ### The three roles -/

/-- A token means the same register as a destination and as either source. -/
theorem readOperands_of_parse (h : parse token = .ok r) {op : Op} (hop : op.info.shape = .r) :
    op.readOperands [token, token, token] = .ok (.r r r r) := by
  simp only [Op.readOperands, hop, h]
  rfl

theorem exists_place (h : Operands.IsRegister r) :
    ∀ field ∈ [Field.rd, .rs1, .rs2], ∃ bits, field.place r.index = .ok bits ∧ field.gather bits = r.index := by
  have hroles : ∀ field ∈ [Field.rd, .rs1, .rs2], field.signed = false ∧ field.width = 5 := by decide
  intro field hfield
  obtain ⟨hsigned, hwidth⟩ := hroles field hfield
  have hfits := Field.fits_register hsigned hwidth h
  exact ⟨_, Field.place_of_fits hfits, Field.gather_bits_of_fits hfits⟩

/-! ### Names in the calling convention -/

/-- No digit behind the first letter could be left out. -/
def Terse (token : Text) : Prop :=
  ∀ n, IsNumeral 10 token.tail n → 1 < token.tail.length → token.tail.head? ≠ some (byte '0')

/-- A saved register by its number among them. -/
def saved (n : Nat) : Text := byte 's' :: Text.numeral 10 n

/-- The saved registers that the two maps have apart. -/
def strays : List Text := (List.range' 2 10).map saved

theorem saved_mem_strays (hlow : 2 ≤ n) (hn : n < 12) : saved n ∈ strays :=
  List.mem_map_of_mem (List.mem_range'_1.mpr ⟨hlow, hn⟩)

theorem Terse.tail_eq {letter : UInt8} {digits : Text} (h : Terse (letter :: digits))
    (hdigits : IsNumeral 10 digits n) : digits = Text.numeral 10 n :=
  Text.eq_numeral ((Text.natural?_eq_some_iff (by decide) _).mpr hdigits) (h n hdigits)

/-- A name that is read is the one that is shown, but for the strays. -/
theorem abiName_of_named (h : Named token n) (hx : token.head? ≠ some (byte 'x')) (hterse : Terse token)
    (hstray : token ∉ strays) : abiName n = token := by
  cases h with
  | own hmem =>
    have haliases : ∀ p ∈ aliases, abiName p.2 = p.1 := by decide
    exact haliases _ hmem
  | x => exact absurd rfl hx
  | @a _ n hdigits hn =>
    rw [hterse.tail_eq hdigits]
    exact (by decide : ∀ n < 8, abiName (n + 10) = byte 'a' :: Text.numeral 10 n) n hn
  | @sLow _ n hdigits hn =>
    rw [hterse.tail_eq hdigits]
    exact (by decide : ∀ n < 2, abiName (n + 8) = saved n) n hn
  | sHigh hdigits hlow hn =>
    rw [hterse.tail_eq hdigits] at hstray
    exact absurd (saved_mem_strays hlow hn) hstray
  | @tLow _ n hdigits hn =>
    rw [hterse.tail_eq hdigits]
    exact (by decide : ∀ n < 3, abiName (n + 5) = byte 't' :: Text.numeral 10 n) n hn
  | @tHigh _ n hdigits hlow hn =>
    rw [hterse.tail_eq hdigits]
    exact (by decide : ∀ n < 7, 3 ≤ n → abiName (n + 25) = byte 't' :: Text.numeral 10 n) n hn hlow

/-- The register that the name shown for a register is read as. -/
theorem parse_abiName : ∀ n < registerCount,
    parse (abiName n) = .ok ⟨BitVec.ofNat 32 (if 18 ≤ n ∧ n < 28 then n - 15 else n)⟩ := by
  decide

theorem abiName_mem_strays_iff : ∀ n < registerCount, abiName n ∈ strays ↔ 18 ≤ n ∧ n < 28 := by
  decide

theorem parse_abiName_eq_iff (h : n < registerCount) :
    parse (abiName n) = .ok ⟨BitVec.ofNat 32 n⟩ ↔ abiName n ∉ strays := by
  rw [parse_abiName n h, abiName_mem_strays_iff n h]
  constructor
  · intro hparse hstray
    rw [if_pos hstray] at hparse
    have hindex := congrArg BitVec.toNat (Register.mk.inj (Except.ok.inj hparse))
    rw [toNat_ofNat_of_lt h, toNat_ofNat_of_lt (lt_of_le_of_lt (Nat.sub_le n 15) h)] at hindex
    omega
  · intro hstray
    rw [if_neg hstray]

/-- Being shown reverses being read exactly for the tokens that are no strays. -/
theorem reversed_iff (hx : token.head? ≠ some (byte 'x')) (hterse : Terse token) :
    (∀ i : Word, parse token = .ok ⟨i⟩ ↔ i.toNat < 32 ∧ abiName i.toNat = token) ↔ token ∉ strays := by
  constructor
  · intro hreverse hstray
    -- a stray is shown for a register that it is not read as
    obtain ⟨n, hn, rfl⟩ := List.mem_map.mp hstray
    have hshown : ∀ n ∈ List.range' 2 10, n + 16 < registerCount ∧ abiName (n + 16) = saved n := by decide
    obtain ⟨hlt, hname⟩ := hshown n hn
    have hparse := (hreverse (BitVec.ofNat 32 (n + 16))).mpr (by rw [toNat_ofNat_of_lt hlt]; exact ⟨hlt, hname⟩)
    rw [← hname] at hparse hstray
    exact (parse_abiName_eq_iff hlt).mp hparse hstray
  · intro hstray i
    constructor
    · intro hparse
      have hnamed := named_of_parse hparse
      exact ⟨hnamed.lt, abiName_of_named hnamed hx hterse hstray⟩
    · rintro ⟨hlt, rfl⟩
      rw [(parse_abiName_eq_iff hlt).mpr hstray, BitVec.ofNat_toNat, BitVec.setWidth_eq]

end Register

open Register

/-- **Names of registers are read exactly.** A token is read as a register if and only if it names the register; the
register is one of the thirty-two, it is the same whichever of the three roles the token stands in, and it can be
placed in each. A number that its family does not reach is refused with the range it is outside of, and what is
neither with itself. -/
theorem registers_read_exactly (token : Text) :
    (∀ r, Register.parse token = .ok r ↔ Named token r.index.toNat) ∧
      (∀ r, Register.parse token = .ok r → r.index.toNat < 32 ∧
        (∀ op : Op, op.info.shape = .r → op.readOperands [token, token, token] = .ok (.r r r r)) ∧
        ∀ field ∈ [Field.rd, .rs1, .rs2], ∃ bits, field.place r.index = .ok bits ∧ field.gather bits = r.index) ∧
      (∀ e, Beyond token e → Register.parse token = .error e) ∧
      (Register.parse token = .error (.notRegister token) ↔
        (¬ ∃ n, Named token n) ∧ ¬ ∃ e, Beyond token e) := by
  refine ⟨fun r => Register.parse_eq_ok_iff, ?_, fun e => parse_of_beyond, parse_eq_notRegister_iff⟩
  intro r hparse
  have hlt : r.index.toNat < registerCount := (named_of_parse hparse).lt
  exact ⟨hlt, fun op => readOperands_of_parse hparse, exists_place hlt⟩

/-- A saved register behind zeros; the last of the `t` registers; the greatest number that fits a word, and the next
one; a name of the calling convention that is not read. -/
theorem registers_read_exactly_edges :
    (Named "s0000011" 12 ∧ Register.parse "s0000011" = .ok ⟨12⟩ ∧
      Op.readOperands .sub ["s0000011", "s0000011", "s0000011"] = .ok (.r ⟨12⟩ ⟨12⟩ ⟨12⟩)) ∧
    (Beyond "t7" (.outsideRange 32 0 31) ∧ Register.parse "t7" = .error (.outsideRange 32 0 31)) ∧
    (Beyond "x4294967295" (.outsideRange 4294967295 0 31) ∧
      Register.parse "x4294967295" = .error (.outsideRange 4294967295 0 31)) ∧
    (((¬ ∃ n, Named "x4294967296" n) ∧ ¬ ∃ e, Beyond "x4294967296" e) ∧
      Register.parse "x4294967296" = .error (.notRegister "x4294967296")) ∧
    (((¬ ∃ n, Named "fp" n) ∧ ¬ ∃ e, Beyond "fp" e) ∧ Register.parse "fp" = .error (.notRegister "fp")) := by
  have hsaved : Named "s0000011" 12 := named_of_parse (r := ⟨12⟩) rfl
  have hread := ((registers_read_exactly "s0000011").1 ⟨12⟩).mpr hsaved
  have hlast : Beyond "t7" (.outsideRange 32 0 31) := .last ((Text.natural?_eq_some_iff (by decide) "7").mp rfl)
  have hgreatest : Beyond "x4294967295" (.outsideRange 4294967295 0 31) :=
    .count (List.mem_cons_self) ((Text.natural?_eq_some_iff (by decide) "4294967295").mp rfl) (by decide) (by decide)
  have hnext : (¬ ∃ n, Named "x4294967296" n) ∧ ¬ ∃ e, Beyond "x4294967296" e :=
    parse_eq_notRegister_iff.mp rfl
  have hframe : (¬ ∃ n, Named "fp" n) ∧ ¬ ∃ e, Beyond "fp" e := parse_eq_notRegister_iff.mp rfl
  exact ⟨⟨hsaved, hread, ((registers_read_exactly _).2.1 _ hread).2.1 .sub rfl⟩,
    ⟨hlast, (registers_read_exactly _).2.2.1 _ hlast⟩,
    ⟨hgreatest, (registers_read_exactly _).2.2.1 _ hgreatest⟩,
    ⟨hnext, (registers_read_exactly _).2.2.2.mpr hnext⟩, ⟨hframe, (registers_read_exactly _).2.2.2.mpr hframe⟩⟩

/-- **The names that are shown are read back, but for the saved registers from `s2` on.** Take a token that does not
start with `x` and has no zero to spare. That it is read as a register exactly when it is shown for it is so unless
the token is one of `s2` to `s11`. So the name in the register table, typed back, is that same register except in
the rows of x18 to x27: these show `s2` to `s11`, which are read as x3 to x12. -/
theorem abiName_reversed_iff {token : Text} (hx : token.head? ≠ some (byte 'x')) (hterse : Terse token)
    (regs : RegisterFile) :
    ((∀ i : Word, Register.parse token = .ok ⟨i⟩ ↔ i.toNat < 32 ∧ abiName i.toNat = token) ↔ token ∉ strays) ∧
    ∀ i < 32, Register.parse (Table.cell (regs.row i) 1) =
      .ok ⟨BitVec.ofNat 32 (if 18 ≤ i ∧ i < 28 then i - 15 else i)⟩ := by
  constructor
  · exact reversed_iff hx hterse
  · intro i hi
    exact parse_abiName i hi

/-- The last register is read back; the last saved one, shown in the row of x27, is not. -/
theorem abiName_reversed_iff_t6 :
    (List.head? (Text.ofString "t6") ≠ some (byte 'x') ∧ Terse "t6" ∧
      ∀ i : Word, Register.parse "t6" = .ok ⟨i⟩ ↔ i.toNat < 32 ∧ abiName i.toNat = "t6") ∧
    ∀ regs : RegisterFile, Register.parse (Table.cell (regs.row 27) 1) = .ok ⟨12⟩ := by
  have hx : List.head? (Text.ofString "t6") ≠ some (byte 'x') := by decide
  have hterse : Terse "t6" := fun _ _ hlength => absurd hlength (by decide)
  constructor
  · exact ⟨hx, hterse, (abiName_reversed_iff hx hterse (Vector.replicate registerCount 0)).1.mpr (by decide)⟩
  · intro regs
    exact (abiName_reversed_iff hx hterse regs).2 27 (by decide)

/-- The register that is shown as `s2` is x18, and `s2` is read as x3. -/
theorem abiName_not_reversed :
    ¬ ∀ token : Text, token.head? ≠ some (byte 'x') → Terse token →
      ∀ i : Word, Register.parse token = .ok ⟨i⟩ ↔ i.toNat < 32 ∧ abiName i.toNat = token := by
  intro hreverse
  have hterse : Terse "s2" := fun _ _ hlength => absurd hlength (by decide)
  have hread : Register.parse "s2" = .ok ⟨3⟩ := rfl
  have hshown := (hreverse "s2" (by decide) hterse 18).mpr ⟨by decide, by decide⟩
  rw [hread] at hshown
  exact absurd hshown (by decide)

end RvConsole
