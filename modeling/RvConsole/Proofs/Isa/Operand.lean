import RvConsole.Proofs.Isa.Reading
import RvConsole.Proofs.Text.Numeral
import RvConsole.Proofs.Text.Visible

/-! An operand is read from its own text.

Registers by their number, immediates in decimal or hexadecimal or by the name of a CSR, access sets and
memory operands: each printer writes what its reader takes for the same value (`parse_text`). What they
write is plain text, so an operand stays in one piece when the line around it is cut. -/
namespace RvConsole
open Text (byte)

/-! ### Numerals as plain text -/

namespace Text

theorem plain_numeral (n : Nat) : Plain (numeral 10 n) := by
  intro b hb
  have hdigit := mem_numeral hb
  omega

theorem plain_hex (n : Nat) : Plain (hex n) := by
  intro b hb
  have hdigit := mem_hex hb
  omega

theorem plain_hexWord (w : BitVec 32) : Plain (hexWord w) := by
  intro b hb
  have hdigit := mem_hexWord hb
  omega

theorem IsNumeral.plain {radix n : Nat} {t : Text} (h : IsNumeral radix t n) : Plain t := by
  obtain ⟨digits, -, hfigures, -⟩ := h
  have hrows : ∀ row ∈ digitRows, Plain row := by decide
  induction hfigures with
  | nil => exact List.forall_mem_nil _
  | cons hfigure _ ih =>
    obtain ⟨row, hrow, hd⟩ := hfigure
    exact List.forall_mem_cons.mpr ⟨hrows row hrow _ (List.mem_of_getElem? hd), ih⟩

theorem plain_decimal (v : Int) : Plain (decimal v) := by
  cases v with
  | ofNat n => exact plain_numeral n
  | negSucc n => exact List.forall_mem_cons.mpr ⟨by decide, plain_numeral _⟩

theorem plain_signedHex (v : Int) : Plain (signedHex v) := by
  cases v with
  | ofNat n => exact plain_hex n
  | negSucc n => exact List.forall_mem_cons.mpr ⟨by decide, plain_hex _⟩

end Text

/-! ### Literals -/

namespace Literal

theorem magnitude?_numeral (n : Nat) : magnitude? (Text.numeral 10 n) = some n := by
  have hdigit : ∀ b : UInt8, 57 < b.toNat → b ∉ Text.numeral 10 n := fun b hb hmem => by
    have := (Text.mem_numeral hmem).2
    omega
  have hx : Text.after? "0x" (Text.numeral 10 n) = none :=
    Text.after?_eq_none (b := byte 'x') (by decide) (hdigit _ (by decide))
  have hb : Text.after? "0b" (Text.numeral 10 n) = none :=
    Text.after?_eq_none (b := byte 'b') (by decide) (hdigit _ (by decide))
  -- a leading zero is refused, so the numeral must not have one
  have hzero : ¬((Text.numeral 10 n).length > 1 ∧ (Text.numeral 10 n).head? = some (byte '0')) := by
    rintro ⟨hlength, hhead⟩
    by_cases hn : n = 0
    · subst hn
      exact absurd hlength (by decide)
    · exact Text.head?_numeral hn hhead
  simp only [magnitude?, hx, hb, if_neg hzero, Text.natural?_numeral]

theorem value?_decimal (v : Int) : value? (Text.decimal v) = some v := by
  cases v with
  | ofNat n =>
    have hsign : Text.after? "-" (Text.numeral 10 n) = none := by
      refine Text.after?_eq_none (b := byte '-') (by decide) fun hmem => ?_
      exact absurd (Text.mem_numeral hmem).1 (by decide)
    simp only [value?, Text.decimal, hsign, magnitude?_numeral]
    rfl
  | negSucc n =>
    have hsign : Text.after? "-" (byte '-' :: Text.numeral 10 (n + 1)) =
        some (Text.numeral 10 (n + 1)) := rfl
    simp only [value?, Text.decimal, hsign, magnitude?_numeral]
    rfl

theorem value?_hexText {v : Int} (hv : 0 ≤ v) : value? (ImmKind.hexText v) = some v := by
  obtain ⟨n, rfl⟩ := Int.eq_ofNat_of_zero_le hv
  have hmagnitude : magnitude? (ImmKind.hexText n) = Text.natural? 16 (Text.hex n) := rfl
  have hsign : Text.after? "-" (ImmKind.hexText n) = none := rfl
  simp only [value?, hsign, hmagnitude, Text.natural?_hex]
  rfl

theorem parse_of_value? {token : Text} {v : Int} (h : value? token = some v) (hmin : least ≤ v)
    (hmax : v ≤ greatest) : parse token = .ok v := by
  simp only [parse, h, hmin, hmax, and_self, if_true]

end Literal

/-! ### Operands -/

theorem Register.parse_text {r : Register} (h : Operands.IsRegister r) : parse r.text = .ok r := by
  have hall : ∀ n < registerCount, parse (text ⟨BitVec.ofNat 32 n⟩) = .ok ⟨BitVec.ofNat 32 n⟩ := by
    decide
  have hr : r = ⟨BitVec.ofNat 32 r.index.toNat⟩ := by rw [BitVec.ofNat_toNat, BitVec.setWidth_eq]
  rw [hr]
  exact hall _ h

theorem Register.plain_text (r : Register) : r.text.Plain :=
  List.forall_mem_cons.mpr ⟨by decide, Text.plain_numeral _⟩

theorem Order.parse_text {bits : Word} (h : bits.toNat < 16) : parse (text bits) = .ok bits := by
  have hall : ∀ n < 16, parse (text (BitVec.ofNat 32 n)) = .ok (BitVec.ofNat 32 n) := by decide
  have hbits : bits = BitVec.ofNat 32 bits.toNat := by rw [BitVec.ofNat_toNat, BitVec.setWidth_eq]
  rw [hbits]
  exact hall _ h

theorem Order.plain_text (bits : Word) : (text bits).Plain := by
  intro b hb
  obtain ⟨access, haccess, rfl⟩ := List.mem_map.mp hb
  have haccess := List.mem_of_mem_filter haccess
  fin_cases haccess <;> decide

namespace ImmKind
variable {kind : ImmKind} {v : Int}

theorem Admits.within (h : kind.Admits v) : Literal.least ≤ v ∧ v ≤ Literal.greatest := by
  obtain ⟨hmin, hmax, -⟩ := h
  cases kind <;> simp only [bounds, Literal.least, Literal.greatest] at * <;> omega

theorem parse_of_value? {token : Text} (hnamed : kind.named? token = none)
    (hvalue : Literal.value? token = some v) (h : kind.Admits v) : kind.parse token = .ok v := by
  simp only [parse, hnamed, Literal.parse_of_value? hvalue h.within.1 h.within.2]
  exact check_eq_ok.mpr ⟨rfl, h⟩

theorem named?_hexText (kind : ImmKind) (v : Int) : kind.named? (hexText v) = none := by
  cases kind with
  | csr =>
    apply List.lookup_eq_none_iff.mpr
    intro p hp
    fin_cases hp <;> rfl
  | _ => rfl

theorem parse_csr_text (h : csr.Admits v) : csr.parse (csr.text v) = .ok v := by
  rw [text]
  split
  case h_1 name number hfind =>
    -- a number that has a name is written by it, and every name is read as its number
    have hnumber : number = v := by simpa using List.find?_some hfind
    have hnames : ∀ entry ∈ csrNames, csr.parse entry.1 = .ok entry.2 := by decide
    exact hnumber ▸ hnames _ (List.mem_of_find?_eq_some hfind)
  case h_2 => exact parse_of_value? (named?_hexText _ _) (Literal.value?_hexText h.1) h

theorem parse_text (h : kind.Admits v) : kind.parse (kind.text v) = .ok v := by
  cases kind with
  | u => exact parse_of_value? (named?_hexText .u v) (Literal.value?_hexText h.1) h
  | csr => exact parse_csr_text h
  | _ => exact parse_of_value? rfl (Literal.value?_decimal v) h

theorem plain_text (kind : ImmKind) (v : Int) : (kind.text v).Plain := by
  have hmark : Text.Plain "0x" := by decide
  have hhex : (hexText v).Plain := List.forall_mem_append.mpr ⟨hmark, Text.plain_signedHex v⟩
  cases kind with
  | u => exact hhex
  | csr =>
    rw [text]
    split
    case h_1 name number hfind =>
      have hnames : ∀ entry ∈ csrNames, entry.1.Plain := by decide
      exact hnames _ (List.mem_of_find?_eq_some hfind)
    case h_2 => exact hhex
  | _ => exact Text.plain_decimal v

/-- No kind reads the empty text, so none writes it. -/
theorem text_ne_nil (h : kind.Admits v) : kind.text v ≠ [] := by
  intro hnil
  have hparse := parse_text h
  rw [hnil] at hparse
  cases kind <;> cases hparse

end ImmKind

theorem MemoryOperand.parse_text {kind : ImmKind} {r : Register} {v : Int} (hr : Operands.IsRegister r)
    (hv : kind.Admits v) : parse kind (kind.text v ++ "(" ++ r.text ++ ")") = .ok ⟨r, v⟩ := by
  have hplain := kind.plain_text v
  have hopen : byte '(' ∉ kind.text v := hplain.not_mem (by decide)
  have hclose : byte ')' ∉ kind.text v := hplain.not_mem (by decide)
  have hregister : byte ')' ∉ r.text := r.plain_text.not_mem (by decide)
  have htoken : kind.text v ++ "(" ++ r.text ++ ")" =
      kind.text v ++ byte '(' :: (r.text ++ byte ')' :: []) := by
    rw [List.append_assoc, List.append_assoc]
    rfl
  simp only [parse, htoken, Text.span_sep hopen, Text.span_sep hregister, List.contains_eq_mem, hclose,
    decide_false, Bool.false_eq_true, if_false, hplain.visible.trim, r.plain_text.visible.trim,
    parseOffset, if_neg (ImmKind.text_ne_nil hv), Register.parse_text hr, ImmKind.parse_text hv]
  rfl

end RvConsole
