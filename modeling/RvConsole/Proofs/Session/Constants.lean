import RvConsole.Proofs.Expression.Names
import RvConsole.Proofs.Isa.Spellings
import RvConsole.Proofs.Session.Sites
import RvConsole.Proofs.Session.Words

/-! Equates that are numbers.

An equate whose text is a literal can be written by its name or as an expression. By its name it comes to its text, as
an expression to its number in decimal, and these are two literals of one number (`Literal.integer_of_fits`). As the
last argument of a line they are read alike whatever stands in front of them (`Lead.assemble_congr`), so it makes no
difference which way the equate is written (`equate_means_number`), in any language that reads names. This takes a name
in ASCII: the words of a line are, while a name in an expression may have letters of any script, and an equate with such
a letter is one in expressions only (`equate_beyond_ascii`). -/
namespace RvConsole
open Text (byte Blanks Blankless Plain Seen Visible)

/-- The integer of an equate is that of its text. -/
theorem Equates.lookup_integers {equates : Equates} {name s : Text} {v : Int} (h : equates.get? name = some s)
    (hs : Text.integer s = .ok v) : equates.integers.lookup name = some v := by
  unfold Equates.get? at h
  induction equates with
  | nil => cases h
  | cons entry rest ih =>
    obtain ⟨key, value⟩ := entry
    by_cases hkey : name = key
    · subst hkey
      obtain rfl : value = s := by simpa using h
      simp [Equates.integers, hs]
    · have hrest : (Equates.integers rest).lookup name = some v := by
        apply ih
        simpa [List.lookup_cons, beq_eq_false_iff_ne.mpr hkey] using h
      cases hvalue : Text.integer value with
      | error e => simpa [Equates.integers, hvalue] using hrest
      | ok n => simpa [Equates.integers, hvalue, List.lookup_cons, beq_eq_false_iff_ne.mpr hkey] using hrest

namespace Expand
variable {language : Expression.Language} {equates : Equates} {name s t : Text} {v : Int}

/-! ### Names and numbers -/

theorem visible_wordBytes : Visible wordBytes := by decide

theorem IsWord.visible (h : IsWord name) : Visible name := fun b hb => visible_wordBytes b (h.2.1 b hb)

theorem not_wordByte_of_not_seen {b : UInt8} (h : ¬ Seen b) : b ∉ wordBytes := fun hb => h (visible_wordBytes b hb)

/-- A name of expressions that is in ASCII is a word. -/
theorem isWord_of_isIdentifier (h : Expression.IsIdentifier name) (hascii : name.Ascii) : IsWord name := by
  have hcodes : Expression.codes name = name.map UInt8.toNat := by
    rw [Expression.codes, Text.runes_of_ascii hascii, List.map_map]
    rfl
  have hparts {b : UInt8} : b.toNat < 128 → Expression.isNamePart b.toNat = true → b ∈ wordBytes :=
    Text.of_toNat_lt (P := fun b => Expression.isNamePart b.toNat = true → b ∈ wordBytes) (by decide +kernel)
  have hstarts {b : UInt8} : b.toNat < 128 → Expression.isNameStart b.toNat = true → b ∉ digitBytes :=
    Text.of_toNat_lt (P := fun b => Expression.isNameStart b.toNat = true → b ∉ digitBytes) (by decide +kernel)
  obtain ⟨c, rest, hcons, hstart⟩ := h.exists_cons
  rw [hcodes] at hcons
  obtain ⟨b, name', rfl, rfl, -⟩ := List.map_eq_cons_iff.mp hcons
  refine ⟨List.cons_ne_nil b name', fun a ha => ?_, fun a ha => ?_⟩
  · have hpart := h.of_mem a.toNat (hcodes ▸ List.mem_map_of_mem ha)
    exact hparts (hascii a ha) hpart
  · obtain rfl : b = a := Option.some.inj ha
    exact hstarts (hascii b List.mem_cons_self) hstart

/-- An equate that is a literal has the literal's number as its value. -/
theorem evaluate_name (hlanguage : language.ReadsNames) (hget : equates.get? name = some s) (hs : Literal.Fits s v)
    (hname : Expression.IsIdentifier name) (hresult : name ≠ Expression.resultName) :
    equates.evaluate language name = .ok v := by
  have hlookup := Equates.lookup_integers hget (Literal.integer_of_fits hs)
  obtain ⟨globals, hglobals, hvalue⟩ := hlanguage equates.integers name v hname hresult hlookup
  refine Equates.evaluate_of_int hglobals hvalue ?_
  obtain ⟨-, hmin, hmax⟩ := hs
  unfold Literal.least at hmin
  unfold Literal.greatest at hmax
  omega

/-- A run of word bytes that is a whole text is replaced as such. -/
theorem substitute_whole (hne : t ≠ []) (ht : ∀ b ∈ t, b ∈ wordBytes) : substitute equates t = replaced equates t := by
  have hrun : substitute equates (t ++ []) = replaced equates t ++ [] :=
    substitute_run hne ht fun c hc => absurd hc (Option.not_mem_none c)
  rwa [List.append_nil, List.append_nil] at hrun

theorem substitute_name (h : IsWord name) (hget : equates.get? name = some s) : substitute equates name = s := by
  rw [substitute_whole h.1 h.2.1, replaced, if_pos h, hget]
  rfl

theorem numeral_ne_nil (n : Nat) : Text.numeral 10 n ≠ [] := by
  intro hnil
  have hnatural := Text.natural?_numeral n
  rw [hnil] at hnatural
  cases hnatural

theorem substitute_numeral (n : Nat) : substitute equates (Text.numeral 10 n) = Text.numeral 10 n := by
  have hmem : ∀ b ∈ Text.numeral 10 n, b ∈ digitBytes ∧ b ∈ wordBytes := by
    intro b hb
    obtain ⟨hlow, hhigh⟩ := Text.mem_numeral hb
    exact Text.of_toNat_lt (P := fun b => 48 ≤ b.toNat → b ∈ digitBytes ∧ b ∈ wordBytes) (by decide)
      (Nat.lt_succ_of_le hhigh) hlow
  have hne := numeral_ne_nil n
  obtain ⟨b, rest, hnumeral⟩ := List.exists_cons_of_ne_nil hne
  have hhead : b ∈ (Text.numeral 10 n).head? := by rw [hnumeral]; rfl
  rw [substitute_whole hne fun b hb => (hmem b hb).2, replaced_of_digit hhead (hmem b (List.mem_of_mem_head? hhead)).1]

/-- A number in decimal has no words in it. -/
theorem substitute_decimal (v : Int) : substitute equates (Text.decimal v) = Text.decimal v := by
  cases v with
  | ofNat n => exact substitute_numeral n
  | negSucc n =>
    have hminus : byte '-' ∉ wordBytes := by decide
    rw [Text.decimal, substitute_cons_other hminus, substitute_numeral]

theorem decimal_ne_nil (v : Int) : Text.decimal v ≠ [] := by
  cases v with
  | ofNat n => exact numeral_ne_nil n
  | negSucc n => exact List.cons_ne_nil _ _

theorem substitute_of_not_mem (h : ∀ b ∈ t, b ∉ wordBytes) : substitute equates t = t := by
  induction t with
  | nil => rfl
  | cons b rest ih =>
    obtain ⟨hb, hrest⟩ := List.forall_mem_cons.mp h
    rw [substitute_cons_other hb, ih hrest]

/-- A text ends as it did, if it does not end with a word. -/
theorem getLast?_substitute (h : ∀ b ∈ t.getLast?, b ∉ wordBytes) :
    (substitute equates t).getLast? = t.getLast? := by
  induction t using List.reverseRecOn with
  | nil => rfl
  | append_singleton front b =>
    have hb : b ∉ wordBytes := h b List.getLast?_concat
    have hone : ∀ c ∈ [b], c ∉ wordBytes := List.forall_mem_singleton.mpr hb
    have hapart : Apart front [b] := .inr fun c hc => Option.some.inj hc ▸ hb
    rw [substitute_append hapart, substitute_of_not_mem hone, List.getLast?_concat, List.getLast?_concat]

/-! ### Lines up to their last argument -/

/-- A line up to an argument that is still to come: a mnemonic other than the directive, white space behind it, and any
text that ends with a comma or with white space. There is no dollar in it. -/
structure Lead where
  pad : Text
  mnemonic : Text
  gap : Text
  rest : Text
  pad_blanks : Blanks pad
  blankless : Blankless mnemonic
  ne_nil : mnemonic ≠ []
  not_directive : mnemonic ≠ directive
  gap_blanks : Blanks gap
  gap_ne_nil : gap ≠ []
  ends : ∃ front back, pad ++ mnemonic ++ gap ++ rest = front ++ back ∧ (back = "," ∨ Blanks back ∧ back ≠ [])
  no_dollar : dollar ∉ pad ++ mnemonic ++ gap ++ rest

namespace Lead
variable (lead : Lead) {evaluate : Evaluator}

def text : Text := lead.pad ++ lead.mnemonic ++ lead.gap ++ lead.rest

/-- What the line is expanded to in front of the argument. -/
def expanded (equates : Equates) : Text := lead.mnemonic ++ lead.gap ++ substitute equates lead.rest

theorem last_rest : ∀ b ∈ lead.rest.getLast?, b = byte ',' ∨ ¬ Seen b := by
  intro b hb
  obtain ⟨front, back, hwhole, hback⟩ := lead.ends
  have hrest : lead.rest ≠ [] := by
    intro hnil
    rw [hnil] at hb
    cases hb
  have hlast : (front ++ back).getLast? = some b := by
    rw [← hwhole, List.getLast?_append_of_ne_nil _ hrest]
    exact hb
  rcases hback with rfl | ⟨hblanks, hne⟩
  · have hcomma : (front ++ Text.ofString ",").getLast? = some (byte ',') := List.getLast?_concat
    rw [hcomma] at hlast
    exact .inl (Option.some.inj hlast).symm
  · rw [List.getLast?_append_of_ne_nil _ hne] at hlast
    exact .inr fun hseen => hblanks.not_mem hseen (List.mem_of_getLast? hlast)

theorem last_rest_not_word : ∀ b ∈ lead.rest.getLast?, b ∉ wordBytes := by
  intro b hb
  rcases lead.last_rest b hb with rfl | hseen
  · decide
  · exact not_wordByte_of_not_seen hseen

theorem startsBlank (t : Text) : Text.StartsBlank (lead.gap ++ (lead.rest ++ t)) :=
  lead.gap_blanks.startsBlank_append lead.gap_ne_nil (lead.rest ++ t)

theorem text_append (t : Text) : lead.text ++ t = lead.pad ++ (lead.mnemonic ++ (lead.gap ++ (lead.rest ++ t))) := by
  simp only [text, List.append_assoc]

/-- Trimming takes no more than the white space in front of the mnemonic. -/
theorem trim_append (ht : Visible t) (hne : t ≠ []) :
    (lead.text ++ t).trim = lead.mnemonic ++ (lead.gap ++ (lead.rest ++ t)) := by
  rw [lead.text_append, Text.trim_blanks_append lead.pad_blanks, ← List.append_assoc, ← List.append_assoc]
  apply Text.trim_eq_of_head ht hne
  intro r hr
  rw [List.append_assoc, List.append_assoc, Text.runes_append_of_startsBlank (lead.startsBlank t)] at hr
  obtain ⟨r', runes, hrunes⟩ := Text.exists_runes_cons lead.ne_nil
  rw [hrunes] at hr
  obtain rfl : r' = r := Option.some.inj hr
  exact lead.blankless r' (hrunes ▸ List.mem_cons_self)

/-- An argument that is seen is kept apart from all that stands in front of it. -/
theorem expand_eq (ht : Visible t) (hne : t ≠ []) (hdollar : dollar ∉ t) :
    expand evaluate equates (lead.text ++ t) = (.ok (lead.expanded equates ++ substitute equates t), equates) := by
  have hfields : (lead.text ++ t).fields.head? ≠ some directive := by
    rw [lead.text_append, Text.fields_blanks_append lead.pad_blanks,
      Text.fields_append lead.blankless lead.ne_nil (lead.startsBlank t)]
    exact fun heq => lead.not_directive (Option.some.inj heq)
  have hsplit : (lead.text ++ t).trim.splitBlank = (lead.mnemonic, lead.gap ++ (lead.rest ++ t)) := by
    rw [lead.trim_append ht hne, Text.splitBlank_append lead.blankless (lead.startsBlank t)]
  have hgap : ∀ b ∈ lead.gap, b ∉ wordBytes := fun b hb =>
    not_wordByte_of_not_seen fun hseen => lead.gap_blanks.not_mem hseen hb
  have hapart : Apart lead.gap (lead.rest ++ t) := .inl fun b hb => hgap b (List.mem_of_getLast? hb)
  have hnone : dollar ∉ lead.text ++ t := List.not_mem_append lead.no_dollar hdollar
  rw [expand, expressions_of_not_mem evaluate hnone]
  show plain equates (lead.text ++ t) = _
  rw [plain_of_not_directive hfields hsplit, substitute_append hapart, substitute_of_not_mem hgap,
    substitute_append (.inl lead.last_rest_not_word)]
  simp only [expanded, List.append_assoc]

/-- An expression as the argument is its value. -/
theorem expand_value {source : Text} (equates : Equates) (hsource : dollar ∉ source)
    (hvalue : evaluate source = .ok v) :
    expand evaluate equates (lead.text ++ "$(" ++ source ++ ")") =
      (.ok (lead.expanded equates ++ Text.decimal v), equates) := by
  have hsite : expand evaluate equates (lead.text ++ "$(" ++ source ++ ")" ++ ([] : Text)) =
      expand evaluate equates (lead.text ++ Text.decimal v ++ ([] : Text)) :=
    expand_of_value equates lead.no_dollar hsource List.not_mem_nil List.not_mem_nil hvalue
  rw [List.append_nil, List.append_nil] at hsite
  rw [hsite, lead.expand_eq (Text.plain_decimal v).visible (decimal_ne_nil v) (dollar_not_mem_decimal v),
    substitute_decimal]

/-- The argument is the last of the line, behind what the line has of it already. -/
theorem exists_cutLine (equates : Equates) :
    ∃ args front, (∀ b ∈ front.getLast?, ¬ Seen b) ∧ ∀ u, Plain u → u ≠ [] →
      cutLine (lead.expanded equates ++ u) = (lead.mnemonic.lower, args ++ [(front ++ u).trim]) := by
  obtain ⟨pieces, front, hsuffix, hcomma, hpieces⟩ := Text.exists_split_append (byte ',') (substitute equates lead.rest)
  refine ⟨pieces.map Text.trim, front, ?_, ?_⟩
  · intro b hb
    have hlast : b ∈ lead.rest.getLast? := by
      obtain ⟨before, hwhole⟩ := hsuffix
      have hne : front ≠ [] := by
        intro hnil
        rw [hnil] at hb
        cases hb
      rw [← getLast?_substitute lead.last_rest_not_word, ← hwhole, List.getLast?_append_of_ne_nil _ hne]
      exact hb
    refine (lead.last_rest b hlast).resolve_left ?_
    rintro rfl
    exact hcomma (List.mem_of_getLast? hb)
  · intro u hu hne
    have hcomma' : byte ',' ∉ u := hu.not_mem (by decide)
    obtain ⟨back, hsplit, hback⟩ := Text.splitBlank_trim lead.blankless lead.ne_nil lead.gap_blanks lead.gap_ne_nil
      (substitute equates lead.rest ++ u)
    have hnonempty : (substitute equates lead.rest ++ u).trim ≠ [] := by
      intro hnil
      obtain ⟨b, hb⟩ := List.exists_mem_of_ne_nil u hne
      exact (Text.trim_eq_nil_iff.mp hnil).not_mem (hu.visible b hb) (List.mem_append_right _ hb)
    rw [expanded, List.append_assoc]
    simp only [cutLine, hsplit, hback, if_neg hnonempty, Text.map_trim_split_trim seen_comma, hpieces u hcomma',
      List.map_append, List.map_singleton]

/-- **Literals of one number assemble alike as the last argument of a line.** -/
theorem assemble_congr {s' : Text} (h : Literal.Fits s v) (h' : Literal.Fits s' v) (inst : Instruction) :
    assemble (lead.expanded equates ++ s) = .ok inst ↔ assemble (lead.expanded equates ++ s') = .ok inst := by
  obtain ⟨args, front, hfront, hcut⟩ := lead.exists_cutLine equates
  refine assemble_eq_ok_congr (hcut s h.plain h.ne_nil) (hcut s' h'.plain h'.ne_nil) ?_
  have hsame : List.Forall₂ Slot.Alike args args := List.forall₂_same.mpr fun _ _ _ _ => Iff.rfl
  exact List.rel_append hsame (.cons (Slot.alike_behind hfront h h') .nil)

end Lead

/-- A line expands, and what it expands to assembles. -/
def Assembles (language : Expression.Language) (equates : Equates) (line : Text) (inst : Instruction) : Prop :=
  ∃ source, (expand (equates.evaluate language) equates line).1 = .ok source ∧ assemble source = .ok inst

theorem assembles_iff {line source : Text} {inst : Instruction}
    (h : expand (equates.evaluate language) equates line = (.ok source, equates)) :
    Assembles language equates line inst ↔ assemble source = .ok inst := by
  unfold Assembles
  rw [h]
  constructor
  · rintro ⟨source', hsource, hassemble⟩
    rwa [Except.ok.inj hsource]
  · exact fun hassemble => ⟨source, rfl, hassemble⟩

/-- **An equate means the same number by its name and in an expression**, in any language that reads names. A literal
is the integer that an equate of its text has, and the integer in decimal is a literal of the same number. So where the
equate is the last argument of a line and its name is in ASCII, the line with its name and the line with the expression
assemble to the same instruction or both do not. -/
theorem equate_means_number {language : Expression.Language} (hlanguage : language.ReadsNames) {s : Text} {v : Int}
    (hs : Literal.parse s = .ok v) :
    Text.integer s = .ok v ∧ Literal.parse (Text.decimal v) = .ok v ∧
      ∀ (equates : Equates) (name : Text), equates.get? name = some s → Expression.IsIdentifier name →
        name ≠ Text.ofString "rc" →
          equates.integers.lookup name = some v ∧ equates.evaluate language name = .ok v ∧
            (name.Ascii → ∀ (lead : Lead) (inst : Instruction),
              Assembles language equates (lead.text ++ name) inst ↔
                Assembles language equates (lead.text ++ "$(" ++ name ++ ")") inst) := by
  have hfits : Literal.Fits s v := Literal.parse_eq_ok_iff.mp hs
  have hdecimal := Literal.fits_decimal hfits
  refine ⟨Literal.integer_of_fits hfits, Literal.parse_eq_ok_iff.mpr hdecimal, ?_⟩
  intro equates name hget hname hresult
  have hevaluate := evaluate_name hlanguage hget hfits hname hresult
  refine ⟨Equates.lookup_integers hget (Literal.integer_of_fits hfits), hevaluate, fun hascii lead inst => ?_⟩
  have hword := isWord_of_isIdentifier hname hascii
  have hdollar : dollar ∉ name := by
    have hall : dollar ∉ wordBytes := by decide
    exact fun hmem => hall (hword.2.1 _ hmem)
  have hdirect : expand (equates.evaluate language) equates (lead.text ++ name) =
      (.ok (lead.expanded equates ++ s), equates) := by
    rw [lead.expand_eq hword.visible hword.1 hdollar, substitute_name hword hget]
  have hexpression := lead.expand_value equates hdollar hevaluate
  rw [assembles_iff hdirect, assembles_iff hexpression]
  exact lead.assemble_congr hfits hdecimal inst

/-- The last argument of an addition, between white space. -/
def addition : Lead where
  pad := "\t"
  mnemonic := "ADDI"
  gap := " "
  rest := "a0 , a1,  "
  pad_blanks := by decide
  blankless := by decide
  ne_nil := by decide
  not_directive := by decide
  gap_blanks := by decide
  gap_ne_nil := by decide
  ends := ⟨"\tADDI a0 , a1,", "  ", by decide, .inr ⟨by decide, by decide⟩⟩
  no_dollar := by decide

/-- A negative number in hexadecimal. -/
theorem equate_means_number_negative :
    let equates : Equates := [("SIZE", "16"), ("low_16", "-0x0010")]
    Literal.parse "-0x0010" = .ok (-16) ∧ Expression.IsIdentifier "low_16" ∧
      equates.evaluate Expression.language "low_16" = .ok (-16) ∧
      Assembles Expression.language equates (addition.text ++ "low_16") ⟨.addi, .i ⟨10⟩ ⟨11⟩ (-16)⟩ ∧
      Assembles Expression.language equates (addition.text ++ "$(" ++ "low_16" ++ ")") ⟨.addi, .i ⟨10⟩ ⟨11⟩ (-16)⟩ := by
  intro equates
  have hparse : Literal.parse "-0x0010" = .ok (-16) := rfl
  have hname : Expression.IsIdentifier "low_16" := ⟨by decide, by decide, by decide, by decide⟩
  have hvisible : Visible "low_16" := by decide
  obtain ⟨-, hevaluate, hsame⟩ :=
    (equate_means_number Expression.language_readsNames hparse).2.2 equates "low_16" rfl hname (by decide)
  have hdirect : Assembles Expression.language equates (addition.text ++ "low_16") ⟨.addi, .i ⟨10⟩ ⟨11⟩ (-16)⟩ :=
    ⟨"ADDI a0 , a1,  -0x0010", rfl, rfl⟩
  exact ⟨hparse, hname, hevaluate, hdirect, (hsame hvisible.ascii addition _).mp hdirect⟩

/-- **Beyond ASCII the two differ**: a letter with an accent names an equate in an expression, and in a line it is no
word. -/
theorem equate_beyond_ascii :
    ¬ ∀ (language : Expression.Language), language.ReadsNames → ∀ (s : Text) (v : Int), Literal.parse s = .ok v →
      ∀ (equates : Equates) (name : Text), equates.get? name = some s → Expression.IsIdentifier name →
        name ≠ Text.ofString "rc" → ∀ (lead : Lead) (inst : Instruction),
          Assembles language equates (lead.text ++ name) inst ↔
            Assembles language equates (lead.text ++ "$(" ++ name ++ ")") inst := by
  intro h
  have hname : Expression.IsIdentifier "é" := ⟨by decide +kernel, by decide +kernel, by decide, by decide⟩
  have hfits : Literal.Fits "5" 5 := Literal.parse_eq_ok_iff.mp rfl
  have hevaluate : Equates.evaluate [("é", "5")] Expression.language "é" = .ok 5 :=
    evaluate_name Expression.language_readsNames rfl hfits hname (by decide)
  have hexpression : Assembles Expression.language [("é", "5")] (addition.text ++ "$(" ++ "é" ++ ")")
      ⟨.addi, .i ⟨10⟩ ⟨11⟩ 5⟩ :=
    (assembles_iff (addition.expand_value _ (by decide) hevaluate)).mpr rfl
  have hdirect := (h _ Expression.language_readsNames "5" 5 rfl [("é", "5")] "é" rfl hname (by decide) addition
    ⟨.addi, .i ⟨10⟩ ⟨11⟩ 5⟩).mpr hexpression
  obtain ⟨source, hsource, hassemble⟩ := hdirect
  obtain rfl : Text.ofString "ADDI a0 , a1,  é" = source := Except.ok.inj hsource
  cases hassemble

end Expand

end RvConsole
