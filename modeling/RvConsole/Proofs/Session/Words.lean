import RvConsole.Proofs.Session.Step
import RvConsole.Proofs.Text.Fields
import RvConsole.Proofs.Text.Numeral

/-! Words are replaced once and whole.

The operands of a line fall into runs, each as long as it can be, of bytes that words are made of and of bytes that
they are not (`IsRuns`; there is one way to do that, `IsRuns.eq_runs`). A run that is a word, which does not start with
a digit, gives way to the text of the equate it names, and every other run is kept (`replaced`). Nothing else happens
to a line without expressions that gives no equate (`words_replaced`). A text can be cut wherever no word reaches
across (`substitute_append`). -/
namespace RvConsole
open Text (byte Blankless StartsBlank)

/-- What holds of all bytes below a bound, checked one by one, holds of a byte that is below it. -/
theorem Text.of_toNat_lt {P : UInt8 → Prop} {bound : Nat} (h : ∀ n < bound, P (UInt8.ofNat n)) {b : UInt8}
    (hb : b.toNat < bound) : P b := by
  have hbyte := h b.toNat hb
  rwa [UInt8.ofNat_toNat] at hbyte

namespace Expand

variable {equates : Equates} {s t w run : Text} {rs : List Text}

/-! ### Words -/

/-- The bytes that words are made of. -/
def wordBytes : Text := "ABCDEFGHIJKLMNOPQRSTUVWXYZabcdefghijklmnopqrstuvwxyz0123456789_"

def digitBytes : Text := "0123456789"

/-- A text is one word. -/
def IsWord (t : Text) : Prop := t ≠ [] ∧ (∀ b ∈ t, b ∈ wordBytes) ∧ ∀ b ∈ t.head?, b ∉ digitBytes

instance (t : Text) : Decidable (IsWord t) :=
  have : Decidable (∀ b ∈ t, b ∈ wordBytes) := List.decidableBAll _ t
  have : Decidable (∀ b ∈ t.head?, b ∉ digitBytes) := Option.decidableForallMem _
  inferInstanceAs (Decidable (_ ∧ _ ∧ _))

theorem isWordByte_iff (b : UInt8) : isWordByte b = true ↔ b ∈ wordBytes := by
  constructor
  · -- the ranges are the parts of the row, in order
    exact Text.of_toNat_lt (P := fun b => isWordByte b → b ∈ wordBytes) (by decide +kernel) b.toNat_lt
  · have hall : wordBytes.all isWordByte = true := by decide +kernel
    exact fun hb => List.all_eq_true.mp hall b hb

theorem isDigit_iff (b : UInt8) : Text.isDigit b = true ↔ b ∈ digitBytes := by
  constructor
  · intro h
    obtain ⟨d, hd⟩ := Option.isSome_iff_exists.mp h
    obtain ⟨hlt, rfl⟩ := Text.eq_digitChar_of_digit? hd
    have hrow : ∀ d < 10, d.digitChar.toUInt8 ∈ digitBytes := by decide
    exact hrow d hlt
  · have hall : digitBytes.all Text.isDigit = true := by decide
    exact fun hb => List.all_eq_true.mp hall b hb

/-! ### Runs -/

/-- A text cut into its longest runs: each is of one kind, and neighbours are of different kinds. -/
structure IsRuns (t : Text) (rs : List Text) : Prop where
  whole : rs.flatten = t
  ne_nil : ∀ run ∈ rs, run ≠ []
  uniform : ∀ run ∈ rs, (∀ b ∈ run, b ∈ wordBytes) ∨ ∀ b ∈ run, b ∉ wordBytes
  longest : rs.IsChain fun run next => ∀ b ∈ run, ∀ c ∈ next, (b ∈ wordBytes ↔ c ∉ wordBytes)

theorem isRuns_nil : IsRuns [] [] := ⟨rfl, List.forall_mem_nil _, List.forall_mem_nil _, .nil⟩

theorem IsRuns.tail (h : IsRuns t (run :: rs)) : IsRuns rs.flatten rs :=
  ⟨rfl, fun r hr => h.ne_nil r (List.mem_cons_of_mem _ hr), fun r hr => h.uniform r (List.mem_cons_of_mem _ hr),
    h.longest.tail⟩

/-- A run ends where the text does not go on with bytes of its kind. -/
theorem IsRuns.head_behind (h : IsRuns t (run :: rs)) :
    ∀ b ∈ run, ∀ c ∈ rs.flatten.head?, (b ∈ wordBytes ↔ c ∉ wordBytes) := by
  intro b hb c hc
  cases rs with
  | nil => exact absurd hc (Option.not_mem_none c)
  | cons next rs =>
    have hnext : next ≠ [] := h.ne_nil next (List.mem_cons_of_mem _ List.mem_cons_self)
    rw [List.flatten_cons, List.head?_append_of_ne_nil _ hnext] at hc
    exact (List.isChain_cons.mp h.longest).1 next rfl b hb c (List.mem_of_mem_head? hc)

theorem runStep_nil (b : UInt8) : runStep b [] = [[b]] := rfl

theorem runStep_same {b c : UInt8} (h : isWordByte c = isWordByte b) (run : Text) (rs : List Text) :
    runStep b ((c :: run) :: rs) = (b :: c :: run) :: rs := by
  simp [runStep, h]

theorem runStep_other {b c : UInt8} (h : isWordByte c ≠ isWordByte b) (run : Text) (rs : List Text) :
    runStep b ((c :: run) :: rs) = [b] :: (c :: run) :: rs := by
  simp [runStep, h]

/-- One more byte in front of runs makes the runs of the longer text. -/
theorem IsRuns.step (h : IsRuns t rs) (b : UInt8) : IsRuns (b :: t) (runStep b rs) := by
  cases rs with
  | nil =>
    obtain rfl : [] = t := h.whole
    exact ⟨rfl, by simp [runStep], by simpa [runStep] using em _, .singleton _⟩
  | cons run rs =>
    obtain ⟨c, run, rfl⟩ := List.exists_cons_of_ne_nil (h.ne_nil run List.mem_cons_self)
    have hwhole := h.whole
    have hne := h.ne_nil
    have huniform := List.forall_mem_cons.mp h.uniform
    have hlongest := List.isChain_cons.mp h.longest
    by_cases hkind : isWordByte c = isWordByte b
    · have hmem : b ∈ wordBytes ↔ c ∈ wordBytes := by rw [← isWordByte_iff, ← isWordByte_iff, hkind]
      rw [runStep_same hkind]
      refine ⟨by simp [← hwhole], by simpa using hne, ?_, ?_⟩
      · refine List.forall_mem_cons.mpr ⟨huniform.1.imp (fun hrun => ?_) (fun hrun => ?_), huniform.2⟩
        · exact List.forall_mem_cons.mpr ⟨hmem.mpr (hrun c List.mem_cons_self), hrun⟩
        · exact List.forall_mem_cons.mpr ⟨fun hb => hrun c List.mem_cons_self (hmem.mp hb), hrun⟩
      · refine List.isChain_cons.mpr ⟨fun next hnext => List.forall_mem_cons.mpr ⟨fun d hd => ?_, ?_⟩, hlongest.2⟩
        · rw [hmem]
          exact hlongest.1 next hnext c List.mem_cons_self d hd
        · exact hlongest.1 next hnext
    · rw [runStep_other hkind]
      have hother : b ∈ wordBytes ↔ c ∉ wordBytes := by
        rw [← isWordByte_iff, ← isWordByte_iff]
        cases hb : isWordByte b <;> cases hc : isWordByte c <;> simp_all
      refine ⟨by simp [← hwhole], by simpa using hne, ?_, ?_⟩
      · exact List.forall_mem_cons.mpr ⟨by simpa using em _, h.uniform⟩
      · refine List.isChain_cons.mpr ⟨fun next hnext => ?_, h.longest⟩
        obtain rfl : c :: run = next := Option.some.inj hnext
        refine List.forall_mem_singleton.mpr fun d hd => ?_
        rcases huniform.1 with hrun | hrun
        · simp only [hother, hrun c List.mem_cons_self, hrun d hd]
        · simp only [hother, hrun c List.mem_cons_self, hrun d hd]

theorem isRuns_runs (t : Text) : IsRuns t (runs t) := by
  induction t with
  | nil => exact isRuns_nil
  | cons b rest ih => exact ih.step b

/-- A run that what follows does not go on with is the first. -/
theorem runs_append_of_run (kind : Bool) (hne : run ≠ []) (hrun : ∀ b ∈ run, isWordByte b = kind)
    (ht : ∀ c ∈ t.head?, isWordByte c ≠ kind) : runs (run ++ t) = run :: runs t := by
  induction run with
  | nil => exact absurd rfl hne
  | cons b rest ih =>
    obtain ⟨hb, hrest⟩ := List.forall_mem_cons.mp hrun
    show runStep b (runs (rest ++ t)) = _
    cases rest with
    | nil =>
      cases t with
      | nil => rfl
      | cons c t =>
        have hruns := isRuns_runs (c :: t)
        rw [List.nil_append]
        cases hrs : runs (c :: t) with
        | nil =>
          rw [hrs] at hruns
          cases hruns.whole
        | cons run rs =>
          rw [hrs] at hruns
          obtain ⟨d, run, rfl⟩ := List.exists_cons_of_ne_nil (hruns.ne_nil run List.mem_cons_self)
          obtain ⟨rfl, -⟩ := List.cons.inj hruns.whole
          exact runStep_other (hb ▸ ht d rfl) run rs
    | cons c rest =>
      rw [ih (List.cons_ne_nil c rest) hrest]
      exact runStep_same ((hrest c List.mem_cons_self).trans hb.symm) rest (runs t)

/-- **There is one way to cut a text into longest runs.** -/
theorem IsRuns.eq_runs (h : IsRuns t rs) : rs = runs t := by
  induction rs generalizing t with
  | nil =>
    obtain rfl : [] = t := h.whole
    rfl
  | cons run rs ih =>
    have htail := ih h.tail
    have hne := h.ne_nil run List.mem_cons_self
    obtain ⟨b, rest, hrun⟩ := List.exists_cons_of_ne_nil hne
    have hkind : ∀ c ∈ run, isWordByte c = isWordByte b := by
      intro c hc
      have hb : b ∈ run := hrun ▸ List.mem_cons_self
      rw [Bool.eq_iff_iff, isWordByte_iff, isWordByte_iff]
      rcases h.uniform run List.mem_cons_self with huniform | huniform
      · exact iff_of_true (huniform c hc) (huniform b hb)
      · exact iff_of_false (huniform c hc) (huniform b hb)
    have hnext : ∀ c ∈ rs.flatten.head?, isWordByte c ≠ isWordByte b := by
      intro c hc
      have hdiffer := h.head_behind b (hrun ▸ List.mem_cons_self) c hc
      rw [ne_eq, Bool.eq_iff_iff, isWordByte_iff, isWordByte_iff]
      tauto
    rw [← h.whole, List.flatten_cons, runs_append_of_run _ hne hkind hnext, ← htail]

/-! ### Replacing -/

/-- What takes the place of a run: if it is a word that has a text, that text. -/
def replaced (equates : Equates) (run : Text) : Text := if IsWord run then (equates.get? run).getD run else run

theorem replaced_of_not_mem {b : UInt8} (hb : b ∈ run) (hother : b ∉ wordBytes) : replaced equates run = run :=
  if_neg fun h => hother (h.2.1 b hb)

theorem replaced_of_digit {b : UInt8} (hb : b ∈ run.head?) (hdigit : b ∈ digitBytes) : replaced equates run = run :=
  if_neg fun h => h.2.2 b hb hdigit

theorem isName_iff (huniform : (∀ b ∈ run, b ∈ wordBytes) ∨ ∀ b ∈ run, b ∉ wordBytes) :
    isName run = true ↔ IsWord run := by
  cases run with
  | nil => exact iff_of_false Bool.false_ne_true fun h => h.1 rfl
  | cons b rest =>
    have hdigit : Text.isDigit b = false ↔ b ∉ digitBytes := by rw [← isDigit_iff, Bool.not_eq_true]
    simp only [isName, Bool.and_eq_true, Bool.not_eq_true', isWordByte_iff, hdigit]
    constructor
    · intro h
      refine ⟨List.cons_ne_nil b rest, huniform.resolve_right fun hrun => hrun b List.mem_cons_self h.1, ?_⟩
      intro c hc
      exact Option.some.inj hc ▸ h.2
    · exact fun h => ⟨h.2.1 b List.mem_cons_self, h.2.2 b rfl⟩

theorem substitute_of_runs (h : IsRuns t rs) : substitute equates t = rs.flatMap (replaced equates) := by
  rw [substitute, ← h.eq_runs]
  refine List.flatMap_congr fun run hrun => ?_
  simp only [replaced, isName_iff (h.uniform run hrun)]

/-- A byte of no word is kept. -/
theorem substitute_cons_other {b : UInt8} (hb : b ∉ wordBytes) (t : Text) :
    substitute equates (b :: t) = b :: substitute equates t := by
  have hruns := isRuns_runs t
  have hstep := hruns.step b
  rw [substitute_of_runs hstep, substitute_of_runs hruns]
  cases hrs : runs t with
  | nil => simp [runStep_nil, replaced_of_not_mem (List.mem_singleton_self b) hb]
  | cons run rs =>
    rw [hrs] at hruns
    obtain ⟨c, run, rfl⟩ := List.exists_cons_of_ne_nil (hruns.ne_nil run List.mem_cons_self)
    by_cases hkind : isWordByte c = isWordByte b
    · have hc : c ∉ wordBytes := by rwa [← isWordByte_iff, hkind, isWordByte_iff]
      rw [runStep_same hkind, List.flatMap_cons, List.flatMap_cons, replaced_of_not_mem List.mem_cons_self hb,
        replaced_of_not_mem List.mem_cons_self hc]
      rfl
    · rw [runStep_other hkind, List.flatMap_cons, replaced_of_not_mem List.mem_cons_self hb]
      rfl

/-- A run of word bytes is replaced as a whole. -/
theorem substitute_run (hne : w ≠ []) (hw : ∀ b ∈ w, b ∈ wordBytes) (ht : ∀ c ∈ t.head?, c ∉ wordBytes) :
    substitute equates (w ++ t) = replaced equates w ++ substitute equates t := by
  have hruns : runs (w ++ t) = w :: runs t := by
    refine runs_append_of_run true hne (fun b hb => (isWordByte_iff b).mpr (hw b hb)) fun c hc hkind => ?_
    exact ht c hc ((isWordByte_iff c).mp hkind)
  rw [substitute_of_runs (isRuns_runs (w ++ t)), hruns, List.flatMap_cons, substitute_of_runs (isRuns_runs t)]

/-- What holds of no text, stays when a byte of no word comes in front, and stays when a run of word bytes comes in
front that the text does not go on with, holds of all texts. -/
theorem run_induction {P : Text → Prop} (nil : P []) (other : ∀ b t, b ∉ wordBytes → P t → P (b :: t))
    (run : ∀ w t, w ≠ [] → (∀ b ∈ w, b ∈ wordBytes) → (∀ c ∈ t.head?, c ∉ wordBytes) → P t → P (w ++ t))
    (t : Text) : P t := by
  have hall : ∀ rs t, IsRuns t rs → P t := by
    intro rs
    induction rs with
    | nil =>
      intro t h
      obtain rfl : [] = t := h.whole
      exact nil
    | cons r rs ih =>
      intro t h
      have hrest := ih _ h.tail
      rw [← h.whole, List.flatten_cons]
      rcases h.uniform r List.mem_cons_self with hword | hother
      · have hne := h.ne_nil r List.mem_cons_self
        refine run r _ hne hword (fun c hc => ?_) hrest
        obtain ⟨b, hb⟩ := List.exists_mem_of_ne_nil r hne
        exact (h.head_behind b hb c hc).mp (hword b hb)
      · clear h ih
        induction r with
        | nil => exact hrest
        | cons b r ih =>
          obtain ⟨hb, hr⟩ := List.forall_mem_cons.mp hother
          exact other b _ hb (ih hr)
  exact hall (runs t) t (isRuns_runs t)

/-- No word reaches from one text into another. -/
def Apart (s t : Text) : Prop := (∀ b ∈ s.getLast?, b ∉ wordBytes) ∨ ∀ b ∈ t.head?, b ∉ wordBytes

theorem Apart.of_append {front : Text} (h : Apart (front ++ s) t) : Apart s t := by
  by_cases hs : s = []
  · subst hs
    exact .inl fun b hb => absurd hb (Option.not_mem_none b)
  · rwa [Apart, List.getLast?_append_of_ne_nil _ hs] at h

/-- **A text can be cut where no word reaches across.** -/
theorem substitute_append (h : Apart s t) :
    substitute equates (s ++ t) = substitute equates s ++ substitute equates t := by
  induction s using run_induction with
  | nil => rfl
  | other b s hb ih =>
    have hrest : Apart s t := Apart.of_append (show Apart ([b] ++ s) t from h)
    rw [List.cons_append, substitute_cons_other hb, substitute_cons_other hb, ih hrest, List.cons_append]
  | run w s hne hw hs ih =>
    have hhead : ∀ c ∈ (s ++ t).head?, c ∉ wordBytes := by
      by_cases hs0 : s = []
      -- the word ends the text, so what follows does not go on with it
      · subst hs0
        rw [List.append_nil] at h
        refine h.resolve_left fun hlast => ?_
        exact hlast _ (List.getLast?_eq_some_getLast hne) (hw _ (List.getLast_mem hne))
      · rwa [List.head?_append_of_ne_nil _ hs0]
    rw [List.append_assoc, substitute_run hne hw hhead, substitute_run hne hw hs, ih h.of_append, List.append_assoc]

/-! ### Lines -/

/-- A line that gives no equate keeps its first word, and the words behind it are replaced. -/
theorem plain_of_not_directive {line word back : Text} (hfirst : line.fields.head? ≠ some directive)
    (hsplit : line.trim.splitBlank = (word, back)) :
    plain equates line = (.ok (word ++ substitute equates back), equates) := by
  unfold plain
  cases hfields : line.fields with
  | nil =>
    rw [Text.trim_eq_nil_of_fields hfields] at hsplit
    obtain ⟨rfl, rfl⟩ := Prod.mk.inj hsplit
    rfl
  | cons first rest =>
    rw [hfields] at hfirst
    have hne : first ≠ directive := fun heq => hfirst (congrArg some heq)
    simp only [if_neg hne, hsplit]

/-- What replacing words makes of a text. -/
def Substitutes (equates : Equates) (t u : Text) : Prop := ∃ rs, IsRuns t rs ∧ u = rs.flatMap (replaced equates)

theorem substitutes_substitute (equates : Equates) (t : Text) : Substitutes equates t (substitute equates t) :=
  ⟨runs t, isRuns_runs t, substitute_of_runs (isRuns_runs t)⟩

/-- **Words are replaced once and whole.** A line without a dollar whose first field is not the directive expands to
itself, trimmed, its first word kept and the runs of the rest replaced, each by itself; the equates stay as they are.
A hexadecimal literal is no word, nor is any part of it. -/
theorem words_replaced (evaluate : Evaluator) (equates : Equates) {line : Text} (hdollar : dollar ∉ line)
    (hfirst : line.fields.head? ≠ some (Text.ofString ".equ")) :
    ∃ mnemonic operands rs, line.trim = mnemonic ++ operands ∧ Blankless mnemonic ∧ StartsBlank operands ∧
      IsRuns operands rs ∧ (∀ rs', IsRuns operands rs' → rs' = rs) ∧
      expand evaluate equates line = (.ok (mnemonic ++ rs.flatMap (replaced equates)), equates) ∧
      ∀ before digits after : Text, operands = before ++ ("0x" ++ digits) ++ after → (∀ b ∈ digits, b ∈ wordBytes) →
        (∀ b ∈ before.getLast?, b ∉ wordBytes) → (∀ b ∈ after.head?, b ∉ wordBytes) →
          ∃ u v, Substitutes equates before u ∧ Substitutes equates after v ∧
            rs.flatMap (replaced equates) = u ++ ("0x" ++ digits) ++ v := by
  obtain ⟨mnemonic, operands, hsplit, htrim, hmnemonic, hoperands⟩ := Text.splitBlank_eq line.trim
  have hruns := isRuns_runs operands
  refine ⟨mnemonic, operands, runs operands, htrim, hmnemonic, hoperands, hruns, fun rs' h => h.eq_runs, ?_, ?_⟩
  · rw [expand, expressions_of_not_mem evaluate hdollar]
    show plain equates line = _
    rw [plain_of_not_directive hfirst hsplit, substitute_of_runs hruns]
  · intro before digits after hwhole hdigits hbefore hafter
    refine ⟨_, _, substitutes_substitute equates before, substitutes_substitute equates after, ?_⟩
    have hmark : Text.ofString "0x" = [byte '0', byte 'x'] := by decide
    have hne : Text.ofString "0x" ++ digits ≠ [] := by simp [hmark]
    have hliteral : ∀ b ∈ Text.ofString "0x" ++ digits, b ∈ wordBytes := by
      refine List.forall_mem_append.mpr ⟨?_, hdigits⟩
      rw [hmark]
      exact List.forall_mem_cons.mpr ⟨by decide, List.forall_mem_singleton.mpr (by decide)⟩
    have hkept : replaced equates (Text.ofString "0x" ++ digits) = Text.ofString "0x" ++ digits :=
      replaced_of_digit (b := byte '0') (by rw [hmark]; rfl) (by decide)
    rw [← substitute_of_runs hruns, hwhole, List.append_assoc, substitute_append (.inl hbefore),
      substitute_run hne hliteral hafter, hkept, ← List.append_assoc]

/-- The text of one equate names another and stays as it is; a literal ends like a name; a name stands behind a letter
that is none of a word. -/
theorem words_replaced_once :
    let equates : Equates := [("a0", "x10"), ("x10", "7")]
    let line : Text := " addi a0, 0x10+éx10, a00\t"
    dollar ∉ line ∧ line.fields.head? ≠ some (Text.ofString ".equ") ∧
      ∃ mnemonic operands rs, line.trim = mnemonic ++ operands ∧ IsRuns operands rs ∧
        expand (equates.evaluate Expression.language) equates line =
          (.ok (mnemonic ++ rs.flatMap (replaced equates)), equates) ∧
        mnemonic ++ rs.flatMap (replaced equates) = "addi x10, 0x10+é7, a00" := by
  intro equates line
  have hdollar : dollar ∉ line := by decide
  have hfirst : line.fields.head? ≠ some (Text.ofString ".equ") := by decide
  obtain ⟨mnemonic, operands, rs, htrim, -, -, hruns, -, hexpand, -⟩ :=
    words_replaced (equates.evaluate Expression.language) equates hdollar hfirst
  have hvalue : (expand (equates.evaluate Expression.language) equates line).1 =
      .ok (Text.ofString "addi x10, 0x10+é7, a00") := rfl
  rw [hexpand] at hvalue
  exact ⟨hdollar, hfirst, mnemonic, operands, rs, htrim, hruns, hexpand, Except.ok.inj hvalue⟩

end Expand

end RvConsole
