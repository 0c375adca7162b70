import RvConsole.Proofs.Session.Sites
import RvConsole.Proofs.Session.Words

/-! The expressions of a line.

A line is cut at its dollars (`Cut`), and a piece behind a dollar is the site of an expression if it starts with a
bracket and has one that closes (`IsSite`). The sites are also what a search from the left finds that makes each match
as long as it can be (`Searched`). The expressions are evaluated over the equates as they are, whatever language they
are in. The leftmost that fails fails the line; if none does, the line goes on with the values in their places, and it
is then a line without sites, since a value brings no bracket along (`exists_cut_of_replaced`). -/
namespace RvConsole
open Text (byte Blankless StartsBlank)

namespace Expand

variable {language : Expression.Language} {equates : Equates} {evaluate : Evaluator}
  {line front piece source after : Text} {ps us : List Text}

/-! ### Pieces -/

/-- A line cut at its dollars: what stands in front of the first, and the pieces behind each. -/
structure Cut (line front : Text) (ps : List Text) : Prop where
  whole : line = front ++ ps.flatMap (dollar :: ·)
  front_free : dollar ∉ front
  pieces_free : ∀ piece ∈ ps, dollar ∉ piece

theorem cut_of_not_mem (h : dollar ∉ line) : Cut line line [] :=
  ⟨(List.append_nil line).symm, h, List.forall_mem_nil _⟩

theorem Cut.cons (hfront : dollar ∉ front) (h : Cut line piece ps) :
    Cut (front ++ dollar :: line) front (piece :: ps) := by
  refine ⟨?_, hfront, List.forall_mem_cons.mpr ⟨h.front_free, h.pieces_free⟩⟩
  rw [List.flatMap_cons, h.whole]
  rfl

theorem exists_cut (line : Text) : ∃ front ps, Cut line front ps := by
  induction hn : line.length using Nat.strong_induction_on generalizing line with
  | _ n ih =>
    by_cases hmem : dollar ∈ line
    · obtain ⟨front, back, rfl, hfront⟩ := List.eq_append_cons_of_mem hmem
      have hlength : back.length < n := by
        rw [← hn, List.length_append, List.length_cons]
        omega
      obtain ⟨piece, ps, hcut⟩ := ih back.length hlength back rfl
      exact ⟨front, piece :: ps, .cons hfront hcut⟩
    · exact ⟨line, [], cut_of_not_mem hmem⟩

theorem Cut.split_eq (h : Cut line front ps) : Text.split dollar line = front :: ps := by
  rw [h.whole]
  replace h := And.intro h.front_free h.pieces_free
  induction ps generalizing front with
  | nil =>
    rw [List.flatMap_nil, List.append_nil]
    exact Text.split_of_not_mem h.1
  | cons piece ps ih =>
    rw [List.flatMap_cons, List.cons_append, Text.split_append_sep, Text.split_of_not_mem h.1,
      ih (List.forall_mem_cons.mp h.2)]
    rfl

theorem Cut.unique {front' : Text} {ps' : List Text} (h : Cut line front ps) (h' : Cut line front' ps') :
    front' = front ∧ ps' = ps := by
  have hsame := h'.split_eq.symm.trans h.split_eq
  exact List.cons.inj hsame

theorem expressions_of_cut (h : Cut line front ps) :
    expressions evaluate line = (pieces evaluate ps).map (front ++ ·) := by
  simp only [expressions, h.split_eq]

/-! ### Sites -/

/-- A piece is the site of an expression: a bracket, the expression, the last bracket that closes, and the rest. -/
def IsSite (piece source after : Text) : Prop := piece = "(" ++ source ++ ")" ++ after ∧ byte ')' ∉ after

/-- A piece that is the site of some expression. -/
def HasSite (piece : Text) : Prop := ∃ source after, IsSite piece source after

theorem bracketed_eq (source after : Text) :
    Text.ofString "(" ++ source ++ ")" ++ after = byte '(' :: (source ++ byte ')' :: after) := by
  have hopen : Text.ofString "(" = [byte '('] := by decide
  have hclose : Text.ofString ")" = [byte ')'] := by decide
  rw [hopen, hclose]
  simp

theorem IsSite.site?_eq (h : IsSite piece source after) : site? piece = some (source, after) := by
  rw [h.1, bracketed_eq]
  exact site?_of_last source h.2

/-- **A piece is a site if it starts with a bracket and has one that closes.** -/
theorem hasSite_iff : HasSite piece ↔ piece.head? = some (byte '(') ∧ byte ')' ∈ piece := by
  constructor
  · intro h
    obtain ⟨source, after, hpiece, -⟩ := h
    rw [hpiece, bracketed_eq]
    exact ⟨rfl, by simp⟩
  · intro h
    obtain ⟨hhead, hclose⟩ := h
    cases piece with
    | nil => cases hclose
    | cons b rest =>
      obtain rfl : b = byte '(' := Option.some.inj hhead
      have hrest : byte ')' ∈ rest.reverse := by
        refine List.mem_reverse.mpr ((List.mem_cons.mp hclose).resolve_left ?_)
        decide
      obtain ⟨after, source, hreverse, hafter⟩ := List.eq_append_cons_of_mem hrest
      refine ⟨source.reverse, after.reverse, ?_, fun hmem => hafter (List.mem_reverse.mp hmem)⟩
      rw [bracketed_eq, ← List.reverse_reverse rest, hreverse]
      simp

theorem site?_of_not_hasSite (h : ¬ HasSite piece) : site? piece = none := by
  cases piece with
  | nil => rfl
  | cons b rest =>
    by_cases hb : b = byte '('
    · subst hb
      have hother : ∀ c ∈ rest.reverse, decide (c ≠ byte ')') = true := by
        intro c hc
        apply decide_eq_true
        intro heq
        subst heq
        exact h (hasSite_iff.mpr ⟨rfl, List.mem_cons_of_mem _ (List.mem_reverse.mp hc)⟩)
      simp only [site?, if_true, List.dropWhile_eq_nil_iff.mpr hother]
    · simp only [site?, if_neg hb]

/-! ### Values -/

/-- What an expression comes to over the integers among the equates: what the language makes of it, if that is an
integer of 64 bits. -/
inductive Outcome (language : Expression.Language) (equates : Equates) (source : Text) :
    Except ExpandError Int → Prop where
  | value {globals : Text → Option Int} {n : Int} :
    language equates.integers (Expression.assignment source) = .ok globals →
    globals Expression.resultName = some n → -0x8000000000000000 ≤ n → n < 0x8000000000000000 →
    Outcome language equates source (.ok n)
  | notInteger {globals : Text → Option Int} :
    language equates.integers (Expression.assignment source) = .ok globals →
    (∀ n, globals Expression.resultName = some n → n < -0x8000000000000000 ∨ 0x8000000000000000 ≤ n) →
    Outcome language equates source (.error (.notInteger source))
  | fault {e : Expression.Error} : language equates.integers (Expression.assignment source) = .error e →
    Outcome language equates source (.error (.expression e))

theorem Outcome.evaluate_eq {r : Except ExpandError Int} (h : Outcome language equates source r) :
    equates.evaluate language source = r := by
  cases h with
  | value hrun hvalue hlow hhigh => exact Equates.evaluate_of_int hrun hvalue ⟨hlow, hhigh⟩
  | @notInteger globals hrun hrange =>
    unfold Equates.evaluate
    simp only [hrun]
    cases hvalue : globals Expression.resultName with
    | none => rfl
    | some n =>
      refine if_neg fun hn => ?_
      rcases hrange n hvalue with hlow | hhigh
      · exact absurd hn.1 (not_le.mpr hlow)
      · exact absurd hn.2 (not_lt.mpr hhigh)
  | fault hfault =>
    unfold Equates.evaluate
    rw [hfault]

theorem outcome_evaluate (language : Expression.Language) (equates : Equates) (source : Text) :
    Outcome language equates source (equates.evaluate language source) := by
  unfold Equates.evaluate
  cases hrun : language equates.integers (Expression.assignment source) with
  | error e => exact .fault hrun
  | ok globals =>
    dsimp only
    cases hvalue : globals Expression.resultName with
    | none =>
      refine .notInteger hrun fun n hn => ?_
      rw [hvalue] at hn
      cases hn
    | some n =>
      dsimp only
      split_ifs with hrange
      · exact .value hrun hvalue hrange.1 hrange.2
      · refine .notInteger hrun fun m hm => ?_
        obtain rfl : n = m := Option.some.inj (hvalue.symm.trans hm)
        rcases not_and_or.mp hrange with hlow | hhigh
        · exact .inl (not_le.mp hlow)
        · exact .inr (not_lt.mp hhigh)

/-- What takes the place of a piece and its dollar. -/
inductive Replaced (language : Expression.Language) (equates : Equates) : Text → Text → Prop where
  | value {piece source after : Text} {n : Int} : IsSite piece source after → Outcome language equates source (.ok n) →
    Replaced language equates piece (Text.decimal n ++ after)
  | kept {piece : Text} : ¬ HasSite piece → Replaced language equates piece (dollar :: piece)

/-- A piece is a site whose expression fails. -/
def Fails (language : Expression.Language) (equates : Equates) (piece : Text) (e : ExpandError) : Prop :=
  ∃ source after, IsSite piece source after ∧ Outcome language equates source (.error e)

theorem Replaced.piece_eq {u : Text} (h : Replaced language equates piece u) :
    Expand.piece (equates.evaluate language) piece = .ok u := by
  cases h with
  | value hsite hvalue =>
    simp only [Expand.piece, hsite.site?_eq, hvalue.evaluate_eq]
    rfl
  | kept hsite => simp only [Expand.piece, site?_of_not_hasSite hsite]

theorem Fails.piece_eq {e : ExpandError} (h : Fails language equates piece e) :
    Expand.piece (equates.evaluate language) piece = .error e := by
  obtain ⟨source, after, hsite, hfails⟩ := h
  simp only [Expand.piece, hsite.site?_eq, hfails.evaluate_eq]
  rfl

theorem exists_replaced (h : ∀ e, ¬ Fails language equates piece e) : ∃ u, Replaced language equates piece u := by
  by_cases hsite : HasSite piece
  · obtain ⟨source, after, hsite⟩ := hsite
    have houtcome := outcome_evaluate language equates source
    cases hvalue : equates.evaluate language source with
    | ok n => exact ⟨_, .value hsite (hvalue ▸ houtcome)⟩
    | error e => exact absurd ⟨source, after, hsite, hvalue ▸ houtcome⟩ (h e)
  · exact ⟨_, .kept hsite⟩

theorem exists_replaced_all (h : ∀ piece ∈ ps, ∀ e, ¬ Fails language equates piece e) :
    ∃ us, List.Forall₂ (Replaced language equates) ps us := by
  induction ps with
  | nil => exact ⟨[], .nil⟩
  | cons piece ps ih =>
    obtain ⟨hpiece, hps⟩ := List.forall_mem_cons.mp h
    obtain ⟨u, hu⟩ := exists_replaced hpiece
    obtain ⟨us, hus⟩ := ih hps
    exact ⟨u :: us, .cons hu hus⟩

theorem pieces_of_replaced (h : List.Forall₂ (Replaced language equates) ps us) :
    pieces (equates.evaluate language) ps = .ok us.flatten := by
  induction h with
  | nil => rfl
  | cons hpiece _ ih =>
    simp only [pieces, hpiece.piece_eq, ih]
    rfl

/-- The leftmost site that fails ends the pieces. -/
theorem pieces_of_fails {before behind : List Text} {e : ExpandError}
    (hbefore : ∀ piece ∈ before, ∀ e, ¬ Fails language equates piece e) (hfails : Fails language equates piece e) :
    pieces (equates.evaluate language) (before ++ piece :: behind) = .error e := by
  induction before with
  | nil =>
    simp only [List.nil_append, pieces, hfails.piece_eq]
    rfl
  | cons first before ih =>
    obtain ⟨hfirst, hrest⟩ := List.forall_mem_cons.mp hbefore
    obtain ⟨u, hu⟩ := exists_replaced hfirst
    simp only [List.cons_append, pieces, hu.piece_eq, ih hrest]
    rfl

/-- Of sites that fail there is a leftmost. -/
theorem exists_leftmost (h : ∃ piece ∈ ps, ∃ e, Fails language equates piece e) :
    ∃ before piece behind e, ps = before ++ piece :: behind ∧
      (∀ piece ∈ before, ∀ e, ¬ Fails language equates piece e) ∧ Fails language equates piece e := by
  induction ps with
  | nil =>
    obtain ⟨piece, hpiece, -⟩ := h
    cases hpiece
  | cons first ps ih =>
    by_cases hfirst : ∃ e, Fails language equates first e
    · obtain ⟨e, hfirst⟩ := hfirst
      exact ⟨[], first, ps, e, rfl, List.forall_mem_nil _, hfirst⟩
    · obtain ⟨piece, hpiece, hfails⟩ := h
      have hmem : piece ∈ ps := (List.mem_cons.mp hpiece).resolve_left fun heq => hfirst (heq ▸ hfails)
      obtain ⟨before, piece, behind, e, rfl, hbefore, hfails⟩ := ih ⟨piece, hmem, hfails⟩
      exact ⟨first :: before, piece, behind, e, rfl,
        List.forall_mem_cons.mpr ⟨not_exists.mp hfirst, hbefore⟩, hfails⟩

/-! ### The line with its values -/

/-- A value behind a piece that is no site makes none of it. -/
theorem not_hasSite_append (h : ¬ HasSite piece) (n : Int) (hafter : byte ')' ∉ after) :
    ¬ HasSite (piece ++ (Text.decimal n ++ after)) := by
  have hplain := Text.plain_decimal n
  rw [hasSite_iff] at h ⊢
  intro hsite
  obtain ⟨hhead, hclose⟩ := hsite
  have hpiece : byte ')' ∈ piece := by
    rcases List.mem_append.mp hclose with hmem | hmem
    · exact hmem
    · rcases List.mem_append.mp hmem with hmem | hmem
      · exact absurd hmem (hplain.not_mem (by decide))
      · exact absurd hmem hafter
  rw [List.head?_append_of_ne_nil _ (List.ne_nil_of_mem hpiece)] at hhead
  exact h ⟨hhead, hpiece⟩

/-- **Values bring no new sites.** Cut at its dollars, the line with its values has no site. -/
theorem exists_cut_of_replaced (h : List.Forall₂ (Replaced language equates) ps us)
    (hps : ∀ piece ∈ ps, dollar ∉ piece) (hfront : dollar ∉ front) :
    ∃ front' ps', Cut (front ++ us.flatten) front' ps' ∧ (∀ piece ∈ ps', ¬ HasSite piece) ∧
      (¬ HasSite front → ¬ HasSite front') := by
  induction h generalizing front with
  | nil =>
    refine ⟨front, [], ?_, List.forall_mem_nil _, id⟩
    rw [List.flatten_nil, List.append_nil]
    exact cut_of_not_mem hfront
  | @cons piece u ps us hpiece _ ih =>
    obtain ⟨hfree, hrest⟩ := List.forall_mem_cons.mp hps
    cases hpiece with
    | @value source after n hsite hvalue =>
      -- the value becomes part of the text in front
      have hafter : dollar ∉ after := fun hmem => hfree (by rw [hsite.1]; exact List.mem_append_right _ hmem)
      have hlonger : dollar ∉ front ++ (Text.decimal n ++ after) := by
        simp [hfront, hafter, dollar_not_mem_decimal]
      obtain ⟨front', ps', hcut, hps', hfront'⟩ := ih hrest hlonger
      rw [List.append_assoc] at hcut
      exact ⟨front', ps', hcut, hps', fun hno => hfront' (not_hasSite_append hno n hsite.2)⟩
    | kept hno =>
      obtain ⟨piece', ps', hcut, hps', hpiece'⟩ := ih hrest hfree
      exact ⟨front, piece' :: ps', hcut.cons hfront, List.forall_mem_cons.mpr ⟨hpiece' hno, hps'⟩, id⟩

theorem expressions_of_not_hasSite (h : Cut line front ps) (hps : ∀ piece ∈ ps, ¬ HasSite piece) :
    expressions evaluate line = .ok line := by
  have hpieces : pieces evaluate ps = .ok (ps.flatMap (dollar :: ·)) := by
    replace h := h.pieces_free
    induction ps with
    | nil => rfl
    | cons piece ps ih =>
      obtain ⟨hpiece, hps⟩ := List.forall_mem_cons.mp hps
      simp only [pieces, Expand.piece, site?_of_not_hasSite hpiece, ih hps (List.forall_mem_cons.mp h).2]
      rfl
  rw [expressions_of_cut h, hpieces, h.whole]
  rfl

/-! ### The search -/

/-- The pattern of an expression matches at the front of a text: a dollar and a bracket, an expression that has no
dollar in it, and a bracket that closes. -/
def MatchesAt (t source after : Text) : Prop := t = "$(" ++ source ++ ")" ++ after ∧ dollar ∉ source

/-- What a search from the left leaves that takes the longest match at each place and puts its value there. -/
inductive Searched (language : Expression.Language) (equates : Equates) : Text → Text → Prop where
  | done : Searched language equates [] []
  | skip {b : UInt8} {t u : Text} : (∀ source after, ¬ MatchesAt (b :: t) source after) →
    Searched language equates t u → Searched language equates (b :: t) (b :: u)
  | found {t source after u : Text} {n : Int} : MatchesAt t source after →
    (∀ source' after', MatchesAt t source' after' → source'.length ≤ source.length) →
    Outcome language equates source (.ok n) → Searched language equates after u →
    Searched language equates t (Text.decimal n ++ u)

theorem searched_append {t u : Text} (hfront : dollar ∉ front) (h : Searched language equates t u) :
    Searched language equates (front ++ t) (front ++ u) := by
  induction front with
  | nil => exact h
  | cons b front ih =>
    obtain ⟨hb, hfront⟩ := not_or.mp (mt List.mem_cons.mpr hfront)
    refine .skip (fun source after hmatch => hb ?_) (ih hfront)
    have hpattern : Text.ofString "$(" = [dollar, byte '('] := by decide
    have hhead := congrArg List.head? hmatch.1
    rw [hpattern] at hhead
    exact (Option.some.inj hhead).symm

/-- A match behind a dollar stays within the piece behind that dollar. -/
theorem MatchesAt.within {rest : Text} (hrest : ∀ b ∈ rest.head?, b = dollar)
    (h : MatchesAt (dollar :: (piece ++ rest)) source after) :
    ∃ back, piece = "(" ++ source ++ ")" ++ back := by
  have hpattern : Text.ofString "$(" = dollar :: Text.ofString "(" := by decide
  obtain ⟨hwhole, hsource⟩ := h
  rw [hpattern, List.cons_append, List.cons_append, List.cons_append] at hwhole
  rcases List.append_eq_append_iff.mp (List.cons.inj hwhole).2 with ⟨more, hmore, hback⟩ | ⟨back, hback, -⟩
  · cases more with
    | nil => exact ⟨[], by rw [List.append_nil, hmore, List.append_nil]⟩
    | cons b more =>
      -- the match would go on into the next piece, and have a dollar in it
      obtain rfl : b = dollar := hrest b (by rw [hback]; rfl)
      have hmem : dollar ∈ Text.ofString "(" ++ source ++ Text.ofString ")" := by
        rw [hmore]
        exact List.mem_append_right _ List.mem_cons_self
      have hopen : dollar ∉ Text.ofString "(" := by decide
      have hclose : dollar ∉ Text.ofString ")" := by decide
      simp only [List.mem_append, hopen, hsource, hclose, or_self] at hmem
  · exact ⟨back, hback⟩

/-- No closing bracket of a site lies behind the last. -/
theorem IsSite.length_le {source' back : Text} (h : IsSite piece source after)
    (h' : piece = "(" ++ source' ++ ")" ++ back) : source'.length ≤ source.length := by
  have hsame := h'.symm.trans h.1
  rw [bracketed_eq, bracketed_eq] at hsame
  rcases List.append_eq_append_iff.mp (List.cons.inj hsame).2 with ⟨more, hmore, -⟩ | ⟨more, hmore, hback⟩
  · rw [hmore, List.length_append]
    omega
  · cases more with
    | nil => rw [hmore, List.append_nil]
    | cons b more =>
      refine absurd ?_ h.2
      rw [(List.cons.inj hback).2]
      exact List.mem_append_right _ List.mem_cons_self

/-- **The sites are what a search from the left finds.** -/
theorem searched_of_replaced (h : List.Forall₂ (Replaced language equates) ps us)
    (hps : ∀ piece ∈ ps, dollar ∉ piece) (hfront : dollar ∉ front) :
    Searched language equates (front ++ ps.flatMap (dollar :: ·)) (front ++ us.flatten) := by
  apply searched_append hfront
  induction h with
  | nil => exact .done
  | @cons piece u ps us hpiece _ ih =>
    obtain ⟨hfree, hrest⟩ := List.forall_mem_cons.mp hps
    have hhead : ∀ b ∈ (ps.flatMap (dollar :: ·)).head?, b = dollar := by
      cases ps with
      | nil => exact fun b hb => absurd hb (Option.not_mem_none b)
      | cons => exact fun b hb => (Option.some.inj hb).symm
    rw [List.flatMap_cons, List.flatten_cons, List.cons_append]
    cases hpiece with
    | @value source after n hsite hvalue =>
      have hparts := hfree
      rw [hsite.1] at hparts
      simp only [List.mem_append, not_or] at hparts
      have hmatch : MatchesAt (dollar :: (piece ++ ps.flatMap (dollar :: ·))) source
          (after ++ ps.flatMap (dollar :: ·)) := by
        have hpattern : Text.ofString "$(" = dollar :: Text.ofString "(" := by decide
        refine ⟨?_, hparts.1.1.2⟩
        rw [hsite.1, hpattern]
        simp only [List.cons_append, List.append_assoc]
      rw [List.append_assoc]
      refine .found hmatch (fun source' after' h' => ?_) hvalue (searched_append hparts.2 (ih hrest))
      obtain ⟨back, hback⟩ := h'.within hhead
      exact hsite.length_le hback
    | kept hno =>
      refine .skip (fun source after hmatch => hno ?_) (searched_append hfree (ih hrest))
      obtain ⟨back, hback⟩ := hmatch.within hhead
      rw [hback, hasSite_iff, bracketed_eq]
      exact ⟨rfl, by simp⟩

/-! ### Lines -/

theorem expand_of_replaced (h : Cut line front ps) (hus : List.Forall₂ (Replaced language equates) ps us) :
    expand (equates.evaluate language) equates line = plain equates (front ++ us.flatten) := by
  rw [expand, expressions_of_cut h, pieces_of_replaced hus]
  rfl

/-- **The expressions of a line are evaluated from the left, over the equates as they are**, in any language. Cut at
its dollars in the one way there is, a line has its sites among the pieces that start with a bracket and have one that
closes. The leftmost site that fails fails the line and leaves the equates as they are. If none fails, the line expands
as the text does in which each site and its dollar have given way to the decimal of the value. That text is what a
search for longest matches from the left leaves, and it is expanded without evaluating anything: if it does not start
with the directive, its words are replaced. -/
theorem expressions_replaced (language : Expression.Language) (equates : Equates) (line : Text) :
    ∃ front ps, Cut line front ps ∧ (∀ front' ps', Cut line front' ps' → front' = front ∧ ps' = ps) ∧
      (∀ piece ∈ ps, (∃ source after, IsSite piece source after) ↔
        piece.head? = some (byte '(') ∧ byte ')' ∈ piece) ∧
      ((∃ piece ∈ ps, ∃ e, Fails language equates piece e) →
        ∃ before piece behind e, ps = before ++ piece :: behind ∧
          (∀ piece ∈ before, ∀ e, ¬ Fails language equates piece e) ∧ Fails language equates piece e ∧
          expand (equates.evaluate language) equates line = (.error e, equates)) ∧
      ((∀ piece ∈ ps, ∀ e, ¬ Fails language equates piece e) →
        ∃ us, List.Forall₂ (Replaced language equates) ps us ∧
          let result := front ++ us.flatten
          Searched language equates line result ∧
          (∀ evaluate, expand (equates.evaluate language) equates line = expand evaluate equates result) ∧
          (result.fields.head? ≠ some (Text.ofString ".equ") →
            ∃ mnemonic operands u, result.trim = mnemonic ++ operands ∧ Blankless mnemonic ∧ StartsBlank operands ∧
              Substitutes equates operands u ∧
              expand (equates.evaluate language) equates line = (.ok (mnemonic ++ u), equates))) := by
  obtain ⟨front, ps, hcut⟩ := exists_cut line
  refine ⟨front, ps, hcut, fun _ _ => hcut.unique, fun _ _ => hasSite_iff, ?_, ?_⟩
  · intro hsome
    obtain ⟨before, piece, behind, e, hps, hbefore, hfails⟩ := exists_leftmost hsome
    refine ⟨before, piece, behind, e, hps, hbefore, hfails, ?_⟩
    rw [expand, expressions_of_cut hcut, hps, pieces_of_fails hbefore hfails]
    rfl
  · intro hnone
    obtain ⟨us, hus⟩ := exists_replaced_all hnone
    have hexpand := expand_of_replaced hcut hus
    refine ⟨us, hus, ?_, fun evaluate => ?_, fun hfirst => ?_⟩
    · rw [hcut.whole]
      exact searched_of_replaced hus hcut.pieces_free hcut.front_free
    · obtain ⟨front', ps', hcut', hps', -⟩ := exists_cut_of_replaced hus hcut.pieces_free hcut.front_free
      rw [hexpand, expand, expressions_of_not_hasSite hcut' hps']
    · obtain ⟨mnemonic, operands, hsplit, htrim, hmnemonic, hoperands⟩ := Text.splitBlank_eq (front ++ us.flatten).trim
      refine ⟨mnemonic, operands, _, htrim, hmnemonic, hoperands, substitutes_substitute equates operands, ?_⟩
      rw [hexpand, plain_of_not_directive hfirst hsplit]

/-! ### Two lines -/

theorem Fails.hasSite {e : ExpandError} (h : Fails language equates piece e) : HasSite piece := by
  obtain ⟨source, after, hsite, -⟩ := h
  exact ⟨source, after, hsite⟩

theorem not_fails_of_value {n : Int} (hsite : IsSite piece source after)
    (hvalue : equates.evaluate language source = .ok n) (e : ExpandError) : ¬ Fails language equates piece e := by
  intro h
  obtain ⟨source', after', hsite', hfails⟩ := h
  have hsame := hsite'.site?_eq.symm.trans hsite.site?_eq
  obtain ⟨rfl, -⟩ := Prod.mk.inj (Option.some.inj hsame)
  rw [hfails.evaluate_eq] at hvalue
  cases hvalue

/-- Of three sites the first has a value and the second fails; of three dollars the first has an expression behind it,
and the others none. -/
theorem expressions_replaced_leftmost :
    let equates : Equates := [("N", "3")]
    let sites : List Text := ["(N+1), ", "(1+)", "(1//0)"]
    let strays : List Text := ["(N+1)", "", "(x"]
    ((∃ piece ∈ sites, ∃ e, Fails Expression.language equates piece e) ∧
      ∃ before piece behind e, sites = before ++ piece :: behind ∧
        (∀ piece ∈ before, ∀ e, ¬ Fails Expression.language equates piece e) ∧
        Fails Expression.language equates piece e ∧
        expand (equates.evaluate Expression.language) equates "li $(N+1), $(1+)$(1//0)" = (.error e, equates)) ∧
    (∀ piece ∈ strays, ∀ e, ¬ Fails Expression.language equates piece e) ∧
      ∃ us, List.Forall₂ (Replaced Expression.language equates) strays us ∧
        Searched Expression.language equates "li a0, $(N+1)$$(x" (Text.ofString "li a0, " ++ us.flatten) ∧
        ∀ evaluate, expand (equates.evaluate Expression.language) equates "li a0, $(N+1)$$(x" =
          expand evaluate equates (Text.ofString "li a0, " ++ us.flatten) := by
  intro equates sites strays
  have hvalue : equates.evaluate Expression.language "N+1" = .ok 4 := by
    have hintegers : equates.integers = [(Text.ofString "N", 3)] := by decide
    refine Equates.evaluate_of_run ?_ (by decide)
    rw [hintegers]
    exact Expression.run_of_eval rfl rfl rfl
  constructor
  · obtain ⟨front, ps, -, hunique, -, hleftmost, -⟩ :=
      expressions_replaced Expression.language equates "li $(N+1), $(1+)$(1//0)"
    have hcut : Cut "li $(N+1), $(1+)$(1//0)" "li " sites := ⟨by decide, by decide, by decide⟩
    obtain ⟨rfl, rfl⟩ := hunique _ _ hcut
    obtain ⟨fault, hparse⟩ : ∃ fault, Expression.parse (Expression.assignment "1+") = .error fault := ⟨_, rfl⟩
    have hfailure : equates.evaluate Expression.language "1+" = .error (.expression ⟨.grammar, fault.message⟩) :=
      evaluate_of_grammar hparse
    have hfails : Fails Expression.language equates "(1+)" (.expression ⟨.grammar, fault.message⟩) :=
      ⟨"1+", [], ⟨by decide, by decide⟩, hfailure ▸ outcome_evaluate Expression.language equates "1+"⟩
    have hsome : ∃ piece ∈ sites, ∃ e, Fails Expression.language equates piece e := ⟨_, by decide, _, hfails⟩
    exact ⟨hsome, hleftmost hsome⟩
  · obtain ⟨front, ps, -, hunique, -, -, hall⟩ :=
      expressions_replaced Expression.language equates "li a0, $(N+1)$$(x"
    have hcut : Cut "li a0, $(N+1)$$(x" "li a0, " strays := ⟨by decide, by decide, by decide⟩
    obtain ⟨rfl, rfl⟩ := hunique _ _ hcut
    have hother {piece : Text} (hpiece : byte ')' ∉ piece) (e : ExpandError) :
        ¬ Fails Expression.language equates piece e := fun h => hpiece (hasSite_iff.mp h.hasSite).2
    have hsite : IsSite "(N+1)" "N+1" "" := ⟨by decide, by decide⟩
    have hnone : ∀ piece ∈ strays, ∀ e, ¬ Fails Expression.language equates piece e :=
      List.forall_mem_cons.mpr ⟨not_fails_of_value hsite hvalue,
        List.forall_mem_cons.mpr ⟨hother (by decide), List.forall_mem_singleton.mpr (hother (by decide))⟩⟩
    obtain ⟨us, hus, hsearched, hexpand, -⟩ := hall hnone
    exact ⟨hnone, us, hus, hsearched, hexpand⟩

end Expand

end RvConsole
