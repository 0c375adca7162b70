import RvConsole.Proofs.Session.Equates
import RvConsole.Proofs.Text.Fields

/-! Expressions that are a name.

A source is cut into tokens one after the other (`Lexes`): what stands in front decides about the next token, and a
name reaches as far as letters, digits and underscores do. So an expression that is a name and nothing else is read as
that name (`parse_name`), and its value is the one that the surroundings give to the name (`language_readsNames`). -/
namespace RvConsole.Expression
open Cursor (code)

variable {fuel : Nat} {layout : Layout} {s after : Cursor} {t : Token} {ts : List Token} {name : Text}

/-- The code points of a text. -/
def codes (t : Text) : List Nat := t.runes.map Rune.code

/-- A name: a letter or an underscore and then also digits, and no word that is taken. The letters are those of any
script. -/
structure IsIdentifier (name : Text) : Prop where
  start : (codes name).head?.any isNameStart = true
  parts : (codes name).all isNamePart = true
  not_keyword : name ∉ Keyword.all.map Keyword.text
  not_reserved : name ∉ reservedWords

/-- A language in which a name has the value that it is given. -/
def Language.ReadsNames (language : Language) : Prop :=
  ∀ (given : List (Text × Int)) (name : Text) (n : Int), IsIdentifier name → name ≠ resultName →
    given.lookup name = some n →
      ∃ globals, language given (assignment name) = .ok globals ∧ globals resultName = some n

namespace IsIdentifier

theorem exists_cons (h : IsIdentifier name) : ∃ c rest, codes name = c :: rest ∧ isNameStart c = true := by
  have hstart := h.start
  cases hcodes : codes name with
  | nil =>
    rw [hcodes] at hstart
    cases hstart
  | cons c rest =>
    rw [hcodes] at hstart
    exact ⟨c, rest, rfl, hstart⟩

theorem of_mem (h : IsIdentifier name) : ∀ c ∈ codes name, isNamePart c = true := List.all_eq_true.mp h.parts

/-- Bytes that are no letters of any script are no name. -/
theorem ofCodes_eq (h : IsIdentifier name) : Text.ofCodes (codes name) = name := by
  apply Text.ofCodes_runes
  intro r hr hstray
  have hpart := h.of_mem r.code (List.mem_map_of_mem hr)
  rw [hstray] at hpart
  exact absurd hpart (by decide +kernel)

end IsIdentifier

/-! ### Tokens -/

/-- From a cursor on there are these tokens, and no fault. -/
def Lexes (fuel : Nat) (layout : Layout) (atLineStart : Bool) (s : Cursor) (ts : List Token) : Prop :=
  (lexemes fuel layout atLineStart s).1.map Lexeme.token = ts ∧ (lexemes fuel layout atLineStart s).2 = none

/-- What stands in front is a token: it is neither a blank nor a comment, and the line goes on. -/
def Cursor.AtToken (s : Cursor) : Prop :=
  s.peek ∉ [0, code ' ', code '\t', code '\n', code '#', code '\\']

theorem Cursor.AtToken.peek_ne (h : s.AtToken) :
    s.peek ≠ 0 ∧ s.peek ≠ code ' ' ∧ s.peek ≠ code '\t' ∧ s.peek ≠ code '\n' ∧ s.peek ≠ code '#' ∧
      s.peek ≠ code '\\' := by
  simpa only [AtToken, List.mem_cons, List.not_mem_nil, or_false, not_or] using h

theorem Cursor.rest_skip (s : Cursor) (n : Nat) : (s.skip n).rest = s.rest.drop n := by
  induction n generalizing s with
  | zero => rfl
  | succ n ih =>
    rw [skip, ih]
    cases hrest : s.rest with
    | nil => simp [next, hrest]
    | cons c rest =>
      have hnext : s.next.rest = rest := by
        simp only [next, hrest]
        split_ifs <;> rfl
      rw [hnext, List.drop_succ_cons]

theorem skipBlanks_of_atToken (h : s.AtToken) : skipBlanks s = s := by
  obtain ⟨-, hblank, htab, -, hcomment, -⟩ := h.peek_ne
  have hnone : s.rest.takeWhile (fun c => c == code ' ' || c == code '\t') = [] := by
    cases hrest : s.rest with
    | nil => rfl
    | cons c rest =>
      have hpeek : s.peek = c := by rw [Cursor.peek, hrest, List.headD_cons]
      rw [hpeek] at hblank htab
      rw [List.takeWhile_cons_of_neg (by simp [hblank, htab])]
  have hspan : (s.span fun c => c == code ' ' || c == code '\t').2 = s := by
    simp only [Cursor.span, hnone]
    rfl
  simp only [skipBlanks, hspan, if_neg hcomment]

/-- A line that is not indented starts with its first token. -/
theorem Lexes.line (hs : s.AtToken) (h : Lexes fuel {} false s ts) : Lexes (fuel + 1) {} true s ts := by
  obtain ⟨hend, hblank, htab, hnewline, hcomment, -⟩ := hs.peek_ne
  have hindent : indentation fuel 0 s = (0, s) := by
    cases fuel with
    | zero => rfl
    | succ fuel => simp only [indentation, if_neg hblank, if_neg htab]
  have hlexemes : lexemes (fuel + 1) {} true s = lexemes fuel {} false s := by
    simp only [lexemes, hindent, hcomment, hnewline, hend, or_self, if_false]
    rfl
  rwa [Lexes, hlexemes]

/-- A token that is no bracket leaves the layout alone. -/
theorem Lexes.token (hs : s.AtToken) (htoken : token s = .ok (t, after)) (hopening : ∀ b, t ≠ .opening b)
    (hclosing : ∀ b, t ≠ .closing b) (h : Lexes fuel layout false after ts) :
    Lexes (fuel + 1) layout false s (t :: ts) := by
  obtain ⟨hend, -, -, hnewline, -, hbackslash⟩ := hs.peek_ne
  have hlexemes : lexemes (fuel + 1) layout false s =
      (⟨t, s.position, after.position⟩ :: (lexemes fuel layout false after).1,
        (lexemes fuel layout false after).2) := by
    simp only [lexemes, skipBlanks_of_atToken hs, if_neg hnewline, if_neg hend, if_neg hbackslash, htoken]
  rw [Lexes, hlexemes]
  exact ⟨congrArg (t :: ·) h.1, h.2⟩

/-- The last line ends, and the source with it. -/
theorem lexes_newline (hs : s.rest = [code '\n']) (hfuel : 3 ≤ fuel) :
    Lexes fuel {} false s [.newline, .endOfFile] := by
  obtain ⟨fuel, rfl⟩ := Nat.exists_eq_add_of_le' hfuel
  obtain ⟨rest, position⟩ := s
  obtain rfl : rest = [code '\n'] := hs
  exact ⟨rfl, rfl⟩

/-! ### Words and the sign of an assignment -/

theorem IsIdentifier.wordToken_eq (h : IsIdentifier name) : wordToken name = .name name := by
  have hkeyword : Keyword.ofText? name = none := by
    apply List.find?_eq_none.mpr
    intro word hword heq
    exact h.not_keyword (List.mem_map.mpr ⟨word, hword, of_decide_eq_true heq⟩)
  have hreserved : reservedWords.contains name = false := by
    simpa using h.not_reserved
  simp only [wordToken, hkeyword, hreserved]
  rfl

theorem not_isQuote_of_isNamePart {c : Nat} (h : isNamePart c = true) : isQuote c = false := by
  by_contra hquote
  have hcases : c = code '"' ∨ c = code '\'' := by simpa [isQuote, or_iff_not_imp_left] using hquote
  rcases hcases with rfl | rfl <;> exact absurd h (by decide)

/-- A word ends where no more letters, digits and underscores follow. -/
theorem token_of_name (h : IsIdentifier name) {next : Nat} {rest : List Nat} (hnext : isNamePart next = false)
    (hquote : isQuote next = false) (hs : s.rest = codes name ++ next :: rest) :
    token s = .ok (.name name, s.skip (codes name).length) := by
  obtain ⟨c, name', hname, hstart⟩ := h.exists_cons
  have hstart : isNameStart s.peek = true := by
    have hpeek : s.peek = c := by rw [Cursor.peek, hs, hname]; rfl
    rwa [hpeek]
  have hpeek : isQuote s.peek = false := not_isQuote_of_isNamePart (by simp [isNamePart, hstart])
  have hbehind : s.peekAt (codes name).length = next := by
    simp [Cursor.peekAt, hs]
  -- no quote stands in the name or right behind it, so it is not the mark of a string
  have hquotes : ∀ n ≤ (codes name).length, isQuote (s.peekAt n) = false := by
    intro n hn
    rcases Nat.lt_or_eq_of_le hn with hlt | rfl
    · have hmem : s.peekAt n ∈ codes name := by
        rw [Cursor.peekAt, hs, List.getD_append _ _ _ _ hlt, List.getD_eq_getElem _ _ hlt]
        exact List.getElem_mem hlt
      exact not_isQuote_of_isNamePart (h.of_mem _ hmem)
    · rwa [hbehind]
  have hone : isQuote (s.peekAt 1) = false := hquotes 1 (by simp [hname])
  have htwo : ¬(s.peek = code 'r' ∧ s.peekAt 1 = code 'b' ∧ isQuote (s.peekAt 2) = true) := by
    rintro ⟨-, hb, hmark⟩
    by_cases hlength : 2 ≤ (codes name).length
    · rw [hquotes 2 hlength] at hmark
      cases hmark
    · have hlast : (codes name).length = 1 := by
        rw [hname, List.length_cons] at hlength ⊢
        omega
      rw [← hlast, hbehind] at hb
      rw [hb] at hnext
      exact absurd hnext (by decide)
  have hspan : s.rest.takeWhile isNamePart = codes name := by
    rw [hs, List.takeWhile_append_of_pos h.of_mem, List.takeWhile_cons_of_neg (by simp [hnext]), List.append_nil]
  simp only [token, hpeek, hstart, word, hone, if_neg htwo, Cursor.span, hspan, h.ofCodes_eq, h.wordToken_eq,
    Bool.false_eq_true, and_false, if_false, if_true]

theorem token_assign {c : Nat} {rest : List Nat} (hc : c ≠ code '=') (hs : s.rest = code '=' :: c :: rest) :
    token s = .ok (.assign, s.skip 1) := by
  have hpeek : s.peek = code '=' := by rw [Cursor.peek, hs]; rfl
  have hmark : mark s = .ok (.assign, s.skip 1) := by
    -- of the marks that start with this sign, only the longer one comes before it
    have hcode : code '=' = 61 := rfl
    have hlength : "=".length = 1 := rfl
    rw [hcode] at hc
    simp [mark, marks, hs, code, Ne.symm hc, hlength]
  have hquote : isQuote (code '=') = false := by decide
  have hstart : isNameStart (code '=') = false := by decide
  have hdigit : (isDigitOf 10 (code '=') || code '=' == code '.') = false := by decide
  simp only [token, hpeek, hquote, hstart, hdigit, hmark, Bool.false_eq_true, if_false]

/-! ### Assigning a name -/

theorem sourceCodes_of_not_mem {codes : List Nat} (h : code '\r' ∉ codes) : sourceCodes codes = codes := by
  induction codes with
  | nil => rfl
  | cons c rest ih =>
    obtain ⟨hc, hrest⟩ := not_or.mp (mt List.mem_cons.mpr h)
    rw [sourceCodes.eq_def]
    simp only [if_neg (Ne.symm hc), ih hrest]

theorem isIdentifier_resultName : IsIdentifier resultName := ⟨by decide, by decide, by decide, by decide⟩

theorem IsIdentifier.atToken (h : IsIdentifier name) {rest : List Nat} (hs : s.rest = codes name ++ rest) :
    s.AtToken := by
  obtain ⟨c, name', hname, hstart⟩ := h.exists_cons
  have hpeek : s.peek = c := by rw [Cursor.peek, hs, hname]; rfl
  rw [Cursor.AtToken, hpeek]
  intro hmem
  have hnone : ∀ c ∈ [0, code ' ', code '\t', code '\n', code '#', code '\\'], isNameStart c = false := by decide
  rw [hnone _ hmem] at hstart
  cases hstart

/-- The tokens of an assignment of a name. -/
theorem lexes_name (h : IsIdentifier name) (hfuel : 7 ≤ fuel)
    (hs : s.rest = codes resultName ++ code '=' :: (codes name ++ [code '\n'])) :
    Lexes fuel {} true s [.name resultName, .assign, .name name, .newline, .endOfFile] := by
  obtain ⟨fuel, rfl⟩ := Nat.exists_eq_add_of_le' hfuel
  obtain ⟨c, name', hname, hstart⟩ := h.exists_cons
  have hassign : (s.skip (codes resultName).length).rest = code '=' :: (codes name ++ [code '\n']) := by
    rw [Cursor.rest_skip, hs]
    exact List.drop_left
  have hsource : ((s.skip (codes resultName).length).skip 1).rest = codes name ++ [code '\n'] := by
    rw [Cursor.rest_skip, hassign]
    rfl
  have hend : (((s.skip (codes resultName).length).skip 1).skip (codes name).length).rest = [code '\n'] := by
    rw [Cursor.rest_skip, hsource]
    exact List.drop_left
  have hsign : token (s.skip (codes resultName).length) =
      .ok (.assign, (s.skip (codes resultName).length).skip 1) := by
    rw [hname] at hassign
    refine token_assign ?_ hassign
    intro heq
    rw [heq] at hstart
    exact absurd hstart (by decide)
  have hword := token_of_name isIdentifier_resultName (by decide) (by decide) hs
  have hvalue := token_of_name h (by decide) (by decide) hsource
  have hsignAt : (s.skip (codes resultName).length).AtToken := by
    rw [Cursor.AtToken, Cursor.peek, hassign, List.headD_cons]
    decide
  refine .line (isIdentifier_resultName.atToken hs) ?_
  refine .token (isIdentifier_resultName.atToken hs) hword (by simp) (by simp) ?_
  refine .token hsignAt hsign (by simp) (by simp) ?_
  refine .token (h.atToken hsource) hvalue (by simp) (by simp) ?_
  exact lexes_newline hend (by omega)

/-- What is read of an assignment: the name, between what stands in front of it and the end of the line. -/
theorem sourceCodes_assignment (h : IsIdentifier name) :
    sourceCodes ((assignment name).runes.map Rune.code) =
      codes resultName ++ code '=' :: (codes name ++ [code '\n']) := by
  have hblank : Text.StartsBlank "\n" := by decide
  have hfront : Text.Visible (resultName ++ "=") := by decide
  have hfrontCodes : ((resultName ++ Text.ofString "=").map Text.asciiRune).map Rune.code =
      codes resultName ++ [code '='] := by decide
  have hendCodes : (Text.runes "\n").map Rune.code = [code '\n'] := by decide
  have hcodes : (assignment name).runes.map Rune.code =
      codes resultName ++ code '=' :: (codes name ++ [code '\n']) := by
    rw [assignment, List.append_assoc, Text.runes_ascii_append hfront.ascii, List.map_append, hfrontCodes,
      Text.runes_append_of_startsBlank hblank, List.map_append, hendCodes, List.append_assoc]
    rfl
  rw [hcodes]
  apply sourceCodes_of_not_mem
  have hname : code '\r' ∉ codes name := by
    intro hmem
    exact absurd (h.of_mem _ hmem) (by decide)
  have hresult : code '\r' ∉ codes resultName := by decide
  have hsign : code '\r' ≠ code '=' := by decide
  have hend : code '\r' ≠ code '\n' := by decide
  simp [hname, hresult, hsign, hend]

theorem lex_name (h : IsIdentifier name) :
    ∃ ls, lex (assignment name) = (ls, none) ∧
      ls.map Lexeme.token = [.name resultName, .assign, .name name, .newline, .endOfFile] := by
  have hcodes := sourceCodes_assignment h
  generalize hall : codes resultName ++ code '=' :: (codes name ++ [code '\n']) = all at hcodes
  have hfuel : 7 ≤ 2 * all.length + 2 := by
    have hlength : (codes resultName).length = 2 := by decide
    simp [← hall, hlength]
    omega
  obtain ⟨htokens, hfault⟩ := lexes_name h hfuel (s := ⟨all, {}⟩) hall.symm
  rw [lex, hcodes]
  exact ⟨_, Prod.ext rfl hfault, htokens⟩

/-- **A name is read as itself.** -/
theorem parse_name (h : IsIdentifier name) :
    ∃ place place', parse (assignment name) =
      .ok [.assign (.name place resultName) (.name place' name)] := by
  obtain ⟨ls, hlex, htokens⟩ := lex_name h
  simp only [List.map_eq_cons_iff, List.map_eq_nil_iff] at htokens
  obtain ⟨⟨_, p₁, q₁⟩, _, rfl, rfl, ⟨_, p₂, q₂⟩, _, rfl, rfl, ⟨_, p₃, q₃⟩, _, rfl, rfl, ⟨_, p₄, q₄⟩, _, rfl, rfl,
    ⟨_, p₅, q₅⟩, _, rfl, rfl, rfl⟩ := htokens
  refine ⟨p₁, p₃, ?_⟩
  rw [parse, hlex]
  rfl

theorem resolve_name {given : List Text} {place place' : Position} (hgiven : name ∈ given) :
    resolve given [.assign (.name place resultName) (.name place' name)] = .ok [resultName] := by
  have hdefined : firstUndefined given [resultName] [.use place' name, .bind place resultName] = none := by
    simp [firstUndefined, hgiven]
  have hmentions : [Statement.assign (.name place resultName) (.name place' name)].flatMap Statement.mentions =
      [.use place' name, .bind place resultName] := rfl
  have hbindings : bindings [] [.use place' name, .bind place resultName] = .ok [(resultName, place)] := rfl
  rw [resolve, hmentions, hbindings]
  simp only [bind, Except.bind, List.map_cons, List.map_nil, hdefined]

/-- **The value of a name is the one that the surroundings give to it.** -/
theorem language_readsNames : language.ReadsNames := by
  intro given name n h hresult hgiven
  obtain ⟨place, place', hparse⟩ := parse_name h
  have hmem : name ∈ given.map Prod.fst := by
    obtain ⟨before, after, rfl, -⟩ := List.lookup_eq_some_iff.mp hgiven
    simp
  have hbound : [resultName].contains name = false := by simpa using hresult
  have heval : Expr.eval ⟨given, [resultName], []⟩ (.name place' name) = .ok (.int n) := by
    rw [Expr.eval]
    simp only [Scope.get, hbound, hgiven]
    rfl
  obtain ⟨globals, hglobals, hvalue⟩ := language_of_run (run_of_eval hparse (resolve_name hmem) heval)
  exact ⟨globals, hglobals, hvalue (by simp)⟩

end RvConsole.Expression
