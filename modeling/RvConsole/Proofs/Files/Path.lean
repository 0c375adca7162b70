import RvConsole.Files.Path
import RvConsole.Proofs.Text.Trimming

/-! Paths part by part.

A part of a path leads from a place to another (`go`). Cleaning a path keeps some of its parts (`kept`), which are
names or lead up, and puts them together again (`filter_parts_clean`); the directory of a path has the parts of the
path but for the last (`exists_parts_eq`). -/
namespace RvConsole.Path
variable {t path part : Text} {isRooted : Bool} {raw : List Text}

/-- The place that a part leads to. -/
def go (place : List Text) (part : Text) : List Text :=
  if part = [] ∨ part = here then place else if part = up then place.dropLast else place ++ [part]

/-- The parts of a path that cleaning keeps. -/
def kept (isRooted : Bool) (raw : List Text) : List Text := (raw.foldl (push isRooted) []).reverse

theorem go_up (place : List Text) : go place up = place.dropLast := rfl

theorem go_of_ne (place : List Text) (hnil : part ≠ []) (hhere : part ≠ here) (hup : part ≠ up) :
    go place part = place ++ [part] := by
  rw [go, if_neg (not_or.mpr ⟨hnil, hhere⟩), if_neg hup]

/-- What is kept are parts that lead somewhere. -/
theorem of_mem_push {stack : List Text} {other : Text} (h : other ∈ push isRooted stack part) :
    other ∈ stack ∨ (other = part ∨ other = up) ∧ other ≠ [] ∧ other ≠ here := by
  have hup : up ≠ [] ∧ up ≠ here := by decide
  revert h
  fun_cases push isRooted stack part with
  | case1 => exact .inl
  | case2 => exact .inl
  | case3 =>
    intro h
    exact .inr ⟨.inr (List.mem_singleton.mp h), List.mem_singleton.mp h ▸ hup⟩
  | case4 =>
    intro h
    rcases List.mem_cons.mp h with rfl | h
    · exact .inr ⟨.inr rfl, hup⟩
    · exact .inl h
  | case5 => exact fun h => .inl (List.mem_cons_of_mem _ h)
  | case6 _ hskip =>
    intro h
    rcases List.mem_cons.mp h with rfl | h
    · exact .inr ⟨.inl rfl, not_or.mp hskip⟩
    · exact .inl h

theorem of_mem_kept {other : Text} (h : other ∈ kept isRooted raw) :
    (other ∈ raw ∨ other = up) ∧ other ≠ [] ∧ other ≠ here := by
  rw [kept, List.mem_reverse] at h
  induction raw using List.reverseRecOn with
  | nil => cases h
  | append_singleton raw part ih =>
    rw [List.foldl_append] at h
    rcases of_mem_push h with h | ⟨hother, hne⟩
    · obtain ⟨hother, hne⟩ := ih h
      exact ⟨hother.imp_left (List.mem_append_left _), hne⟩
    · refine ⟨hother.imp_left ?_, hne⟩
      rintro rfl
      exact List.mem_append_right _ List.mem_cons_self

theorem slash_not_mem_of_mem_kept (h : part ∈ kept isRooted (parts t)) : slash ∉ part := by
  rcases (of_mem_kept h).1 with h | rfl
  · exact Text.not_mem_of_mem_split h
  · decide

/-- A path divided by its last slash: the parts of its directory are the same but for the last. -/
theorem exists_parts_eq (path : Text) : ∃ before last, parts path = before ++ [last] ∧
    parts (path.reverse.dropWhile (· ≠ slash)).reverse = before ++ [[]] ∧
      isAbsolute (path.reverse.dropWhile (· ≠ slash)).reverse = isAbsolute path := by
  by_cases hmem : slash ∈ path.reverse
  · obtain ⟨last, front, hpath, hlast⟩ := List.eq_append_cons_of_mem hmem
    have hdrop : path.reverse.dropWhile (· ≠ slash) = slash :: front := by
      have hspan := congrArg Prod.snd (Text.span_sep hlast front)
      rwa [← hpath, List.span_eq_takeWhile_dropWhile] at hspan
    have hpath' : path = front.reverse ++ slash :: last.reverse := by
      rw [← List.reverse_reverse path, hpath]
      simp
    have hlast' : slash ∉ last.reverse := by simpa using hlast
    refine ⟨Text.split slash front.reverse, last.reverse, ?_, ?_, ?_⟩
    · rw [hpath', parts, Text.split_append_sep, Text.split_of_not_mem hlast']
    · rw [hdrop, List.reverse_cons, parts, Text.split_append_sep]
      rfl
    · rw [hdrop, List.reverse_cons, hpath', isAbsolute, isAbsolute]
      cases front.reverse <;> rfl
  · have hdrop : path.reverse.dropWhile (· ≠ slash) = [] := by
      have hspan := congrArg Prod.snd (Text.span_of_not_mem hmem)
      rwa [List.span_eq_takeWhile_dropWhile] at hspan
    have hmem' : slash ∉ path := by simpa using hmem
    refine ⟨[], path, Text.split_of_not_mem hmem', by rw [hdrop]; rfl, ?_⟩
    rw [hdrop, isAbsolute, isAbsolute, eq_comm, decide_eq_decide]
    exact iff_of_false (fun h => hmem' (List.mem_of_head? h)) (by decide)

/-- What is kept is written without a slash in front. -/
theorem head?_join_kept {a : Text} {rest : List Text} (h : kept isRooted (parts t) = a :: rest) :
    ∃ b, (Text.join [slash] (a :: rest)).head? = some b ∧ b ≠ slash := by
  have hmem : a ∈ kept isRooted (parts t) := h ▸ List.mem_cons_self
  obtain ⟨b, back, rfl⟩ := List.exists_cons_of_ne_nil (of_mem_kept hmem).2.1
  refine ⟨b, ?_, ?_⟩
  · cases rest <;> rfl
  · rintro rfl
    exact slash_not_mem_of_mem_kept hmem List.mem_cons_self

theorem join_kept_eq_nil : Text.join [slash] (kept isRooted (parts t)) = [] ↔ kept isRooted (parts t) = [] := by
  cases h : kept isRooted (parts t) with
  | nil => exact iff_of_true rfl rfl
  | cons a rest =>
    obtain ⟨b, hhead, -⟩ := head?_join_kept h
    refine iff_of_false (fun hnil => ?_) (List.cons_ne_nil a rest)
    rw [hnil] at hhead
    cases hhead

theorem clean_ne_nil (t : Text) : clean t ≠ [] := by
  unfold clean
  dsimp only
  split_ifs with hroot hbody
  · exact List.cons_ne_nil _ _
  · decide
  · exact hbody

theorem isAbsolute_clean (t : Text) : isAbsolute (clean t) = isAbsolute t := by
  unfold clean
  dsimp only
  split_ifs with hroot hbody
  · exact hroot.symm
  · exact (Bool.eq_false_of_not_eq_true hroot).symm
  · refine Eq.trans ?_ (Bool.eq_false_of_not_eq_true hroot).symm
    obtain ⟨a, rest, hkept⟩ := List.exists_cons_of_ne_nil (mt join_kept_eq_nil.mpr hbody)
    obtain ⟨b, hhead, hb⟩ := head?_join_kept hkept
    rw [← hkept] at hhead
    exact decide_eq_false fun h => hb (Option.some.inj (hhead.symm.trans h))

/-- **Cleaning keeps the parts that lead somewhere**, and nothing else that does. -/
theorem filter_parts_clean (t : Text) :
    (parts (clean t)).filter (fun part => part ≠ [] ∧ part ≠ here) = kept (isAbsolute t) (parts t) := by
  have hbody : (parts (Text.join [slash] (kept (isAbsolute t) (parts t)))).filter
      (fun part => part ≠ [] ∧ part ≠ here) = kept (isAbsolute t) (parts t) := by
    by_cases hnil : kept (isAbsolute t) (parts t) = []
    · rw [hnil]
      rfl
    · rw [parts, Text.split_join hnil fun _ => slash_not_mem_of_mem_kept]
      exact List.filter_eq_self.mpr fun part hpart => decide_eq_true (of_mem_kept hpart).2
  unfold clean
  dsimp only
  split_ifs with hroot hnil
  · rw [parts, ← List.nil_append (slash :: _), Text.split_append_sep, List.filter_append]
    exact hbody
  · rw [join_kept_eq_nil.mp hnil]
    rfl
  · exact hbody

end RvConsole.Path
