import RvConsole.Files.Store
import RvConsole.Proofs.Files.Path
import RvConsole.Proofs.Isa.Reading

/-! Files that lines are written to.

A store grows while lines are written: what was a directory stays one (`Store.Grows`), so a path that leads somewhere
leads there ever after (`locate_mono`). A path and the cleaned path of its directory meet at one place
(`locate_directory`), so the directory that is made for a file is the one that the file is put into. From this, one
line that could be written at the end of a file means that every line can be, and the file holds what was written
(`appendLine_of_file`, `appendLine_of_absent`). -/
namespace RvConsole

/-! ### Places -/

namespace Store
variable {s s' : Store} {place start parts : List Text} {content path : Text}

/-- Whether something is at a place or below it. -/
def Above (s : Store) (place : List Text) : Prop :=
  place <+: s.here ∨ (∃ d ∈ s.directories, place <+: d) ∨ ∃ f ∈ s.files, place <+: f.1

theorem above_of_lookup (h : s.files.lookup place = some content) : s.Above place := by
  obtain ⟨before, after, hfiles, -⟩ := List.lookup_eq_some_iff.mp h
  exact .inr (.inr ⟨_, hfiles ▸ List.mem_append_right _ List.mem_cons_self, List.prefix_refl _⟩)

theorem placeAt_eq_file : s.placeAt place = .file content ↔ s.files.lookup place = some content := by
  unfold placeAt
  cases s.files.lookup place with
  | some content' => simp
  | none =>
    dsimp only
    split_ifs <;> simp

theorem placeAt_eq_directory : s.placeAt place = .directory ↔ s.files.lookup place = none ∧ s.Above place := by
  have habove : (place.isPrefixOf s.here = true ∨ s.directories.any place.isPrefixOf = true ∨
      s.files.any (fun f => place.isPrefixOf f.1) = true) ↔ s.Above place := by
    simp only [Above, List.isPrefixOf_iff_prefix, List.any_eq_true]
  unfold placeAt
  cases s.files.lookup place with
  | some content => simp
  | none =>
    dsimp only
    split_ifs with hif
    · simp [habove.mp hif]
    · simp [mt habove.mpr hif]

theorem placeAt_eq_missing : s.placeAt place = .missing ↔ ¬ s.Above place := by
  cases hplace : s.placeAt place with
  | file content => simp [above_of_lookup (placeAt_eq_file.mp hplace)]
  | directory => simp [(placeAt_eq_directory.mp hplace).2]
  | missing =>
    simp only [true_iff]
    intro habove
    have hnone : s.files.lookup place = none := by
      rw [Option.eq_none_iff_forall_ne_some]
      intro content hcontent
      rw [placeAt_eq_file.mpr hcontent] at hplace
      cases hplace
    rw [placeAt_eq_directory.mpr ⟨hnone, habove⟩] at hplace
    cases hplace

theorem Above.of_initial {above : List Text} (h : s.Above place) (hinit : above <+: place) : s.Above above := by
  rcases h with h | ⟨d, hd, h⟩ | ⟨f, hf, h⟩
  · exact .inl (hinit.trans h)
  · exact .inr (.inl ⟨d, hd, hinit.trans h⟩)
  · exact .inr (.inr ⟨f, hf, hinit.trans h⟩)

/-! ### Following -/

theorem follow_cons_eq_ok {part : Text} {rest : List Text} :
    s.follow start (part :: rest) = .ok place ↔
      s.placeAt start = .directory ∧ s.follow (Path.go start part) rest = .ok place := by
  rw [follow, Path.go]
  cases s.placeAt start with
  | file content => simp
  | missing => simp
  | directory =>
    dsimp only
    split_ifs <;> simp

/-- A path leads where its last part leads from a directory. -/
theorem follow_concat_eq_ok {part : Text} :
    s.follow start (parts ++ [part]) = .ok place ↔
      ∃ before, s.follow start parts = .ok before ∧ s.placeAt before = .directory ∧ Path.go before part = place := by
  induction parts generalizing start with
  | nil =>
    simp only [List.nil_append, follow_cons_eq_ok]
    simp [follow]
  | cons first rest ih =>
    simp only [List.cons_append, follow_cons_eq_ok, ih]
    constructor
    · rintro ⟨hstart, before, hbefore, h⟩
      exact ⟨before, ⟨hstart, hbefore⟩, h⟩
    · rintro ⟨before, ⟨hstart, hbefore⟩, h⟩
      exact ⟨hstart, before, hbefore, h⟩

theorem follow_push {isRooted : Bool} {stack : List Text} (hroot : isRooted = true → start = [])
    (hproper : ∀ part ∈ stack, part ≠ [] ∧ part ≠ Path.here) (h : s.follow start stack.reverse = .ok place)
    (hdirectory : s.placeAt place = .directory) (part : Text) :
    s.follow start (Path.push isRooted stack part).reverse = .ok (Path.go place part) := by
  have hpushed : s.follow start (part :: stack).reverse = .ok (Path.go place part) := by
    rw [List.reverse_cons]
    exact follow_concat_eq_ok.mpr ⟨place, h, hdirectory, rfl⟩
  fun_cases Path.push isRooted stack part with
  | case1 _ hskip =>
    rw [Path.go, if_pos hskip]
    exact h
  | case2 _ hup hrooted =>
    obtain rfl := Except.ok.inj h
    rw [hup, Path.go_up, hroot hrooted]
    rfl
  | case3 _ hup => exact hup ▸ hpushed
  | case4 _ hup => exact hup ▸ hpushed
  | case5 _ hup top rest htop =>
    obtain ⟨hnil, hhere⟩ := hproper top List.mem_cons_self
    rw [List.reverse_cons] at h
    obtain ⟨before, hbefore, -, rfl⟩ := follow_concat_eq_ok.mp h
    rw [Path.go_of_ne _ hnil hhere htop, hup, Path.go_up, List.dropLast_concat]
    exact hbefore
  | case6 => exact hpushed

/-- **The parts that cleaning keeps lead to the same place.** -/
theorem follow_kept {isRooted : Bool} {raw : List Text} (hroot : isRooted = true → start = [])
    (h : s.follow start raw = .ok place) : s.follow start (Path.kept isRooted raw) = .ok place := by
  induction raw using List.reverseRecOn generalizing place with
  | nil => exact h
  | append_singleton raw part ih =>
    obtain ⟨before, hbefore, hdirectory, rfl⟩ := follow_concat_eq_ok.mp h
    have hproper : ∀ part ∈ raw.foldl (Path.push isRooted) [], part ≠ [] ∧ part ≠ Path.here :=
      fun _ hmem => (Path.of_mem_kept (List.mem_reverse.mpr hmem)).2
    rw [Path.kept, List.foldl_append]
    exact follow_push hroot hproper (ih hbefore) hdirectory part

theorem placeAt_start (h : s.follow start parts = .ok place) (hplace : s.placeAt place = .directory) :
    s.placeAt start = .directory := by
  cases parts with
  | nil => exact Except.ok.inj h ▸ hplace
  | cons => exact (follow_cons_eq_ok.mp h).1

/-- Parts that lead nowhere may be left out on the way to a directory. -/
theorem follow_of_filter (h : s.follow start (parts.filter fun part => part ≠ [] ∧ part ≠ Path.here) = .ok place)
    (hplace : s.placeAt place = .directory) : s.follow start parts = .ok place := by
  induction parts generalizing start with
  | nil => exact h
  | cons part rest ih =>
    by_cases hpart : part ≠ [] ∧ part ≠ Path.here
    · rw [List.filter_cons, if_pos (decide_eq_true hpart)] at h
      obtain ⟨hstart, hrest⟩ := follow_cons_eq_ok.mp h
      exact follow_cons_eq_ok.mpr ⟨hstart, ih hrest⟩
    · rw [List.filter_cons, if_neg (by simpa using hpart)] at h
      have hskip : part = [] ∨ part = Path.here := by tauto
      refine follow_cons_eq_ok.mpr ⟨placeAt_start h hplace, ?_⟩
      rw [Path.go, if_pos hskip]
      exact ih h

/-- Where paths start. -/
def startOf (s : Store) (path : Text) : List Text := if Path.isAbsolute path then [] else s.here

theorem locate_eq_ok : s.locate path = .ok place ↔
    path ≠ [] ∧ s.follow (s.startOf path) (Path.parts path) = .ok place := by
  unfold locate startOf
  split_ifs with h <;> simp [h]

/-- **A path leads through its directory**: what the cleaned path of the directory leads to is the directory that the
last part of the path starts from. -/
theorem locate_directory (h : s.locate path = .ok place) :
    ∃ directory last, s.locate (Path.directory path) = .ok directory ∧ s.placeAt directory = .directory ∧
      place = Path.go directory last := by
  obtain ⟨-, hfollow⟩ := locate_eq_ok.mp h
  obtain ⟨before, last, hparts, hfront, habsolute⟩ := Path.exists_parts_eq path
  rw [hparts] at hfollow
  obtain ⟨directory, hbefore, hdirectory, hlast⟩ := follow_concat_eq_ok.mp hfollow
  refine ⟨directory, last, locate_eq_ok.mpr ⟨Path.clean_ne_nil _, ?_⟩, hdirectory, hlast.symm⟩
  have hstart : s.startOf (Path.directory path) = s.startOf path := by
    rw [startOf, startOf, Path.directory, Path.isAbsolute_clean, habsolute]
  have hraw : s.follow (s.startOf path) (Path.parts (path.reverse.dropWhile (· ≠ Path.slash)).reverse) =
      .ok directory := by
    rw [hfront]
    exact follow_concat_eq_ok.mpr ⟨directory, hbefore, hdirectory, rfl⟩
  rw [hstart]
  apply follow_of_filter _ hdirectory
  rw [Path.directory, Path.filter_parts_clean]
  refine follow_kept (fun hroot => ?_) hraw
  rw [habsolute] at hroot
  exact if_pos hroot

/-! ### Growth -/

/-- A store in which directories stay directories. -/
structure Grows (s s' : Store) : Prop where
  here : s'.here = s.here
  directory : ∀ place, s.placeAt place = .directory → s'.placeAt place = .directory

theorem Grows.refl (s : Store) : Grows s s := ⟨rfl, fun _ h => h⟩

theorem Grows.trans {s'' : Store} (h : Grows s s') (h' : Grows s' s'') : Grows s s'' :=
  ⟨h'.here.trans h.here, fun place hplace => h'.directory place (h.directory place hplace)⟩

theorem follow_mono (hgrows : Grows s s') (h : s.follow start parts = .ok place) :
    s'.follow start parts = .ok place := by
  induction parts generalizing start with
  | nil => exact h
  | cons part rest ih =>
    obtain ⟨hstart, hrest⟩ := follow_cons_eq_ok.mp h
    exact follow_cons_eq_ok.mpr ⟨hgrows.directory start hstart, ih hrest⟩

theorem locate_mono (hgrows : Grows s s') (h : s.locate path = .ok place) : s'.locate path = .ok place := by
  obtain ⟨hne, hfollow⟩ := locate_eq_ok.mp h
  refine locate_eq_ok.mpr ⟨hne, ?_⟩
  rw [startOf, hgrows.here]
  exact follow_mono hgrows hfollow

theorem look_eq_ok {what : Place} : s.look path = .ok what ↔
    ∃ place, s.locate path = .ok place ∧ s.placeAt place = what := by
  unfold look
  cases s.locate path <;> simp [Except.map]

theorem look_directory_mono (hgrows : Grows s s') (h : s.look path = .ok .directory) :
    s'.look path = .ok .directory := by
  obtain ⟨place, hlocate, hplace⟩ := look_eq_ok.mp h
  exact look_eq_ok.mpr ⟨place, locate_mono hgrows hlocate, hgrows.directory place hplace⟩

theorem read_eq_ok : s.read path = .ok content ↔ s.look path = .ok (.file content) := by
  unfold read
  split <;> simp_all

/-! ### Writing -/

theorem lookup_rewritten (files : List (List Text × Text)) (place other : List Text) (content : Text) :
    (files.map fun (p, old) => if p = place then (p, content) else (p, old)).lookup other =
      if other = place then (files.lookup other).map fun _ => content else files.lookup other := by
  induction files with
  | nil => simp
  | cons f rest ih =>
    obtain ⟨p, old⟩ := f
    by_cases hp : other = p
    · subst hp
      by_cases hother : other = place <;> simp [hother]
    · have hskip (value : Text) (rest : List (List Text × Text)) :
          ((p, value) :: rest).lookup other = rest.lookup other := by
        rw [List.lookup_cons, beq_eq_false_iff_ne.mpr hp]
      rw [hskip, ← ih, List.map_cons]
      dsimp only
      split_ifs <;> rw [hskip]

theorem lookup_put (s : Store) (place other : List Text) (content : Text) :
    (s.put place content).files.lookup other = if other = place then some content else s.files.lookup other := by
  unfold put
  split_ifs with hsome hother hother
  · subst hother
    obtain ⟨old, hold⟩ := Option.isSome_iff_exists.mp hsome
    simp only [lookup_rewritten, if_true, hold, Option.map_some]
  · simp only [lookup_rewritten, if_neg hother]
  · subst hother
    simp only [List.lookup_append, Option.not_isSome_iff_eq_none.mp hsome]
    simp
  · have hbeq : (other == place) = false := beq_eq_false_iff_ne.mpr hother
    simp [List.lookup_append, List.lookup_cons, hbeq]

theorem Above.put {other : List Text} (h : s.Above other) (place : List Text) (content : Text) :
    (s.put place content).Above other := by
  unfold Store.put
  split_ifs
  · refine h.imp_right (.imp_right ?_)
    rintro ⟨⟨p, old⟩, hf, hinit⟩
    refine ⟨_, List.mem_map_of_mem hf, ?_⟩
    dsimp only
    split_ifs <;> exact hinit
  · refine h.imp_right (.imp_right ?_)
    rintro ⟨f, hf, hinit⟩
    exact ⟨f, List.mem_append_left _ hf, hinit⟩

theorem put_grows (h : s.placeAt place ≠ .directory) (content : Text) : Grows s (s.put place content) := by
  refine ⟨?_, fun other hother => ?_⟩
  · unfold put
    split_ifs <;> rfl
  · have hne : other ≠ place := fun heq => h (heq ▸ hother)
    obtain ⟨hlookup, habove⟩ := placeAt_eq_directory.mp hother
    refine placeAt_eq_directory.mpr ⟨?_, habove.put place content⟩
    rw [lookup_put, if_neg hne, hlookup]

/-- A file is written where there is one, and where there is nothing, as if that were empty. -/
theorem update_of_look {old : Text} (h : s.look path = .ok (.file old) ∨ s.look path = .ok .missing ∧ old = [])
    (f : Text → Text) :
    ∃ s', s.update path f = .ok s' ∧ Grows s s' ∧ s'.look path = .ok (.file (f old)) := by
  have hput {place : List Text} (hlocate : s.locate path = .ok place) (hplace : s.placeAt place ≠ .directory) :
      Grows s (s.put place (f old)) ∧ (s.put place (f old)).look path = .ok (.file (f old)) := by
    have hgrows := put_grows hplace (f old)
    refine ⟨hgrows, look_eq_ok.mpr ⟨place, locate_mono hgrows hlocate, placeAt_eq_file.mpr ?_⟩⟩
    rw [lookup_put, if_pos rfl]
  rcases h with h | ⟨h, rfl⟩
  · obtain ⟨place, hlocate, hplace⟩ := look_eq_ok.mp h
    refine ⟨s.put place (f old), ?_, hput hlocate (by rw [hplace]; rintro ⟨⟩)⟩
    simp only [update, hlocate, hplace]
  · obtain ⟨place, hlocate, hplace⟩ := look_eq_ok.mp h
    refine ⟨s.put place (f []), ?_, hput hlocate (by rw [hplace]; rintro ⟨⟩)⟩
    simp only [update, hlocate, hplace]

theorem look_of_update {f : Text → Text} (h : s.update path f = .ok s') :
    ∃ place, s.locate path = .ok place ∧ s.placeAt place ≠ .directory := by
  unfold update at h
  split at h
  · cases h
  · rename_i place hlocate
    refine ⟨place, hlocate, fun hplace => ?_⟩
    rw [hplace] at h
    cases h

/-! ### Making directories -/

/-- The store with one more directory. -/
def withDirectory (s : Store) (place : List Text) : Store := { s with directories := s.directories ++ [place] }

theorem withDirectory_grows (s : Store) (place : List Text) : Grows s (s.withDirectory place) := by
  refine ⟨rfl, fun other hother => ?_⟩
  obtain ⟨hlookup, habove⟩ := placeAt_eq_directory.mp hother
  refine placeAt_eq_directory.mpr ⟨hlookup, habove.imp_right (.imp_left ?_)⟩
  rintro ⟨d, hd, hinit⟩
  exact ⟨d, List.mem_append_left _ hd, hinit⟩

theorem placeAt_withDirectory (h : s.placeAt place = .missing) :
    (s.withDirectory place).placeAt place = .directory := by
  refine placeAt_eq_directory.mpr ⟨?_, .inr (.inl ⟨place, by simp [withDirectory], List.prefix_refl _⟩)⟩
  rw [Option.eq_none_iff_forall_ne_some]
  intro content hcontent
  exact placeAt_eq_missing.mp h (above_of_lookup hcontent)

theorem makeDirectory_eq_ok (h : s.makeDirectory path = .ok s') :
    ∃ place, s.locate (path.reverse.dropWhile (· = Path.slash)).reverse = .ok place ∧
      s.placeAt place = .missing ∧ s' = s.withDirectory place := by
  unfold makeDirectory at h
  dsimp only at h
  split at h
  · cases h
  · rename_i place hlocate
    split at h
    · rename_i hplace
      exact ⟨place, hlocate, hplace, (Except.ok.inj h).symm⟩
    · cases h

/-- Slashes behind the path of a directory change nothing. -/
theorem locate_append_slashes {slashes : Text} (hslashes : ∀ b ∈ slashes, b = Path.slash)
    (h : s.locate path = .ok place) (hplace : s.placeAt place = .directory) :
    s.locate (path ++ slashes) = .ok place := by
  induction slashes generalizing path with
  | nil => rwa [List.append_nil]
  | cons b rest ih =>
    obtain ⟨rfl, hrest⟩ := List.forall_mem_cons.mp hslashes
    obtain ⟨hne, hfollow⟩ := locate_eq_ok.mp h
    rw [List.append_cons]
    refine ih hrest (locate_eq_ok.mpr ⟨by simp, ?_⟩)
    have hstart : s.startOf (path ++ [Path.slash]) = s.startOf path := by
      rw [startOf, startOf, Path.isAbsolute, Path.isAbsolute, List.head?_append_of_ne_nil _ hne]
    rw [hstart, Path.parts, Text.split_append_sep]
    exact follow_concat_eq_ok.mpr ⟨place, hfollow, hplace, rfl⟩

/-- Either there is the directory, or it is made in one above that is there or was made before. -/
theorem makeDirectoriesWith_succ {fuel : Nat} (h : s.makeDirectoriesWith (fuel + 1) path = .ok s') :
    s' = s ∧ s.look path = .ok .directory ∨
      ∃ above, (above = s ∨ s.makeDirectoriesWith fuel (parentPath path) = .ok above) ∧
        above.makeDirectory path = .ok s' := by
  unfold makeDirectoriesWith at h
  split at h
  · rename_i hlook
    exact .inl ⟨(Except.ok.inj h).symm, hlook⟩
  · cases h
  · dsimp only at h
    split_ifs at h
    · exact .inr ⟨s, .inl rfl, h⟩
    · obtain ⟨above, habove, hmake⟩ := bind_eq_ok.mp h
      exact .inr ⟨above, .inr habove, hmake⟩

theorem makeDirectoriesWith_grows {fuel : Nat} (h : s.makeDirectoriesWith fuel path = .ok s') :
    Grows s s' ∧ s'.files = s.files := by
  induction fuel generalizing s s' path with
  | zero =>
    obtain rfl := Except.ok.inj h
    exact ⟨.refl s, rfl⟩
  | succ fuel ih =>
    rcases makeDirectoriesWith_succ h with ⟨rfl, -⟩ | ⟨above, habove, hmake⟩
    · exact ⟨.refl s', rfl⟩
    · obtain ⟨place, -, -, rfl⟩ := makeDirectory_eq_ok hmake
      have hgrows := withDirectory_grows above place
      rcases habove with rfl | habove
      · exact ⟨hgrows, rfl⟩
      · obtain ⟨habove, hfiles⟩ := ih habove
        exact ⟨habove.trans hgrows, hfiles⟩

/-- What making directories comes to: nothing where there is the directory, and otherwise, at last, one place that
was missing. -/
theorem makeDirectories_cases (h : s.makeDirectories path = .ok s') :
    s' = s ∧ s.look path = .ok .directory ∨
      ∃ above place, Grows s above ∧ above.files = s.files ∧
        above.locate (path.reverse.dropWhile (· = Path.slash)).reverse = .ok place ∧
          above.placeAt place = .missing ∧ s' = above.withDirectory place := by
  rcases makeDirectoriesWith_succ h with hthere | ⟨above, habove, hmake⟩
  · exact .inl hthere
  · obtain ⟨place, hlocate, hplace, rfl⟩ := makeDirectory_eq_ok hmake
    rcases habove with rfl | habove
    · exact .inr ⟨above, place, .refl above, rfl, hlocate, hplace, rfl⟩
    · obtain ⟨hgrows, hfiles⟩ := makeDirectoriesWith_grows habove
      exact .inr ⟨above, place, hgrows, hfiles, hlocate, hplace, rfl⟩

/-- The place that a directory was made at is the one its path leads to. -/
theorem locate_withDirectory (h : s.locate (path.reverse.dropWhile (· = Path.slash)).reverse = .ok place)
    (hplace : s.placeAt place = .missing) : (s.withDirectory place).locate path = .ok place := by
  have htail : (path.reverse.dropWhile (· = Path.slash)).reverse ++
      (path.reverse.takeWhile (· = Path.slash)).reverse = path := by
    rw [← List.reverse_append, List.takeWhile_append_dropWhile, List.reverse_reverse]
  have hslashes : ∀ b ∈ (path.reverse.takeWhile (· = Path.slash)).reverse, b = Path.slash := by
    intro b hb
    simpa using List.mem_takeWhile_imp (List.mem_reverse.mp hb)
  have hlocate := locate_append_slashes hslashes (locate_mono (withDirectory_grows s place) h)
    (placeAt_withDirectory hplace)
  rwa [htail] at hlocate

theorem look_of_makeDirectories (h : s.makeDirectories path = .ok s') :
    Grows s s' ∧ s'.look path = .ok .directory := by
  rcases makeDirectories_cases h with ⟨rfl, hlook⟩ | ⟨above, place, hgrows, -, hlocate, hplace, rfl⟩
  · exact ⟨.refl s', hlook⟩
  · exact ⟨hgrows.trans (withDirectory_grows above place),
      look_eq_ok.mpr ⟨place, locate_withDirectory hlocate hplace, placeAt_withDirectory hplace⟩⟩

theorem above_startOf (s : Store) (path : Text) : s.Above (s.startOf path) := by
  unfold startOf
  split_ifs
  · exact .inl (List.nil_prefix)
  · exact .inl (List.prefix_refl _)

/-- A path that leads to a missing place leads there from a directory. -/
theorem exists_directory_of_missing (h : s.locate path = .ok place) (hplace : s.placeAt place = .missing) :
    ∃ directory last, place = directory ++ [last] ∧ s.placeAt directory = .directory := by
  obtain ⟨-, hfollow⟩ := locate_eq_ok.mp h
  have hmissing := placeAt_eq_missing.mp hplace
  rcases List.eq_nil_or_concat' (Path.parts path) with hparts | ⟨before, last, hparts⟩
  · rw [hparts] at hfollow
    exact absurd (Except.ok.inj hfollow ▸ s.above_startOf path) hmissing
  · rw [hparts] at hfollow
    obtain ⟨directory, -, hdirectory, rfl⟩ := follow_concat_eq_ok.mp hfollow
    have habove := (placeAt_eq_directory.mp hdirectory).2
    -- a part that leads nowhere or up stays at something that is there
    unfold Path.go at hmissing ⊢
    split_ifs at hmissing ⊢
    · exact absurd habove hmissing
    · exact absurd (habove.of_initial (List.dropLast_prefix directory)) hmissing
    · exact ⟨directory, last, rfl, hdirectory⟩

/-! ### Lines at the end of a file -/

theorem appendLine_eq_ok {line : Text} : s.appendLine path line = .ok s' ↔
    ∃ made, s.makeDirectories (Path.directory path) = .ok made ∧ made.append path (line ++ "\n") = .ok s' :=
  bind_eq_ok

/-- A file in its directory takes every line. -/
theorem appendLine_of_file (hdirectory : s.look (Path.directory path) = .ok .directory)
    (h : s.read path = .ok content) (line : Text) :
    ∃ s', s.appendLine path line = .ok s' ∧ s'.look (Path.directory path) = .ok .directory ∧
      s'.read path = .ok (content ++ (line ++ "\n")) := by
  have hmake : s.makeDirectories (Path.directory path) = .ok s := by
    simp only [makeDirectories, makeDirectoriesWith, hdirectory]
  obtain ⟨s', happend, hgrows, hlook⟩ := update_of_look (.inl (read_eq_ok.mp h)) (· ++ (line ++ "\n"))
  exact ⟨s', appendLine_eq_ok.mpr ⟨s, hmake, happend⟩, look_directory_mono hgrows hdirectory, read_eq_ok.mpr hlook⟩

/-- Making the directory of an absent file does not bring the file about: if the directory was made, nothing was in
it, and a last part that does not lead into it leads to a directory. -/
theorem look_of_absent {e : FileError} (h : s.read path = .error e) {made : Store}
    (hmake : s.makeDirectories (Path.directory path) = .ok made) (hlocate : made.locate path = .ok place)
    (hplace : made.placeAt place ≠ .directory) : made.look path = .ok .missing := by
  refine look_eq_ok.mpr ⟨place, hlocate, ?_⟩
  cases hwhat : made.placeAt place with
  | missing => rfl
  | directory => exact absurd hwhat hplace
  | file content =>
    exfalso
    rcases makeDirectories_cases hmake with ⟨rfl, -⟩ | ⟨above, made', -, hfiles, hmade, hgap, rfl⟩
    · rw [read_eq_ok.mpr (look_eq_ok.mpr ⟨place, hlocate, hwhat⟩)] at h
      cases h
    · obtain ⟨directory, last, hdirectory, -, rfl⟩ := locate_directory hlocate
      obtain rfl : made' = directory :=
        Except.ok.inj ((locate_withDirectory hmade hgap).symm.trans hdirectory)
      obtain ⟨upper, name, rfl, hupper⟩ := exists_directory_of_missing hmade hgap
      unfold Path.go at hwhat
      split_ifs at hwhat
      · rw [placeAt_withDirectory hgap] at hwhat
        cases hwhat
      · rw [List.dropLast_concat, (withDirectory_grows above _).directory upper hupper] at hwhat
        cases hwhat
      · have hlookup := placeAt_eq_file.mp hwhat
        exact placeAt_eq_missing.mp hgap ((above_of_lookup (s := above) hlookup).of_initial (List.prefix_append _ _))

/-- **One line that can be written to an absent file means that every line can be**, and the file then holds that
line alone. -/
theorem appendLine_of_absent {e : FileError} (h : s.read path = .error e) {one : Text}
    (hone : s.appendLine path one = .ok s') (line : Text) :
    ∃ s', s.appendLine path line = .ok s' ∧ s'.look (Path.directory path) = .ok .directory ∧
      s'.read path = .ok (line ++ "\n") := by
  obtain ⟨made, hmake, happend⟩ := appendLine_eq_ok.mp hone
  obtain ⟨place, hlocate, hplace⟩ := look_of_update happend
  have hlook := look_of_absent h hmake hlocate hplace
  obtain ⟨s', happend', hgrows, hlook'⟩ := update_of_look (.inr ⟨hlook, rfl⟩) (· ++ (line ++ "\n"))
  exact ⟨s', appendLine_eq_ok.mpr ⟨made, hmake, happend'⟩,
    look_directory_mono hgrows (look_of_makeDirectories hmake).2, read_eq_ok.mpr hlook'⟩

end Store

end RvConsole
