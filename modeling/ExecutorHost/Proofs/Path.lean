import ExecutorHost.Path
import Mathlib.Data.List.TakeWhile

/-!
# Paths

What a path says is read from its segments: whether it is absolute, its components, and whether it
has a parent. A path that starts at the root of the file tree does so however it is continued, and so
what is made absolute in an absolute working folder is absolute.
-/

namespace ExecutorHost

namespace Path

variable {base working p : Path}

/-! ## Segments -/

/-- The segments that stand for something. -/
def names (p : Path) : List (List Char) := p.segments.filter (!isTrivial ·)

/-- The component that a segment stands for. -/
def componentOf (segment : List Char) : Component :=
  if segment == ['.', '.'] then .parent else .name (String.ofList segment)

theorem components_eq (p : Path) :
    p.components =
      (if p.isAbsolute then [.root]
        else if p.segments.head? == some ['.'] then [.current] else []) ++
      p.names.map componentOf := by
  unfold components names
  dsimp only
  congr 1
  induction p.segments with
  | nil => rfl
  | cons segment rest ih =>
    rw [List.filterMap_cons, ih, List.filter_cons]
    cases h : isTrivial segment with
    | true => rfl
    | false =>
      by_cases hup : (segment == ['.', '.']) = true <;> simp [componentOf, hup]

theorem root_notMem_map_componentOf (segments : List (List Char)) :
    Component.root ∉ segments.map componentOf := by
  simp only [List.mem_map, componentOf]
  rintro ⟨segment, -, h⟩
  split at h <;> cases h

theorem segments_ne_nil (p : Path) : p.segments ≠ [] := List.splitOn_ne_nil _ _

theorem toList_eq_intercalate (p : Path) : p.text.toList = ['/'].intercalate p.segments :=
  (List.intercalate_splitOn '/').symm

/-- A path is absolute if nothing stands in front of its first slash. -/
theorem isAbsolute_iff : p.isAbsolute = true ↔ ∃ rest, p.segments = [] :: rest ∧ rest ≠ [] := by
  constructor
  · intro h
    have hfirst : p.text.toList.head? = some '/' := beq_iff_eq.1 h
    cases htext : p.text.toList with
    | nil => simp [htext] at hfirst
    | cons c rest =>
      obtain rfl : c = '/' := by simpa [htext] using hfirst
      refine ⟨rest.splitOn '/', ?_, List.splitOn_ne_nil _ _⟩
      rw [segments, htext, List.splitOn_cons_eq_if_modifyHead]
      rfl
  · rintro ⟨rest, hsegments, hrest⟩
    have htext := p.toList_eq_intercalate
    obtain ⟨next, others, rfl⟩ := List.exists_cons_of_ne_nil hrest
    rw [hsegments] at htext
    unfold isAbsolute
    rw [htext]
    simp [List.intercalate]

theorem dropTrivialEnd_eq_nil_iff {segments : List (List Char)} :
    dropTrivialEnd segments = [] ↔ segments.filter (!isTrivial ·) = [] := by
  rw [dropTrivialEnd, List.reverse_eq_nil_iff, List.dropWhile_eq_nil_iff, List.filter_eq_nil_iff]
  simp

/-- Only the empty path and the root have no parent, however they are spelled. -/
theorem parent?_eq_none_iff : p.parent? = none ↔ p.components = [] ∨ p.components = [.root] := by
  obtain ⟨first, others, hsegments⟩ := List.exists_cons_of_ne_nil p.segments_ne_nil
  have hparent : p.parent? = none ↔ first = [] ∧ others.filter (!isTrivial ·) = [] := by
    rw [← dropTrivialEnd_eq_nil_iff]
    unfold parent?
    rw [hsegments]
    cases hkept : dropTrivialEnd others with
    | nil => cases first <;> simp [hkept]
    | cons segment rest =>
      simp only [hkept, reduceCtorEq, and_false, iff_false]
      split <;> simp
  have hnames : p.names = [first].filter (!isTrivial ·) ++ others.filter (!isTrivial ·) := by
    rw [names, hsegments, ← List.filter_append, List.singleton_append]
  rw [hparent, components_eq]
  cases habsolute : p.isAbsolute with
  | true =>
    obtain ⟨rest, hrest, -⟩ := isAbsolute_iff.1 habsolute
    obtain ⟨rfl, rfl⟩ := List.cons.inj (hsegments.symm.trans hrest)
    simp [hnames, isTrivial]
  | false =>
    have hroot : (if p.segments.head? == some ['.'] then [Component.current] else []) ++
        p.names.map componentOf ≠ [.root] := by
      intro h
      have hmem := h ▸ List.mem_singleton_self Component.root
      rcases List.mem_append.1 hmem with hstart | hname
      · split at hstart <;> simp at hstart
      · exact root_notMem_map_componentOf p.names hname
    rw [if_neg Bool.false_ne_true, or_iff_left hroot, hsegments, List.head?_cons, hnames]
    by_cases hempty : first = []
    · simp [hempty, isTrivial]
    · by_cases hdot : first = ['.'] <;> simp [hempty, hdot, isTrivial]

/-! ## Names -/

/-- The names of two texts with a slash between them are those of the one and then of the other. -/
theorem names_append_slash (front back : List Char) :
    names ⟨String.ofList (front ++ '/' :: back)⟩ =
      names ⟨String.ofList front⟩ ++ names ⟨String.ofList back⟩ := by
  simp only [names, segments, String.toList_ofList, List.splitOn_append_cons_self,
    List.filter_append]

theorem names_empty : names ⟨""⟩ = [] := by
  simp [names, segments, isTrivial]

theorem names_join (base rest : Path) :
    (base.join rest).names = (if rest.isAbsolute then [] else base.names) ++ rest.names := by
  unfold join
  cases rest.isAbsolute with
  | true => simp
  | false =>
    simp only [Bool.false_eq_true, if_false]
    obtain ⟨base, rfl⟩ : ∃ text, base = ⟨String.ofList text⟩ := ⟨base.text.toList, by simp⟩
    obtain ⟨rest, rfl⟩ : ∃ text, rest = ⟨String.ofList text⟩ := ⟨rest.text.toList, by simp⟩
    split
    · rename_i hend
      rcases List.eq_nil_or_concat base with rfl | ⟨front, last, rfl⟩
      · simp [names_empty]
      · -- a slash at the end of the first path is the one between the two
        obtain rfl : last = '/' := by simpa [endsInSlash] using hend
        have hfront := names_append_slash front []
        have hwhole := names_append_slash front rest
        rw [String.ofList_nil, names_empty, List.append_nil] at hfront
        rw [List.concat_eq_append, hfront, ← hwhole, ← String.ofList_append]
        simp
    · rw [← names_append_slash]
      simp [String.ofList_append, String.ofList_cons, String.append_assoc]

theorem slash_notMem_of_mem_segments {segment : List Char} (h : segment ∈ p.segments) :
    '/' ∉ segment := by
  suffices hsplit : ∀ text : List Char, ∀ segment ∈ text.splitOn '/', '/' ∉ segment from
    hsplit _ segment h
  intro text
  induction text with
  | nil => simp
  | cons c rest ih =>
    rw [List.splitOn_cons_eq_if_modifyHead]
    split
    · simpa using ih
    · rename_i hslash
      obtain ⟨first, others, hrest⟩ :=
        List.exists_cons_of_ne_nil (List.splitOn_ne_nil '/' rest)
      rw [hrest, List.forall_mem_cons] at ih
      obtain ⟨hfirst, hothers⟩ := ih
      have hne : '/' ≠ c := fun hc => hslash (beq_iff_eq.2 hc.symm)
      rw [hrest, List.modifyHead_cons, List.forall_mem_cons]
      exact ⟨List.not_mem_cons_of_ne_of_not_mem hne hfirst, hothers⟩

/-- A segment that stands for something is its own only name, and no absolute path. -/
theorem of_mem_names {segment : List Char} (h : segment ∈ p.names) :
    names ⟨String.ofList segment⟩ = [segment] ∧
      (⟨String.ofList segment⟩ : Path).isAbsolute = false := by
  obtain ⟨hmem, hname⟩ := List.mem_filter.1 h
  have hslash := slash_notMem_of_mem_segments hmem
  constructor
  · rw [names, segments, String.toList_ofList, List.splitOn_eq_singleton hslash]
    exact List.filter_cons_of_pos hname
  · cases segment with
    | nil => rfl
    | cons c rest =>
      have hne : c ≠ '/' := fun hc => hslash (hc ▸ List.mem_cons_self)
      simpa [isAbsolute] using hne

theorem names_rootSlashes (p : Path) : p.rootSlashes.names = [] := by
  unfold rootSlashes
  split <;> decide

theorem names_foldl_child (base : Path) {segments : List (List Char)}
    (h : ∀ s ∈ segments, s ∈ p.names) :
    (segments.foldl (fun path s => path.child (String.ofList s)) base).names =
      base.names ++ segments := by
  induction segments generalizing base with
  | nil => simp
  | cons segment rest ih =>
    obtain ⟨hsegment, hrest⟩ := List.forall_mem_cons.1 h
    obtain ⟨hnames, habsolute⟩ := of_mem_names hsegment
    rw [List.foldl_cons, ih _ hrest, child, names_join, hnames, habsolute]
    simp

/-- The names of a path from the root on are those of the path continued from the working folder. -/
theorem names_absolute (p working : Path) :
    (p.absolute working).names = (working.join p).names := by
  have hwhole := p.names_foldl_child (if p.isAbsolute then p.rootSlashes else working) fun _ h => h
  have hstart : (if p.isAbsolute then p.rootSlashes else working).names =
      if p.isAbsolute then [] else working.names := by
    split
    · exact p.names_rootSlashes
    · rfl
  rw [hstart, ← names_join] at hwhole
  unfold absolute
  rw [← names]
  dsimp only
  split
  · have hempty : (⟨""⟩ : Path).isAbsolute = false := rfl
    rw [names_join, hwhole, hempty, names_empty, List.append_nil]
    rfl
  · exact hwhole

/-! ## Absolute paths -/

/-- The first character of a text that is not empty stays the first one. -/
theorem isAbsolute_append (h : base.isAbsolute = true) (rest : String) :
    (⟨base.text ++ rest⟩ : Path).isAbsolute = true := by
  have hfirst : base.text.toList.head? = some '/' := beq_iff_eq.1 h
  unfold isAbsolute
  rw [String.toList_append, List.head?_append, hfirst]
  rfl

theorem isAbsolute_join (h : base.isAbsolute = true) (rest : Path) :
    (base.join rest).isAbsolute = true := by
  unfold join
  by_cases hrest : rest.isAbsolute = true
  · rw [if_pos hrest]
    exact hrest
  · rw [if_neg hrest]
    split
    · exact isAbsolute_append h rest.text
    · have hslash := isAbsolute_append h "/"
      exact isAbsolute_append hslash rest.text

theorem isAbsolute_rootSlashes (p : Path) : p.rootSlashes.isAbsolute = true := by
  unfold rootSlashes
  split <;> rfl

theorem isAbsolute_foldl_child (names : List (List Char)) (h : base.isAbsolute = true) :
    (names.foldl (fun path name => path.child (String.ofList name)) base).isAbsolute = true := by
  induction names generalizing base with
  | nil => exact h
  | cons name rest ih =>
    rw [List.foldl_cons]
    exact ih (isAbsolute_join h _)

theorem isAbsolute_absolute (h : working.isAbsolute = true) (p : Path) :
    (p.absolute working).isAbsolute = true := by
  unfold absolute
  have hstart : (if p.isAbsolute then p.rootSlashes else working).isAbsolute = true := by
    split
    · exact p.isAbsolute_rootSlashes
    · exact h
  have hwhole := isAbsolute_foldl_child (p.segments.filter (!isTrivial ·)) hstart
  dsimp only
  split
  · exact isAbsolute_join hwhole _
  · exact hwhole

end Path

end ExecutorHost
