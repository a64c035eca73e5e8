import ExecutorHost.FileTree.Basic
import ExecutorHost.Proofs.Path

/-!
# Locations that paths lead to

A path that leads somewhere leads to a location of names, and all the folders on the way there are
folders of the tree. So the one path of a location leads back to it, and the locations that two paths
lead to are the same if these paths of them are.
-/

namespace ExecutorHost

namespace FileTree

variable {tree : FileTree} {location : Location} {p : Path}

/-! ## Names -/

/-- A text that may name an entry of a folder. -/
structure IsName (name : String) : Prop where
  noSlash : '/' ∉ name.toList
  ne_empty : name ≠ ""
  ne_dot : name ≠ "."
  ne_up : name ≠ ".."

theorem isTrivial_toList_iff {step : String} :
    Path.isTrivial step.toList = true ↔ step = "" ∨ step = "." := by
  have hdot : step.toList = ['.'] ↔ step = "." := by
    rw [← String.toList_inj]
    rfl
  simp [Path.isTrivial, hdot]

theorem IsName.not_trivial {name : String} (h : IsName name) :
    Path.isTrivial name.toList = false := by
  rw [← Bool.not_eq_true, isTrivial_toList_iff]
  exact not_or.2 ⟨h.ne_empty, h.ne_dot⟩

theorem IsName.componentOf_eq {name : String} (h : IsName name) :
    Path.componentOf name.toList = .name name := by
  have hup : name.toList ≠ ['.', '.'] := by
    intro heq
    exact h.ne_up (String.toList_inj.1 heq)
  simp [Path.componentOf, hup]

theorem slash_notMem_of_mem_steps {step : String} (h : step ∈ steps p) : '/' ∉ step.toList := by
  obtain ⟨segment, hsegment, rfl⟩ := List.mem_map.1 h
  rw [String.toList_ofList]
  exact Path.slash_notMem_of_mem_segments hsegment

theorem names_pathOf (h : ∀ name ∈ location, IsName name) :
    (pathOf location).names = location.map String.toList := by
  have htext : pathOf location =
      ⟨String.ofList ([] ++ '/' :: ['/'].intercalate (location.map String.toList))⟩ := by
    unfold pathOf
    congr 1
    rw [← String.toList_inj]
    simp [String.toList_intercalate]
  rw [htext, Path.names_append_slash, String.ofList_nil, Path.names_empty, List.nil_append]
  cases location with
  | nil => exact Path.names_empty
  | cons name rest =>
    have hslash : ∀ segment ∈ (name :: rest).map String.toList, '/' ∉ segment := by
      intro segment hsegment
      obtain ⟨name', hname', rfl⟩ := List.mem_map.1 hsegment
      exact (h name' hname').noSlash
    rw [Path.names, Path.segments, String.toList_ofList,
      List.splitOn_intercalate _ hslash (List.cons_ne_nil _ _), List.filter_eq_self]
    intro segment hsegment
    obtain ⟨name', hname', rfl⟩ := List.mem_map.1 hsegment
    rw [(h name' hname').not_trivial]
    rfl

theorem components_pathOf (h : ∀ name ∈ location, IsName name) :
    (pathOf location).components = .root :: location.map .name := by
  have habsolute : (pathOf location).isAbsolute = true := by
    simp [Path.isAbsolute, pathOf]
  rw [Path.components_eq, habsolute, names_pathOf h, if_pos rfl, List.map_map,
    List.singleton_append]
  congr 1
  exact List.map_congr_left fun name hname => (h name hname).componentOf_eq

theorem root_cons_map_name_inj {location' : Location} :
    Component.root :: location.map .name = .root :: location'.map .name ↔ location = location' := by
  rw [List.cons_inj_right]
  exact List.map_inj_right fun _ _ => Component.name.inj

theorem eq_toList_of_componentOf_eq {segment : List Char} {name : String}
    (h : Path.componentOf segment = .name name) : segment = name.toList := by
  unfold Path.componentOf at h
  split at h
  · cases h
  · cases h
    exact String.toList_ofList.symm

theorem eq_map_toList_of_map_componentOf_eq {segments : List (List Char)}
    (h : segments.map Path.componentOf = location.map .name) :
    segments = location.map String.toList := by
  induction segments generalizing location with
  | nil =>
    cases location with
    | nil => rfl
    | cons name rest => cases h
  | cons segment segments ih =>
    cases location with
    | nil => cases h
    | cons name rest =>
      obtain ⟨hfirst, hrest⟩ := List.cons.inj h
      rw [ih hrest, eq_toList_of_componentOf_eq hfirst, List.map_cons]

/-- The components of a path tell its names if they are those of a location. -/
theorem names_of_components_eq (h : p.components = .root :: location.map .name) :
    p.names = location.map String.toList := by
  apply eq_map_toList_of_map_componentOf_eq
  rw [Path.components_eq] at h
  split at h
  · exact (List.cons.inj h).2
  · -- a path that does not start at the root has no component of that kind
    have hroot := h ▸ List.mem_cons_self (a := Component.root)
    rcases List.mem_append.1 hroot with hstart | hname
    · split at hstart <;> simp at hstart
    · exact absurd hname (Path.root_notMem_map_componentOf p.names)

/-! ## Where resolution ends -/

/-- A location of names that is there itself and is no link. All the way to it consists of
folders. -/
structure Grounded (tree : FileTree) (location : Location) : Prop where
  names : ∀ name ∈ location, IsName name
  way : ∀ front back, location = front ++ back → back ≠ [] → tree.entry? front = some .folder
  there : ∃ entry, tree.entry? location = some entry ∧ ∀ target, entry ≠ .link target

theorem grounded_nil (tree : FileTree) : Grounded tree [] where
  names := by simp
  way front back h hback := by
    obtain ⟨-, rfl⟩ := List.append_eq_nil_iff.1 h.symm
    exact absurd rfl hback
  there := ⟨.folder, rfl, by simp⟩

theorem Grounded.dropLast (h : Grounded tree location) : Grounded tree location.dropLast := by
  rcases List.eq_nil_or_concat location with rfl | ⟨front, last, rfl⟩
  · exact h
  · rw [List.concat_eq_append] at h ⊢
    rw [List.dropLast_concat]
    exact {
      names := fun name hname => h.names name (List.mem_append_left _ hname)
      way := fun start back hfront _ => h.way start (back ++ [last])
        (by rw [hfront, List.append_assoc]) (by simp)
      there := ⟨.folder, h.way front [last] rfl (by simp), by simp⟩ }

theorem Grounded.snoc (h : Grounded tree location) (hfolder : tree.entry? location = some .folder)
    {name : String} (hname : IsName name) {entry : Entry}
    (hentry : tree.entry? (location ++ [name]) = some entry) (hlink : ∀ t, entry ≠ .link t) :
    Grounded tree (location ++ [name]) where
  names := by
    rw [List.forall_mem_append, List.forall_mem_singleton]
    exact ⟨h.names, hname⟩
  way front back heq hback := by
    rcases List.eq_nil_or_concat back with rfl | ⟨back, last, rfl⟩
    · exact absurd rfl hback
    · rw [List.concat_eq_append, ← List.append_assoc] at heq
      obtain ⟨rfl, -⟩ := List.append_inj' heq rfl
      by_cases hend : back = []
      · rw [hend, List.append_nil] at hfolder
        exact hfolder
      · exact h.way front back rfl hend
  there := ⟨entry, hentry, hlink⟩

/-- Following links, a resolution ends at a grounded location if it starts from one. -/
theorem Grounded.resolve {links : Nat} {pending : List String} {here : Location}
    (h : Grounded tree here) (hpending : ∀ step ∈ pending, '/' ∉ step.toList)
    (hrun : tree.resolve true links here pending = .ok location) : Grounded tree location := by
  fun_induction FileTree.resolve tree true links here pending with
  | case1 links here =>
    cases hrun
    exact h
  | case2 links here step rest hfolder hstep ih =>
    exact ih h (List.forall_mem_cons.1 hpending).2 hrun
  | case3 links here rest hfolder hstep ih =>
    exact ih h.dropLast (List.forall_mem_cons.1 hpending).2 hrun
  | case5 links here step rest hfolder hstep hup target hentry hstop =>
    rw [Bool.not_true, Bool.and_false] at hstop
    cases hstop
  | case7 here step rest hfolder hstep hup target hentry hstop links ih =>
    apply ih _ _ hrun
    · split
      · exact grounded_nil tree
      · exact h
    · rw [List.forall_mem_append]
      exact ⟨fun _ => slash_notMem_of_mem_steps, (List.forall_mem_cons.1 hpending).2⟩
  | case8 links here step rest hfolder hstep hup entry hlink hentry ih =>
    obtain ⟨hslash, hrest⟩ := List.forall_mem_cons.1 hpending
    obtain ⟨hempty, hdot⟩ := not_or.1 hstep
    exact ih (h.snoc hfolder ⟨hslash, hempty, hdot, hup⟩ hentry hlink) hrest hrun
  | case4 | case6 | case9 | case10 => cases hrun

theorem Grounded.of_locate (h : tree.locate p = .ok location) : Grounded tree location := by
  unfold locate at h
  split at h
  · cases h
  · exact (grounded_nil tree).resolve (fun _ => slash_notMem_of_mem_steps) h

/-! ## The way to a folder -/

/-- The names of a location lead there from any place on the way, if a folder is there. Steps that
stand for nothing may stand between them. -/
theorem Grounded.resolve_names {links : Nat} {pending : List String} {here names : Location}
    (h : Grounded tree (here ++ names)) (hfolder : tree.entry? (here ++ names) = some .folder)
    (hpending : pending.filter (fun step => !Path.isTrivial step.toList) = names) :
    tree.resolve true links here pending = .ok (here ++ names) := by
  induction pending generalizing here names with
  | nil =>
    subst hpending
    rw [FileTree.resolve, List.filter_nil, List.append_nil]
  | cons step rest ih =>
    have hhere : tree.entry? here = some .folder := by
      by_cases hnames : names = []
      · rwa [hnames, List.append_nil] at hfolder
      · exact h.way here names rfl hnames
    rw [FileTree.resolve, hhere]
    cases htrivial : Path.isTrivial step.toList with
    | true =>
      have hrest : rest.filter (fun step => !Path.isTrivial step.toList) = names := by
        simpa [htrivial] using hpending
      rw [if_pos (isTrivial_toList_iff.1 htrivial)]
      exact ih h hfolder hrest
    | false =>
      obtain ⟨others, rfl, hrest⟩ : ∃ others, names = step :: others ∧
          rest.filter (fun step => !Path.isTrivial step.toList) = others := by
        simpa [htrivial, eq_comm] using hpending
      have hname := h.names step (by simp)
      rw [List.append_cons] at h hfolder
      have hentry : tree.entry? (here ++ [step]) = some .folder := by
        by_cases hothers : others = []
        · rwa [hothers, List.append_nil] at hfolder
        · exact h.way (here ++ [step]) others rfl hothers
      rw [if_neg (not_or.2 ⟨hname.ne_empty, hname.ne_dot⟩), if_neg hname.ne_up, hentry]
      show tree.resolve true links (here ++ [step]) rest = _
      rw [ih h hfolder hrest, ← List.append_cons]

theorem filter_steps (p : Path) :
    ((steps p).filter fun step => !Path.isTrivial step.toList) = p.names.map String.ofList := by
  unfold steps Path.names
  rw [List.filter_map]
  congr 2
  funext segment
  simp

/-- A path with the names of a folder's location leads to that folder. -/
theorem Grounded.locate_of_names (h : Grounded tree location)
    (hfolder : tree.entry? location = some .folder) (hempty : p.text.isEmpty = false)
    (hnames : (tree.working.join p).names = location.map String.toList) :
    tree.locate p = .ok location := by
  have hsteps : ((tree.allSteps p).filter fun step => !Path.isTrivial step.toList) = location := by
    rw [allSteps, filter_steps, hnames, List.map_map]
    simp
  rw [locate, hempty]
  exact h.resolve_names hfolder hsteps

/-- The paths of two locations of names have the same components only if the locations are equal. -/
theorem eq_of_components_pathOf_eq {location' : Location} (h : ∀ name ∈ location, IsName name)
    (h' : ∀ name ∈ location', IsName name)
    (heq : (pathOf location).components = (pathOf location').components) :
    location = location' := by
  rw [components_pathOf h, components_pathOf h'] at heq
  exact root_cons_map_name_inj.1 heq

/-- Two paths that lead somewhere have one real path if and only if they lead to the same place. -/
theorem canonical_eq_iff {q : Path} {location' : Location} (hp : tree.locate p = .ok location)
    (hq : tree.locate q = .ok location') :
    tree.canonical p = tree.canonical q ↔ location = location' := by
  have hnames := (Grounded.of_locate hp).names
  have hnames' := (Grounded.of_locate hq).names
  rw [canonical, canonical, hp, hq]
  constructor
  · intro h
    have hpath : pathOf location = pathOf location' := Except.ok.inj h
    exact eq_of_components_pathOf_eq hnames hnames' (congrArg Path.components hpath)
  · rintro rfl
    rfl

/-! ## Texts -/

theorem find_of_locate {entry : Entry} (h : tree.locate p = .ok location)
    (hentry : tree.entry? location = some entry) : tree.find p = .ok entry := by
  unfold find
  rw [h]
  simp only [bind, Except.bind, hentry]

/-- What has been written as a text is read as that text. -/
theorem readText_of_find {text : String} (h : tree.find p = .ok (.file (bytesOf text))) :
    tree.readText p = .ok text := by
  have hbytes : (⟨(bytesOf text).toArray⟩ : ByteArray) = text.toUTF8 := by
    rw [bytesOf, Array.toArray_toList]
  have hread : String.fromUTF8? ⟨(bytesOf text).toArray⟩ = some text := by
    rw [hbytes, String.fromUTF8?, dif_pos]
    rfl
  rw [readText, h]
  simp only [bind, Except.bind, hread]

end FileTree

end ExecutorHost
