import ExecutorHost.Proofs.Host.Building
import ExecutorHost.Proofs.Host.Clash
import Mathlib

/-!
# Extension folders and their spellings

A folder may be listed and be found below several roots, each time spelled in another way. The
spellings of one folder have one identity, and no other path has it. So each folder is registered
once, under its first spelling, and reaching it again changes nothing.
-/

namespace ExecutorHost

open Logged Stateful

namespace Host

variable {tree : FileTree} {c : HostConfiguration} {p q : Path} {location : Location}
  {seen : List (List Component)} {folders front back : List Path}

/-! ## Identities -/

theorem identity_of_locate (h : tree.locate p = .ok location) :
    identity tree p = .root :: location.map .name := by
  rw [identity, FileTree.canonical, h]
  exact FileTree.components_pathOf (FileTree.Grounded.of_locate h).names

theorem identity_eq_of_locate_eq (hp : tree.locate p = .ok location)
    (hq : tree.locate q = .ok location) : identity tree p = identity tree q := by
  rw [identity_of_locate hp, identity_of_locate hq]

/-- A path has the identity of a folder if and only if it leads to that folder. One that leads
nowhere has another, since the names in it would lead to the folder. -/
theorem identity_eq_iff (hp : tree.locate p = .ok location)
    (hfolder : tree.entry? location = some .folder) :
    identity tree q = identity tree p ↔ tree.locate q = .ok location := by
  have hground := FileTree.Grounded.of_locate hp
  constructor
  · intro h
    rw [identity_of_locate hp] at h
    cases hq : tree.locate q with
    | ok location' =>
      rw [identity_of_locate hq] at h
      rw [FileTree.root_cons_map_name_inj.1 h]
    | error fault =>
      rw [identity, FileTree.canonical, hq] at h
      dsimp only [Except.map] at h
      cases hempty : q.text.isEmpty with
      | true =>
        have hq : q = ⟨""⟩ := by
          rw [String.isEmpty_iff] at hempty
          rw [← hempty]
        rw [hempty, if_pos rfl, hq] at h
        simp [Path.components, Path.segments, Path.isAbsolute, Path.isTrivial] at h
      | false =>
        rw [hempty, if_neg Bool.false_ne_true] at h
        have hnames := FileTree.names_of_components_eq h
        rw [Path.names_absolute] at hnames
        cases hq.symm.trans (hground.locate_of_names hfolder hempty hnames)
  · exact fun hq => identity_eq_of_locate_eq hq hp

/-! ## First spellings -/

theorem distinctFolders_congr {seen seen' : List (List Component)}
    (h : ∀ id, id ∈ seen ↔ id ∈ seen') (folders : List Path) :
    distinctFolders tree seen folders = distinctFolders tree seen' folders := by
  induction folders generalizing seen seen' with
  | nil => rfl
  | cons folder rest ih =>
    have hcons : ∀ id, id ∈ identity tree folder :: seen ↔ id ∈ identity tree folder :: seen' := by
      intro id
      rw [List.mem_cons, List.mem_cons, h]
    simp only [distinctFolders, h (identity tree folder), ih h, ih hcons]

/-- A folder that is left out has been seen, and so may be counted as seen once more. -/
theorem distinctFolders_cons (seen : List (List Component)) (folder : Path) (rest : List Path) :
    distinctFolders tree seen (folder :: rest) =
      (if identity tree folder ∈ seen then [] else [folder]) ++
        distinctFolders tree (identity tree folder :: seen) rest := by
  rw [distinctFolders]
  split
  · rename_i hseen
    have hsame : ∀ id, id ∈ seen ↔ id ∈ identity tree folder :: seen := by
      intro id
      rw [List.mem_cons]
      constructor
      · exact .inr
      · rintro (rfl | h)
        · exact hseen
        · exact h
    rw [distinctFolders_congr hsame, List.nil_append]
  · rfl

theorem distinctFolders_append (seen : List (List Component)) (front back : List Path) :
    distinctFolders tree seen (front ++ back) =
      distinctFolders tree seen front ++
        distinctFolders tree ((front.map (identity tree)).reverse ++ seen) back := by
  induction front generalizing seen with
  | nil => rfl
  | cons folder rest ih =>
    rw [List.cons_append, distinctFolders_cons, ih, distinctFolders_cons, List.append_assoc,
      List.map_cons, List.reverse_cons, List.append_assoc, List.singleton_append]

theorem distinctFolders_eq_nil (h : ∀ folder ∈ folders, identity tree folder ∈ seen) :
    distinctFolders tree seen folders = [] := by
  induction folders with
  | nil => rfl
  | cons folder rest ih =>
    obtain ⟨hfolder, hrest⟩ := List.forall_mem_cons.1 h
    rw [distinctFolders, if_pos hfolder]
    exact ih hrest

/-- Folders whose identities stand before them may be left out, wherever they stand. -/
theorem distinctFolders_leave_out {again : List Path}
    (h : ∀ folder ∈ again, identity tree folder ∈ front.map (identity tree)) (back : List Path) :
    distinctFolders tree [] (front ++ again ++ back) = distinctFolders tree [] (front ++ back) := by
  have hagain : ∀ folder ∈ again,
      identity tree folder ∈ (front.map (identity tree)).reverse ++ [] := by
    simpa using h
  have hsame : ∀ id, id ∈ (again.map (identity tree)).reverse ++
      ((front.map (identity tree)).reverse ++ []) ↔
        id ∈ (front.map (identity tree)).reverse ++ [] := by
    intro id
    rw [List.mem_append, or_iff_right_iff_imp, List.mem_reverse]
    intro hid
    obtain ⟨folder, hmem, rfl⟩ := List.mem_map.1 hid
    exact hagain folder hmem
  rw [List.append_assoc, distinctFolders_append, distinctFolders_append _ again,
    distinctFolders_eq_nil hagain, distinctFolders_congr hsame, List.nil_append,
    ← distinctFolders_append]

/-- The first spelling of each identity among folders, in their order. In front of the first spelling
of an identity stand those of the identities before it. -/
structure FirstSpellings (tree : FileTree) (folders kept : List Path) : Prop where
  distinct : (kept.map (identity tree)).Nodup
  covers : ∀ folder ∈ folders, ∃ first ∈ kept, identity tree first = identity tree folder
  first : ∀ before first after, kept = before ++ first :: after →
    ∃ front back, folders = front ++ first :: back ∧
      (∀ folder ∈ front, identity tree folder ≠ identity tree first) ∧
      ∀ folder ∈ before, folder ∈ front

theorem FirstSpellings.nil (tree : FileTree) : FirstSpellings tree [] [] where
  distinct := .nil
  covers := by simp
  first := by simp

theorem FirstSpellings.subset {kept : List Path} (h : FirstSpellings tree folders kept) :
    kept ⊆ folders := by
  intro folder hmem
  obtain ⟨before, after, hkept⟩ := List.append_of_mem hmem
  obtain ⟨front, back, rfl, -⟩ := h.first before folder after hkept
  exact List.mem_append_right _ List.mem_cons_self

/-- A folder with the identity of an earlier one is not kept. -/
theorem FirstSpellings.snoc_seen {kept : List Path} (h : FirstSpellings tree folders kept)
    {folder : Path} (hseen : identity tree folder ∈ folders.map (identity tree)) :
    FirstSpellings tree (folders ++ [folder]) kept where
  distinct := h.distinct
  covers := by
    obtain ⟨earlier, hmem, hid⟩ := List.mem_map.1 hseen
    rw [List.forall_mem_append, List.forall_mem_singleton, ← hid]
    exact ⟨h.covers, h.covers earlier hmem⟩
  first before first after hkept := by
    obtain ⟨front, back, rfl, hfront⟩ := h.first before first after hkept
    exact ⟨front, back ++ [folder], by simp, hfront⟩

/-- A folder with a new identity is kept. -/
theorem FirstSpellings.snoc_new {kept : List Path} (h : FirstSpellings tree folders kept)
    {folder : Path} (hnew : identity tree folder ∉ folders.map (identity tree)) :
    FirstSpellings tree (folders ++ [folder]) (kept ++ [folder]) where
  distinct := by
    rw [List.map_append, List.map_singleton, ← List.concat_eq_append, List.nodup_concat]
    exact ⟨fun hid => hnew (List.map_subset _ h.subset hid), h.distinct⟩
  covers := by
    rw [List.forall_mem_append, List.forall_mem_singleton]
    refine ⟨fun earlier hmem => ?_, folder, by simp, rfl⟩
    obtain ⟨first, hfirst, hid⟩ := h.covers earlier hmem
    exact ⟨first, List.mem_append_left _ hfirst, hid⟩
  first before first after hkept := by
    rcases List.eq_nil_or_concat after with rfl | ⟨after, last, rfl⟩
    · obtain ⟨rfl, hlast⟩ := List.append_inj' hkept rfl
      cases hlast
      refine ⟨folders, [], rfl, fun earlier hmem hid => ?_, h.subset⟩
      exact hnew (List.mem_map.2 ⟨earlier, hmem, hid⟩)
    · rw [List.concat_eq_append, ← List.cons_append, ← List.append_assoc] at hkept
      obtain ⟨hbefore, -⟩ := List.append_inj' hkept rfl
      obtain ⟨front, back, rfl, hfront⟩ := h.first before first after hbefore
      exact ⟨front, back ++ [folder], by simp, hfront⟩

theorem firstSpellings_distinctFolders (tree : FileTree) (folders : List Path) :
    FirstSpellings tree folders (distinctFolders tree [] folders) := by
  induction folders using List.reverseRecOn with
  | nil => exact .nil tree
  | append_singleton front folder ih =>
    have hkept : distinctFolders tree [] (front ++ [folder]) = distinctFolders tree [] front ++
        if identity tree folder ∈ front.map (identity tree) then [] else [folder] := by
      rw [distinctFolders_append, distinctFolders_cons]
      simp [distinctFolders]
    rw [hkept]
    split
    · rename_i hseen
      rw [List.append_nil]
      exact ih.snoc_seen hseen
    · rename_i hnew
      exact ih.snoc_new hnew

/-- Exactly one of the kept paths leads to each folder of the tree that any of the paths leads to. -/
theorem FirstSpellings.existsUnique_locate {kept : List Path} (h : FirstSpellings tree folders kept)
    (hfolder : tree.entry? location = some .folder) (hmem : p ∈ folders)
    (hp : tree.locate p = .ok location) :
    ∃! folder, folder ∈ kept ∧ tree.locate folder = .ok location := by
  obtain ⟨first, hfirst, hid⟩ := h.covers p hmem
  have hlocate := (identity_eq_iff hp hfolder).1 hid
  refine ⟨first, ⟨hfirst, hlocate⟩, ?_⟩
  rintro other ⟨hother, hlocate'⟩
  exact List.inj_on_of_nodup_map h.distinct hother hfirst
    (identity_eq_of_locate_eq hlocate' hlocate)

/-- Nothing is left out of folders with different identities. -/
theorem distinctFolders_of_nodup (hseen : ∀ folder ∈ folders, identity tree folder ∉ seen)
    (h : (folders.map (identity tree)).Nodup) :
    distinctFolders tree seen folders = folders := by
  induction folders generalizing seen with
  | nil => rfl
  | cons folder rest ih =>
    obtain ⟨hfolder, hlater⟩ := List.forall_mem_cons.1 hseen
    rw [List.map_cons, List.nodup_cons] at h
    rw [distinctFolders, if_neg hfolder, ih _ h.2]
    intro later hmem
    have hne : identity tree later ≠ identity tree folder :=
      fun hid => h.1 (hid ▸ List.mem_map_of_mem hmem)
    exact List.not_mem_cons_of_ne_of_not_mem hne (hlater later hmem)

end Host

/-! ## Found folders -/

namespace Manifest

variable {tree : FileTree} {root : Path}

/-- The extension folders that are found below a root. -/
def foldersBelow (tree : FileTree) (root : Path) : Except ExtensionError (List Path) := do
  let visits ← (tree.walk root).mapError (.io root)
  return ((visits.map (·.path)).filter (isExtensionFolder tree)).mergeSort Path.le

theorem run_discoverFolders_of_ok {found : List Path} (h : foldersBelow tree root = .ok found)
    (journal : Journal) :
    (discoverFolders tree root).run.run journal = (.ok found, { journal with
      events := journal.events ++ [.extensionFoldersDiscovered root.text found.length] }) := by
  obtain ⟨visits, hvisits, hfound⟩ := exists_of_bind_eq_ok h
  cases hfound
  rw [discoverFolders, hvisits, List.length_mergeSort]
  rfl

theorem run_discoverFolders_of_error {e : ExtensionError} (h : foldersBelow tree root = .error e)
    (journal : Journal) :
    (discoverFolders tree root).run.run journal = (.error e, journal) := by
  unfold foldersBelow at h
  unfold discoverFolders
  cases hvisits : (tree.walk root).mapError (ExtensionError.io root) with
  | error e' =>
    rw [hvisits] at h
    cases h
    rfl
  | ok visits =>
    rw [hvisits] at h
    cases h

theorem fst_run_discoverFolders (tree : FileTree) (root : Path) (journal : Journal) :
    ((discoverFolders tree root).run.run journal).1 = foldersBelow tree root := by
  cases h : foldersBelow tree root with
  | ok found => rw [run_discoverFolders_of_ok h]
  | error e => rw [run_discoverFolders_of_error h]

end Manifest

/-- The configuration with these extension folders and no others. -/
def HostConfiguration.listing (c : HostConfiguration) (folders : List Path) : HostConfiguration :=
  { c with roots := [], folders }

namespace Host

variable {tree : FileTree} {c : HostConfiguration} {folders : List Path} {journal journal' : Journal}

theorem fst_run_extensionFolders (tree : FileTree) (c : HostConfiguration) (journal : Journal) :
    ((extensionFolders tree c).run.run journal).1 =
      (c.roots.mapM (Manifest.foldersBelow tree)).map fun found =>
        distinctFolders tree [] (c.folders ++ found.flatten) := by
  rw [extensionFolders, fst_run_map, fst_run_mapM (Manifest.fst_run_discoverFolders tree)]

theorem distinct_of_run_extensionFolders
    (h : (extensionFolders tree c).run.run journal = (.ok folders, journal')) :
    (folders.map (identity tree)).Nodup := by
  obtain ⟨found, between, -, h⟩ := of_run_bind_eq_ok h
  cases h
  exact (firstSpellings_distinctFolders tree _).distinct

theorem run_extensionFolders_listing (h : (folders.map (identity tree)).Nodup)
    (journal : Journal) :
    (extensionFolders tree (c.listing folders)).run.run journal = (.ok folders, journal) := by
  have hkept : distinctFolders tree [] folders = folders := distinctFolders_of_nodup (by simp) h
  have hrun : (extensionFolders tree (c.listing folders)).run.run journal =
      (.ok (distinctFolders tree [] (folders ++ [])), journal) := rfl
  rw [hrun, List.append_nil, hkept]

/-! ## Hosts and their folders -/

/-- Building a host goes on from its extension folders in the same way, wherever they were found. -/
theorem run_build_congr {roots : List Path}
    (h : (extensionFolders tree c).run.run journal =
      (extensionFolders tree { c with roots, folders }).run.run journal') :
    (build tree c).run.run journal = (build tree { c with roots, folders }).run.run journal' := by
  have hplatforms : (loadPlatforms tree c).run.run journal =
      (loadPlatforms tree { c with roots, folders }).run.run journal' := run_bind_congr h
  refine run_bind_congr ?_
  rw [run_mapError, run_mapError, hplatforms]

theorem run_build_listing (h : (folders.map (identity tree)).Nodup)
    (hrun : (extensionFolders tree c).run.run journal = (.ok folders, journal')) :
    (build tree c).run.run journal = (build tree (c.listing folders)).run.run journal' :=
  run_build_congr (hrun.trans (run_extensionFolders_listing h journal').symm)

theorem run_build_of_extensionFolders {e : ExtensionError}
    (h : ((extensionFolders tree c).run.run journal).1 = .error e) :
    ((build tree c).run.run journal).1 = .error (.extension e) := by
  obtain ⟨journal', hrun⟩ := exists_run_eq_iff.2 h
  exact run_build_of_error (exists_run_eq_iff.1 ⟨journal', run_bind_of_error hrun⟩)

/-- A folder that is listed may be listed again in any spelling. -/
theorem run_build_listed_again {folder spelling : Path} {location : Location}
    (hfolder : folder ∈ c.folders) (hlocation : tree.locate folder = .ok location)
    (hspelling : tree.locate spelling = .ok location) (journal : Journal) :
    (build tree { c with folders := c.folders ++ [spelling] }).run.run journal =
      (build tree c).run.run journal := by
  have hseen : ∀ again ∈ [spelling], identity tree again ∈ c.folders.map (identity tree) := by
    rw [List.forall_mem_singleton, identity_eq_of_locate_eq hspelling hlocation]
    exact List.mem_map_of_mem hfolder
  refine (run_build_congr ?_).symm
  unfold extensionFolders
  simp only [distinctFolders_leave_out hseen]

/-- What has been found below a root is found there again, and has been seen. -/
theorem run_extensionFolders_searched_again {root : Path} (hroot : root ∈ c.roots)
    (h : (extensionFolders tree c).run.run journal = (.ok folders, journal')) :
    ∃ reported, reported.generated = journal'.generated ∧
      (extensionFolders tree { c with roots := c.roots ++ [root] }).run.run journal =
        (.ok folders, reported) := by
  obtain ⟨found, between, hsearch, h⟩ := of_run_bind_eq_ok h
  cases h
  have hresults := fst_run_mapM (Manifest.fst_run_discoverFolders tree) c.roots journal
  rw [hsearch] at hresults
  obtain ⟨again, hmem, hagain⟩ := exists_result_of_mem hresults.symm hroot
  have hseen : ∀ folder ∈ again,
      identity tree folder ∈ (c.folders ++ found.flatten).map (identity tree) := by
    intro folder hfolder
    have hearlier := List.mem_flatten.2 ⟨again, hmem, hfolder⟩
    exact List.mem_map_of_mem (List.mem_append_right _ hearlier)
  have hkept : distinctFolders tree [] (c.folders ++ (found ++ [again]).flatten) =
      distinctFolders tree [] (c.folders ++ found.flatten) := by
    simpa using distinctFolders_leave_out hseen []
  have hlast := Manifest.run_discoverFolders_of_ok hagain journal'
  refine ⟨{ journal' with events := journal'.events ++
    [.extensionFoldersDiscovered root.text again.length] }, rfl, ?_⟩
  rw [extensionFolders, run_bind_of_ok (run_mapM_snoc hsearch hlast), hkept]
  rfl

/-- A root may be searched once more after all others. -/
theorem fst_run_build_searched_again {root : Path} (hroot : root ∈ c.roots) (journal : Journal) :
    ((build tree { c with roots := c.roots ++ [root] }).run.run journal).1 =
      ((build tree c).run.run journal).1 := by
  cases hrun : (extensionFolders tree c).run.run journal with
  | mk result between =>
    cases result with
    | ok folders =>
      obtain ⟨reported, hgenerated, hrun'⟩ := run_extensionFolders_searched_again hroot hrun
      have hdistinct := distinct_of_run_extensionFolders hrun
      rw [run_build_listing hdistinct hrun, run_build_listing hdistinct hrun']
      exact (appends_build tree _).fst_run_eq hgenerated
    | error e =>
      -- the search below the roots fails before it comes to the last one
      have hsearch : (c.roots.mapM (Manifest.discoverFolders tree)).run.run journal =
          (.error e, between) :=
        (of_run_bind_eq_error hrun).resolve_right (by rintro ⟨found, between', -, h⟩; cases h)
      have hrun' : (extensionFolders tree { c with roots := c.roots ++ [root] }).run.run journal =
          (.error e, between) := by
        apply run_bind_of_error
        rw [List.mapM_append, run_bind_of_error hsearch]
      rw [run_build_congr (hrun.trans hrun'.symm)]

/-- Distinct folders are registered: each folder that is listed or found is so under its first
spelling, and no two of the registered ones are the same folder. A host has the sealed platforms of
their manifests, in the order of the folders, and if one of them cannot be loaded or registered, the
first such one is why no host is built. So a host is what the distinct folders give, however they
were found: listing a folder again in another spelling changes nothing, searching a root again
changes nothing in what is built, and an id that is refused because it is repeated stands twice in
one manifest or in the manifests of two different folders. -/
theorem each_folder_registered_once (tree : FileTree) (c : HostConfiguration) :
    (∀ found, c.roots.mapM (Manifest.foldersBelow tree) = .ok found → ∃ folders,
      FirstSpellings tree (c.folders ++ found.flatten) folders ∧
      (∀ location, tree.entry? location = some .folder →
        (∃ folder ∈ c.folders ++ found.flatten, tree.locate folder = .ok location) →
        ∃! folder, folder ∈ folders ∧ tree.locate folder = .ok location) ∧
      ∀ journal, ∃ journal', (extensionFolders tree c).run.run journal = (.ok folders, journal') ∧
        BuildsFrom tree folders journal' ((build tree c).run.run journal).1 ∧
        (build tree c).run.run journal = (build tree (c.listing folders)).run.run journal') ∧
    (∀ e, c.roots.mapM (Manifest.foldersBelow tree) = .error e → ∀ journal,
      ((build tree c).run.run journal).1 = .error (.extension e)) ∧
    (∀ folder ∈ c.folders, ∀ spelling location, tree.locate folder = .ok location →
      tree.locate spelling = .ok location → ∀ journal,
        (build tree { c with folders := c.folders ++ [spelling] }).run.run journal =
          (build tree c).run.run journal) ∧
    (∀ root ∈ c.roots, ∀ journal,
      ((build tree { c with roots := c.roots ++ [root] }).run.run journal).1 =
        ((build tree c).run.run journal).1) ∧
    ∀ journal id file journal', (build tree c).run.run journal =
      (.error (.extension (.duplicatePlatformId id file)), journal') →
      ∃ folders between, (extensionFolders tree c).run.run journal = (.ok folders, between) ∧
        RepeatsId tree folders id ∧
        folders.Pairwise fun first second => ∀ location, tree.locate first = .ok location →
          tree.locate second ≠ .ok location := by
  refine ⟨fun found hfound => ?_, fun e he journal => ?_,
    fun folder hfolder spelling location hlocation hspelling journal =>
      run_build_listed_again hfolder hlocation hspelling journal,
    fun root hroot journal => fst_run_build_searched_again hroot journal,
    fun journal id file journal' h => ?_⟩
  · have hfirst := firstSpellings_distinctFolders tree (c.folders ++ found.flatten)
    refine ⟨_, hfirst, fun location hfolder ⟨folder, hmem, hlocate⟩ =>
      hfirst.existsUnique_locate hfolder hmem hlocate, fun journal => ?_⟩
    have hresult := fst_run_extensionFolders tree c journal
    rw [hfound] at hresult
    obtain ⟨journal', hrun⟩ := exists_run_eq_iff.2 hresult
    exact ⟨journal', hrun, buildsFrom hrun, run_build_listing hfirst.distinct hrun⟩
  · have hresult := fst_run_extensionFolders tree c journal
    rw [he] at hresult
    exact run_build_of_extensionFolders hresult
  · obtain ⟨folders, between, hrun, hrepeats⟩ := repeatsId_of_run_build h
    refine ⟨folders, between, hrun, hrepeats, ?_⟩
    have hdistinct := List.pairwise_map.1 (distinct_of_run_extensionFolders hrun)
    exact hdistinct.imp fun hid location hfirst hsecond =>
      hid (identity_eq_of_locate_eq hfirst hsecond)

end Host

namespace Sample

/-- The first extension is listed through the link, and its folder is a root. -/
def listedAndFound : HostConfiguration := { roots := [⟨"/ext/a"⟩], folders := [⟨"/link/"⟩] }

/-- Both extensions are listed. -/
def listedBoth : HostConfiguration := { folders := [⟨"/link/"⟩, ⟨"/ext/b"⟩] }

section Places

variable {manifest blur kernel repeating : List UInt8}

theorem locate_found : (extensions manifest blur kernel repeating).locate ⟨"/ext/a"⟩ =
    .ok ["ext", "a"] :=
  locate_extensions ["", "ext", "a"] (by decide) (by decide) (by cbv)

theorem locate_dotted : (extensions manifest blur kernel repeating).locate ⟨"/ext/./a"⟩ =
    .ok ["ext", "a"] :=
  locate_extensions ["", "ext", ".", "a"] (by decide) (by decide) (by cbv)

theorem locate_other : (extensions manifest blur kernel repeating).locate ⟨"/ext/b"⟩ =
    .ok ["ext", "b"] :=
  locate_extensions ["", "ext", "b"] (by decide) (by decide) (by cbv)

/-- A folder without a manifest, which is not an extension folder. -/
theorem isExtensionFolder_of_locate_error {p file : Path} {fault : IoFault}
    (hfile : Manifest.fileIn ⟨"/"⟩ p = file)
    (h : (extensions manifest blur kernel repeating).locate file = .error fault) :
    Manifest.isExtensionFolder (extensions manifest blur kernel repeating) p = false := by
  have hfind : (extensions manifest blur kernel repeating).find file = .error fault := by
    rw [FileTree.find, h]
    rfl
  have hfile : Manifest.fileIn (extensions manifest blur kernel repeating).working p = file := hfile
  rw [Manifest.isExtensionFolder, hfile, FileTree.contains, hfind, Bool.and_false]

/-- A file is not an extension folder. -/
theorem isExtensionFolder_of_file {p : Path} {bytes : List UInt8}
    (h : (extensions manifest blur kernel repeating).find p = .ok (.file bytes)) :
    Manifest.isExtensionFolder (extensions manifest blur kernel repeating) p = false := by
  rw [Manifest.isExtensionFolder, FileTree.isFolder, h]
  rfl

theorem foldersBelow_extensions :
    Manifest.foldersBelow (extensions manifest blur kernel repeating) ⟨"/ext/a"⟩ =
      .ok [⟨"/ext/a"⟩] := by
  have hwalk : (extensions manifest blur kernel repeating).walk ⟨"/ext/a"⟩ =
      .ok [⟨⟨"/ext/a"⟩, 0⟩, ⟨⟨"/ext/a/extension.json"⟩, 1⟩, ⟨⟨"/ext/a/m"⟩, 1⟩,
        ⟨⟨"/ext/a/m/blur.json"⟩, 2⟩, ⟨⟨"/ext/a/m/n"⟩, 2⟩, ⟨⟨"/ext/a/m/n/kernel.json"⟩, 3⟩] := by
    rw [FileTree.walk, locate_found]
    rfl
  have hmanifest : (extensions manifest blur kernel repeating).find ⟨"/ext/a/extension.json"⟩ =
      .ok (.file manifest) :=
    FileTree.find_of_locate (locate_extensions ["", "ext", "a", "extension.json"] (by decide)
      (by decide) (by cbv)) rfl
  have hblur : (extensions manifest blur kernel repeating).find ⟨"/ext/a/m/blur.json"⟩ =
      .ok (.file blur) :=
    FileTree.find_of_locate (locate_extensions ["", "ext", "a", "m", "blur.json"] (by decide)
      (by decide) (by cbv)) rfl
  have hkernel : (extensions manifest blur kernel repeating).find ⟨"/ext/a/m/n/kernel.json"⟩ =
      .ok (.file kernel) :=
    FileTree.find_of_locate (locate_extensions ["", "ext", "a", "m", "n", "kernel.json"] (by decide)
      (by decide) (by cbv)) rfl
  have hmodels : Manifest.isExtensionFolder (extensions manifest blur kernel repeating)
      ⟨"/ext/a/m"⟩ = false :=
    isExtensionFolder_of_locate_error (by decide : _ = ⟨"/ext/a/m/extension.json"⟩)
      (locate_extensions ["", "ext", "a", "m", "extension.json"] (by decide) (by decide) (by cbv))
  have hnested : Manifest.isExtensionFolder (extensions manifest blur kernel repeating)
      ⟨"/ext/a/m/n"⟩ = false :=
    isExtensionFolder_of_locate_error (by decide : _ = ⟨"/ext/a/m/n/extension.json"⟩)
      (locate_extensions ["", "ext", "a", "m", "n", "extension.json"] (by decide) (by decide)
        (by cbv))
  have hfolder : Manifest.isExtensionFolder (extensions manifest blur kernel repeating)
      ⟨"/ext/a"⟩ = true := by
    have hfile : Manifest.fileIn (extensions manifest blur kernel repeating).working ⟨"/ext/a"⟩ =
        ⟨"/ext/a/extension.json"⟩ := (by decide : Manifest.fileIn ⟨"/"⟩ ⟨"/ext/a"⟩ = _)
    rw [Manifest.isExtensionFolder, FileTree.isFolder, FileTree.find_of_locate locate_found rfl,
      hfile, FileTree.contains, hmanifest]
    rfl
  rw [Manifest.foldersBelow, hwalk]
  simp [bind, Except.bind, Except.mapError, pure, Except.pure, hfolder, hmodels, hnested,
    isExtensionFolder_of_file hmanifest, isExtensionFolder_of_file hblur,
    isExtensionFolder_of_file hkernel]

end Places

theorem mapM_foldersBelow :
    listedAndFound.roots.mapM (Manifest.foldersBelow linked) = .ok [[⟨"/ext/a"⟩]] := by
  simp [listedAndFound, linked, foldersBelow_extensions, pure, Except.pure, bind, Except.bind]

theorem fst_run_extensionFolders_linked (journal : Journal) :
    ((Host.extensionFolders linked listedAndFound).run.run journal).1 = .ok [⟨"/link/"⟩] := by
  rw [Host.fst_run_extensionFolders, mapM_foldersBelow]
  simp [Except.map, listedAndFound, linked, Host.distinctFolders,
    Host.identity_of_locate locate_link, Host.identity_of_locate locate_found]

theorem fst_run_extensionFolders_both (journal : Journal) :
    ((Host.extensionFolders linked listedBoth).run.run journal).1 =
      .ok [⟨"/link/"⟩, ⟨"/ext/b"⟩] := by
  rw [Host.fst_run_extensionFolders]
  simp [Except.map, listedBoth, linked, Host.distinctFolders, Host.identity_of_locate locate_link,
    Host.identity_of_locate locate_other, pure, Except.pure]

/-- The manifest of the second extension, which has the platform id of the first. -/
def repeatingManifest : Manifest where
  file := some ⟨"/ext/b/extension.json"⟩
  version := "1.0"
  platforms := [{
    file := some ⟨"/ext/b/extension.json"⟩
    id := "x"
    name := "Unnamed"
    technology := "t"
    builtIn := false
    folders := { root := some ⟨"/ext/b"⟩ } }]

def repeatingDocument : Document :=
  .object [("app", .string "executors-extension"), ("platforms", .array [
    .object [("id", .string "x"), ("technology", .string "t")]])]

theorem ofText_repeatingText : Document.ofText repeatingText = .ok repeatingDocument := by
  have hchars : repeatingText.toList = _ := String.toList_ofList
  rw [Document.ofText, Document.read, hchars]
  cbv

theorem fst_run_loadFolder_other (journal : Journal) :
    ((Manifest.loadFolder linked ⟨"/ext/b"⟩).run.run journal).1 = .ok repeatingManifest := by
  have hfolder : linked.isFolder ⟨"/ext/b"⟩ = true := by
    rw [FileTree.isFolder, linked, FileTree.find_of_locate locate_other rfl]
  have hfile : Manifest.fileIn linked.working ⟨"/ext/b"⟩ = ⟨"/ext/b/extension.json"⟩ := by decide
  have hfind : linked.find (Manifest.fileIn linked.working ⟨"/ext/b"⟩) =
      .ok (.file (FileTree.bytesOf repeatingText)) := by
    rw [hfile]
    exact FileTree.find_of_locate (locate_extensions ["", "ext", "b", "extension.json"] (by decide)
      (by decide) (by cbv)) rfl
  exact Manifest.fst_run_loadFolder hfolder hfind ofText_repeatingText rfl

/-- A host of both extensions is refused, since the second one repeats the id of the first. -/
theorem run_build_both (journal : Journal) :
    ∃ file journal', (Host.build linked listedBoth).run.run journal =
      (.error (.extension (.duplicatePlatformId "x" file)), journal') := by
  obtain ⟨between, hfolders⟩ := exists_run_eq_iff.2 (fst_run_extensionFolders_both journal)
  obtain ⟨registered, hfirst⟩ := exists_run_eq_iff.2 (fst_run_registerFolders_link between)
  obtain ⟨read, hload⟩ := exists_run_eq_iff.2 (fst_run_loadFolder_other registered)
  obtain ⟨reported, -, hsecond⟩ :=
    Host.run_registerFolder hload (Manifest.registryOf [manifest])
  have hdistinct : (Manifest.idsOf [manifest]).Nodup := by decide
  have hrepeats : ¬(Manifest.idsOf ([manifest] ++ [repeatingManifest])).Nodup := by decide
  obtain ⟨p, hp, -, hadded⟩ := Manifest.addAll_registryOf_of_not_nodup hdistinct hrepeats
  cases List.mem_singleton.1 hp
  have hregister : (Host.registerFolders linked ([⟨"/link/"⟩] ++ [⟨"/ext/b"⟩])).run.run between =
      (.error (.duplicatePlatformId "x" (some ⟨"/ext/b/extension.json"⟩)), reported) := by
    rw [Host.registerFolders_snoc, run_bind_of_ok hfirst, hsecond, hadded]
  have hplatforms : (Host.loadPlatforms linked listedBoth).run.run journal =
      (.error (.duplicatePlatformId "x" (some ⟨"/ext/b/extension.json"⟩)), reported) := by
    rw [Host.loadPlatforms, run_bind_of_ok hfolders]
    exact run_bind_of_error hregister
  exact ⟨_, exists_run_eq_iff.2 (Host.run_build_of_error (exists_run_eq_iff.1 ⟨_, hplatforms⟩))⟩

end Sample

/-- A folder that is listed through a link and is a root as well is registered once, and it may be
reached again. The host has the platform of its manifest. A second folder with a platform of that
id is refused. -/
theorem Host.each_folder_registered_once_linked :
    (∃ folders, FirstSpellings Sample.linked [⟨"/link/"⟩, ⟨"/ext/a"⟩] folders ∧
      ∃! folder, folder ∈ folders ∧ Sample.linked.locate folder = .ok ["ext", "a"]) ∧
    (∃ host journal', (build Sample.linked Sample.listedAndFound).run.run {} =
      (.ok host, journal') ∧
        host.platforms.platforms = [Sample.platform.makeImmutable]) ∧
    (build Sample.linked { Sample.listedAndFound with
        folders := [⟨"/link/"⟩, ⟨"/ext/./a"⟩] }).run.run {} =
      (build Sample.linked Sample.listedAndFound).run.run {} ∧
    ((build Sample.linked { Sample.listedAndFound with
        roots := [⟨"/ext/a"⟩, ⟨"/ext/a"⟩] }).run.run {}).1 =
      ((build Sample.linked Sample.listedAndFound).run.run {}).1 ∧
    RepeatsId Sample.linked [⟨"/link/"⟩, ⟨"/ext/b"⟩] "x" := by
  obtain ⟨hfolders, -, hlisted, hsearched, -⟩ :=
    each_folder_registered_once Sample.linked Sample.listedAndFound
  obtain ⟨folders, hfirst, hunique, hbuilt⟩ := hfolders _ Sample.mapM_foldersBelow
  refine ⟨⟨folders, hfirst, hunique ["ext", "a"] rfl
    ⟨_, List.mem_cons_self, Sample.locate_link⟩⟩, ?_,
    hlisted _ List.mem_cons_self _ _ Sample.locate_link Sample.locate_dotted {},
    hsearched _ List.mem_cons_self {}, ?_⟩
  · obtain ⟨host, hhost, -⟩ :=
      Sample.exists_run_build_linked (Sample.fst_run_extensionFolders_linked {})
    obtain ⟨last, hrun⟩ := exists_run_eq_iff.2 hhost
    obtain ⟨between, hextensions, hbuilds, -⟩ := hbuilt {}
    have hlink := Sample.fst_run_extensionFolders_linked {}
    rw [hextensions] at hlink
    cases hlink
    have hregistration := hbuilds.registration
    rw [hbuilds.platforms host hhost] at hregistration
    refine ⟨host, last, hrun, ?_⟩
    cases hregistration with
    | all manifests registry registrable platforms =>
      obtain ⟨read, hload⟩ := exists_run_eq_iff.2 (Sample.fst_run_loadFolder_link between)
      have hloaded := registrable.loaded
      rw [loadFolders, List.mapM_cons, run_bind_of_ok hload] at hloaded
      cases hloaded
      exact platforms
  · obtain ⟨-, -, -, -, hduplicate⟩ := each_folder_registered_once Sample.linked Sample.listedBoth
    obtain ⟨file, journal', hbuild⟩ := Sample.run_build_both {}
    obtain ⟨registered, between, hrun, hrepeats, -⟩ := hduplicate _ _ _ _ hbuild
    have hboth := Sample.fst_run_extensionFolders_both {}
    rw [hrun] at hboth
    cases hboth
    exact hrepeats

end ExecutorHost
