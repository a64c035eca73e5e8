import ExecutorHost.Proofs.Extension.Registry
import ExecutorHost.Proofs.Host.Growth
import Mathlib.Data.List.Duplicate

/-!
# The platforms of extension folders

Folders are registered by reading their manifests one after another and entering the platforms of
each as a whole. As long as no id is repeated, what is registered are the platforms of all manifests
in the order of the folders. The first folder whose manifest cannot be read, or repeats an id, ends
it.
-/

namespace ExecutorHost

open Logged Stateful

/-! ## Registries -/

namespace Registry

variable {r : Registry} {platforms : List Platform} {p : Platform} {id : String}

theorem contains_foldl_insert :
    (platforms.foldl insert r).contains id = true ↔
      r.contains id = true ∨ id ∈ platforms.map Platform.id := by
  induction platforms generalizing r with
  | nil => simp
  | cons p rest ih =>
    rw [List.foldl_cons, ih, contains, insert, Std.HashMap.contains_insert, Bool.or_eq_true,
      beq_iff_eq, List.map_cons, List.mem_cons, or_comm (a := p.id = id), or_assoc,
      eq_comm (a := p.id)]
    rfl

/-- A platform that clashes has the id of a registered one or of one before it in the list. -/
theorem cases_of_firstDuplicate? {before : List String}
    (h : r.firstDuplicate? before platforms = some p) :
    p.id ∈ before ∨ r.contains p.id = true ∨ (platforms.map Platform.id).Duplicate p.id := by
  induction platforms generalizing before with
  | nil => cases h
  | cons q rest ih =>
    unfold firstDuplicate? at h
    split at h
    · rename_i hclash
      cases h
      exact hclash.imp_right .inl
    · rcases ih h with hbefore | hcontains | hduplicate
      · rcases List.mem_cons.1 hbefore with hid | hearlier
        · have hlater : p.id ∈ rest.map Platform.id :=
            List.mem_map_of_mem (mem_of_firstDuplicate? h)
          rw [List.map_cons, ← hid]
          exact .inr (.inr hlater.duplicate_cons_self)
        · exact .inl hearlier
      · exact .inr (.inl hcontains)
      · exact .inr (.inr (hduplicate.duplicate_cons _))

end Registry

/-! ## Manifests -/

namespace Manifest

variable {manifests : List Manifest} {m : Manifest} {id : String}

/-- The platforms of manifests, in their order. -/
def platformsOf (manifests : List Manifest) : List Platform := manifests.flatMap (·.platforms)

/-- The ids of these platforms. -/
def idsOf (manifests : List Manifest) : List String := (platformsOf manifests).map Platform.id

theorem platformsOf_snoc (manifests : List Manifest) (m : Manifest) :
    platformsOf (manifests ++ [m]) = platformsOf manifests ++ m.platforms := by
  simp [platformsOf]

theorem idsOf_snoc (manifests : List Manifest) (m : Manifest) :
    idsOf (manifests ++ [m]) = idsOf manifests ++ m.platforms.map Platform.id := by
  rw [idsOf, platformsOf_snoc, List.map_append]
  rfl

theorem mem_idsOf : id ∈ idsOf manifests ↔ ∃ m ∈ manifests, id ∈ m.platforms.map Platform.id := by
  simp only [idsOf, platformsOf, List.map_flatMap, List.mem_flatMap]

/-- The registry that holds the platforms of manifests and no others. -/
def registryOf (manifests : List Manifest) : Registry :=
  (platformsOf manifests).foldl Registry.insert .empty

theorem platforms_registryOf (manifests : List Manifest) :
    (registryOf manifests).platforms = (platformsOf manifests).map Platform.makeImmutable :=
  Registry.platforms_foldl_insert .empty (platformsOf manifests)

theorem contains_registryOf : (registryOf manifests).contains id = true ↔ id ∈ idsOf manifests := by
  rw [registryOf, Registry.contains_foldl_insert, or_iff_right]
  · rfl
  · simp [Registry.contains, Registry.empty]

/-- Platforms enter the registry of manifests if their ids are new and different. -/
theorem addAll_registryOf (h : (idsOf (manifests ++ [m])).Nodup) :
    (registryOf manifests).addAll m.platforms = .ok (registryOf (manifests ++ [m])) := by
  rw [idsOf_snoc, List.nodup_append] at h
  obtain ⟨-, hown, hnew⟩ := h
  have hfirst : (registryOf manifests).firstDuplicate? [] m.platforms = none := by
    rw [Registry.firstDuplicate?_eq_none_iff]
    refine ⟨fun p hp => ⟨List.not_mem_nil, ?_⟩, hown⟩
    rw [contains_registryOf]
    exact fun hearlier => hnew _ hearlier _ (List.mem_map_of_mem hp) rfl
  rw [Registry.addAll, hfirst, registryOf, registryOf, platformsOf_snoc, List.foldl_append]

/-- Else one of them has an id that is repeated. -/
theorem addAll_registryOf_of_not_nodup (hdistinct : (idsOf manifests).Nodup)
    (h : ¬(idsOf (manifests ++ [m])).Nodup) :
    ∃ p ∈ m.platforms,
      (p.id ∈ idsOf manifests ∨ (m.platforms.map Platform.id).Duplicate p.id) ∧
        (registryOf manifests).addAll m.platforms = .error (.duplicatePlatformId p.id p.file) := by
  cases hfirst : (registryOf manifests).firstDuplicate? [] m.platforms with
  | none =>
    obtain ⟨hnew, hown⟩ := (Registry.firstDuplicate?_eq_none_iff [] m.platforms).1 hfirst
    refine absurd ?_ h
    rw [idsOf_snoc, List.nodup_append]
    refine ⟨hdistinct, hown, fun id hearlier id' hlater hid => ?_⟩
    obtain ⟨p, hp, rfl⟩ := List.mem_map.1 hlater
    exact (hnew p hp).2 (contains_registryOf.2 (hid ▸ hearlier))
  | some p =>
    refine ⟨p, Registry.mem_of_firstDuplicate? hfirst, ?_, ?_⟩
    · rw [← contains_registryOf]
      exact (Registry.cases_of_firstDuplicate? hfirst).resolve_left List.not_mem_nil
    · rw [Registry.addAll, hfirst]

end Manifest

/-! ## Registration -/

namespace Host

variable {tree : FileTree} {front back folders : List Path} {folder : Path} {r : Registry}
  {manifests : List Manifest} {journal journal' : Journal} {e : ExtensionError}

/-- The platforms with those of the manifest in a folder. -/
def registerFolder (tree : FileTree) (platforms : Registry) (folder : Path) :
    Logged ExtensionError Registry := do
  let manifest ← Manifest.loadFolder tree folder
  return (← platforms.register manifest.platforms).1

theorem registerFolders_eq (tree : FileTree) (folders : List Path) :
    registerFolders tree folders = folders.foldlM (registerFolder tree) Registry.empty := rfl

theorem registerFolders_snoc (tree : FileTree) (front : List Path) (folder : Path) :
    registerFolders tree (front ++ [folder]) =
      registerFolders tree front >>= fun platforms => registerFolder tree platforms folder := by
  simp only [registerFolders_eq, List.foldlM_append, List.foldlM_cons, List.foldlM_nil, bind_pure]

theorem run_registerFolder {m : Manifest}
    (h : (Manifest.loadFolder tree folder).run.run journal = (.ok m, journal')) (r : Registry) :
    ∃ reported, reported.generated = journal'.generated ∧
      (registerFolder tree r folder).run.run journal = (r.addAll m.platforms, reported) := by
  obtain ⟨reported, hgenerated, hrun⟩ := r.run_register m.platforms journal'
  refine ⟨reported, hgenerated, ?_⟩
  rw [registerFolder, run_bind_of_ok h]
  cases hadded : r.addAll m.platforms with
  | ok r' =>
    rw [hadded] at hrun
    rw [run_bind_of_ok hrun]
    rfl
  | error e =>
    rw [hadded] at hrun
    exact run_bind_of_error hrun

/-- The manifests of folders, read one after another. -/
def loadFolders (tree : FileTree) (folders : List Path) : Logged ExtensionError (List Manifest) :=
  folders.mapM (Manifest.loadFolder tree)

/-- The manifests of folders can be read one after another, and no id stands in them twice. -/
structure Registrable (tree : FileTree) (folders : List Path) (journal : Journal)
    (manifests : List Manifest) : Prop where
  loaded : ((loadFolders tree folders).run.run journal).1 = .ok manifests
  distinct : (Manifest.idsOf manifests).Nodup

/-- The manifest of a folder cannot be read behind those of others, or one of its platforms has an
id that stands in them or stands in it twice. -/
def RefusedBehind (tree : FileTree) (front : List Path) (folder : Path) (journal : Journal)
    (e : ExtensionError) : Prop :=
  ((loadFolders tree (front ++ [folder])).run.run journal).1 = .error e ∨
  ∃ manifests m,
    ((loadFolders tree (front ++ [folder])).run.run journal).1 = .ok (manifests ++ [m]) ∧
    ∃ p ∈ m.platforms, e = .duplicatePlatformId p.id p.file ∧
      (p.id ∈ Manifest.idsOf manifests ∨ (m.platforms.map Platform.id).Duplicate p.id)

/-- Either all folders are registered, and then the registry has the sealed platforms of their
manifests in order, or those up to the first that is refused are, and registration fails there. -/
inductive Registration (tree : FileTree) (folders : List Path) (journal : Journal) :
    Except ExtensionError Registry → Prop
  | all (manifests : List Manifest) (registry : Registry)
      (registrable : Registrable tree folders journal manifests)
      (platforms : registry.platforms =
        (Manifest.platformsOf manifests).map Platform.makeImmutable) :
    Registration tree folders journal (.ok registry)
  | upTo (front : List Path) (folder : Path) (back : List Path) (manifests : List Manifest)
      (e : ExtensionError) (split : folders = front ++ folder :: back)
      (registrable : Registrable tree front journal manifests)
      (refused : RefusedBehind tree front folder journal e) :
    Registration tree folders journal (.error e)

theorem loadFolders_snoc (tree : FileTree) (front : List Path) (folder : Path) :
    loadFolders tree (front ++ [folder]) = loadFolders tree front >>= fun manifests =>
      Manifest.loadFolder tree folder >>= fun m => pure (manifests ++ [m]) := by
  simp only [loadFolders, List.mapM_append, List.mapM_cons, List.mapM_nil, bind_assoc, pure_bind]

/-- The manifests of folders have been read and their platforms have been registered alike, and both
have generated as many ids. -/
structure InStep (tree : FileTree) (folders : List Path) (journal : Journal)
    (manifests : List Manifest) (read registered : Journal) : Prop where
  distinct : (Manifest.idsOf manifests).Nodup
  loads : (loadFolders tree folders).run.run journal = (.ok manifests, read)
  registers : (registerFolders tree folders).run.run journal =
    (.ok (Manifest.registryOf manifests), registered)
  generated : registered.generated = read.generated

theorem InStep.registrable {read registered : Journal}
    (h : InStep tree folders journal manifests read registered) :
    Registrable tree folders journal manifests where
  loaded := by rw [h.loads]
  distinct := h.distinct

/-- One more folder is registered if its manifest can be read and repeats no id, and refused
otherwise. -/
theorem InStep.snoc {read registered : Journal}
    (h : InStep tree front journal manifests read registered) (folder : Path) :
    (∃ m read' registered',
      InStep tree (front ++ [folder]) journal (manifests ++ [m]) read' registered') ∨
    ∃ e registered', RefusedBehind tree front folder journal e ∧
      (registerFolders tree (front ++ [folder])).run.run journal = (.error e, registered') := by
  rw [registerFolders_snoc, run_bind_of_ok h.registers]
  cases hload : (Manifest.loadFolder tree folder).run.run read with
  | mk result read' =>
    obtain ⟨registered', hgenerated, hload'⟩ :=
      (Manifest.appends_loadFolder tree folder).exists_run_eq hload h.generated
    cases result with
    | error e =>
      right
      refine ⟨e, registered', .inl ?_, ?_⟩
      · rw [loadFolders_snoc, run_bind_of_ok h.loads, run_bind_of_error hload]
      · rw [registerFolder, run_bind_of_error hload']
    | ok m =>
      have hloads : (loadFolders tree (front ++ [folder])).run.run journal =
          (.ok (manifests ++ [m]), read') := by
        rw [loadFolders_snoc, run_bind_of_ok h.loads, run_bind_of_ok hload]
        rfl
      obtain ⟨reported, hgenerated', hrun⟩ :=
        run_registerFolder hload' (Manifest.registryOf manifests)
      by_cases hdistinct : (Manifest.idsOf (manifests ++ [m])).Nodup
      · left
        rw [Manifest.addAll_registryOf hdistinct] at hrun
        refine ⟨m, read', reported, hdistinct, hloads, ?_, hgenerated'.trans hgenerated⟩
        rw [registerFolders_snoc, run_bind_of_ok h.registers, hrun]
      · right
        obtain ⟨p, hp, hrepeated, hadded⟩ :=
          Manifest.addAll_registryOf_of_not_nodup h.distinct hdistinct
        rw [hadded] at hrun
        exact ⟨_, reported, .inr ⟨manifests, m, by rw [hloads], p, hp, rfl, hrepeated⟩, hrun⟩

/-- Registering folders goes in step with reading their manifests, until one is refused. -/
theorem inStep_or_refused (tree : FileTree) (folders : List Path) (journal : Journal) :
    (∃ manifests read registered, InStep tree folders journal manifests read registered) ∨
    ∃ front folder back manifests e registered, folders = front ++ folder :: back ∧
      Registrable tree front journal manifests ∧ RefusedBehind tree front folder journal e ∧
        (registerFolders tree folders).run.run journal = (.error e, registered) := by
  induction folders using List.reverseRecOn with
  | nil => exact .inl ⟨[], journal, journal, .nil, rfl, rfl, rfl⟩
  | append_singleton front folder ih =>
    rcases ih with ⟨manifests, read, registered, h⟩ |
      ⟨front', folder', back, manifests, e, registered, rfl, hfront, hrefused, hrun⟩
    · rcases h.snoc folder with ⟨m, read', registered', h'⟩ | ⟨e, registered', hrefused, hrun⟩
      · exact .inl ⟨manifests ++ [m], read', registered', h'⟩
      · exact .inr ⟨front, folder, [], manifests, e, registered', rfl, h.registrable, hrefused,
          hrun⟩
    · right
      refine ⟨front', folder', back ++ [folder], manifests, e, registered, by simp, hfront,
        hrefused, ?_⟩
      rw [registerFolders_snoc, run_bind_of_error hrun]

theorem registration_registerFolders (tree : FileTree) (folders : List Path) (journal : Journal) :
    Registration tree folders journal ((registerFolders tree folders).run.run journal).1 := by
  rcases inStep_or_refused tree folders journal with ⟨manifests, read, registered, h⟩ |
    ⟨front, folder, back, manifests, e, registered, hsplit, hfront, hrefused, hrun⟩
  · rw [h.registers]
    exact .all manifests _ h.registrable (Manifest.platforms_registryOf manifests)
  · rw [hrun]
    exact .upTo front folder back manifests e hsplit hfront hrefused

/-! ## Hosts -/

variable {c : HostConfiguration}

/-- A host is built by registering folders: it has the registry that they give, and if one of them
is refused, no host is built. -/
structure BuildsFrom (tree : FileTree) (folders : List Path) (journal : Journal)
    (result : Except HostError Host) : Prop where
  registration : Registration tree folders journal
    ((registerFolders tree folders).run.run journal).1
  platforms : ∀ host, result = .ok host →
    ((registerFolders tree folders).run.run journal).1 = .ok host.platforms
  refusal : ∀ e, ((registerFolders tree folders).run.run journal).1 = .error e →
    result = .error (.extension e)

theorem run_build_of_error (h : ((loadPlatforms tree c).run.run journal).1 = .error e) :
    ((build tree c).run.run journal).1 = .error (.extension e) := by
  obtain ⟨journal', hplatforms⟩ := exists_run_eq_iff.2 h
  rw [build, run_bind_of_error (run_mapError_of_error hplatforms HostError.extension)]

theorem platforms_of_run_build {host : Host}
    (h : (build tree c).run.run journal = (.ok host, journal')) :
    ((loadPlatforms tree c).run.run journal).1 = .ok host.platforms := by
  obtain ⟨platforms, between, hplatforms, h⟩ := of_run_bind_eq_ok h
  rw [run_mapError] at hplatforms
  rw [mapError_eq_ok_iff.1 (Prod.mk.inj hplatforms).1]
  obtain ⟨models, between, -, h⟩ := of_run_bind_eq_ok h
  obtain ⟨loaded, between, -, h⟩ := of_run_bind_eq_ok h
  obtain ⟨made, between, -, h⟩ := of_run_bind_eq_ok h
  dsimp only at h
  split at h <;>
  · obtain ⟨search, between, -, h⟩ := of_run_bind_eq_ok h
    cases h
    rfl

theorem buildsFrom (h : (extensionFolders tree c).run.run journal = (.ok folders, journal')) :
    BuildsFrom tree folders journal' ((build tree c).run.run journal).1 where
  registration := registration_registerFolders tree folders journal'
  platforms host hhost := by
    obtain ⟨last, hrun⟩ := exists_run_eq_iff.2 hhost
    obtain ⟨between, hplatforms⟩ := exists_run_eq_iff.2 (platforms_of_run_build hrun)
    rw [loadPlatforms, run_bind_of_ok h] at hplatforms
    obtain ⟨platforms, registered, hregister, hplatforms⟩ := of_run_bind_eq_ok hplatforms
    rw [hregister]
    dsimp only at hplatforms
    split at hplatforms
    · obtain ⟨-, checked, -, hplatforms⟩ := of_run_bind_eq_ok hplatforms
      cases hplatforms
      rfl
    · cases hplatforms
      rfl
  refusal e he := by
    obtain ⟨registered, hregister⟩ := exists_run_eq_iff.2 he
    apply run_build_of_error
    rw [loadPlatforms, run_bind_of_ok h, run_bind_of_error hregister]

end Host

end ExecutorHost
