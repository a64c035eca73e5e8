import ExecutorHost.Proofs.Extension.Manifest

/-!
# Unknown members of manifests

The format gives members to a manifest, to its platforms, and to their folders and dependencies; a
document may have others at each of these levels. When a manifest is read and written again, every
member of the format survives, and a configuration survives as a whole. The other members do not
survive: nothing that is made from a document keeps them but a configuration.
-/

namespace ExecutorHost

/-! ## Members that survive -/

namespace Members

variable {known : List String} {before after : Members} {key : String}

/-- The value of a key is unchanged if there is one. -/
def Keeps (before after : Members) (key : String) : Prop :=
  ∀ value, get? before key = some value → get? after key = some value

/-- Null may be dropped, every other value of a key is unchanged. -/
def KeepsOptional (before after : Members) (key : String) : Prop :=
  Absent before key ∨ Keeps before after key

/-- All keys are known. -/
def Within (members : Members) (known : List String) : Prop := ∀ key ∈ keys members, key ∈ known

/-- The values of all other keys are unchanged. -/
def KeepsUnknown (before after : Members) (known : List String) : Prop :=
  ∀ key, key ∉ known → Keeps before after key

/-- Where only known keys are written, other members survive only if there are none. -/
theorem keepsUnknown_iff (hafter : Within after known) :
    KeepsUnknown before after known ↔ Within before known := by
  constructor
  · intro hkeeps key hkey
    by_contra hunknown
    obtain ⟨value, hvalue⟩ := mem_keys_iff.1 hkey
    exact hunknown (hafter key (mem_keys_iff.2 ⟨value, hkeeps key hunknown value hvalue⟩))
  · intro hwithin key hunknown value hvalue
    exact absurd (hwithin key (mem_keys_iff.2 ⟨value, hvalue⟩)) hunknown

/-- A text that must be there is kept if it is written. -/
theorem keeps_of_string {text : String} (h : string before key = .ok text)
    (hwritten : get? after key = some (.string text)) : Keeps before after key := by
  obtain ⟨d, hd, htext⟩ := exists_of_required h
  intro value hvalue
  cases hd.symm.trans hvalue
  rw [hwritten, Document.eq_string_of_string? d htext]

/-- A text that may be left out is kept if it is written where it is there. -/
theorem keepsOptional_of_string? {text : Option String} (h : string? before key = .ok text)
    (hwritten : ∀ s ∈ text, get? after key = some (.string s)) :
    KeepsOptional before after key := by
  rcases cases_of_optional h with ⟨-, habsent⟩ | ⟨d, s, hd, hs, rfl⟩
  · exact .inl habsent
  · right
    intro value hvalue
    cases hd.symm.trans hvalue
    rw [hwritten s rfl, Document.eq_string_of_string? d hs]

theorem get?_of_map {text : Option String} (h : get? after key = text.map .string) :
    ∀ s ∈ text, get? after key = some (.string s) := by
  rintro s rfl
  exact h

theorem objects_inj {a b : List Members}
    (h : some (Document.array (a.map .object)) = some (.array (b.map .object))) : a = b := by
  have hinjective : Function.Injective Document.object := fun x y hxy => by
    cases hxy
    rfl
  exact List.map_injective_iff.2 hinjective (Document.array.inj (Option.some.inj h))

end Members

/-- If each item survives unless it has something unknown, so do all of them. -/
theorem forall₂_iff_of_items {α β : Type} {whole known : α → β → Prop} {plain : α → Prop}
    {items : List α} {results : List β}
    (h : ∀ b ∈ results, ∀ a, whole a b ↔ known a b ∧ plain a) :
    List.Forall₂ whole items results ↔
      List.Forall₂ known items results ∧ ∀ a ∈ items, plain a := by
  induction results generalizing items with
  | nil =>
    cases items with
    | nil => simp
    | cons a rest => simp
  | cons b others ih =>
    obtain ⟨hfirst, hothers⟩ := List.forall_mem_cons.1 h
    cases items with
    | nil => simp
    | cons a rest =>
      rw [List.forall₂_cons, List.forall₂_cons, List.forall_mem_cons, hfirst a, ih hothers]
      tauto

/-! ## Dependencies -/

namespace Dependency

/-- The members that the format gives to a dependency. -/
def keys : List String := ["id", "name", "description"]

/-- What is left of the members of a dependency; those unknown to the format count if `all` is
set. -/
structure Survives (all : Bool) (before after : Members) : Prop where
  id : Members.Keeps before after "id"
  name : Members.KeepsOptional before after "name"
  description : Members.KeepsOptional before after "description"
  unknown : all = true → Members.KeepsUnknown before after keys

variable {before after : Members}

theorem within_toMembers (d : Dependency) : Members.Within d.toMembers keys := by
  have hwritten : d.toMembers = Members.present [("id", some (.string d.id)),
      ("name", d.name.map .string), ("description", d.description.map .string)] := by
    unfold toMembers
    cases d.name <;> cases d.description <;> rfl
  intro key hkey
  rw [hwritten] at hkey
  exact Members.mem_keys_of_mem_present hkey

theorem survives_iff (hafter : Members.Within after keys) :
    Survives true before after ↔ Survives false before after ∧ Members.Within before keys := by
  constructor
  · intro h
    exact ⟨⟨h.id, h.name, h.description, Bool.noConfusion⟩,
      (Members.keepsUnknown_iff hafter).1 (h.unknown rfl)⟩
  · rintro ⟨h, hwithin⟩
    exact ⟨h.id, h.name, h.description, fun _ => (Members.keepsUnknown_iff hafter).2 hwithin⟩

theorem survives_of_parse {d : Dependency} (h : parse before = .ok d) :
    Survives false before d.toMembers := by
  unfold parse at h
  obtain ⟨id, hid, h⟩ := exists_of_bind_eq_ok h
  obtain ⟨name, hname, h⟩ := exists_of_bind_eq_ok h
  obtain ⟨description, hdescription, h⟩ := exists_of_bind_eq_ok h
  cases h
  obtain ⟨hidWritten, hnameWritten, hdescriptionWritten⟩ :=
    get?_toMembers ⟨id, name, description, false⟩
  exact ⟨Members.keeps_of_string hid hidWritten,
    Members.keepsOptional_of_string? hname (Members.get?_of_map hnameWritten),
    Members.keepsOptional_of_string? hdescription (Members.get?_of_map hdescriptionWritten),
    Bool.noConfusion⟩

end Dependency

/-! ## Folders -/

namespace Folders

/-- The members that the format gives to folders. -/
def keys : List String := FolderKind.all.map FolderKind.name

/-- What is left of the members of folders. -/
structure Survives (all : Bool) (before after : Members) : Prop where
  names : ∀ kind : FolderKind, Members.KeepsOptional before after kind.name
  unknown : all = true → Members.KeepsUnknown before after keys

variable {before after : Members}

theorem within_toMembers (folders : Folders) : Members.Within folders.toMembers keys := by
  intro key hkey
  obtain ⟨⟨k, d⟩, hmem, rfl⟩ := List.mem_map.1 hkey
  obtain ⟨kind, hkind, hpair⟩ := List.mem_filterMap.1 hmem
  obtain ⟨name, -, hname⟩ := Option.map_eq_some_iff.1 hpair
  cases hname
  exact List.mem_map_of_mem hkind

theorem survives_iff (hafter : Members.Within after keys) :
    Survives true before after ↔ Survives false before after ∧ Members.Within before keys := by
  constructor
  · intro h
    exact ⟨⟨h.names, Bool.noConfusion⟩, (Members.keepsUnknown_iff hafter).1 (h.unknown rfl)⟩
  · rintro ⟨h, hwithin⟩
    exact ⟨h.names, fun _ => (Members.keepsUnknown_iff hafter).2 hwithin⟩

theorem survives_of_parse {working : Path} {root : Option Path} {folders : Folders}
    (h : parse working before root = .ok folders) : Survives false before folders.toMembers := by
  refine ⟨fun kind => ?_, Bool.noConfusion⟩
  apply Members.keepsOptional_of_string? _ (Members.get?_of_map (folders.get?_toMembers kind))
  have hname := parseName_of_parse h kind
  unfold parseName at hname
  split at hname
  · cases hname
  · cases hname
  · rename_i hread
    cases hname
    exact hread

end Folders

/-! ## Platforms -/

namespace Platform

/-- Tags of which repetitions are dropped. -/
structure Merged (tags merged : List String) : Prop where
  nodup : merged.Nodup
  sublist : merged.Sublist tags
  mem_iff : ∀ tag, tag ∈ merged ↔ tag ∈ tags

theorem merged_distinctTags (tags : List String) : Merged tags (distinctTags tags) := by
  have hfold : ∀ (rest seen : List String), (rest.foldl addTag seen).Sublist (seen ++ rest) ∧
      ∀ tag, tag ∈ rest.foldl addTag seen ↔ tag ∈ seen ++ rest := by
    intro rest
    induction rest with
    | nil =>
      intro seen
      rw [List.append_nil]
      exact ⟨.refl seen, fun tag => Iff.rfl⟩
    | cons tag rest ih =>
      intro seen
      obtain ⟨hsublist, hmem⟩ := ih (addTag seen tag)
      rw [List.foldl_cons]
      by_cases hseen : tag ∈ seen
      · rw [addTag, if_pos hseen] at hsublist hmem ⊢
        have htail : (seen ++ rest).Sublist (seen ++ tag :: rest) :=
          List.Sublist.append_left (List.sublist_cons_self tag rest) seen
        refine ⟨hsublist.trans htail, ?_⟩
        intro other
        rw [hmem]
        simp only [List.mem_append, List.mem_cons]
        constructor
        · tauto
        · rintro (h | rfl | h)
          · exact .inl h
          · exact .inl hseen
          · exact .inr h
      · rw [addTag, if_neg hseen, List.append_assoc] at hsublist hmem
        rw [addTag, if_neg hseen]
        exact ⟨hsublist, hmem⟩
  obtain ⟨hsublist, hmem⟩ := hfold tags []
  exact ⟨nodup_distinctTags tags, hsublist, hmem⟩

/-- The members that the format gives to a platform. -/
def keys : List String := ["id", "category", "name", "description", "tags", "technology",
  "language", "folders", "configuration", "dependencies"]

/-- What is left of the folders of a platform. -/
def FoldersSurvive (all : Bool) (before after : Members) : Prop :=
  Members.Absent before "folders" ∨
    ∃ inner written : Members, Members.get? before "folders" = some (.object inner) ∧
      Members.get? after "folders" = some (.object written) ∧ Folders.Survives all inner written

/-- What is left of the dependencies of a platform. -/
def DependenciesSurvive (all : Bool) (before after : Members) : Prop :=
  Members.Absent before "dependencies" ∨
    ∃ objects : List Members,
      Members.get? before "dependencies" = some (.array (objects.map .object)) ∧
        (objects = [] ∨ ∃ written : List Members,
          Members.get? after "dependencies" = some (.array (written.map .object)) ∧
            List.Forall₂ (Dependency.Survives all) objects written)

/-- What is left of the members of a platform. -/
structure Survives (all : Bool) (before after : Members) : Prop where
  texts : ∀ key ∈ ["id", "category", "name", "description", "language"],
    Members.KeepsOptional before after key
  tags : Members.Absent before "tags" ∨
    ∃ tags : List String, Members.get? before "tags" = some (.array (tags.map .string)) ∧
      (tags = [] ∨ ∃ merged : List String,
        Members.get? after "tags" = some (.array (merged.map .string)) ∧ Merged tags merged)
  technology : Members.Keeps before after "technology"
  folders : FoldersSurvive all before after
  configuration : Members.KeepsOptional before after "configuration"
  dependencies : DependenciesSurvive all before after
  unknown : all = true → Members.KeepsUnknown before after keys

/-- The folders of a platform have no members unknown to the format. -/
def PlainFolders (object : Members) : Prop :=
  ∀ inner, Members.get? object "folders" = some (.object inner) → Members.Within inner Folders.keys

/-- The dependencies of a platform have no members unknown to the format. -/
def PlainDependencies (object : Members) : Prop :=
  ∀ objects : List Members,
    Members.get? object "dependencies" = some (.array (objects.map .object)) →
      ∀ d ∈ objects, Members.Within d Dependency.keys

/-- A platform has no members unknown to the format but those inside its configuration. -/
structure Plain (object : Members) : Prop where
  members : Members.Within object keys
  folders : PlainFolders object
  dependencies : PlainDependencies object

variable {p : Platform} {before after : Members}

theorem get?_folders (p : Platform) :
    Members.get? p.toMembers "folders" = some (.object p.folders.toMembers) :=
  get?_toMembers (by simp [entries])

theorem get?_dependencies (p : Platform) :
    Members.get? p.toMembers "dependencies" =
      if p.dependencies.isEmpty then none
      else some (.array ((p.dependencies.map Dependency.toMembers).map .object)) := by
  rw [List.map_map]
  exact get?_toMembers (by simp [entries, Function.comp_def])

theorem plain_toMembers (p : Platform) : Plain p.toMembers where
  members := by
    intro key hkey
    have hpresent : key ∈ Members.keys (Members.present p.entries) := hkey
    exact Members.mem_keys_of_mem_present hpresent
  folders := by
    intro inner hinner
    cases p.get?_folders.symm.trans hinner
    exact p.folders.within_toMembers
  dependencies := by
    intro objects hobjects
    rw [get?_dependencies] at hobjects
    split at hobjects
    · cases hobjects
    · rw [← Members.objects_inj hobjects]
      intro d hd
      obtain ⟨dependency, -, rfl⟩ := List.mem_map.1 hd
      exact dependency.within_toMembers

theorem foldersSurvive_iff (hafter : PlainFolders after) :
    FoldersSurvive true before after ↔ FoldersSurvive false before after ∧ PlainFolders before := by
  constructor
  · rintro (habsent | ⟨inner, written, hinner, hwritten, h⟩)
    · refine ⟨.inl habsent, fun inner hinner => ?_⟩
      cases habsent _ hinner
    · obtain ⟨hknown, hwithin⟩ := (Folders.survives_iff (hafter written hwritten)).1 h
      refine ⟨.inr ⟨inner, written, hinner, hwritten, hknown⟩, fun other hother => ?_⟩
      cases hinner.symm.trans hother
      exact hwithin
  · rintro ⟨habsent | ⟨inner, written, hinner, hwritten, hknown⟩, hplain⟩
    · exact .inl habsent
    · exact .inr ⟨inner, written, hinner, hwritten,
        (Folders.survives_iff (hafter written hwritten)).2 ⟨hknown, hplain inner hinner⟩⟩

theorem dependenciesSurvive_iff (hafter : PlainDependencies after) :
    DependenciesSurvive true before after ↔
      DependenciesSurvive false before after ∧ PlainDependencies before := by
  have hitems : ∀ {objects written : List Members},
      Members.get? after "dependencies" = some (.array (written.map .object)) →
        (List.Forall₂ (Dependency.Survives true) objects written ↔
          List.Forall₂ (Dependency.Survives false) objects written ∧
            ∀ d ∈ objects, Members.Within d Dependency.keys) := by
    intro objects written hwritten
    exact forall₂_iff_of_items fun d hd _ => Dependency.survives_iff (hafter written hwritten d hd)
  constructor
  · rintro (habsent | ⟨objects, hobjects, h⟩)
    · refine ⟨.inl habsent, fun objects hobjects => ?_⟩
      cases habsent _ hobjects
    · have hplain : PlainDependencies before ↔
          ∀ d ∈ objects, Members.Within d Dependency.keys := by
        constructor
        · exact fun hplain => hplain objects hobjects
        · intro hall others hothers
          rw [← Members.objects_inj (hobjects.symm.trans hothers)]
          exact hall
      rw [hplain]
      rcases h with rfl | ⟨written, hwritten, h⟩
      · exact ⟨.inr ⟨[], hobjects, .inl rfl⟩, by simp⟩
      · obtain ⟨hknown, hwithin⟩ := (hitems hwritten).1 h
        exact ⟨.inr ⟨objects, hobjects, .inr ⟨written, hwritten, hknown⟩⟩, hwithin⟩
  · rintro ⟨habsent | ⟨objects, hobjects, h⟩, hplain⟩
    · exact .inl habsent
    · rcases h with rfl | ⟨written, hwritten, hknown⟩
      · exact .inr ⟨[], hobjects, .inl rfl⟩
      · exact .inr ⟨objects, hobjects, .inr ⟨written, hwritten,
          (hitems hwritten).2 ⟨hknown, hplain objects hobjects⟩⟩⟩

theorem survives_iff (hafter : Plain after) :
    Survives true before after ↔ Survives false before after ∧ Plain before := by
  have hfolders : FoldersSurvive true before after ↔ _ := foldersSurvive_iff hafter.folders
  have hdependencies : DependenciesSurvive true before after ↔ _ :=
    dependenciesSurvive_iff hafter.dependencies
  have hunknown : Members.KeepsUnknown before after keys ↔ _ :=
    Members.keepsUnknown_iff hafter.members
  constructor
  · intro h
    obtain ⟨hfolders, hplainFolders⟩ := hfolders.1 h.folders
    obtain ⟨hdependencies, hplainDependencies⟩ := hdependencies.1 h.dependencies
    exact ⟨{ h with
      folders := hfolders
      dependencies := hdependencies
      unknown := Bool.noConfusion }, hunknown.1 (h.unknown rfl), hplainFolders, hplainDependencies⟩
  · rintro ⟨h, hplain⟩
    exact { h with
      folders := hfolders.2 ⟨h.folders, hplain.folders⟩
      dependencies := hdependencies.2 ⟨h.dependencies, hplain.dependencies⟩
      unknown := fun _ => hunknown.2 hplain.members }

theorem foldersSurvive_of_parse {working : Path} {root : Option Path}
    (h : parseFolders working before root = .ok p.folders) :
    FoldersSurvive false before p.toMembers := by
  unfold parseFolders at h
  obtain ⟨declared, hdeclared, h⟩ := exists_of_bind_eq_ok h
  rcases Members.cases_of_optional (mapError_eq_ok_iff.1 hdeclared) with
    ⟨-, habsent⟩ | ⟨d, inner, hd, hinner, rfl⟩
  · exact .inl habsent
  · rw [Document.eq_object_of_members? d hinner] at hd
    exact .inr ⟨inner, _, hd, p.get?_folders, Folders.survives_of_parse h⟩

theorem dependenciesSurvive_of_parse (h : parseDependencies before = .ok p.dependencies) :
    DependenciesSurvive false before p.toMembers := by
  unfold parseDependencies at h
  obtain ⟨read, hread, h⟩ := exists_of_bind_eq_ok h
  rcases Members.cases_of_objects? hread with ⟨-, habsent⟩ | ⟨objects, hobjects, rfl⟩
  · exact .inl habsent
  · refine .inr ⟨objects, hobjects, ?_⟩
    have hparsed := forall₂_of_mapM_eq_ok h
    have hwritten := p.get?_dependencies
    cases hempty : p.dependencies with
    | nil =>
      rw [hempty] at hparsed
      cases hparsed
      exact .inl rfl
    | cons d rest =>
      right
      rw [hempty] at hparsed hwritten
      refine ⟨_, hwritten, ?_⟩
      rw [List.forall₂_map_right_iff]
      exact hparsed.imp fun _ _ => Dependency.survives_of_parse

theorem keepsOptional_configuration (h : parseConfiguration before = .ok p.configuration) :
    Members.KeepsOptional before p.toMembers "configuration" := by
  have hwritten : Members.get? p.toMembers "configuration" =
      some (.object p.configuration.toMembers) := get?_toMembers (by simp [entries])
  unfold parseConfiguration at h
  obtain ⟨source, hsource, h⟩ := exists_of_bind_eq_ok h
  rcases Members.cases_of_optional hsource with ⟨-, habsent⟩ | ⟨d, inner, hd, hinner, rfl⟩
  · exact .inl habsent
  · right
    intro value hvalue
    cases hd.symm.trans hvalue
    rw [hwritten, Document.eq_object_of_members? d hinner, Configuration.toMembers,
      Configuration.source_of_parse h]

theorem tags_of_strings? {tags : Option (List String)}
    (hread : Members.strings? before "tags" = .ok tags)
    (htags : p.tags = distinctTags (tags.getD [])) :
    Members.Absent before "tags" ∨
      ∃ tags : List String, Members.get? before "tags" = some (.array (tags.map .string)) ∧
        (tags = [] ∨ ∃ merged : List String,
          Members.get? p.toMembers "tags" = some (.array (merged.map .string)) ∧
            Merged tags merged) := by
  have hwritten : Members.get? p.toMembers "tags" =
      (if p.tags.isEmpty then none else some (.array (p.tags.map .string))) :=
    get?_toMembers (by simp [entries])
  rcases Members.cases_of_strings? hread with ⟨-, habsent⟩ | ⟨texts, hfound, rfl⟩
  · exact .inl habsent
  · have hmerged : Merged texts p.tags := htags ▸ merged_distinctTags texts
    refine .inr ⟨texts, hfound, ?_⟩
    by_cases hempty : p.tags = []
    · left
      apply List.eq_nil_iff_forall_not_mem.2
      intro tag htag
      rw [← hmerged.mem_iff, hempty] at htag
      exact List.not_mem_nil htag
    · right
      rw [if_neg (by simpa using hempty)] at hwritten
      exact ⟨p.tags, hwritten, hmerged⟩

theorem keeps_technology {technology : String} (h : parseTechnology before = .ok technology)
    (hsame : p.technology = technology) : Members.Keeps before p.toMembers "technology" := by
  unfold parseTechnology at h
  obtain ⟨read, hread, h⟩ := exists_of_bind_eq_ok h
  split at h
  · cases h
  · cases h
    apply Members.keeps_of_string (mapError_eq_ok_iff.1 hread)
    rw [← hsame]
    exact get?_toMembers (by simp [entries])

/-- Every member of the format survives in a platform that is read. -/
theorem survives_of_run_parse {working : Path} {file : Option Path} {n n' : Nat}
    (h : (parse working before file).run.run n = (.ok p, n')) :
    Survives false before p.toMembers := by
  obtain ⟨technology, made, hread, hmade, hfilled⟩ := of_run_parse h
  obtain ⟨-, -, rfl⟩ := of_run_new hmade
  obtain ⟨tags, htagsRead, htags⟩ := hfilled.tags
  refine ⟨?_, tags_of_strings? htagsRead htags, keeps_technology hread hfilled.technology,
    foldersSurvive_of_parse hfilled.folders, keepsOptional_configuration hfilled.configuration,
    dependenciesSurvive_of_parse hfilled.dependencies, Bool.noConfusion⟩
  intro key hkey
  simp only [List.mem_cons, List.not_mem_nil, or_false] at hkey
  rcases hkey with rfl | rfl | rfl | rfl | rfl
  · obtain ⟨id, hid, hsame⟩ := hfilled.id
    apply Members.keepsOptional_of_string? hid
    rintro s rfl
    rw [Option.getD_some] at hsame
    exact get?_toMembers (by simp [entries, hsame])
  · exact Members.keepsOptional_of_string? hfilled.category
      (Members.get?_of_map (get?_toMembers (by simp [entries])))
  · obtain ⟨name, hname, hsame⟩ := hfilled.name
    apply Members.keepsOptional_of_string? hname
    rintro s rfl
    rw [Option.getD_some] at hsame
    exact get?_toMembers (by simp [entries, hsame])
  · exact Members.keepsOptional_of_string? hfilled.description
      (Members.get?_of_map (get?_toMembers (by simp [entries])))
  · exact Members.keepsOptional_of_string? hfilled.language
      (Members.get?_of_map (get?_toMembers (by simp [entries])))

end Platform

/-! ## Manifests -/

namespace Manifest

/-- The members that the format gives to a manifest. -/
def keys : List String := ["app", "version", "platforms"]

/-- What is left of the members of a manifest. -/
structure Survives (all : Bool) (before after : Members) : Prop where
  app : Members.Keeps before after "app"
  version : Members.KeepsOptional before after "version"
  platforms : ∃ objects written : List Members,
    Members.get? before "platforms" = some (.array (objects.map .object)) ∧
      Members.get? after "platforms" = some (.array (written.map .object)) ∧
      List.Forall₂ (Platform.Survives all) objects written
  unknown : all = true → Members.KeepsUnknown before after keys

/-- A manifest has no members unknown to the format but those inside the configurations of its
platforms. -/
structure Plain (object : Members) : Prop where
  members : Members.Within object keys
  platforms : ∀ objects : List Members,
    Members.get? object "platforms" = some (.array (objects.map .object)) →
      ∀ p ∈ objects, Platform.Plain p

variable {before after : Members}

theorem survives_iff (hafter : Plain after) :
    Survives true before after ↔ Survives false before after ∧ Plain before := by
  have hunknown : Members.KeepsUnknown before after keys ↔ _ :=
    Members.keepsUnknown_iff hafter.members
  have hitems : ∀ {objects written : List Members},
      Members.get? after "platforms" = some (.array (written.map .object)) →
        (List.Forall₂ (Platform.Survives true) objects written ↔
          List.Forall₂ (Platform.Survives false) objects written ∧
            ∀ p ∈ objects, Platform.Plain p) := by
    intro objects written hwritten
    exact forall₂_iff_of_items fun p hp _ =>
      Platform.survives_iff (hafter.platforms written hwritten p hp)
  constructor
  · intro h
    obtain ⟨objects, written, hobjects, hwritten, hall⟩ := h.platforms
    obtain ⟨hknown, hplain⟩ := (hitems hwritten).1 hall
    refine ⟨{ h with
      platforms := ⟨objects, written, hobjects, hwritten, hknown⟩
      unknown := Bool.noConfusion }, hunknown.1 (h.unknown rfl), ?_⟩
    intro others hothers
    rw [← Members.objects_inj (hobjects.symm.trans hothers)]
    exact hplain
  · rintro ⟨h, hplain⟩
    obtain ⟨objects, written, hobjects, hwritten, hknown⟩ := h.platforms
    exact { h with
      platforms := ⟨objects, written, hobjects, hwritten,
        (hitems hwritten).2 ⟨hknown, hplain.platforms objects hobjects⟩⟩
      unknown := fun _ => hunknown.2 hplain.members }

/-- The members of a written manifest. -/
def toMembers (m : Manifest) : Members := m.toDocument.membersOrEmpty

theorem get?_platforms (m : Manifest) :
    Members.get? m.toMembers "platforms" =
      some (.array ((m.platforms.map Platform.toMembers).map .object)) := by
  rw [List.map_map]
  rfl

theorem plain_toMembers (m : Manifest) : Plain m.toMembers where
  members := by
    intro key hkey
    exact hkey
  platforms := by
    intro objects hobjects
    rw [← Members.objects_inj (m.get?_platforms.symm.trans hobjects)]
    intro p hp
    obtain ⟨platform, -, rfl⟩ := List.mem_map.1 hp
    exact platform.plain_toMembers

theorem keeps_app {m : Manifest} (h : isMarked before = true) :
    Members.Keeps before m.toMembers "app" := by
  have happ : (Members.get? before "app").bind Document.string? = some manifestApp := by
    simpa [isMarked] using h
  obtain ⟨d, hd, htext⟩ := Option.bind_eq_some_iff.1 happ
  intro value hvalue
  cases hd.symm.trans hvalue
  rw [Document.eq_string_of_string? d htext]
  rfl

/-- Every member of the format survives in a manifest that is read. -/
theorem survives_of_run_parse {working : Path} {d : Document} {file : Option Path} {m : Manifest}
    {n n' : Nat} (h : (parse working d file).run.run n = (.ok m, n')) :
    ∃ object, d = .object object ∧ Survives false object m.toMembers := by
  obtain ⟨objects, hframe, hplatforms⟩ := of_run_parse h
  obtain ⟨object, version, rfl, hmarked, hversion, hread, hfound⟩ := of_parseFrame hframe
  refine ⟨object, rfl, keeps_app hmarked, ?_, ?_, Bool.noConfusion⟩
  · apply Members.keepsOptional_of_string? hversion
    rintro s rfl
    rw [Option.getD_some] at hread
    rw [← hread]
    rfl
  · refine ⟨objects, _, hfound, m.get?_platforms, ?_⟩
    rw [List.forall₂_map_right_iff]
    apply (Stateful.forall₂_of_run_mapM_eq_ok hplatforms).imp
    rintro platformObject p ⟨before, after, hrun⟩
    exact Platform.survives_of_run_parse hrun

/-- Whatever manifest is read, its members of the format survive when it is written again, and so do
all members of its configurations. Other members are never written, so all members survive if and
only if there are no others. -/
theorem survives_iff_plain {working : Path} {d : Document} {file : Option Path} {m : Manifest}
    {n n' : Nat} (h : (parse working d file).run.run n = (.ok m, n')) :
    ∃ object written, d = .object object ∧ m.toDocument = .object written ∧
      Survives false object written ∧ Plain written ∧
      (Survives true object written ↔ Plain object) := by
  obtain ⟨object, rfl, hknown⟩ := survives_of_run_parse h
  have hplain := m.plain_toMembers
  have hiff : Survives true object m.toMembers ↔ _ := survives_iff hplain
  exact ⟨object, m.toMembers, rfl, rfl, hknown, hplain, fun hall => (hiff.1 hall).2,
    fun hobject => hiff.2 ⟨hknown, hobject⟩⟩

/-- A manifest with members at every level that the format does not know. -/
def extended : Members := [
  ("app", .string "executors-extension"),
  ("vendor", .string "acme"),
  ("platforms", .array [.object [
    ("id", .string "p"),
    ("technology", .string "python"),
    ("license", .null),
    ("tags", .array [.string "a", .string "b", .string "a"]),
    ("folders", .object [("models", .string "m"), ("cache", .string "c")]),
    ("configuration", .object [("classpath", .array []), ("seed", .bool true)]),
    ("dependencies", .array [.object [("id", .string "q"), ("since", .string "2")]])]])]

/-- What is read of it. -/
def extendedRead : Manifest where
  version := "1.0"
  platforms := [{
    id := "p"
    name := "Unnamed"
    tags := ["a", "b"]
    technology := "python"
    builtIn := false
    folders := { models := some "m" }
    configuration := ⟨[("classpath", .array []), ("seed", .bool true)], [], false, none⟩
    dependencies := [{ id := "q" }] }]

theorem run_parse_extended :
    (parse ⟨"/w"⟩ (.object extended) none).run.run 0 = (.ok extendedRead, 1) := rfl

theorem survives_iff_plain_extended :
    (parse ⟨"/w"⟩ (.object extended) none).run.run 0 = (.ok extendedRead, 1) ∧
      ∃ object written, Document.object extended = .object object ∧
        extendedRead.toDocument = .object written ∧
        Survives false object written ∧ Plain written ∧
        (Survives true object written ↔ Plain object) :=
  ⟨run_parse_extended, survives_iff_plain run_parse_extended⟩

theorem extended_loses_members :
    (parse ⟨"/w"⟩ (.object extended) none).run.run 0 = (.ok extendedRead, 1) ∧
      extendedRead.toDocument = .object extendedRead.toMembers ∧
      ¬Survives true extended extendedRead.toMembers := by
  refine ⟨run_parse_extended, rfl, fun h => ?_⟩
  obtain ⟨-, hplain⟩ := (survives_iff extendedRead.plain_toMembers).1 h
  have hvendor : "vendor" ∈ keys := hplain.members "vendor" (by decide)
  exact absurd hvendor (by decide)

end Manifest

end ExecutorHost
