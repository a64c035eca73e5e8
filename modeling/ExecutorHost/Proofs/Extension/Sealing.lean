import ExecutorHost.Proofs.Extension.Manifest

/-!
# Sealed platforms

Here the setters of a platform, of its folders and of its dependencies write in place, one member
after another, and what they have written stays past an error. Run in this way they still give what
the changes of whole values give, because each of them looks for a seal and at its argument first
and writes after that: a call that fails has written nothing. A sealed platform refuses every setter,
so it stays what it is whatever calls there are, and it answers all questions as it did unsealed.
-/

namespace ExecutorHost

/-! ## Writing in place -/

/-- A computation that changes something in place and may fail; what it has written until then
stays. -/
abbrev InPlace (σ : Type) := ExceptT ExtensionError (StateM σ)

namespace InPlace

variable {σ α : Type}

/-- Fails if something is sealed. -/
def refuseSealed (isSealed : σ → Bool) (what : Sealable) : InPlace σ Unit := do
  if isSealed (← get) then throw (.immutableState what)

/-- A write that only a seal prevents. -/
def write (isSealed : σ → Bool) (what : Sealable) (f : σ → σ) : InPlace σ Unit := do
  refuseSealed isSealed what
  modify f

/-- A part of something changed in place. What has been written to the part stays in the whole, also
past an error. -/
def within (part : α) (put : σ → α → σ) (change : InPlace α Unit) : InPlace σ Unit := do
  let (result, changed) := change.run.run part
  modify (put · changed)
  MonadExcept.ofExcept result

/-- What a call leaves that has written the whole change or nothing. -/
def settle (s : σ) : Except ExtensionError σ → Except ExtensionError Unit × σ
  | .ok after => (.ok (), after)
  | .error e => (.error e, s)

variable {isSealed : σ → Bool} {what : Sealable} {s : σ}

theorem run_refuseSealed (isSealed : σ → Bool) (what : Sealable) (s : σ) :
    (refuseSealed isSealed what).run.run s =
      (if isSealed s then .error (.immutableState what) else .ok (), s) := by
  have hget : (get : InPlace σ σ).run.run s = (.ok s, s) := rfl
  unfold refuseSealed
  rw [Stateful.run_bind_of_ok hget]
  cases isSealed s <;> rfl

theorem run_refuseSealed_of_open (h : isSealed s = false) :
    (refuseSealed isSealed what).run.run s = (.ok (), s) := by
  rw [run_refuseSealed, h]
  rfl

theorem run_refuseSealed_of_sealed (h : isSealed s = true) :
    (refuseSealed isSealed what).run.run s = (.error (.immutableState what), s) := by
  rw [run_refuseSealed, h]
  rfl

theorem run_write (isSealed : σ → Bool) (what : Sealable) (f : σ → σ) (s : σ) :
    (write isSealed what f).run.run s =
      settle s (if isSealed s then .error (.immutableState what) else .ok (f s)) := by
  unfold write
  cases h : isSealed s with
  | false =>
    rw [Stateful.run_bind_of_ok (run_refuseSealed_of_open h)]
    rfl
  | true => exact Stateful.run_bind_of_error (run_refuseSealed_of_sealed h)

/-- A part that is written as a whole or not at all makes the same of what it belongs to. -/
theorem run_within {part : α} {put : σ → α → σ} {change : InPlace α Unit}
    {result : Except ExtensionError α} (hback : put s part = s)
    (h : change.run.run part = settle part result) :
    (within part put change).run.run s = settle s (result.map (put s)) := by
  unfold within
  rw [h]
  cases result with
  | ok after => rfl
  | error e =>
    show (Except.error e, put s part) = (Except.error e, s)
    rw [hback]

end InPlace

/-! ## Dependencies -/

namespace Dependency

def write (f : Dependency → Dependency) : InPlace Dependency Unit :=
  InPlace.write (·.immutable) .dependency f

namespace Change

def perform : Change → InPlace Dependency Unit
  | .setId id => write fun d => { d with id }
  | .setName name => write fun d => { d with name }
  | .setDescription description => write fun d => { d with description }
  | .makeImmutable => modify Dependency.makeImmutable

def isSetter : Change → Bool
  | .makeImmutable => false
  | _ => true

end Change

variable {d : Dependency}

theorem run_perform (change : Change) (d : Dependency) :
    change.perform.run.run d = InPlace.settle d (change.apply d) := by
  cases change with
  | makeImmutable => rfl
  | setId _ | setName _ | setDescription _ => exact InPlace.run_write _ _ _ d

theorem apply_of_sealed (h : d.immutable = true) (change : Change) :
    change.apply d =
      if change.isSetter then .error (.immutableState .dependency) else .ok d := by
  cases change with
  | makeImmutable =>
    have hsame : d.makeImmutable = d := by
      unfold makeImmutable
      rw [← h]
    exact congrArg Except.ok hsame
  | setId _ | setName _ | setDescription _ => exact if_pos h

end Dependency

/-! ## Folders -/

namespace Folders

def refuseSealed : InPlace Folders Unit := InPlace.refuseSealed (·.immutable) .folders

/-- The name to be declared for a kind, which must not be empty. -/
def checkedName (kind : FolderKind) (name : String) : InPlace Folders String := do
  refuseSealed
  if name.isEmpty then throw (.emptyField kind.name)
  return name

namespace Change

def perform : Change → InPlace Folders Unit
  | .setRoot working root => InPlace.write (·.immutable) .folders fun folders =>
      { folders with root := root.map (absoluteRoot working) }
  | .setName kind name => do
    let name ← checkedName kind name
    modify (·.declare name kind)
  | .makeImmutable => modify Folders.makeImmutable

def isSetter : Change → Bool
  | .makeImmutable => false
  | _ => true

end Change

variable {folders : Folders}

theorem checkMutable_of_open (h : folders.immutable = false) : folders.checkMutable = .ok () := by
  rw [checkMutable, h]
  rfl

theorem checkMutable_of_sealed (h : folders.immutable = true) :
    folders.checkMutable = .error (.immutableState .folders) :=
  if_pos h

theorem run_perform (change : Change) (folders : Folders) :
    change.perform.run.run folders = InPlace.settle folders (change.apply folders) := by
  cases change with
  | makeImmutable => rfl
  | setRoot working root =>
    show (InPlace.write _ _ _).run.run folders =
      InPlace.settle folders (setRoot working folders root)
    rw [InPlace.run_write, setRoot]
    cases h : folders.immutable with
    | false =>
      rw [checkMutable_of_open h]
      rfl
    | true =>
      rw [checkMutable_of_sealed h]
      rfl
  | setName kind name =>
    show (checkedName kind name >>= fun name => modify (·.declare name kind)).run.run folders =
      InPlace.settle folders (setName folders kind name)
    rw [setName]
    cases h : folders.immutable with
    | true =>
      have hrefused : (checkedName kind name).run.run folders =
          (.error (.immutableState .folders), folders) :=
        Stateful.run_bind_of_error (InPlace.run_refuseSealed_of_sealed h)
      rw [Stateful.run_bind_of_error hrefused, checkMutable_of_sealed h]
      rfl
    | false =>
      have hopen : refuseSealed.run.run folders = (.ok (), folders) :=
        InPlace.run_refuseSealed_of_open h
      rw [checkMutable_of_open h]
      by_cases hempty : name.isEmpty = true
      · have hrefused : (checkedName kind name).run.run folders =
            (.error (.emptyField kind.name), folders) := by
          unfold checkedName
          rw [Stateful.run_bind_of_ok hopen, if_pos hempty]
          rfl
        rw [Stateful.run_bind_of_error hrefused, if_pos hempty]
        rfl
      · have hchecked : (checkedName kind name).run.run folders = (.ok name, folders) := by
          unfold checkedName
          rw [Stateful.run_bind_of_ok hopen, if_neg hempty]
          rfl
        rw [Stateful.run_bind_of_ok hchecked, if_neg hempty]
        rfl

theorem apply_of_sealed (h : folders.immutable = true) (change : Change) :
    change.apply folders =
      if change.isSetter then .error (.immutableState .folders) else .ok folders := by
  cases change with
  | makeImmutable =>
    have hsame : folders.makeImmutable = folders := by
      unfold makeImmutable
      rw [← h]
    exact congrArg Except.ok hsame
  | setRoot working root =>
    show setRoot working folders root = _
    rw [setRoot, checkMutable_of_sealed h]
    rfl
  | setName kind name =>
    show setName folders kind name = _
    rw [setName, checkMutable_of_sealed h]
    rfl

end Folders

/-! ## Platforms -/

namespace Platform

def write (f : Platform → Platform) : InPlace Platform Unit :=
  InPlace.write (·.immutable) .platform f

/-- Another technology written, and then the mark of one that is built in. -/
def writeTechnology (technology : String) : InPlace Platform Unit := do
  InPlace.refuseSealed (·.immutable) .platform
  if technology.isEmpty then throw (.emptyField "technology")
  modify fun p => { p with technology }
  modify fun p => { p with builtIn := isBuiltInTechnology technology }

/-- All tags taken away, and other ones added one by one. -/
def writeTags (tags : List String) : InPlace Platform Unit := do
  InPlace.refuseSealed (·.immutable) .platform
  modify fun p => { p with tags := [] }
  tags.forM fun tag => modify fun p => { p with tags := addTag p.tags tag }

/-- A change that has found what it is to change. -/
def reaching (change : InPlace Platform Unit) : InPlace Platform Bool := do
  change
  return true

def writeFolders (change : Folders.Change) : InPlace Platform Unit := do
  let p ← get
  InPlace.within p.folders (fun p folders => { p with folders }) change.perform

/-- The platform with another dependency at an index. -/
def withDependency (index : Nat) (p : Platform) (d : Dependency) : Platform :=
  { p with dependencies := p.dependencies.set index d }

/-- A dependency changed in place, if there is one at the index. -/
def writeDependency (index : Nat) (change : Dependency.Change) : InPlace Platform Bool := do
  let p ← get
  match p.dependencies[index]? with
  | none => return false
  | some d => reaching <| InPlace.within d (withDependency index) change.perform

namespace Change

/-- The change made in place; the answer is whether there was something to be changed. -/
def perform : Change → InPlace Platform Bool
  | .setId id => reaching <| write fun p => { p with id }
  | .setCategory category => reaching <| write fun p => { p with category }
  | .setName name => reaching <| write fun p => { p with name }
  | .setDescription description => reaching <| write fun p => { p with description }
  | .setTags tags => reaching <| writeTags tags
  | .setTechnology technology => reaching <| writeTechnology technology
  | .setLanguage language => reaching <| write fun p => { p with language }
  | .setFolders folders => reaching <| write fun p => { p with folders }
  | .setConfiguration configuration => reaching <| write fun p => { p with configuration }
  | .setDependencies dependencies => reaching <| write fun p => { p with dependencies }
  | .inFolders change => reaching <| writeFolders change
  | .inDependency index change => writeDependency index change
  | .makeImmutable => reaching <| modify Platform.makeImmutable

def isSetter : Change → Bool
  | .inFolders change => change.isSetter
  | .inDependency _ change => change.isSetter
  | .makeImmutable => false
  | _ => true

/-- What the change is of. -/
def what : Change → Sealable
  | .inFolders _ => .folders
  | .inDependency .. => .dependency
  | _ => .platform

/-- There is something to be changed. -/
def reaches (p : Platform) : Change → Bool
  | .inDependency index _ => decide (index < p.dependencies.length)
  | _ => true

/-- What a sealed platform answers. -/
def sealedAnswer (p : Platform) (change : Change) : Except ExtensionError Bool :=
  if !change.reaches p then .ok false
  else if change.isSetter then .error (.immutableState change.what)
  else .ok true

end Change

/-- What a call in place leaves, by the result of the change of the whole value. -/
def settle (p : Platform) : Option (Except ExtensionError Platform) →
    Except ExtensionError Bool × Platform
  | none => (.ok false, p)
  | some (.ok after) => (.ok true, after)
  | some (.error e) => (.error e, p)

/-- The platform after calls made one after another, successful and failing ones. -/
def after (p : Platform) (changes : List Change) : Platform :=
  changes.foldl (fun p change => (change.perform.run.run p).2) p

/-- The answers to calls made one after another. -/
def answers (p : Platform) : List Change → List (Except ExtensionError Bool)
  | [] => []
  | change :: rest => (change.perform.run.run p).1 :: (p.after [change]).answers rest

variable {p : Platform}

theorem checkMutable_of_open (h : p.immutable = false) : p.checkMutable = .ok () := by
  rw [checkMutable, h]
  rfl

theorem checkMutable_of_sealed (h : p.immutable = true) :
    p.checkMutable = .error (.immutableState .platform) :=
  if_pos h

theorem run_reaching {change : InPlace Platform Unit} {result : Except ExtensionError Platform}
    (h : change.run.run p = InPlace.settle p result) :
    (reaching change).run.run p = settle p (some result) := by
  unfold reaching
  cases result with
  | ok after =>
    rw [Stateful.run_bind_of_ok h]
    rfl
  | error e =>
    rw [Stateful.run_bind_of_error h]
    rfl

theorem run_write (f : Platform → Platform) (p : Platform) :
    (write f).run.run p = InPlace.settle p (p.change f) := by
  unfold write Platform.change
  rw [InPlace.run_write]
  cases h : p.immutable with
  | false =>
    rw [checkMutable_of_open h]
    rfl
  | true =>
    rw [checkMutable_of_sealed h]
    rfl

theorem run_addTags (tags : List String) (p : Platform) :
    (tags.forM fun tag => (modify fun p => { p with tags := addTag p.tags tag } :
      InPlace Platform Unit)).run.run p =
        (.ok (), { p with tags := tags.foldl addTag p.tags }) := by
  induction tags generalizing p with
  | nil => rfl
  | cons tag rest ih =>
    have hfirst : (modify fun p => { p with tags := addTag p.tags tag } :
        InPlace Platform Unit).run.run p = (.ok (), { p with tags := addTag p.tags tag }) := rfl
    rw [List.forM_eq_forM, List.forM_cons, Stateful.run_bind_of_ok hfirst]
    exact ih _

theorem run_writeTags (tags : List String) (p : Platform) :
    (writeTags tags).run.run p = InPlace.settle p (p.setTags tags) := by
  unfold writeTags setTags Platform.change
  cases h : p.immutable with
  | false =>
    have hcleared : (modify fun p => { p with tags := [] } : InPlace Platform Unit).run.run p =
        (.ok (), { p with tags := [] }) := rfl
    rw [Stateful.run_bind_of_ok (InPlace.run_refuseSealed_of_open h),
      Stateful.run_bind_of_ok hcleared, run_addTags, checkMutable_of_open h]
    rfl
  | true =>
    rw [Stateful.run_bind_of_error (InPlace.run_refuseSealed_of_sealed h),
      checkMutable_of_sealed h]
    rfl

theorem run_writeTechnology (technology : String) (p : Platform) :
    (writeTechnology technology).run.run p = InPlace.settle p (p.setTechnology technology) := by
  unfold writeTechnology setTechnology
  rcases Bool.eq_false_or_eq_true p.immutable with h | h
  · rw [Stateful.run_bind_of_error (InPlace.run_refuseSealed_of_sealed h),
      checkMutable_of_sealed h]
    rfl
  · rw [Stateful.run_bind_of_ok (InPlace.run_refuseSealed_of_open h), checkMutable_of_open h]
    by_cases hempty : technology.isEmpty = true
    · rw [if_pos hempty, if_pos hempty]
      rfl
    · rw [if_neg hempty, if_neg hempty]
      rfl

theorem run_writeFolders (change : Folders.Change) (p : Platform) :
    (writeFolders change).run.run p = InPlace.settle p (p.changeFolders change.apply) := by
  have hget : (get : InPlace Platform Platform).run.run p = (.ok p, p) := rfl
  have hmap : p.changeFolders change.apply =
      (change.apply p.folders).map fun folders => { p with folders } := by
    unfold changeFolders
    cases change.apply p.folders <;> rfl
  unfold writeFolders
  rw [Stateful.run_bind_of_ok hget, hmap]
  exact InPlace.run_within rfl (Folders.run_perform change p.folders)

theorem withDependency_of_getElem? {index : Nat} {d : Dependency}
    (h : p.dependencies[index]? = some d) : withDependency index p d = p := by
  obtain ⟨hlt, hd⟩ := List.getElem?_eq_some_iff.1 h
  have hset : p.dependencies.set index d = p.dependencies := by
    rw [← hd, List.set_getElem_self]
  rw [withDependency, hset]

theorem run_writeDependency (index : Nat) (change : Dependency.Change) (p : Platform) :
    (writeDependency index change).run.run p =
      settle p (p.changeDependency index change.apply) := by
  have hget : (get : InPlace Platform Platform).run.run p = (.ok p, p) := rfl
  unfold writeDependency changeDependency
  rw [Stateful.run_bind_of_ok hget]
  cases hfound : p.dependencies[index]? with
  | none => rfl
  | some d =>
    have hmap : (do return { p with dependencies := p.dependencies.set index (← change.apply d) } :
        Except ExtensionError Platform) = (change.apply d).map (withDependency index p) := by
      cases change.apply d <;> rfl
    rw [Option.map_some, hmap]
    have hback := withDependency_of_getElem? hfound
    exact run_reaching (InPlace.run_within hback (Dependency.run_perform change d))

/-- A call in place gives what the change of the whole value gives, and nothing is left of a call
that fails. -/
theorem run_perform (change : Change) (p : Platform) :
    change.perform.run.run p = settle p (change.apply p) := by
  cases change with
  | setId _ | setCategory _ | setName _ | setDescription _ | setLanguage _ | setFolders _
  | setConfiguration _ | setDependencies _ => exact run_reaching (run_write _ p)
  | setTags tags => exact run_reaching (run_writeTags tags p)
  | setTechnology technology => exact run_reaching (run_writeTechnology technology p)
  | inFolders change => exact run_reaching (run_writeFolders change p)
  | inDependency index change => exact run_writeDependency index change p
  | makeImmutable => rfl

theorem eq_of_run_perform_error {change : Change} {e : ExtensionError} {after : Platform}
    (h : change.perform.run.run p = (.error e, after)) : after = p := by
  rw [run_perform] at h
  cases happly : change.apply p with
  | none =>
    rw [happly] at h
    cases h
  | some result =>
    cases result with
    | ok q =>
      rw [happly] at h
      cases h
    | error e =>
      rw [happly] at h
      cases h
      rfl

/-! ## Sealed platforms -/

theorem makeImmutable_of_sealed (h : p.Sealed) : p.makeImmutable = p := by
  have hfolders : p.folders.makeImmutable = p.folders := by
    rw [Folders.makeImmutable, ← h.folders]
  have hdependency : ∀ d ∈ p.dependencies, d.makeImmutable = d := by
    intro d hd
    rw [Dependency.makeImmutable, ← h.dependencies d hd]
  have hdependencies : p.dependencies.map Dependency.makeImmutable = p.dependencies :=
    (List.map_congr_left hdependency).trans (List.map_id' _)
  rw [makeImmutable, hfolders, hdependencies, ← h.platform]

theorem change_of_sealed (h : p.immutable = true) (f : Platform → Platform) :
    p.change f = .error (.immutableState .platform) := by
  rw [change, checkMutable_of_sealed h]
  rfl

theorem setTechnology_of_sealed (h : p.immutable = true) (technology : String) :
    p.setTechnology technology = .error (.immutableState .platform) := by
  rw [setTechnology, checkMutable_of_sealed h]
  rfl

/-- A sealed platform is left as it is by every call, and refuses those of setters. -/
theorem Sealed.run_perform (h : p.Sealed) (change : Change) :
    change.perform.run.run p = (change.sealedAnswer p, p) := by
  rw [Platform.run_perform]
  cases change with
  | setId _ | setCategory _ | setName _ | setDescription _ | setTags _ | setLanguage _
  | setFolders _ | setConfiguration _ | setDependencies _ =>
    show settle p (some (p.change _)) = _
    rw [change_of_sealed h.platform]
    rfl
  | setTechnology technology =>
    show settle p (some (p.setTechnology technology)) = _
    rw [setTechnology_of_sealed h.platform]
    rfl
  | inFolders change =>
    show settle p (some (p.changeFolders change.apply)) =
      (if change.isSetter then .error (.immutableState .folders) else .ok true, p)
    rw [changeFolders, Folders.apply_of_sealed h.folders]
    cases change.isSetter <;> rfl
  | inDependency index change =>
    show settle p (p.changeDependency index change.apply) =
      (if !decide (index < p.dependencies.length) then .ok false
        else if change.isSetter then .error (.immutableState .dependency) else .ok true, p)
    unfold changeDependency
    cases hfound : p.dependencies[index]? with
    | none =>
      have hbeyond : p.dependencies.length ≤ index := List.getElem?_eq_none_iff.1 hfound
      have hreaches : decide (index < p.dependencies.length) = false := by
        simpa using hbeyond
      rw [hreaches]
      rfl
    | some d =>
      obtain ⟨hlt, hd⟩ := List.getElem?_eq_some_iff.1 hfound
      have hsealed := h.dependencies d (hd ▸ List.getElem_mem hlt)
      have hback : { p with dependencies := p.dependencies.set index d } = p :=
        withDependency_of_getElem? hfound
      rw [Option.map_some, Dependency.apply_of_sealed hsealed, decide_eq_true hlt]
      cases change.isSetter with
      | true => rfl
      | false =>
        show (Except.ok true, { p with dependencies := p.dependencies.set index d }) = _
        rw [hback]
        rfl
  | makeImmutable =>
    show settle p (some (.ok p.makeImmutable)) = _
    rw [makeImmutable_of_sealed h]
    rfl

theorem Sealed.after (h : p.Sealed) (changes : List Change) : p.after changes = p := by
  induction changes with
  | nil => rfl
  | cons change rest ih =>
    show ((change.perform.run.run p).2).after rest = p
    rw [h.run_perform change]
    exact ih

theorem Sealed.answers (h : p.Sealed) (changes : List Change) :
    p.answers changes = changes.map (Change.sealedAnswer p) := by
  induction changes with
  | nil => rfl
  | cons change rest ih =>
    rw [Platform.answers, h.after, h.run_perform change, ih]
    rfl

/-! ## Questions -/

/-- Two platforms are written alike and give the same answers about folders and resource paths. -/
structure AnswersLike (p q : Platform) : Prop where
  written : p.toMembers = q.toMembers
  hasModels : p.folders.hasModels = q.folders.hasModels
  resolve : ∀ name, p.folders.resolve name = q.folders.resolve name
  folder : ∀ kind, p.folders.folder kind = q.folders.folder kind
  folderIfDeclared : ∀ kind, p.folders.folderIfDeclared kind = q.folders.folderIfDeclared kind
  resourcePaths : p.resourcePaths = q.resourcePaths
  checkResourcePaths : ∀ tree, p.checkResourcePaths tree = q.checkResourcePaths tree

theorem sameContent_makeImmutable (p : Platform) : p.makeImmutable.SameContent p where
  id := rfl
  category := rfl
  name := rfl
  description := rfl
  tags := rfl
  technology := rfl
  builtIn := rfl
  language := rfl
  folders := Folders.declared_update p.folders _ _
  configuration := rfl
  dependencies := by
    rw [makeImmutable, List.map_map]
    rfl

theorem answersLike_makeImmutable (p : Platform) : p.makeImmutable.AnswersLike p where
  written := p.sameContent_makeImmutable.toMembers_eq
  hasModels := rfl
  resolve _ := rfl
  folder kind := by cases kind <;> rfl
  folderIfDeclared kind := by cases kind <;> rfl
  resourcePaths := rfl
  checkResourcePaths _ := rfl

/-! ## Results -/

/-- Whatever calls follow, a sealed platform stays as it is, with its folders and its dependencies,
and answers all questions as it did unsealed; every setter that finds something to change is told
that this is sealed. Sealed or not, a call that fails has changed nothing. The calls write in place,
and give what the changes of whole platforms give. -/
theorem sealed_platform_is_frozen :
    (∀ (p : Platform) (changes : List Change),
      p.makeImmutable.after changes = p.makeImmutable ∧
      p.makeImmutable.answers changes = changes.map (Change.sealedAnswer p.makeImmutable) ∧
      (p.makeImmutable.after changes).AnswersLike p) ∧
    (∀ (p : Platform) (change : Change) (e : ExtensionError) (after : Platform),
      change.perform.run.run p = (.error e, after) → after = p) ∧
    ∀ (p : Platform) (change : Change), change.perform.run.run p = settle p (change.apply p) := by
  refine ⟨?_, fun _ _ _ _ h => eq_of_run_perform_error h, fun p change => run_perform change p⟩
  intro p changes
  have hsealed := p.sealed_makeImmutable
  have hafter : p.makeImmutable.after changes = p.makeImmutable := hsealed.after changes
  refine ⟨hafter, hsealed.answers changes, ?_⟩
  rw [hafter]
  exact p.answersLike_makeImmutable

/-- A platform with a folder and a dependency. -/
def openSample : Platform where
  id := "p"
  name := "P"
  technology := "python"
  builtIn := false
  folders := { models := some "m" }
  dependencies := [{ id := "d" }]

theorem sealed_sample_is_frozen :
    let calls := [Change.setName "late", .setTechnology "", .inFolders (.setName .models ""),
      .inDependency 0 (.setId "e"), .inDependency 1 (.setId "e"), .makeImmutable]
    openSample.makeImmutable.after calls = openSample.makeImmutable ∧
      openSample.makeImmutable.answers calls =
        [.error (.immutableState .platform), .error (.immutableState .platform),
          .error (.immutableState .folders), .error (.immutableState .dependency), .ok false,
          .ok true] ∧
      ((Change.setTechnology "").perform.run.run openSample).1 =
        .error (.emptyField "technology") ∧
      ((Change.setTechnology "").perform.run.run openSample).2 = openSample := by
  intro calls
  obtain ⟨hafter, hanswers, -⟩ := sealed_platform_is_frozen.1 openSample calls
  have hfailed : (Change.setTechnology "").perform.run.run openSample =
      (.error (.emptyField "technology"),
        ((Change.setTechnology "").perform.run.run openSample).2) := rfl
  exact ⟨hafter, hanswers, rfl, sealed_platform_is_frozen.2.1 _ _ _ _ hfailed⟩

end Platform

end ExecutorHost
