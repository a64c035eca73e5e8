import ExecutorHost.Proofs.Extension.Sealing
import ExecutorHost.Proofs.Path

/-!
# What holds of every platform

A platform begins with a technology or with a document, and any calls may follow, successful ones
and failing ones: to its own setters, to those of its folders and of its dependencies, and to seal
any of these. What `Coherent` says holds at the beginning and is kept by every call, and so are two
more things: the root of the folders is absolute if every working folder is, and a sealed platform
has sealed folders and sealed dependencies.
-/

namespace ExecutorHost

namespace Folders

/-- There is no root, or an absolute one. -/
def Anchored (folders : Folders) : Prop := ∀ root, folders.root = some root → root.isAbsolute = true

/-- The working folder of a change is absolute. -/
def Change.Grounded : Change → Prop
  | .setRoot working _ => working.isAbsolute = true
  | _ => True

/-- Folders that come from a root, from a document or from calls that follow, where every working
folder has been absolute. -/
inductive Grounded : Folders → Prop
  | rooted {working : Path} (absolute : working.isAbsolute = true) (root : Option Path) :
      Grounded (Folders.rooted working root)
  | parsed {working : Path} {object : Members} {root : Option Path} {folders : Folders}
      (absolute : working.isAbsolute = true)
      (parse : Folders.parse working object root = .ok folders) : Grounded folders
  | changed {folders : Folders} (grounded : Grounded folders) (change : Change)
      (absolute : change.Grounded) : Grounded (change.perform.run.run folders).2

variable {folders : Folders} {working : Path}

theorem after_perform (change : Change) (folders : Folders) :
    change.apply folders = .ok (change.perform.run.run folders).2 ∨
      (change.perform.run.run folders).2 = folders := by
  rw [run_perform]
  cases change.apply folders with
  | ok after => exact .inl rfl
  | error e => exact .inr rfl

theorem Grounded.made (h : folders.Grounded) : folders.Made := by
  induction h with
  | rooted absolute root => exact .rooted _ root
  | parsed absolute parse => exact .parsed parse
  | @changed folders grounded change absolute ih =>
    rcases after_perform change folders with happly | hsame
    · exact .changed ih change happly
    · rw [hsame]
      exact ih

theorem isAbsolute_absoluteRoot (h : working.isAbsolute = true) (root : Path) :
    (absoluteRoot working root).isAbsolute = true := by
  unfold absoluteRoot
  split <;> exact Path.isAbsolute_absolute h _

theorem anchored_of_map (h : working.isAbsolute = true) {root : Option Path}
    (hroot : folders.root = root.map (absoluteRoot working)) : folders.Anchored := by
  intro absolute heq
  rw [hroot] at heq
  obtain ⟨given, -, rfl⟩ := Option.map_eq_some_iff.1 heq
  exact isAbsolute_absoluteRoot h given

theorem root_of_parse {object : Members} {root : Option Path}
    (h : parse working object root = .ok folders) :
    folders.root = root.map (absoluteRoot working) := by
  unfold parse at h
  obtain ⟨models, -, h⟩ := exists_of_bind_eq_ok h
  obtain ⟨modules, -, h⟩ := exists_of_bind_eq_ok h
  obtain ⟨libraries, -, h⟩ := exists_of_bind_eq_ok h
  obtain ⟨resources, -, h⟩ := exists_of_bind_eq_ok h
  cases h
  rfl

theorem root_declare (folders : Folders) (name : String) (kind : FolderKind) :
    (folders.declare name kind).root = folders.root := by
  cases kind <;> rfl

theorem Anchored.change {after : Folders} (h : folders.Anchored) {change : Change}
    (hchange : change.Grounded) (happly : change.apply folders = .ok after) : after.Anchored := by
  cases change with
  | setRoot working root =>
    obtain ⟨_, -, hset⟩ := exists_of_bind_eq_ok happly
    cases hset
    exact anchored_of_map hchange rfl
  | setName kind name =>
    obtain ⟨-, rfl⟩ := of_setName happly
    unfold Anchored
    rw [root_declare]
    exact h
  | makeImmutable =>
    cases happly
    exact h

theorem Grounded.anchored (h : folders.Grounded) : folders.Anchored := by
  induction h with
  | rooted absolute root => exact anchored_of_map absolute rfl
  | parsed absolute parse => exact anchored_of_map absolute (root_of_parse parse)
  | @changed folders grounded change absolute ih =>
    rcases after_perform change folders with happly | hsame
    · exact ih.change absolute happly
    · rw [hsame]
      exact ih

end Folders

namespace Platform

/-- Folders and a configuration that a change puts in have been made before, and its working folder
is absolute. -/
def Change.Grounded : Change → Prop
  | .setFolders folders => folders.Grounded
  | .setConfiguration configuration => configuration.Made
  | .inFolders change => change.Grounded
  | _ => True

theorem Change.Grounded.admissible {change : Change} (h : change.Grounded) :
    change.Admissible := by
  cases change with
  | setFolders folders =>
    have hgrounded : folders.Grounded := h
    exact hgrounded.made
  | setConfiguration configuration => exact h
  | setId _ | setCategory _ | setName _ | setDescription _ | setTags _ | setTechnology _
  | setLanguage _ | setDependencies _ | inFolders _ | inDependency _ _ | makeImmutable =>
    exact True.intro

/-- A platform made for a technology, or read from a document in an absolute working folder. -/
inductive Begun : Platform → Prop
  | new {technology : String} {p : Platform} {n n' : Nat}
      (run : (Platform.new technology).run.run n = (.ok p, n')) : Begun p
  | parsed {working : Path} {object : Members} {file : Option Path} {p : Platform} {n n' : Nat}
      (absolute : working.isAbsolute = true)
      (run : (Platform.parse working object file).run.run n = (.ok p, n')) : Begun p

/-- What holds of a platform at its beginning and after any calls. -/
structure Sound (p : Platform) : Prop extends Coherent p where
  grounded : p.folders.Grounded
  sealing : p.immutable = true → p.Sealed

variable {p : Platform}

/-! ## Beginnings -/

theorem grounded_of_parseFolders {working : Path} (habsolute : working.isAbsolute = true)
    {object : Members} {root : Option Path} {folders : Folders}
    (h : parseFolders working object root = .ok folders) : folders.Grounded := by
  unfold parseFolders at h
  obtain ⟨declared, -, h⟩ := exists_of_bind_eq_ok h
  cases declared with
  | none =>
    cases h
    exact .rooted habsolute root
  | some declared => exact .parsed habsolute h

theorem sealed_of_open (h : p.immutable = false) : p.immutable = true → p.Sealed := by
  intro hsealed
  rw [h] at hsealed
  cases hsealed

theorem Begun.sound (h : p.Begun) : p.Sound := by
  cases h with
  | new run =>
    have hcoherent := coherent_of_new run
    obtain ⟨-, -, rfl⟩ := of_run_new run
    -- without a root it does not matter which working folder there is
    have habsolute : (⟨"/"⟩ : Path).isAbsolute = true := rfl
    exact ⟨hcoherent, .rooted habsolute none, sealed_of_open rfl⟩
  | parsed absolute run =>
    obtain ⟨technology, made, -, hmade, hfilled⟩ := of_run_parse run
    obtain ⟨-, -, rfl⟩ := of_run_new hmade
    have hopen : p.immutable = false := hfilled.immutable
    exact ⟨coherent_of_parse run, grounded_of_parseFolders absolute hfilled.folders,
      sealed_of_open hopen⟩

/-! ## Calls -/

variable {q : Platform} {change : Change}

/-- What a change can do to the folders and to the seal. -/
theorem apply_cases (happly : change.apply p = some (.ok q)) :
    (change = .makeImmutable ∧ q = p.makeImmutable) ∨
      (q.immutable = p.immutable ∧
        (q.folders = p.folders ∨ change = .setFolders q.folders ∨
          ∃ inner, change = .inFolders inner ∧ inner.apply p.folders = .ok q.folders)) := by
  cases change with
  | setId _ | setCategory _ | setName _ | setDescription _ | setTags _ | setLanguage _
  | setConfiguration _ | setDependencies _ =>
    rw [eq_of_change (Option.some.inj happly)]
    exact .inr ⟨rfl, .inl rfl⟩
  | setTechnology technology =>
    obtain ⟨-, rfl⟩ := of_setTechnology (Option.some.inj happly)
    exact .inr ⟨rfl, .inl rfl⟩
  | setFolders folders =>
    rw [eq_of_change (Option.some.inj happly)]
    exact .inr ⟨rfl, .inr (.inl rfl)⟩
  | inFolders inner =>
    obtain ⟨folders, hfolders, hset⟩ := exists_of_bind_eq_ok (Option.some.inj happly)
    cases hset
    exact .inr ⟨rfl, .inr (.inr ⟨inner, rfl, hfolders⟩)⟩
  | inDependency index inner =>
    obtain ⟨d, -, hset⟩ := Option.map_eq_some_iff.1 happly
    obtain ⟨d', -, hset⟩ := exists_of_bind_eq_ok hset
    cases hset
    exact .inr ⟨rfl, .inl rfl⟩
  | makeImmutable =>
    cases happly
    exact .inl ⟨rfl, rfl⟩

theorem grounded_of_apply (h : p.folders.Grounded) (hchange : change.Grounded)
    (happly : change.apply p = some (.ok q)) : q.folders.Grounded := by
  rcases apply_cases happly with ⟨-, rfl⟩ | ⟨-, hsame | rfl | ⟨inner, rfl, hinner⟩⟩
  · exact h.changed .makeImmutable True.intro
  · rw [hsame]
    exact h
  · exact hchange
  · have hperform := Folders.run_perform inner p.folders
    rw [hinner] at hperform
    have hafter : (inner.perform.run.run p.folders).2 = q.folders := congrArg Prod.snd hperform
    rw [← hafter]
    exact h.changed inner hchange

theorem sealed_of_apply (hopen : p.immutable = false)
    (happly : change.apply p = some (.ok q)) : q.immutable = true → q.Sealed := by
  rcases apply_cases happly with ⟨-, rfl⟩ | ⟨hsame, -⟩
  · exact fun _ => p.sealed_makeImmutable
  · -- nothing but sealing the platform itself puts a seal on it
    exact sealed_of_open (hsame.trans hopen)

theorem Sound.perform (h : p.Sound) (hchange : change.Grounded) :
    (change.perform.run.run p).2.Sound := by
  rcases Bool.eq_false_or_eq_true p.immutable with hsealed | hopen
  · rw [(h.sealing hsealed).run_perform change]
    exact h
  rw [run_perform]
  cases happly : change.apply p with
  | none => exact h
  | some result =>
    cases result with
    | error e => exact h
    | ok q =>
      exact ⟨h.toCoherent.change hchange.admissible happly,
        grounded_of_apply h.grounded hchange happly, sealed_of_apply hopen happly⟩

theorem Sound.after (h : p.Sound) {changes : List Change}
    (hchanges : ∀ change ∈ changes, change.Grounded) : (p.after changes).Sound := by
  induction changes generalizing p with
  | nil => exact h
  | cons change rest ih =>
    have hfirst := h.perform (hchanges change List.mem_cons_self)
    exact ih hfirst fun change hmem => hchanges change (List.mem_cons_of_mem _ hmem)

/-- However a platform begins and whatever calls follow, its technology is not empty and says
whether it is built in, no tag stands twice, no declared folder name is empty, the root of the
folders is absolute, the configuration is the reading of its own source, and if the platform is
sealed then its folders and its dependencies are sealed too. -/
theorem platform_stays_sound {p : Platform} (hbegun : p.Begun) {changes : List Change}
    (hchanges : ∀ change ∈ changes, change.Grounded) :
    let q := p.after changes
    q.technology ≠ "" ∧
      (q.builtIn = true ↔ q.technology.toList.map Char.toLower = "jvm".toList) ∧
      q.tags.Nodup ∧
      (∀ kind, q.folders.declared kind ≠ some "") ∧
      (∀ root, q.folders.root = some root → root.isAbsolute = true) ∧
      Configuration.parse q.configuration.source = .ok q.configuration ∧
      (q.immutable = true →
        q.folders.immutable = true ∧ ∀ d ∈ q.dependencies, d.immutable = true) := by
  intro q
  have hsound : q.Sound := hbegun.sound.after hchanges
  have hbuiltIn : q.builtIn = true ↔ q.technology.toList.map Char.toLower = "jvm".toList := by
    have hlower : builtInTechnology.toList.map Char.toLower = "jvm".toList := rfl
    rw [hsound.builtIn, isBuiltInTechnology, Text.sameIgnoringCase, hlower, beq_iff_eq]
  refine ⟨hsound.technology, hbuiltIn, hsound.tags, hsound.folders, hsound.grounded.anchored,
    hsound.configuration, ?_⟩
  intro himmutable
  have hsealed := hsound.sealing himmutable
  exact ⟨hsealed.folders, hsealed.dependencies⟩

/-- Calls to all the parts of a platform, among them some that fail. -/
def mixedCalls : List Change :=
  [.setTags ["b", "a", "b"], .setTechnology "", .setTechnology "JVM",
    .setFolders (Folders.rooted ⟨"/w"⟩ (some ⟨"e"⟩)), .inFolders (.setName .models "m"),
    .inFolders (.setName .modules ""), .inFolders (.setRoot ⟨"/v"⟩ (some ⟨"f"⟩)),
    .setDependencies [{ id := "d" }], .inDependency 1 (.setId "e"), .makeImmutable,
    .inFolders (.setRoot ⟨"/v"⟩ none), .setTechnology "python"]

theorem mixedCalls_stay_sound :
    ∃ p : Platform, p.Begun ∧ (∀ change ∈ mixedCalls, change.Grounded) ∧
      let q := p.after mixedCalls
      q.technology = "JVM" ∧ q.tags = ["b", "a"] ∧ q.builtIn = true ∧
        q.folders.root = some ⟨"/v/f"⟩ ∧ (⟨"/v/f"⟩ : Path).isAbsolute = true ∧
        q.folders.immutable = true := by
  have hbegun := Begun.new (run_new (by decide : "python" ≠ "") 0)
  have hgrounded : ∀ change ∈ mixedCalls, change.Grounded := by
    unfold mixedCalls
    simp only [List.forall_mem_cons, Change.Grounded, Folders.Change.Grounded, and_true, true_and,
      List.not_mem_nil, false_implies, implies_true]
    exact ⟨.rooted rfl _, rfl, rfl⟩
  obtain ⟨-, hbuiltIn, -, -, hroot, -, hsealing⟩ := platform_stays_sound hbegun hgrounded
  exact ⟨_, hbegun, hgrounded, rfl, rfl, hbuiltIn.2 rfl, rfl, hroot _ rfl, (hsealing rfl).1⟩

end Platform

end ExecutorHost
