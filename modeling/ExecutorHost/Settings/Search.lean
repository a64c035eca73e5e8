import ExecutorHost.Executor.Specification
import ExecutorHost.Settings.Circle
import ExecutorHost.Settings.Error
import ExecutorHost.Text.Part
import ExecutorHost.Worker.Loader

/-!
# Settings search

The search finds all settings specifications that can be reached from some candidates by way of
sub-settings references. Candidates that are not registered, or describe no settings, are passed
over. The result lists what each found specification refers to, and every reference that leads
nowhere. If references form a circle the search fails and an earlier result stays.
-/

namespace ExecutorHost

/-- A sub-settings reference that leads to no registered settings specification. -/
structure UnresolvedReference where
  /-- The specification that refers. -/
  parent : String
  /-- The control with the reference. -/
  control : String
  /-- What the control refers to: an id, or else its own name. -/
  target : String
deriving DecidableEq, Repr

/-- The reference in words. -/
def UnresolvedReference.text (r : UnresolvedReference) : String :=
  s!"{r.parent}.{r.control} -> {r.target}"

/-- What a search has found. -/
structure SearchResult where
  /-- The settings specifications found. -/
  found : IdMap Specification
  /-- For each of them, the ids that it refers to, none twice. -/
  children : IdGraph
  /-- The references that lead nowhere, in the order in which they were met. -/
  unresolved : List UnresolvedReference

namespace SearchResult

/-- Nothing found. -/
def empty : SearchResult := ⟨.empty, .empty, []⟩

/-- A specification added under an id, referring to nothing yet. -/
def add (r : SearchResult) (id : String) (s : Specification) : SearchResult :=
  { r with found := r.found.insert id s, children := r.children.insert id [] }

/-- A reference added, unless it is there already. -/
def refer (r : SearchResult) (parent child : String) : SearchResult :=
  let children := (r.children.get? parent).getD []
  if child ∈ children then r
  else { r with children := r.children.insert parent (children ++ [child]) }

/-- A reference changes nothing about what has been found. -/
@[simp] theorem found_refer (r : SearchResult) (parent child : String) :
    (r.refer parent child).found = r.found := by
  simp only [refer]
  split <;> rfl

/-- An added specification is found under its id. -/
@[simp] theorem found_add (r : SearchResult) (id : String) (s : Specification) :
    (r.add id s).found = r.found.insert id s := rfl

/-- Two found specifications of one name: the name, the first of that name and the later one. -/
structure Duplicate where
  /-- The name of the settings. -/
  name : String
  /-- The id of the first specification of that name. -/
  first : String
  /-- The id of a later one. -/
  second : String
deriving DecidableEq, Repr

/-- The later specifications of each name; `seen` gives the first id of each name so far. -/
def duplicatesAmong (seen : List (String × String)) : List (String × Specification) → List Duplicate
  | [] => []
  | (id, s) :: rest =>
    match s.settingsName? with
    | none => duplicatesAmong seen rest
    | some name =>
      match seen.lookup name with
      | some first => ⟨name, first, id⟩ :: duplicatesAmong seen rest
      | none => duplicatesAmong ((name, id) :: seen) rest

/-- The found specifications whose name an earlier one has, in the order of ids. -/
def duplicates (r : SearchResult) : List Duplicate := duplicatesAmong [] r.found.entries

/-- Two found specifications share a name. -/
def hasDuplicates (r : SearchResult) : Bool := !r.duplicates.isEmpty

/-- Every reference was resolved. -/
def isComplete (r : SearchResult) : Bool := r.unresolved.isEmpty

/-- What a finished search reports. -/
def events (r : SearchResult) : List Event :=
  r.duplicates.map (fun d => .duplicateSettingsName d.name d.first d.second) ++
    [.settingsSearchCompleted r.found.size r.unresolved.length r.hasDuplicates] ++
    if r.isComplete then []
    else [.settingsSearchIncomplete (r.unresolved.map UnresolvedReference.text)]

end SearchResult

namespace SettingsSearch

/-- The settings specification of an id. -/
def settingsOf? (specifications : Loader Specification) (id : String) : Option Specification :=
  (specifications.get? id).filter (·.isSettings)

/-- The settings specification of least id that has a name. -/
def named? (specifications : Loader Specification) (name : String) : Option Specification :=
  (specifications.find? (·.settingsName? == some name)).map (·.2)

/-- The settings specification that a sub-settings control refers to. -/
def target? (specifications : Loader Specification) (control : Control) : Option Specification :=
  match control.settingsId with
  | some id => settingsOf? specifications id
  | none => named? specifications control.name

/-- A control's reference that leads nowhere. -/
def unresolvedAt (parent : String) (control : Control) : UnresolvedReference :=
  ⟨parent, control.name, control.settingsId.getD control.name⟩

/-- A target is a registered specification. -/
theorem mem_values_of_target? {specifications : Loader Specification} {control : Control}
    {s : Specification} (h : target? specifications control = some s) :
    s ∈ specifications.values := by
  unfold target? settingsOf? named? at h
  split at h
  · exact IdMap.mem_values_of_get? (Option.filter_eq_some_iff.1 h).1
  · obtain ⟨e, he, rfl⟩ := Option.map_eq_some_iff.1 h
    exact IdMap.mem_values_of_find? he

/-- Specifications as a search looks them up. -/
@[ext]
structure Catalogue where
  /-- The specifications under their ids, in the order of ids. -/
  entries : List (String × Specification)
  /-- The settings specification of an id. -/
  settingsOf? : String → Option Specification
  /-- The settings specification that a sub-settings control refers to. -/
  target? : Control → Option Specification
  /-- A target is one of the specifications. -/
  mem_of_target? : ∀ {control s}, target? control = some s → s ∈ entries.map (·.2)

/-- The specifications of a loader. -/
def catalogueOf (specifications : Loader Specification) : Catalogue where
  entries := specifications.entries
  settingsOf? := settingsOf? specifications
  target? := target? specifications
  mem_of_target? := mem_values_of_target?

instance : Coe (Loader Specification) Catalogue := ⟨catalogueOf⟩

@[simp] theorem settingsOf?_catalogueOf (specifications : Loader Specification) (id : String) :
    (catalogueOf specifications).settingsOf? id = settingsOf? specifications id := rfl

@[simp] theorem entries_catalogueOf (specifications : Loader Specification) :
    (catalogueOf specifications).entries = specifications.entries := rfl

/-- How many specifications have an id under which nothing has been found yet. -/
def unfound (catalogue : Catalogue) (found : IdMap Specification) : Nat :=
  (catalogue.entries.map (·.2)).countP fun s => !found.contains s.id

/-- Finding a specification under its id for the first time leaves fewer to find. -/
theorem unfound_lt {catalogue : Catalogue} {found : IdMap Specification} {s : Specification}
    (hmem : s ∈ catalogue.entries.map (·.2)) (hnew : found.contains s.id = false) :
    unfound catalogue (found.insert s.id s) < unfound catalogue found := by
  unfold unfound
  generalize catalogue.entries.map (·.2) = values at hmem
  have hle : ∀ rest : List Specification,
      (rest.countP fun t => !(found.insert s.id s).contains t.id) ≤
        rest.countP fun t => !found.contains t.id := by
    intro rest
    refine List.countP_mono_left fun t _ ht => ?_
    simp only [IdMap.contains_insert, Bool.not_or, Bool.and_eq_true] at ht
    exact ht.2
  induction values with
  | nil => simp at hmem
  | cons t rest ih =>
    rw [List.countP_cons, List.countP_cons]
    rcases List.mem_cons.1 hmem with rfl | hmem
    · have := hle rest
      simp only [IdMap.contains_insert, beq_self_eq_true, Bool.true_or, Bool.not_true, hnew,
        Bool.not_false, if_true, Bool.false_eq_true, if_false] at this ⊢
      omega
    · have := ih hmem
      have hstep : (if (!(found.insert s.id s).contains t.id) = true then 1 else 0) ≤
          if (!found.contains t.id) = true then 1 else 0 := by
        rw [IdMap.contains_insert]
        cases found.contains t.id <;> simp
        split <;> omega
      omega

/-- A found specification whose sub-settings controls are still to be followed. -/
structure Pending where
  /-- The id under which it was found. -/
  id : String
  /-- The controls left. -/
  left : List Control

/-- The work left: the catalogue and their controls. -/
def work (pending : List Pending) : Nat := pending.foldr (fun p n => p.left.length + 1 + n) 0

/--
The references of the pending catalogue followed, the first one first; what is found for the
first time goes to the end of the line.
-/
def follow (catalogue : Catalogue) (pending : List Pending) (r : SearchResult) :
    SearchResult :=
  match pending with
  | [] => r
  | ⟨_, []⟩ :: rest => follow catalogue rest r
  | ⟨parent, control :: left⟩ :: rest =>
    match _h : catalogue.target? control with
    | none =>
      follow catalogue (⟨parent, left⟩ :: rest)
        { r with unresolved := r.unresolved ++ [unresolvedAt parent control] }
    | some child =>
      if _hnew : r.found.contains child.id = true then
        follow catalogue (⟨parent, left⟩ :: rest) (r.refer parent child.id)
      else
        follow catalogue (⟨parent, left⟩ :: rest ++ [⟨child.id, child.subSettings⟩])
          ((r.add child.id child).refer parent child.id)
termination_by (unfound catalogue r.found, work pending)
decreasing_by
  · exact Prod.Lex.right _ (by simp [work])
  · exact Prod.Lex.right _ (by simp [work])
  · rw [SearchResult.found_refer]
    exact Prod.Lex.right _ (by simp [work])
  · rw [SearchResult.found_refer, SearchResult.found_add]
    exact Prod.Lex.left _ _
      (unfound_lt (catalogue.mem_of_target? (by assumption)) (by simpa using _hnew))

/-- The candidates that are settings catalogue found, each once, and put in line. -/
def start (catalogue : Catalogue) :
    List String → SearchResult → List Pending → SearchResult × List Pending
  | [], r, line => (r, line)
  | id :: rest, r, line =>
    match catalogue.settingsOf? id with
    | none => start catalogue rest r line
    | some s =>
      if r.found.contains id then start catalogue rest r line
      else start catalogue rest (r.add id s) (line ++ [⟨id, s.subSettings⟩])

/-- Everything that is reached from some candidates. -/
def reach (catalogue : Catalogue) (candidates : List String) : SearchResult :=
  let (r, line) := start catalogue candidates .empty []
  follow catalogue line r

/-- The result of a search, or the first circle among the references. -/
def process (catalogue : Catalogue) (candidates : List String) :
    Except SettingsError SearchResult :=
  let r := reach catalogue candidates
  match r.children.circle? with
  | some ids => .error (.cycle ids)
  | none => .ok r

/-- What marks the text of a specification that may have to do with settings. -/
def marker : String := "\"settings\""

/--
The ids of the catalogue whose text has the marker: all that describe settings, and more.
-/
def probableIds (catalogue : Catalogue) : List String :=
  (catalogue.entries.filter fun e => Text.contains e.2.toDocument.text marker).map (·.1)

end SettingsSearch

/-- A search with the ids to start from and its last result. -/
structure SettingsSearch where
  /-- The ids to start from; without them, the probable ids of the loader. -/
  candidates : Option (List String) := none
  /-- The result of the last search that succeeded. -/
  result : Option SearchResult := none

namespace SettingsSearch

/-- The search made: it has the new result, or keeps the old one if the search fails. -/
def run (search : SettingsSearch) (catalogue : Catalogue) :
    SettingsSearch × Except SettingsError SearchResult :=
  match process catalogue (search.candidates.getD (probableIds catalogue)) with
  | .ok r => ({ search with result := some r }, .ok r)
  | .error e => (search, .error e)

/-- What a search that was made reports. -/
def runEvents : Except SettingsError SearchResult → List Event
  | .ok r => r.events
  | .error e => e.events

/-- The result, which there must be. -/
def processed (search : SettingsSearch) : Except SettingsError SearchResult :=
  match search.result with
  | some r => .ok r
  | none => .error .notProcessed

/-- The search was made. -/
def isProcessed (search : SettingsSearch) : Bool := search.result.isSome

/-- The search was made and every reference was resolved. -/
def isComplete (search : SettingsSearch) : Bool := search.result.any (·.isComplete)

/-- The search was made and two found specifications share a name. -/
def hasDuplicates (search : SettingsSearch) : Bool := search.result.any (·.hasDuplicates)

end SettingsSearch

end ExecutorHost
