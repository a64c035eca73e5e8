import ExecutorHost.Proofs.Settings.Search
import ExecutorHost.Proofs.Worker.Table
import ExecutorHost.Settings.Combiner

/-!
# References in hash tables

Combiners and settings specifications are looked up in hash tables: by id directly, and by name in
the order of ids. A search looks names up in a table of its own, which it has filled in that order.
Nothing else that settings operations and searches do looks at a table, so the lookups are all that
there is to compare: they are those of the map from ids that the table stands for.
-/

namespace ExecutorHost

namespace WorkerTable

/-! ## Combiners -/

/-- The combiner that a control refers to: by id, or else the first one of the name. -/
def referenced? (combiners : WorkerTable Combiner) (control : Control) : Option Combiner :=
  match control.settingsId with
  | some id => combiners.get? id
  | none => (combiners.find? (·.name == control.name)).map (·.2)

theorem referenced?_eq (combiners : WorkerTable Combiner) :
    combiners.referenced? = Combiners.referenced? combiners.loader := by
  funext control
  unfold referenced? Combiners.referenced?
  cases control.settingsId with
  | some id => exact (combiners.get?_loader id).symm
  | none => rfl

/-- The references among the combiners of a table. -/
def references (combiners : WorkerTable Combiner) : References where
  referenced? := combiners.referenced?
  registered := combiners.sorted.map (·.2)
  mem_registered h := Combiners.mem_values_of_referenced? (combiners.referenced?_eq ▸ h)

theorem references_eq (combiners : WorkerTable Combiner) :
    combiners.references = Combiners.references combiners.loader :=
  References.ext combiners.referenced?_eq rfl

/-! ## Specifications -/

/-- The settings specification of an id. -/
def settingsOf? (specifications : WorkerTable Specification) (id : String) : Option Specification :=
  (specifications.get? id).filter (·.isSettings)

/-- The id of a settings specification entered under its name, unless the name has one. -/
def enterName (names : List (String × String)) (e : String × Specification) :
    List (String × String) :=
  match e.2.settingsName? with
  | some name => if (names.lookup name).isSome then names else (name, e.1) :: names
  | none => names

/-- The id of the first settings specification of each name. -/
def namesOf (entries : List (String × Specification)) : List (String × String) :=
  entries.foldl enterName []

/-- The settings specification that a control refers to, in a search. -/
def target? (specifications : WorkerTable Specification) (control : Control) :
    Option Specification :=
  match control.settingsId with
  | some id => specifications.settingsOf? id
  | none =>
    ((namesOf specifications.sorted).lookup control.name).bind specifications.settingsOf?

theorem lookup_enterName (names : List (String × String)) (e : String × Specification)
    (name : String) :
    (enterName names e).lookup name =
      (names.lookup name).or (if e.2.settingsName? = some name then some e.1 else none) := by
  unfold enterName
  cases hname : e.2.settingsName? with
  | none => simp
  | some other =>
    by_cases hsame : other = name
    · subst hsame
      cases hlookup : names.lookup other <;> simp [hlookup]
    · have hb : (name == other) = false := by simpa using Ne.symm hsame
      by_cases hentered : (names.lookup other).isSome = true
      · simp [hentered, hsame]
      · simp [hentered, hsame, List.lookup_cons, hb]

/-- Under a name stands the id of the first specification of that name. -/
theorem lookup_namesOf (entries : List (String × Specification)) (name : String) :
    (namesOf entries).lookup name =
      (entries.find? fun e => e.2.settingsName? == some name).map (·.1) := by
  have hfrom : ∀ names : List (String × String),
      (entries.foldl enterName names).lookup name =
        (names.lookup name).or
          ((entries.find? fun e => e.2.settingsName? == some name).map (·.1)) := by
    induction entries with
    | nil => simp
    | cons e rest ih =>
      intro names
      rw [List.foldl_cons, ih, lookup_enterName, Option.or_assoc, List.find?_cons]
      by_cases hname : e.2.settingsName? = some name
      · simp [hname]
      · have hb : (e.2.settingsName? == some name) = false := by simpa using hname
        simp [hname, hb]
  exact hfrom []

theorem settingsOf?_eq (specifications : WorkerTable Specification) :
    specifications.settingsOf? = SettingsSearch.settingsOf? specifications.loader := by
  funext id
  unfold settingsOf? SettingsSearch.settingsOf?
  rw [get?_loader]

/-- The name of a control leads to the specification that is found by it. -/
theorem target?_eq (specifications : WorkerTable Specification) :
    specifications.target? = SettingsSearch.target? specifications.loader := by
  funext control
  unfold target? SettingsSearch.target?
  rw [settingsOf?_eq]
  cases control.settingsId with
  | some id => rfl
  | none =>
    show ((namesOf specifications.sorted).lookup control.name).bind _ =
      (specifications.loader.find? (·.settingsName? == some control.name)).map (·.2)
    have hfind : specifications.loader.find? (·.settingsName? == some control.name) =
        specifications.sorted.find? fun e => e.2.settingsName? == some control.name := rfl
    rw [lookup_namesOf, ← hfind]
    cases hfound : specifications.loader.find? (·.settingsName? == some control.name) with
    | none => rfl
    | some e =>
      obtain ⟨id, s⟩ := e
      obtain ⟨hget, hname⟩ := IdMap.of_find? hfound
      have hsettings : s.isSettings = true :=
        Specification.isSettings_iff.2 ⟨control.name, by simpa using hname⟩
      show SettingsSearch.settingsOf? specifications.loader id = some s
      unfold SettingsSearch.settingsOf?
      rw [hget, Option.filter_some, if_pos hsettings]

/-- The specifications of a table. -/
def catalogue (specifications : WorkerTable Specification) : SettingsSearch.Catalogue where
  entries := specifications.sorted
  settingsOf? := specifications.settingsOf?
  target? := specifications.target?
  mem_of_target? h := SettingsSearch.mem_values_of_target? (specifications.target?_eq ▸ h)

theorem catalogue_eq (specifications : WorkerTable Specification) :
    specifications.catalogue = SettingsSearch.catalogueOf specifications.loader :=
  SettingsSearch.Catalogue.ext rfl specifications.settingsOf?_eq specifications.target?_eq

end WorkerTable

end ExecutorHost
