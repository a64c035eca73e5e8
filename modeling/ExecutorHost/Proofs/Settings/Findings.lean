import ExecutorHost.Proofs.Settings.Reachable
import Mathlib

/-!
# Findings of a search

A search that succeeds finds what is within reach and nothing else. Its children are the targets of
what has been found, its unresolved references are the sub-settings controls without a target, one
entry for each, and it has duplicates if two found specifications have one name of settings. A
search that fails is the search that it was before.
-/

namespace ExecutorHost

open SettingsSearch

namespace SearchResult

variable {specifications : Loader Specification} {r : SearchResult}

/-! ## Names -/

/-- Nothing is reported as a duplicate exactly if the names are new and differ from each other. -/
theorem duplicatesAmong_eq_nil_iff {seen : List (String × String)}
    {entries : List (String × Specification)} :
    duplicatesAmong seen entries = [] ↔
      (∀ e ∈ entries, ∀ name, e.2.settingsName? = some name → seen.lookup name = none) ∧
      entries.Pairwise fun a b => ∀ name, a.2.settingsName? = some name →
        b.2.settingsName? ≠ some name := by
  induction entries generalizing seen with
  | nil => simp [duplicatesAmong]
  | cons head rest ih =>
    obtain ⟨id, s⟩ := head
    rw [duplicatesAmong, List.forall_mem_cons, List.pairwise_cons]
    cases hname : s.settingsName? with
    | none => simp [ih]
    | some name =>
      cases hseen : seen.lookup name with
      | some first =>
        constructor
        · intro h
          simp [hseen] at h
        · rintro ⟨⟨hnew, -⟩, -⟩
          rw [hnew name rfl] at hseen
          cases hseen
      | none =>
        -- the names behind must be new to what has been seen and to this one
        have hlookup : ∀ other, ((name, id) :: seen).lookup other = none ↔
            other ≠ name ∧ seen.lookup other = none := by
          intro other
          rw [List.lookup_cons]
          by_cases h : other = name
          · simp [h]
          · have hbeq : (other == name) = false := by simpa using h
            simp [hbeq, h]
        simp only [ih, hlookup, Option.some.injEq, forall_eq', hseen, true_and]
        constructor
        · rintro ⟨hall, hrest⟩
          refine ⟨fun e he other ho => (hall e he other ho).2, fun e he hsame => ?_, hrest⟩
          exact (hall e he name hsame).1 rfl
        · rintro ⟨hnew, hdiffer, hrest⟩
          refine ⟨fun e he other ho => ⟨?_, hnew e he other ho⟩, hrest⟩
          rintro rfl
          exact hdiffer e he ho

/-- There are duplicates exactly if two found ids have one name of settings. -/
theorem hasDuplicates_iff :
    r.hasDuplicates = true ↔ ∃ a b s t name, a ≠ b ∧ r.found.get? a = some s ∧
      r.found.get? b = some t ∧ s.settingsName? = some name ∧ t.settingsName? = some name := by
  have hnil : r.hasDuplicates = true ↔ ¬ duplicatesAmong [] r.found.entries = [] := by
    rw [hasDuplicates, duplicates, Bool.not_eq_true', ← Bool.not_eq_true, List.isEmpty_iff]
  rw [hnil, duplicatesAmong_eq_nil_iff]
  constructor
  · intro hnot
    by_contra hnone
    refine hnot ⟨fun _ _ _ _ => rfl, r.found.sorted.imp_of_mem fun {a b} ha hb hlt => ?_⟩
    intro name hname hname'
    refine hnone ⟨a.1, b.1, a.2, b.2, name, ?_, IdMap.mem_entries_iff.1 ha,
      IdMap.mem_entries_iff.1 hb, hname, hname'⟩
    exact fun heq => String.lt_irrefl b.1 (heq ▸ hlt)
  · rintro ⟨a, b, s, t, name, hne, ha, hb, hs, ht⟩ ⟨-, hpairwise⟩
    have hsymm : Std.Symm fun a b : String × Specification =>
        ∀ name, a.2.settingsName? = some name → b.2.settingsName? ≠ some name :=
      ⟨fun _ _ h name hb ha => h name ha hb⟩
    have hpair : ((a, s) : String × Specification) ≠ (b, t) := fun heq => hne (congrArg (·.1) heq)
    exact hpairwise.forall (IdMap.mem_entries_iff.2 ha) (IdMap.mem_entries_iff.2 hb) hpair name hs ht

/-! ## References -/

/-- Exactly the found ids have children, the targets of their sub-settings controls. -/
theorem Settled.children_eq (h : r.Settled specifications) :
    r.children = r.found.map fun s => targetIds specifications s.subSettings :=
  IdMap.ext_get? fun id => by rw [h.children, IdMap.get?_map]

theorem filter_unresolvedAmong (parent id : String) (controls : List Control) :
    ((unresolvedAmong specifications parent controls).filter fun u => u.parent = id) =
      if parent = id then unresolvedAmong specifications parent controls else [] := by
  have hparent : ∀ u ∈ unresolvedAmong specifications parent controls, u.parent = parent := by
    intro u hu
    obtain ⟨control, -, rfl⟩ := List.mem_map.1 hu
    rfl
  split
  · rename_i hid
    refine List.filter_eq_self.2 fun u hu => ?_
    simpa [hparent u hu] using hid
  · rename_i hid
    refine List.filter_eq_nil_iff.2 fun u hu => ?_
    rw [hparent u hu]
    simpa using hid

/-- There is one unresolved reference for each sub-settings control of a found specification that
has no target. -/
theorem Settled.unresolved_perm (h : r.Settled specifications) :
    r.unresolved.Perm (r.found.entries.flatMap fun e =>
      unresolvedAmong specifications e.1 e.2.subSettings) := by
  rw [List.perm_iff_count]
  intro u
  -- both sides have the same entries of one parent
  have hsame : (r.unresolved.filter fun v => v.parent = u.parent) =
      (r.found.entries.flatMap fun e =>
        unresolvedAmong specifications e.1 e.2.subSettings).filter fun v =>
          v.parent = u.parent := by
    rw [h.unresolved, List.filter_flatMap]
    simp only [filter_unresolvedAmong]
    rw [r.found.flatMap_entries fun e _ hne => if_neg hne]
    simp only [if_true]
  have hcount := congrArg (List.count u) hsame
  rwa [List.count_filter (by simp), List.count_filter (by simp)] at hcount

end SearchResult

namespace SettingsSearch

variable {specifications : Loader Specification} {search : SettingsSearch} {r : SearchResult}
  {e : SettingsError}

/-! ## Runs -/

theorem run_of_process_ok
    (h : process specifications (search.candidates.getD (probableIds specifications)) = .ok r) :
    search.run specifications = ({ search with result := some r }, .ok r) := by
  rw [run, h]

theorem run_of_process_error
    (h : process specifications (search.candidates.getD (probableIds specifications)) =
      .error e) : search.run specifications = (search, .error e) := by
  rw [run, h]

theorem of_run_ok (h : (search.run specifications).2 = .ok r) :
    (search.run specifications).1 = { search with result := some r } ∧
      process specifications (search.candidates.getD (probableIds specifications)) = .ok r := by
  cases hp : process specifications (search.candidates.getD (probableIds specifications)) with
  | error e =>
    rw [run_of_process_error hp] at h
    cases h
  | ok found =>
    rw [run_of_process_ok hp] at h ⊢
    cases h
    exact ⟨rfl, rfl⟩

theorem of_run_error (h : (search.run specifications).2 = .error e) :
    (search.run specifications).1 = search ∧
      process specifications (search.candidates.getD (probableIds specifications)) = .error e := by
  cases hp : process specifications (search.candidates.getD (probableIds specifications)) with
  | error e' =>
    rw [run_of_process_error hp] at h ⊢
    cases h
    exact ⟨rfl, rfl⟩
  | ok found =>
    rw [run_of_process_ok hp] at h
    cases h

/-- A search that succeeds finds exactly what is within reach of its candidates: the least closed
set of ids, each with its registered specification. It lists the targets of each of them in the
order of its controls, and one unresolved reference for each sub-settings control that has no
target. It is complete if there is none, and has duplicates if two found ids have one name. -/
theorem search_finds_reachable (hown : specifications.OwnIds)
    (h : (search.run specifications).2 = .ok r) :
    (search.run specifications).1.processed = .ok r ∧
    IsLeast {ids | Closed specifications
      (search.candidates.getD (probableIds specifications)) ids} {id | id ∈ r.found.ids} ∧
    (∀ id s, r.found.get? id = some s → specifications.get? id = some s) ∧
    r.children = r.found.map (fun s => targetIds specifications s.subSettings) ∧
    r.unresolved.Perm (r.found.entries.flatMap fun e =>
      unresolvedAmong specifications e.1 e.2.subSettings) ∧
    ((search.run specifications).1.isComplete = true ↔
      ∀ id s, r.found.get? id = some s → ∀ control ∈ s.subSettings,
        ∃ child, target? specifications control = some child) ∧
    ((search.run specifications).1.hasDuplicates = true ↔
      ∃ a b s t name, a ≠ b ∧ r.found.get? a = some s ∧ r.found.get? b = some t ∧
        s.settingsName? = some name ∧ t.settingsName? = some name) := by
  obtain ⟨hsearch, hprocess⟩ := of_run_ok h
  obtain ⟨rfl, -⟩ := process_ok_iff.1 hprocess
  have hsettled := settled_reach hown (search.candidates.getD (probableIds specifications))
  rw [hsearch]
  refine ⟨rfl, ?_, fun id s hs => ?_, hsettled.children_eq, hsettled.unresolved_perm, ?_, ?_⟩
  · have hreached : {id | id ∈ (reach specifications
        (search.candidates.getD (probableIds specifications))).found.ids} =
        {id | Reached specifications (search.candidates.getD (probableIds specifications)) id} :=
      Set.ext fun id => mem_ids_reach_iff hown
    rw [hreached]
    exact isLeast_reached specifications _
  · exact (settingsOf?_eq_some_iff.1 (hsettled.registered id s hs)).1
  · exact hsettled.isComplete_iff
  · exact SearchResult.hasDuplicates_iff

end SettingsSearch

namespace Sample

/-- A settings specification of an id and a name of settings. -/
def settings (id name : String) (controls : List Control) : Specification :=
  { version := "0.0.1", id, name := id, role := some ⟨name, true⟩, controls }

/-- A sub-settings control that refers to an id, or else to settings of its own name. -/
def reference (name : String) (target : Option String) : Control :=
  { name, valueType := "settings", settingsId := target }

/-- Settings that refer to others by id and by name, twice to one of them and once to nothing, and a
specification without settings. -/
def web : Loader Specification :=
  ((((IdMap.empty.insert "a" (settings "a" "first" [reference "b" (some "b"),
    reference "lost" (some "nowhere"), reference "again" (some "b")])).insert "b"
    (settings "b" "second" [reference "third" none])).insert "c" (settings "c" "third" [])).insert
    "d" (settings "d" "third" [])).insert "plain" (Specification.new "plain" "Plain")

/-- A search with a candidate that stands twice, one without settings and one that is unknown. -/
def webSearch : SettingsSearch := { candidates := some ["a", "plain", "missing", "a", "d"] }

theorem ownIds_web : web.OwnIds := Loader.ownIds_iff.2 (by decide)

theorem run_web : (webSearch.run web).2 = .ok (reach web ["a", "plain", "missing", "a", "d"]) := by
  have hprocess : process web ["a", "plain", "missing", "a", "d"] =
      .ok (reach web ["a", "plain", "missing", "a", "d"]) := by
    refine process_ok_iff.2 ⟨rfl, ?_⟩
    rw [← IdGraph.circle?_eq_none_iff]
    cbv
  rw [run_of_process_ok hprocess]

end Sample

namespace SettingsSearch

/-- What a search finds among settings of which two have one name and one refers to nothing. -/
theorem search_finds_reachable_web :
    Sample.web.OwnIds ∧ ∃ r, (Sample.webSearch.run Sample.web).2 = .ok r ∧
      r.children.entries = [("a", ["b"]), ("b", ["c"]), ("c", []), ("d", [])] ∧
      r.unresolved = [⟨"a", "lost", "nowhere"⟩] ∧
      IsLeast {ids | Closed Sample.web ["a", "plain", "missing", "a", "d"] ids}
        {id | id ∈ r.found.ids} ∧
      r.children = r.found.map (fun s => targetIds Sample.web s.subSettings) ∧
      ∃ a b s t name, a ≠ b ∧ r.found.get? a = some s ∧ r.found.get? b = some t ∧
        s.settingsName? = some name ∧ t.settingsName? = some name := by
  obtain ⟨-, hleast, -, hchildren, -, -, hduplicates⟩ :=
    search_finds_reachable Sample.ownIds_web Sample.run_web
  have hsearch := (of_run_ok Sample.run_web).1
  refine ⟨Sample.ownIds_web, _, Sample.run_web, ?_, ?_, hleast, hchildren, hduplicates.1 ?_⟩
  · cbv
  · cbv
  · rw [hsearch]
    cbv

end SettingsSearch

end ExecutorHost
