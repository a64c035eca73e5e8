import ExecutorHost.Proofs.Settings.Search

/-!
# Preselected candidates

A search starts from candidates, and those that describe no settings are passed over. So its outcome
depends on the others alone and on their order. The preselection by a marker in the text of a
specification keeps all that describe settings, in the order of ids, whatever else their texts hold;
what it keeps besides is passed over. Main statement:
`SettingsSearch.search_of_probable_eq_search_of_all`.
-/

namespace ExecutorHost

namespace SettingsSearch

variable {specifications : Loader Specification}

/-! ## Candidates that are passed over -/

/-- The candidates that describe settings, in their order and as often as they stand. -/
def telling (specifications : Loader Specification) (candidates : List String) : List String :=
  candidates.filter fun id => (settingsOf? specifications id).isSome

theorem telling_cons_of_none {id : String} (h : settingsOf? specifications id = none)
    (rest : List String) : telling specifications (id :: rest) = telling specifications rest :=
  List.filter_cons_of_neg (by simp [h])

theorem telling_cons_of_some {id : String} {s : Specification}
    (h : settingsOf? specifications id = some s) (rest : List String) :
    telling specifications (id :: rest) = id :: telling specifications rest :=
  List.filter_cons_of_pos (by simp [h])

/-- Only candidates that describe settings are found and put in line. -/
theorem start_telling (candidates : List String) (r : SearchResult) (line : List Pending) :
    start specifications (telling specifications candidates) r line =
      start specifications candidates r line := by
  induction candidates generalizing r line with
  | nil => rfl
  | cons id rest ih =>
    cases hs : settingsOf? specifications id with
    | none =>
      have hstart : start specifications (id :: rest) r line = start specifications rest r line := by
        rw [start, settingsOf?_catalogueOf, hs]
      rw [telling_cons_of_none hs, hstart, ih]
    | some s =>
      -- found before or not, the search goes on with the same candidates behind
      have hstart : ∀ behind, start specifications (id :: behind) r line =
          if r.found.contains id = true then start specifications behind r line
          else start specifications behind (r.add id s) (line ++ [⟨id, s.subSettings⟩]) := by
        intro behind
        rw [start, settingsOf?_catalogueOf, hs]
      rw [telling_cons_of_some hs, hstart, hstart, ih, ih]

/-- Searches whose candidates differ only in what is passed over have the same outcome. -/
theorem process_of_telling_eq {candidates others : List String}
    (h : telling specifications candidates = telling specifications others) :
    process specifications candidates = process specifications others := by
  have hreach : reach specifications candidates = reach specifications others := by
    rw [reach, ← start_telling candidates, h, start_telling, reach]
  rw [process, process, hreach]

/-! ## Candidates with the marker -/

theorem isSome_settingsOf?_of_mem {e : String × Specification}
    (h : e ∈ specifications.entries) :
    (settingsOf? specifications e.1).isSome = e.2.isSettings := by
  have hget : specifications.get? e.1 = some e.2 := IdMap.mem_entries_iff.1 h
  rw [settingsOf?, hget, Option.filter_some]
  cases e.2.isSettings <;> rfl

/-- Of the ids of a part of the entries those describe settings whose specifications do. -/
theorem telling_map_filter (p : String × Specification → Bool) :
    telling specifications ((specifications.entries.filter p).map (·.1)) =
      (specifications.entries.filter fun e => e.2.isSettings && p e).map (·.1) := by
  have hsettings : (specifications.entries.filter p).filter
      ((fun id => (settingsOf? specifications id).isSome) ∘ (·.1)) =
        (specifications.entries.filter p).filter fun e => e.2.isSettings := by
    refine List.filter_congr fun e he => ?_
    exact isSome_settingsOf?_of_mem (List.mem_filter.1 he).1
  rw [telling, List.filter_map, hsettings, List.filter_filter]

/-- The preselection keeps every id that describes settings, and their order. -/
theorem telling_probableIds (specifications : Loader Specification) :
    telling specifications (probableIds specifications) =
      telling specifications specifications.ids := by
  have hall : specifications.ids =
      (specifications.entries.filter fun _ => true).map (·.1) := by
    rw [List.filter_true, IdMap.ids]
  have hmarked : (specifications.entries.filter fun e =>
      e.2.isSettings && Text.contains e.2.toDocument.text marker) =
        specifications.entries.filter fun e => e.2.isSettings && true := by
    refine List.filter_congr fun e _ => ?_
    cases hsettings : e.2.isSettings with
    | false => rw [Bool.false_and, Bool.false_and]
    | true => rw [Specification.contains_marker hsettings]
  rw [probableIds, entries_catalogueOf, hall, telling_map_filter, telling_map_filter, hmarked]

/-- A search of a loader that starts from the ids with the marker in their text misses no settings
specification and ends as the search that starts from all registered ids: with the same result, its
unresolved references in the same order, or with the same circle. -/
theorem search_of_probable_eq_search_of_all (specifications : Loader Specification)
    (earlier : Option SearchResult) :
    (∀ id s, settingsOf? specifications id = some s → id ∈ probableIds specifications) ∧
      ((SettingsSearch.mk none earlier).run specifications).2 =
        ((SettingsSearch.mk (some specifications.ids) earlier).run specifications).2 ∧
      ((SettingsSearch.mk none earlier).run specifications).1.result =
        ((SettingsSearch.mk (some specifications.ids) earlier).run specifications).1.result := by
  have hprocess := process_of_telling_eq (telling_probableIds specifications)
  refine ⟨fun id s hs => mem_probableIds hs, ?_⟩
  rw [run, run]
  simp only [Option.getD_none, Option.getD_some, hprocess]
  cases process specifications specifications.ids with
  | error e => exact ⟨rfl, rfl⟩
  | ok r => exact ⟨rfl, rfl⟩

end SettingsSearch

end ExecutorHost
