import ExecutorHost.Proofs.Host.Building
import ExecutorHost.Proofs.Settings.Layers
import Mathlib

/-!
# Hosts with usable settings

Building a host registers every specification under its own id and gives every settings
specification a combiner. If the search must be complete, a host is only built if its combiners are
usable.
-/

namespace ExecutorHost

open Logged

theorem Loader.OwnIds.insert {specifications : Loader Specification} (h : specifications.OwnIds)
    (s : Specification) : Loader.OwnIds (specifications.insert s.id s) := by
  intro id t ht
  by_cases hid : id = s.id
  · subst hid
    rw [IdMap.get?_insert_self] at ht
    cases ht
    rfl
  · rw [IdMap.get?_insert_of_ne _ hid] at ht
    exact h id t ht

namespace Models

variable {α σ : Type} {P : σ → Prop}

/-- What every entering keeps holds when all has been entered. -/
theorem returns_enterAll {read : Logged WorkerError (List α)}
    {enter : σ → α → Logged WorkerError σ} {event : Nat → Event} {state : σ} (h : P state)
    (henter : ∀ s a, P s → Returns (enter s a) P) :
    Returns (enterAll read enter event state) fun entered => P entered.1 := by
  refine (Returns.trivial read).bind fun items _ => ?_
  refine (Returns.foldlM h henter).bind fun entered hentered => ?_
  exact (Returns.trivial _).bind fun _ _ => .pure hentered

end Models

namespace Host

/-- The specifications of models folders are registered under their own ids. -/
theorem returns_loadModels (tree : FileTree) (folders : List Path) :
    Returns (loadModels tree folders) fun loaded => loaded.1.OwnIds := by
  refine Returns.foldlM (fun _ _ h => nomatch h) fun loaded folder hloaded => ?_
  obtain ⟨specifications, mappings⟩ := loaded
  refine (Models.returns_enterAll hloaded fun loader s hown => ?_).bind fun entered hentered => ?_
  · exact (Returns.trivial _).bind fun _ _ => .pure (hown.insert s)
  · exact (Returns.trivial _).bind fun _ _ => .pure hentered

/-- A search that is returned has succeeded. -/
theorem returns_searchSettings (specifications : Loader Specification) :
    Returns (searchSettings {} specifications) fun search =>
      search = (({} : SettingsSearch).run specifications).1 ∧
        ∃ r, (({} : SettingsSearch).run specifications).2 = .ok r := by
  rw [searchSettings]
  obtain ⟨search, result⟩ := ({} : SettingsSearch).run specifications
  refine (Returns.trivial _).bind fun _ _ => ?_
  have hresult : Returns (discard (MonadExcept.ofExcept result) : Logged SettingsError PUnit)
      fun _ => ∃ r, result = .ok r :=
    Returns.map (.ofExcept fun r hr => ⟨r, hr⟩) fun _ h => h
  exact hresult.bind fun _ h => .pure ⟨rfl, h⟩

/-- A search that must be complete is only returned if it is. -/
theorem returns_completeSearch {c : HostConfiguration} (hc : c.requireComplete = true)
    (specifications : Loader Specification) :
    Returns (completeSearch c specifications) fun _ =>
      (∃ r, (({} : SettingsSearch).run specifications).2 = .ok r) ∧
        (({} : SettingsSearch).run specifications).1.isComplete = true := by
  have hsearch := (returns_searchSettings specifications).mapError HostError.settings
  refine hsearch.bind fun search h => ?_
  obtain ⟨rfl, hok⟩ := h
  rw [hc]
  cases hcomplete : (({} : SettingsSearch).run specifications).1.isComplete with
  | false => exact (Returns.throw _).bind fun _ h => h
  | true => exact .pure ⟨hok, rfl⟩

/-- A host that requires a complete search has usable combiners. -/
theorem returns_build (tree : FileTree) {c : HostConfiguration} (hsearch : c.smartSearch = true)
    (hcomplete : c.requireComplete = true) :
    Returns (build tree c) fun host => host.combiners.Usable := by
  refine (Returns.trivial _).bind fun platforms _ => ?_
  refine (Returns.trivial _).bind fun folders _ => ?_
  refine ((returns_loadModels tree folders).mapError HostError.worker).bind fun loaded hown => ?_
  obtain ⟨specifications, mappings⟩ := loaded
  have hregister : Returns (Combiner.registerAll specifications .empty : Logged HostError _)
      fun made => made.1.entries = Combiner.allOf specifications := by
    intro journal made journal' hrun
    obtain ⟨combiners, between, hall, hregistered⟩ :=
      Combiner.run_registerAll (ε := HostError) specifications journal
    rw [hregistered] at hrun
    cases hrun
    exact hall
  refine hregister.bind fun made hall => ?_
  obtain ⟨combiners, count⟩ := made
  simp only [hsearch, if_true]
  have husable : Returns (some <$> completeSearch c specifications) fun _ => combiners.Usable :=
    (returns_completeSearch hcomplete specifications).map fun _ h =>
      (SettingsSearch.run_complete_iff hown hall).1 h
  exact husable.bind fun _ h => .pure h

end Host

/-! ## Agreement -/

/-- A search of a loader succeeds and is complete exactly if the combiners that are registered for
its settings specifications are usable, and if it succeeds at all, none of them reports a circle.
So a host that requires a complete search has usable combiners. -/
theorem search_agrees_with_combiners {ε : Type} :
    (∀ specifications : Loader Specification, specifications.OwnIds → ∀ journal,
      ∃ combiners journal',
        (Combiner.registerAll specifications .empty : Logged ε (Combiners × Nat)).run.run journal =
          (.ok (combiners, combiners.size), journal') ∧
        (((∃ r, (({} : SettingsSearch).run specifications).2 = .ok r) ∧
          (({} : SettingsSearch).run specifications).1.isComplete = true) ↔ combiners.Usable) ∧
        ((∃ r, (({} : SettingsSearch).run specifications).2 = .ok r) → combiners.CircleFree)) ∧
    ∀ (tree : FileTree) (c : HostConfiguration), c.smartSearch = true → c.requireComplete = true →
      ∀ journal host journal', (Host.build tree c).run.run journal = (.ok host, journal') →
        host.combiners.Usable := by
  refine ⟨fun specifications hown journal => ?_, fun tree c hsearch hcomplete => ?_⟩
  · obtain ⟨combiners, journal', hall, hrun⟩ :=
      Combiner.run_registerAll (ε := ε) specifications journal
    refine ⟨combiners, journal', hrun, SettingsSearch.run_complete_iff hown hall, ?_⟩
    rintro ⟨r, hr⟩
    exact SettingsSearch.circleFree_of_run hown hall hr
  · exact Host.returns_build tree hsearch hcomplete

namespace Sample

/-- The specifications of a blur under their ids. -/
def specifications : Loader Specification :=
  ((IdMap.empty.insert "blur" blur.specification).insert "kernel" kernel.specification).insert
    "border-1" border.specification

theorem ownIds_specifications : specifications.OwnIds := by
  have hempty : Loader.OwnIds .empty := fun _ _ h => nomatch h
  exact ((hempty.insert blur.specification).insert kernel.specification).insert
    border.specification

theorem probableIds_specifications :
    SettingsSearch.probableIds specifications = ["blur", "border-1", "kernel"] :=
  SettingsSearch.probableIds_of_forall (by decide)

theorem run_specifications :
    (∃ r, (({} : SettingsSearch).run specifications).2 = .ok r) ∧
      (({} : SettingsSearch).run specifications).1.isComplete = true := by
  have hok : ∃ r, (({} : SettingsSearch).run specifications).2 = .ok r := by
    rw [SettingsSearch.run_ok_iff, ← IdGraph.circle?_eq_none_iff, probableIds_specifications]
    cbv
  refine ⟨hok, ?_⟩
  obtain ⟨r, hr⟩ := hok
  rw [SettingsSearch.isComplete_run hr, probableIds_specifications]
  cbv

end Sample

/-- The combiners of a blur, and a host of an extension with settings of a blur and of a kernel. -/
theorem search_agrees_with_combiners_blur :
    (Sample.specifications.OwnIds ∧ ∃ combiners journal',
      (Combiner.registerAll Sample.specifications .empty :
        Logged HostError (Combiners × Nat)).run.run {} =
          (.ok (combiners, combiners.size), journal') ∧
      combiners.Usable ∧ combiners.CircleFree) ∧
    ∃ host journal', (Host.build Sample.linked Sample.listed).run.run {} = (.ok host, journal') ∧
      host.combiners.entries.map Prod.fst = ["b", "k"] ∧ host.combiners.Usable := by
  obtain ⟨hloader, hhost⟩ := search_agrees_with_combiners (ε := HostError)
  obtain ⟨hok, hcomplete⟩ := Sample.run_specifications
  obtain ⟨combiners, journal', hrun, husable, hfree⟩ :=
    hloader Sample.specifications Sample.ownIds_specifications {}
  have hfolders : ((Host.extensionFolders Sample.linked Sample.listed).run.run {}).1 =
      .ok [⟨"/link/"⟩] := rfl
  obtain ⟨host, hbuild, hcombiners⟩ := Sample.exists_run_build_linked hfolders
  obtain ⟨last, hbuild⟩ := Stateful.exists_run_eq_iff.2 hbuild
  exact ⟨⟨Sample.ownIds_specifications, combiners, journal', hrun, husable.1 ⟨hok, hcomplete⟩,
    hfree hok⟩, host, last, hbuild, hcombiners, hhost _ _ rfl rfl _ _ _ hbuild⟩

end ExecutorHost
