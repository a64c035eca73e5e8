import ExecutorHost.Proofs.Event.Journal
import ExecutorHost.Proofs.Settings.Search
import ExecutorHost.Settings.Combiner

/-!
# Combiners of a loader of specifications

Registering a combiner for every settings specification never fails, and then the two loaders say
the same: a combiner is registered where its specification is, and a control refers to a combiner
where the search finds the specification of it.
-/

namespace ExecutorHost

namespace Combiner

theorem eq_of_specification_eq {a b : Combiner} (h : a.specification = b.specification) :
    a = b := by
  obtain ⟨s, name, hname⟩ := a
  obtain ⟨t, other, hother⟩ := b
  cases h
  cases hname.symm.trans hother
  rfl

/-- The combiner of a specification is the one that has it. -/
theorem toOption_ofSpecification_iff {s : Specification} {c : Combiner} :
    (ofSpecification s).toOption = some c ↔ c.specification = s := by
  rw [ofSpecification]
  constructor
  · intro h
    split at h
    · cases h
      rfl
    · cases h
  · rintro rfl
    split
    · exact congrArg some (eq_of_specification_eq rfl)
    · rename_i hnone
      cases c.named.symm.trans hnone

/-- A specification describes settings of a name exactly if its combiner has that name. -/
theorem settingsName?_beq (s : Specification) (name : String) :
    (s.settingsName? == some name) = (ofSpecification s).toOption.any (·.name == name) := by
  rw [ofSpecification]
  split
  · rename_i other hname
    exact congrArg (· == some name) hname
  · rename_i hnone
    rw [hnone]
    rfl

theorem exists_ofSpecification_iff {s : Specification} :
    (∃ c, ofSpecification s = .ok c) ↔ s.isSettings = true := by
  rw [Specification.isSettings_iff]
  constructor
  · rintro ⟨c, hc⟩
    have hs : c.specification = s := toOption_ofSpecification_iff.1 (congrArg Except.toOption hc)
    exact ⟨c.name, hs ▸ c.named⟩
  · rintro ⟨name, hname⟩
    rw [ofSpecification]
    split
    · exact ⟨_, rfl⟩
    · rename_i hnone
      cases hname.symm.trans hnone

/-- The combiners of a loader are those that its specifications have. -/
theorem allOf_eq (specifications : Loader Specification) :
    allOf specifications =
      specifications.entries.filterMap fun e => (ofSpecification e.2).toOption.map (e.1, ·) := by
  refine congrArg (List.filterMap · specifications.entries) (funext fun e => ?_)
  obtain ⟨id, s⟩ := e
  simp only
  cases ofSpecification s <;> rfl

/-- Workers registered one after another are put into the loader in their order. -/
theorem run_registerEach {ε ω : Type} (view : ω → Combiner) (loader : Loader ω)
    (workers : List (String × ω)) (journal : Journal) :
    ∃ journal', (registerEach view loader workers : Logged ε (Loader ω)).run.run journal =
      (.ok (workers.foldl (fun m e => m.insert e.1 e.2) loader), journal') := by
  induction workers generalizing loader journal with
  | nil => exact ⟨journal, rfl⟩
  | cons head rest ih =>
    obtain ⟨id, worker⟩ := head
    exact ih (loader.insert id worker) _

theorem sorted_allOf (specifications : Loader Specification) :
    (allOf specifications).Pairwise fun a b => a.1 < b.1 := by
  rw [allOf_eq]
  refine List.Pairwise.filterMap _ (fun a a' hlt b hb b' hb' => ?_) specifications.sorted
  obtain ⟨-, -, rfl⟩ := Option.map_eq_some_iff.1 hb
  obtain ⟨-, -, rfl⟩ := Option.map_eq_some_iff.1 hb'
  exact hlt

/-- Registering never fails, and then the combiners are those of the specifications. -/
theorem run_registerAll {ε : Type} (specifications : Loader Specification) (journal : Journal) :
    ∃ combiners journal', combiners.entries = allOf specifications ∧
      (registerAll specifications .empty : Logged ε (Combiners × Nat)).run.run journal =
        (.ok (combiners, combiners.size), journal') := by
  obtain ⟨journal', hrun⟩ := run_registerEach (ε := ε) (fun c => c) (.empty : Combiners)
    (allOf specifications) journal
  have hentries := IdMap.entries_foldl_insert (m := (.empty : Combiners))
    (l := allOf specifications) (sorted_allOf specifications)
  refine ⟨_, journal', hentries, ?_⟩
  rw [registerAll, Stateful.run_bind_of_ok hrun, IdMap.size, hentries]
  rfl

end Combiner

namespace Combiners

open SettingsSearch Combiner

variable {specifications : Loader Specification} {combiners : Combiners}
  (hall : combiners.entries = allOf specifications)
include hall

/-- A combiner is registered where its specification is. -/
theorem get?_eq_some_iff {id : String} {c : Combiner} :
    combiners.get? id = some c ↔ settingsOf? specifications id = some c.specification := by
  rw [← IdMap.mem_entries_iff, hall, allOf_eq, List.mem_filterMap, settingsOf?_eq_some_iff]
  constructor
  · rintro ⟨e, hmem, hmade⟩
    obtain ⟨made, hc, heq⟩ := Option.map_eq_some_iff.1 hmade
    cases heq
    rw [toOption_ofSpecification_iff.1 hc]
    refine ⟨IdMap.mem_entries_iff.1 hmem, ?_⟩
    rw [← toOption_ofSpecification_iff.1 hc]
    exact Specification.isSettings_iff.2 ⟨c.name, c.named⟩
  · rintro ⟨hget, -⟩
    refine ⟨(id, c.specification), IdMap.mem_entries_iff.2 hget, ?_⟩
    rw [toOption_ofSpecification_iff.2 rfl]
    rfl

/-- A name leads to the combiner of the specification that it leads to. -/
theorem find?_eq_some_iff {name : String} {c : Combiner} :
    (combiners.find? (·.name == name)).map (·.2) = some c ↔
      named? specifications name = some c.specification := by
  have hpred : (fun e : String × Specification =>
      ((ofSpecification e.2).toOption.map (e.1, ·)).any fun made => made.2.name == name) =
      fun e => e.2.settingsName? == some name := by
    funext e
    rw [settingsName?_beq, Option.any_map]
  rw [IdMap.find?, hall, allOf_eq, List.find?_filterMap, hpred, named?, IdMap.find?]
  cases specifications.entries.find? fun e => e.2.settingsName? == some name with
  | none => simp
  | some e =>
    have hmade := toOption_ofSpecification_iff (s := e.2) (c := c)
    rw [Option.bind_some, Option.map_map, Option.map_some, Option.some_inj, eq_comm (a := e.2),
      ← hmade]
    exact Eq.congr_left Option.map_id'

/-- A control refers to a combiner exactly if the search finds its specification. -/
theorem referenced?_eq_some_iff {control : Control} {c : Combiner} :
    combiners.referenced? control = some c ↔
      target? specifications control = some c.specification := by
  rw [referenced?, target?]
  cases control.settingsId with
  | some id => exact get?_eq_some_iff hall
  | none => exact find?_eq_some_iff hall

end Combiners

end ExecutorHost
