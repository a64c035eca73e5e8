import Mathlib.Data.List.Perm.Subperm
import Mathlib.Data.List.Range
import ExecutorHost.Proofs.Extension.Identity
import ExecutorHost.Proofs.Extension.Registry

/-!
# Reading and registering manifests

A process reads manifests and registers them, in any order. A generated id that has been written
stands in a document as a declared one, and the next process may count up to its number again. If
the declared ids of the documents are distinct, and the numbers of generated ids do not begin again,
then a registration is refused if and only if a document declares the id that is generated for a
platform without one.
-/

namespace ExecutorHost

open Generating

/-- A document that a process may read a manifest from, with the working folder and its file. -/
structure Intake.Source where
  working : Path
  document : Document
  file : Option Path := none

namespace Intake.Source

def parse (source : Source) : Generating ExtensionError Manifest :=
  Manifest.parse source.working source.document source.file

/-- What the platforms of the document declare, with their numbers if they are counted on from `n`;
nothing if the document is no manifest. -/
def numbered (source : Source) (n : Nat) : List (Option String × Nat) :=
  match (source.parse.run.run n).1 with
  | .ok _ => (Manifest.declaredIds source.document).zipIdx (n + 1)
  | .error _ => []

end Intake.Source

/-- A process that reads manifests and registers them. -/
structure Intake where
  /-- The events and the number of generated ids. -/
  journal : Journal := {}
  /-- The manifests read and not yet registered. -/
  waiting : List Manifest := []
  /-- The registered platforms. -/
  registry : Registry := .empty
  /-- The results of the registrations. -/
  answers : List (Except ExtensionError (List Platform)) := []

namespace Intake

/-- A step of a process: a document is read, or a manifest that has been read is registered. -/
inductive Step
  | read (source : Source)
  | register (index : Nat)

/-- The ids that a document read in the step declares. -/
def Step.declaredIds : Step → List String
  | .read source => (Manifest.declaredIds source.document).filterMap fun declared => declared
  | .register _ => []

/-- What the platforms read in the step declare, with their numbers if they are counted on from
`n`. -/
def Step.numbered (n : Nat) : Step → List (Option String × Nat)
  | .read source => source.numbered n
  | .register _ => []

/-- The last number after the step, if it has been `n` before. -/
def Step.counted (n : Nat) : Step → Nat
  | .read source => (source.parse.run.run n).2
  | .register _ => n

/-- The process after a step. -/
def perform (s : Intake) : Step → Intake
  | .read source =>
    let outcome := (Logged.generating source.parse).run.run s.journal
    { s with journal := outcome.2, waiting := s.waiting ++ outcome.1.toOption.toList }
  | .register index =>
    match s.waiting[index]? with
    | none => s
    | some m =>
      let outcome := (s.registry.register m.platforms).run.run s.journal
      { journal := outcome.2
        waiting := s.waiting.eraseIdx index
        registry := (outcome.1.toOption.map Prod.fst).getD s.registry
        answers := s.answers ++ [outcome.1.map Prod.snd] }

def after (s : Intake) (steps : List Step) : Intake := steps.foldl perform s

/-- What the platforms read in steps declare, with their numbers if they are counted on from `n`. -/
def numbered (n : Nat) : List Step → List (Option String × Nat)
  | [] => []
  | step :: rest => step.numbered n ++ numbered (step.counted n) rest

/-- A document declares the id that is generated for a platform that declares none. -/
def Repeats (entries : List (Option String × Nat)) : Prop :=
  ∃ number other, (none, number) ∈ entries ∧
    (some (Platform.generatedId number), other) ∈ entries

/-! ## Distinct ids -/

variable {entries : List (Option String × Nat)}

theorem eq_of_declared (h : (entries.filterMap Prod.fst).Nodup) {a b : Option String × Nat}
    (ha : a ∈ entries) (hb : b ∈ entries) {id : String} (haid : a.1 = some id)
    (hbid : b.1 = some id) : a = b := by
  by_contra hne
  rw [List.Nodup, List.pairwise_filterMap] at h
  have hsymm : Std.Symm fun a b : Option String × Nat =>
      ∀ x, a.1 = some x → ∀ y, b.1 = some y → x ≠ y :=
    ⟨fun _ _ hab y hy x hx => (hab x hx y hy).symm⟩
  exact h.forall ha hb hne id haid id hbid rfl

/-- Platforms with distinct numbers and distinct declared ids have distinct ids, unless one declares
what is generated for another. The numbers must not have begun again. -/
theorem nodup_ids_iff (hfew : ∀ entry ∈ entries, entry.2 < UInt64.size)
    (hnumbers : (entries.map Prod.snd).Nodup) (hdeclared : (entries.filterMap Prod.fst).Nodup) :
    (entries.map Platform.idOf).Nodup ↔ ¬Repeats entries := by
  constructor
  · rintro hnodup ⟨number, other, hgenerated, hdeclares⟩
    have hsame := List.inj_on_of_nodup_map hnodup hgenerated hdeclares rfl
    cases hsame
  · intro hrepeats
    apply List.Nodup.map_on _ hnumbers.of_map
    rintro ⟨first, number⟩ hfirst ⟨second, other⟩ hsecond hsame
    cases first with
    | none =>
      cases second with
      | none =>
        have hnumber : number = other :=
          Platform.generatedId_injOn (hfew _ hfirst) (hfew _ hsecond) hsame
        rw [hnumber]
      | some id =>
        have hid : Platform.generatedId number = id := hsame
        subst hid
        exact absurd ⟨number, other, hfirst, hsecond⟩ hrepeats
    | some id =>
      cases second with
      | none =>
        have hid : id = Platform.generatedId other := hsame
        subst hid
        exact absurd ⟨other, number, hsecond, hfirst⟩ hrepeats
      | some id' =>
        have hid : id = id' := hsame
        subst hid
        exact eq_of_declared hdeclared hfirst hsecond rfl rfl

theorem filterMap_fst_zipIdx (declared : List (Option String)) (n : Nat) :
    (declared.zipIdx n).filterMap Prod.fst = declared.filterMap fun id => id := by
  calc (declared.zipIdx n).filterMap Prod.fst
      = ((declared.zipIdx n).map Prod.fst).filterMap fun id => id := by
        rw [List.filterMap_map]
        rfl
    _ = declared.filterMap fun id => id := by rw [List.zipIdx_map_fst]

theorem Step.numbered_sublist (n : Nat) (step : Step) :
    ((step.numbered n).filterMap Prod.fst).Sublist step.declaredIds := by
  cases step with
  | register index => exact .slnil
  | read source =>
    show ((source.numbered n).filterMap Prod.fst).Sublist _
    unfold Source.numbered
    cases (source.parse.run.run n).1 with
    | ok m =>
      dsimp only
      rw [filterMap_fst_zipIdx]
      rfl
    | error e => exact List.nil_sublist _

theorem numbered_sublist (n : Nat) (steps : List Step) :
    ((numbered n steps).filterMap Prod.fst).Sublist (steps.flatMap Step.declaredIds) := by
  induction steps generalizing n with
  | nil => exact .slnil
  | cons step rest ih =>
    rw [numbered, List.filterMap_append, List.flatMap_cons]
    exact (step.numbered_sublist n).append (ih _)

/-! ## What one step does -/

/-- The ids of the platforms of manifests. -/
def idsOf (manifests : List Manifest) : List String :=
  manifests.flatMap fun m => m.platforms.map Platform.id

/-- The ids of all platforms, registered or waiting. -/
def ids (s : Intake) : List String := s.registry.ids ++ idsOf s.waiting

end Intake

namespace Intake.Source

theorem counts_parse (source : Source) : Counts source.parse :=
  Manifest.counts_parse source.working source.document source.file

theorem made_of_read (source : Source) (n : Nat) :
    ∀ m ∈ (source.parse.run.run n).1.toOption.toList, m.Made := by
  intro m hm
  cases hrun : source.parse.run.run n with
  | mk result n' =>
    rw [hrun] at hm
    cases result with
    | error e => cases hm
    | ok read =>
      rw [List.mem_singleton.1 hm]
      exact .parsed hrun

/-- The ids of what is read are those that are declared, and generated ones of the same numbers. -/
theorem ids_of_read (source : Source) (n : Nat) :
    Intake.idsOf (source.parse.run.run n).1.toOption.toList =
      (source.numbered n).map Platform.idOf := by
  unfold numbered
  cases hrun : source.parse.run.run n with
  | mk result n' =>
    cases result with
    | error e => rfl
    | ok m =>
      obtain ⟨-, hids⟩ := Manifest.of_run_parse_ids hrun
      show [m].flatMap _ = _
      rw [List.flatMap_singleton, hids]

theorem nodup_numbers (source : Source) (n : Nat) :
    ((source.numbered n).map Prod.snd).Nodup := by
  unfold numbered
  cases (source.parse.run.run n).1 with
  | error e => exact .nil
  | ok m =>
    dsimp only
    rw [List.zipIdx_map_snd]
    exact List.nodup_range'

theorem bounds_of_numbered {source : Source} {n : Nat} {entry : Option String × Nat}
    (h : entry ∈ source.numbered n) :
    n < entry.2 ∧ entry.2 ≤ (source.parse.run.run n).2 := by
  unfold numbered at h
  cases hrun : source.parse.run.run n with
  | mk result n' =>
    rw [hrun] at h
    cases result with
    | error e => cases h
    | ok m =>
      obtain ⟨rfl, -⟩ := Manifest.of_run_parse_ids hrun
      have hnumber := List.mem_map_of_mem (f := Prod.snd) h
      rw [List.zipIdx_map_snd, List.mem_range'_1] at hnumber
      dsimp only
      omega

end Intake.Source

namespace Intake

variable {s : Intake} {m : Manifest}

theorem perform_read (s : Intake) (source : Source) :
    s.perform (.read source) =
      { s with
        journal := { s.journal with
          generated := (source.parse.run.run s.journal.generated).2 }
        waiting := s.waiting ++
          (source.parse.run.run s.journal.generated).1.toOption.toList } := by
  rw [perform, Logged.run_generating]

theorem perform_register_none {index : Nat} (h : s.waiting[index]? = none) :
    s.perform (.register index) = s := by
  rw [perform, h]

theorem perform_register_of_not_clashes (hconsistent : s.registry.Consistent) {index : Nat}
    (h : s.waiting[index]? = some m) (hclash : ¬(Registry.Call.manifest m).Clashes s.registry) :
    ∃ journal, journal.generated = s.journal.generated ∧
      s.perform (.register index) =
        { journal
          waiting := s.waiting.eraseIdx index
          registry := m.platforms.foldl Registry.insert s.registry
          answers := s.answers ++ [.ok (m.platforms.map Platform.makeImmutable)] } := by
  obtain ⟨journal, hgenerated, hrun⟩ := s.registry.run_register m.platforms s.journal
  have hfirst : s.registry.firstDuplicate? [] m.platforms = none :=
    (hconsistent.indexed.firstDuplicate?_eq_none_iff (.manifest m)).2 hclash
  rw [Registry.addAll, hfirst] at hrun
  refine ⟨journal, hgenerated, ?_⟩
  rw [perform, h]
  dsimp only
  rw [hrun]
  rfl

theorem perform_register_of_clashes (hconsistent : s.registry.Consistent) {index : Nat}
    (h : s.waiting[index]? = some m) (hclash : (Registry.Call.manifest m).Clashes s.registry) :
    ∃ journal id file, journal.generated = s.journal.generated ∧
      s.perform (.register index) =
        { journal
          waiting := s.waiting.eraseIdx index
          registry := s.registry
          answers := s.answers ++ [.error (.duplicatePlatformId id file)] } := by
  obtain ⟨journal, hgenerated, hrun⟩ := s.registry.run_register m.platforms s.journal
  cases hfirst : s.registry.firstDuplicate? [] m.platforms with
  | none =>
    exact absurd hclash
      ((hconsistent.indexed.firstDuplicate?_eq_none_iff (.manifest m)).1 hfirst)
  | some p =>
    rw [Registry.addAll, hfirst] at hrun
    refine ⟨journal, p.id, p.file, hgenerated, ?_⟩
    rw [perform, h]
    dsimp only
    rw [hrun]
    rfl

theorem generated_perform (s : Intake) (step : Step) :
    (s.perform step).journal.generated = step.counted s.journal.generated := by
  cases step with
  | read source =>
    rw [perform_read]
    rfl
  | register index =>
    cases hfound : s.waiting[index]? with
    | none =>
      rw [perform_register_none hfound]
      rfl
    | some m =>
      obtain ⟨journal, hgenerated, hrun⟩ := s.registry.run_register m.platforms s.journal
      rw [perform, hfound]
      dsimp only
      rw [hrun]
      exact hgenerated

theorem generated_after (s : Intake) (steps : List Step) :
    (s.after steps).journal.generated =
      steps.foldl (fun n step => step.counted n) s.journal.generated := by
  induction steps generalizing s with
  | nil => rfl
  | cons step rest ih =>
    rw [List.foldl_cons, ← generated_perform]
    exact ih (s.perform step)

/-! ## Any steps -/

/-- How the ids of a process are those of the entries that it has read. Nothing is lost before a
registration is refused, and that happens only if an id stands twice. -/
structure Accounts (s : Intake) (entries : List (Option String × Nat)) : Prop where
  consistent : s.registry.Consistent
  made : ∀ m ∈ s.waiting, m.Made
  counted : ∀ entry ∈ entries, entry.2 ≤ s.journal.generated
  numbers : (entries.map Prod.snd).Nodup
  among : s.ids.Subperm (entries.map Platform.idOf)
  complete : (∀ e, .error e ∉ s.answers) → s.ids.Perm (entries.map Platform.idOf)
  refused : ∀ e, .error e ∈ s.answers →
    (∃ id file, e = .duplicatePlatformId id file) ∧ ¬(entries.map Platform.idOf).Nodup

theorem accounts_empty : Accounts {} [] where
  consistent := Registry.consistent_empty
  made := by simp
  counted := by simp
  numbers := .nil
  among := .refl []
  complete := fun _ => .nil
  refused := by simp

theorem idsOf_append (first second : List Manifest) :
    idsOf (first ++ second) = idsOf first ++ idsOf second :=
  List.flatMap_append

theorem Accounts.read (h : s.Accounts entries) (source : Source) :
    (s.perform (.read source)).Accounts (entries ++ source.numbered s.journal.generated) := by
  rw [perform_read]
  have hids : ({ s with
      journal := { s.journal with generated := (source.parse.run.run s.journal.generated).2 }
      waiting := s.waiting ++ (source.parse.run.run s.journal.generated).1.toOption.toList } :
      Intake).ids = s.ids ++ (source.numbered s.journal.generated).map Platform.idOf := by
    show s.registry.ids ++ idsOf (s.waiting ++ _) = _
    rw [idsOf_append, source.ids_of_read, ← List.append_assoc]
    rfl
  have hgrown := source.counts_parse s.journal.generated
  refine ⟨h.consistent, ?_, ?_, ?_, ?_, ?_, ?_⟩
  · rw [List.forall_mem_append]
    exact ⟨h.made, source.made_of_read _⟩
  · rw [List.forall_mem_append]
    exact ⟨fun entry hmem => (h.counted entry hmem).trans hgrown,
      fun entry hmem => (Source.bounds_of_numbered hmem).2⟩
  · rw [List.map_append, List.nodup_append]
    refine ⟨h.numbers, source.nodup_numbers _, ?_⟩
    -- what has been read before was counted up to the number that the new ones begin behind
    rintro number hold other hnew rfl
    obtain ⟨before, hbefore, rfl⟩ := List.mem_map.1 hold
    obtain ⟨behind, hbehind, heq⟩ := List.mem_map.1 hnew
    have hle := h.counted before hbefore
    have hlt := (Source.bounds_of_numbered hbehind).1
    omega
  · rw [hids, List.map_append]
    exact (List.subperm_append_right _).2 h.among
  · intro hpassed
    rw [hids, List.map_append]
    exact (h.complete hpassed).append_right _
  · intro e he
    obtain ⟨hduplicate, hrepeated⟩ := h.refused e he
    refine ⟨hduplicate, fun hnodup => hrepeated ?_⟩
    rw [List.map_append] at hnodup
    exact hnodup.of_append_left

theorem ids_perm_of_getElem? {index : Nat} (h : s.waiting[index]? = some m) :
    s.ids.Perm (s.registry.ids ++ m.platforms.map Platform.id ++
      idsOf (s.waiting.eraseIdx index)) := by
  obtain ⟨hlt, rfl⟩ := List.getElem?_eq_some_iff.1 h
  have hperm := (List.getElem_cons_eraseIdx_perm hlt).symm
  have hflat := hperm.flatMap_right fun m => m.platforms.map Platform.id
  rw [List.append_assoc]
  exact hflat.append_left _

theorem nodup_of_subperm {α : Type} {first second : List α} (h : first.Subperm second)
    (hnodup : second.Nodup) : first.Nodup := by
  obtain ⟨between, hperm, hsublist⟩ := h
  exact hperm.nodup_iff.1 (hnodup.sublist hsublist)

theorem Accounts.not_nodup_of_clashes (h : s.Accounts entries) {index : Nat}
    (hfound : s.waiting[index]? = some m)
    (hclash : (Registry.Call.manifest m).Clashes s.registry) :
    ¬(entries.map Platform.idOf).Nodup := by
  intro hnodup
  have hall := (ids_perm_of_getElem? hfound).nodup_iff.1 (nodup_of_subperm h.among hnodup)
  have hboth := hall.of_append_left
  rcases hclash with ⟨p, hp, hregistered⟩ | htwice
  · have hmem : p.id ∈ m.platforms.map Platform.id := List.mem_map_of_mem hp
    exact (List.nodup_append.1 hboth).2.2 p.id hregistered p.id hmem rfl
  · exact htwice hboth.of_append_right

theorem Accounts.refuse (h : s.Accounts entries) {index : Nat}
    (hfound : s.waiting[index]? = some m)
    (hclash : (Registry.Call.manifest m).Clashes s.registry) :
    (s.perform (.register index)).Accounts entries := by
  have hperm := ids_perm_of_getElem? hfound
  have hrepeated := h.not_nodup_of_clashes hfound hclash
  obtain ⟨journal, id, file, hgenerated, hperform⟩ :=
    perform_register_of_clashes h.consistent hfound hclash
  have hlast : Except.error (.duplicatePlatformId id file) ∈
      s.answers ++ [.error (.duplicatePlatformId id file)] := by simp
  -- the manifest is dropped, so the ids that are left are only some of those before
  have hdropped : (s.registry.ids ++ idsOf (s.waiting.eraseIdx index)).Sublist
      (s.registry.ids ++ m.platforms.map Platform.id ++ idsOf (s.waiting.eraseIdx index)) :=
    (List.sublist_append_left _ _).append (.refl _)
  rw [hperform]
  exact {
    consistent := h.consistent
    made := fun m' hm' => h.made m' (List.mem_of_mem_eraseIdx hm')
    counted := fun entry hmem => (h.counted entry hmem).trans_eq hgenerated.symm
    numbers := h.numbers
    among := (hdropped.subperm.trans hperm.symm.subperm).trans h.among
    complete := fun hpassed => absurd hlast (hpassed _)
    refused := by
      intro e he
      rcases List.mem_append.1 he with hold | hnew
      · exact h.refused e hold
      · cases List.mem_singleton.1 hnew
        exact ⟨⟨id, file, rfl⟩, hrepeated⟩ }

theorem Accounts.enter (h : s.Accounts entries) {index : Nat}
    (hfound : s.waiting[index]? = some m)
    (hclash : ¬(Registry.Call.manifest m).Clashes s.registry) :
    (s.perform (.register index)).Accounts entries := by
  obtain ⟨hnew, hdistinct⟩ := not_or.1 hclash
  have hconsistent : (m.platforms.foldl Registry.insert s.registry).Consistent := by
    have hmade : (Registry.Call.manifest m).Made := h.made m (List.mem_of_getElem? hfound)
    apply h.consistent.foldl_insert hmade.coherent _ (not_not.1 hdistinct)
    exact fun p hp hmem => hnew ⟨p, hp, hmem⟩
  -- the ids of the manifest are moved from those that wait into the registry
  have hperm : ((m.platforms.foldl Registry.insert s.registry).ids ++
      idsOf (s.waiting.eraseIdx index)).Perm s.ids := by
    rw [Registry.ids_foldl_insert]
    exact (ids_perm_of_getElem? hfound).symm
  obtain ⟨journal, hgenerated, hperform⟩ :=
    perform_register_of_not_clashes h.consistent hfound hclash
  rw [hperform]
  exact {
    consistent := hconsistent
    made := fun m' hm' => h.made m' (List.mem_of_mem_eraseIdx hm')
    counted := fun entry hmem => (h.counted entry hmem).trans_eq hgenerated.symm
    numbers := h.numbers
    among := hperm.subperm.trans h.among
    complete := by
      intro hpassed
      apply hperm.trans (h.complete _)
      exact fun e he => hpassed e (List.mem_append_left _ he)
    refused := by
      intro e he
      rcases List.mem_append.1 he with hold | hlast
      · exact h.refused e hold
      · cases List.mem_singleton.1 hlast }

theorem Accounts.register (h : s.Accounts entries) (index : Nat) :
    (s.perform (.register index)).Accounts entries := by
  cases hfound : s.waiting[index]? with
  | none =>
    rw [perform_register_none hfound]
    exact h
  | some m =>
    by_cases hclash : (Registry.Call.manifest m).Clashes s.registry
    · exact h.refuse hfound hclash
    · exact h.enter hfound hclash

theorem Accounts.step (h : s.Accounts entries) (step : Step) :
    (s.perform step).Accounts (entries ++ step.numbered s.journal.generated) := by
  cases step with
  | read source => exact h.read source
  | register index =>
    rw [Step.numbered, List.append_nil]
    exact h.register index

theorem Accounts.after (h : s.Accounts entries) (steps : List Step) :
    (s.after steps).Accounts (entries ++ numbered s.journal.generated steps) := by
  induction steps generalizing s entries with
  | nil =>
    rw [numbered, List.append_nil]
    exact h
  | cons step rest ih =>
    have hfirst := h.step step
    have hrest := ih hfirst
    rw [generated_perform, List.append_assoc] at hrest
    exact hrest

/-- Once nothing waits, some registration has been refused if and only if an id stands twice. -/
theorem Accounts.refused_iff (h : s.Accounts entries) (hnone : s.waiting = []) :
    (∃ id file, .error (.duplicatePlatformId id file) ∈ s.answers) ↔
      ¬(entries.map Platform.idOf).Nodup := by
  constructor
  · rintro ⟨id, file, he⟩
    exact (h.refused _ he).2
  · intro hrepeated
    -- without a refusal all ids would be registered, and a registry has none twice
    by_contra hpassed
    have hperm : s.ids.Perm (entries.map Platform.idOf) := by
      apply h.complete
      intro e he
      obtain ⟨⟨id, file, rfl⟩, -⟩ := h.refused e he
      exact hpassed ⟨id, file, he⟩
    have hregistered : s.ids = s.registry.ids := by
      rw [ids, hnone]
      exact List.append_nil _
    rw [hregistered] at hperm
    exact hrepeated (hperm.nodup_iff.1 h.consistent.distinct)

/-! ## Results -/

/-- If the declared ids of all documents are distinct, and the process makes fewer platforms than
there are numbers, then no registration fails, unless a document declares the very id that is
generated for a platform without one. If a document does, and all that has been read is registered,
then some registration fails because of a repeated id. -/
theorem refused_iff_generated_id_declared {steps : List Step}
    (hdistinct : (steps.flatMap Step.declaredIds).Nodup)
    (hfew : (after {} steps).journal.generated < UInt64.size) :
    let s := after {} steps
    let entries := numbered 0 steps
    (∀ e, .error e ∈ s.answers →
      (∃ id file, e = .duplicatePlatformId id file) ∧ Repeats entries) ∧
    (s.waiting = [] → Repeats entries →
      ∃ id file, .error (.duplicatePlatformId id file) ∈ s.answers) := by
  intro s entries
  have h : s.Accounts entries := accounts_empty.after steps
  have hdeclared : (entries.filterMap Prod.fst).Nodup :=
    hdistinct.sublist (numbered_sublist 0 steps)
  have hiff := nodup_ids_iff (fun entry hmem => (h.counted entry hmem).trans_lt hfew) h.numbers
    hdeclared
  refine ⟨?_, ?_⟩
  · intro e he
    obtain ⟨hduplicate, hrepeated⟩ := h.refused e he
    exact ⟨hduplicate, not_not.1 (mt hiff.2 hrepeated)⟩
  · intro hnone hrepeats
    exact (h.refused_iff hnone).2 fun hnodup => hiff.1 hnodup hrepeats

/-- A manifest of one platform, with an id or without one. -/
def sampleDocument (id : Option String) : Document :=
  .object [
    ("app", .string manifestApp),
    ("platforms", .array [.object
      ((id.map fun id => ("id", .string id)).toList ++ [("technology", .string "python")])])]

/-- A manifest without an id and another one are read, and registered the other way round. -/
def sampleSteps (other : Document) : List Step :=
  [.read { working := ⟨"/w"⟩, document := sampleDocument none },
    .read { working := ⟨"/w"⟩, document := other }, .register 1, .register 0]

theorem sample_is_not_refused :
    let s := after {} (sampleSteps (sampleDocument (some "mine")))
    s.journal.generated < UInt64.size ∧ s.answers.length = 2 ∧ ∀ e, .error e ∉ s.answers := by
  intro s
  have hdistinct : ((sampleSteps (sampleDocument (some "mine"))).flatMap Step.declaredIds).Nodup :=
    List.nodup_singleton "mine"
  have hentries : numbered 0 (sampleSteps (sampleDocument (some "mine"))) =
      [(none, 1), (some "mine", 2)] := rfl
  have hfew : s.journal.generated < UInt64.size := by
    have hcount : s.journal.generated = 2 := generated_after {} _
    rw [hcount]
    decide
  have hother : "mine" ≠ Platform.generatedId 1 := by decide
  refine ⟨hfew, rfl, ?_⟩
  intro e he
  obtain ⟨-, number, other, hgenerated, hdeclared⟩ :=
    (refused_iff_generated_id_declared hdistinct hfew).1 e he
  rw [hentries] at hgenerated hdeclared
  have hnumber : number = 1 := by simpa using hgenerated
  subst hnumber
  have hsame : Platform.generatedId 1 = "mine" ∧ other = 2 := by simpa using hdeclared
  exact hother hsame.1.symm

/-- What is written of a manifest without an id after nothing else has been read. -/
def writtenSample : Document :=
  .object [
    ("app", .string manifestApp),
    ("version", .string Manifest.currentVersion),
    ("platforms", .array [.object [
      ("id", .string (Platform.generatedId 1)), ("name", .string Platform.defaultName),
      ("technology", .string "python"), ("folders", .object []), ("configuration", .object [])]])]

/-- A process reads a manifest without an id and writes it. The next process refuses what has been
written if it has read another manifest without an id before, although there is only one declared
id. -/
theorem written_id_is_generated_again :
    let earlier := after {} [.read { working := ⟨"/w"⟩, document := sampleDocument none }]
    earlier.waiting.map Manifest.toDocument = [writtenSample] ∧
      (sampleSteps writtenSample).flatMap Step.declaredIds = [Platform.generatedId 1] ∧
      ∃ id file,
        .error (.duplicatePlatformId id file) ∈ (after {} (sampleSteps writtenSample)).answers := by
  intro earlier
  have h := accounts_empty.after (sampleSteps writtenSample)
  have hids : ([] ++ numbered 0 (sampleSteps writtenSample)).map Platform.idOf =
      [Platform.generatedId 1, Platform.generatedId 1] := rfl
  refine ⟨rfl, rfl, (h.refused_iff rfl).2 ?_⟩
  intro hnodup
  have htwice : ([Platform.generatedId 1, Platform.generatedId 1]).Nodup := hids ▸ hnodup
  exact (List.nodup_cons.1 htwice).1 (List.mem_singleton_self _)

end Intake

end ExecutorHost
