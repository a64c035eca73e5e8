import ExecutorHost.Proofs.Worker.Table
import ExecutorHost.Settings.Executor
import Mathlib.Data.List.Infix
import Mathlib.Logic.Function.Basic

/-!
# Slots and what happens to their loader

A loader changes while slots are used that take their workers from it. A use looks its worker up
first: if there is none, the use is over and the slot stays as it is, and otherwise the slot has its
copy from then on, however the use goes on. So in any history a slot has what was registered under
its id at its first use that found anything, and nothing before that. This is shown of any use that
looks up first; a plain use is one.
-/

namespace ExecutorHost

variable {ι α τ ρ ε : Type}

/-! ## Histories -/

/-- A call to a loader, or a use of one of the slots that take their workers from it. -/
inductive SlotCall (ι α τ : Type)
  | loader (call : WorkerCall α)
  | use (slot : ι) (task : τ)

namespace SlotCall

def loaderCall? : SlotCall ι α τ → Option (WorkerCall α)
  | loader call => some call
  | use _ _ => none

def loaderCalls (calls : List (SlotCall ι α τ)) : List (WorkerCall α) :=
  calls.filterMap loaderCall?

/-- The worker that is registered under an id after calls. -/
def registered (calls : List (SlotCall ι α τ)) (id : String) : Option α :=
  WorkerCall.mapping (loaderCalls calls) id

/-- A slot is used directly behind the first calls of a history. -/
def UsedBehind (calls : List (SlotCall ι α τ)) (slot : ι) (front : List (SlotCall ι α τ)) : Prop :=
  ∃ task, front ++ [use slot task] <+: calls

/-- The first use of a slot that finds its id registered finds this worker there. -/
def Finds (ids : ι → String) (calls : List (SlotCall ι α τ)) (slot : ι) (worker : α) : Prop :=
  ∃ front, UsedBehind calls slot front ∧ registered front (ids slot) = some worker ∧
    ∀ earlier, UsedBehind front slot earlier → registered earlier (ids slot) = none

variable {ids : ι → String} {calls front : List (SlotCall ι α τ)} {i j : ι} {w w' : α}

theorem registered_snoc_loader (calls : List (SlotCall ι α τ)) (call : WorkerCall α) (id : String) :
    registered (calls ++ [loader call]) id = call.outcome id (registered calls id) := by
  have happend : loaderCalls (calls ++ [loader call]) = loaderCalls calls ++ [call] := by
    simp [loaderCalls, loaderCall?]
  rw [registered, happend, WorkerCall.mapping, WorkerCall.outcomeOf, List.foldl_append]
  rfl

theorem loaderCalls_snoc_use (calls : List (SlotCall ι α τ)) (slot : ι) (task : τ) :
    loaderCalls (calls ++ [use slot task]) = loaderCalls calls := by
  simp [loaderCalls, loaderCall?]

theorem registered_snoc_use (calls : List (SlotCall ι α τ)) (slot : ι) (task : τ) (id : String) :
    registered (calls ++ [use slot task]) id = registered calls id := by
  rw [registered, loaderCalls_snoc_use]
  rfl

theorem usedBehind_snoc_loader {call : WorkerCall α} :
    UsedBehind (calls ++ [loader call]) i front ↔ UsedBehind calls i front := by
  simp [UsedBehind, List.prefix_concat_iff]

theorem usedBehind_snoc_use {task : τ} :
    UsedBehind (calls ++ [use j task]) i front ↔
      (j = i ∧ front = calls) ∨ UsedBehind calls i front := by
  unfold UsedBehind
  simp only [List.prefix_concat_iff]
  constructor
  · rintro ⟨task', hlast | hearlier⟩
    · obtain ⟨hfront, huse⟩ := List.append_inj' hlast rfl
      cases huse
      exact .inl ⟨rfl, hfront⟩
    · exact .inr ⟨task', hearlier⟩
  · rintro (⟨rfl, rfl⟩ | ⟨task', hearlier⟩)
    · exact ⟨task, .inl rfl⟩
    · exact ⟨task', .inr hearlier⟩

theorem not_usedBehind_nil : ¬UsedBehind ([] : List (SlotCall ι α τ)) i front := by
  rintro ⟨task, hprefix⟩
  simp at hprefix

theorem UsedBehind.mono {others : List (SlotCall ι α τ)} (h : UsedBehind calls i front)
    (hcalls : calls <+: others) : UsedBehind others i front := by
  obtain ⟨task, hprefix⟩ := h
  exact ⟨task, hprefix.trans hcalls⟩

theorem Finds.mono {others : List (SlotCall ι α τ)} (h : Finds ids calls i w)
    (hcalls : calls <+: others) : Finds ids others i w := by
  obtain ⟨front, hused, hfound⟩ := h
  exact ⟨front, hused.mono hcalls, hfound⟩

theorem UsedBehind.isPrefix (h : UsedBehind calls i front) : front <+: calls := by
  obtain ⟨task, hprefix⟩ := h
  exact (List.prefix_append front _).trans hprefix

/-- Of two uses in one history the first one has been made when the second one is. -/
theorem UsedBehind.of_length_lt {later : List (SlotCall ι α τ)} (h : UsedBehind calls i front)
    (hlater : later <+: calls) (hlt : front.length < later.length) :
    UsedBehind later i front := by
  obtain ⟨task, hprefix⟩ := h
  exact ⟨task, List.prefix_of_prefix_length_le hprefix hlater (by simpa using Nat.succ_le_of_lt hlt)⟩

theorem Finds.unique (h : Finds ids calls i w) (h' : Finds ids calls i w') : w = w' := by
  obtain ⟨front, hused, hfound, hfirst⟩ := h
  obtain ⟨front', hused', hfound', hfirst'⟩ := h'
  rcases Nat.lt_trichotomy front.length front'.length with hlt | heq | hgt
  · have hnone := hfirst' front (hused.of_length_lt hused'.isPrefix hlt)
    cases hfound.symm.trans hnone
  · have hsame : front <+: front' :=
      List.prefix_of_prefix_length_le hused.isPrefix hused'.isPrefix heq.le
    cases hsame.eq_of_length heq
    exact Option.some.inj (hfound.symm.trans hfound')
  · have hnone := hfirst front' (hused'.of_length_lt hused.isPrefix hgt)
    cases hfound'.symm.trans hnone

end SlotCall

/-! ## Uses that look up first -/

/-- A use of a slot for a task: the slot afterwards and the result. -/
abbrev SlotUse (ε α τ ρ : Type) := Slot α → Loader α → τ → Logged ε (SlotRun α ρ)

/-- A use that looks its worker up first. It goes on with the worker and the loader if there is one,
and the slot has its copy whatever comes of that. -/
structure SlotUse.LooksUp (use : SlotUse ε α τ ρ) (found : α → Loader α → τ → ρ)
    (missing : WorkerError → τ → ρ) : Prop where
  of_ok {slot : Slot α} {loader : Loader α} {worker : α} (h : slot.fill loader = .ok worker)
    (task : τ) (journal : Journal) : ∃ journal', (use slot loader task).run.run journal =
      (.ok ⟨slot.filled worker, found worker loader task⟩, journal')
  of_error {slot : Slot α} {loader : Loader α} {e : WorkerError} (h : slot.fill loader = .error e)
    (task : τ) (journal : Journal) : ∃ journal', (use slot loader task).run.run journal =
      (.ok ⟨slot, missing e task⟩, journal')

/-- A loader and the slots that take their workers from it. -/
structure Bench (ι α : Type) where
  /-- The registered workers. -/
  loader : Loader α
  /-- The slots. -/
  slots : ι → Slot α

namespace Bench

open SlotCall

variable {ids : ι → String} {calls : List (SlotCall ι α τ)} {b : Bench ι α} {i j : ι} {w : α}

/-- No workers, and a new slot for each id. -/
def fresh (ids : ι → String) : Bench ι α := ⟨.empty, fun i => { id := ids i }⟩

/-- What a bench is after a history: its loader has what is registered, and each slot has what its
first use that found anything found. -/
structure Tracks (ids : ι → String) (calls : List (SlotCall ι α τ)) (b : Bench ι α) : Prop where
  loader : ∀ id, b.loader.get? id = registered calls id
  id : ∀ i, (b.slots i).id = ids i
  filled : ∀ i w, (b.slots i).copy = some w → Finds ids calls i w
  empty : ∀ i, (b.slots i).copy = none →
    ∀ front, UsedBehind calls i front → registered front (ids i) = none

theorem tracks_fresh (ids : ι → String) :
    Tracks ids ([] : List (SlotCall ι α τ)) (fresh ids) where
  loader _ := rfl
  id _ := rfl
  filled i w h := by cases h
  empty i _ front h := absurd h not_usedBehind_nil

theorem Tracks.slot_eq (h : Tracks ids calls b) {copy : Option α}
    (hcopy : (b.slots i).copy = copy) : b.slots i = ⟨ids i, copy⟩ := by
  rw [← h.id i, ← hcopy]

theorem Tracks.copy_of_finds (h : Tracks ids calls b) (hfinds : Finds ids calls i w) :
    (b.slots i).copy = some w := by
  cases hcopy : (b.slots i).copy with
  | some w' => rw [(h.filled i w' hcopy).unique hfinds]
  | none =>
    obtain ⟨front, hused, hfound, -⟩ := hfinds
    cases hfound.symm.trans (h.empty i hcopy front hused)

theorem Tracks.copy_of_not_finds (h : Tracks ids calls b) (hnot : ∀ w, ¬Finds ids calls i w) :
    (b.slots i).copy = none := by
  cases hcopy : (b.slots i).copy with
  | none => rfl
  | some w => exact absurd (h.filled i w hcopy) (hnot w)

theorem Tracks.leadsTo (h : Tracks ids calls b) :
    WorkerCall.LeadsTo (loaderCalls calls) b.loader := by
  obtain ⟨m, hm, hget⟩ := WorkerCall.exists_leadsTo (loaderCalls calls)
  have hsame : m = b.loader := IdMap.ext_get? fun id => (hget id).trans (h.loader id).symm
  exact hsame ▸ hm

/-! ## What a call changes -/

/-- A call to the loader is none to a slot. -/
theorem Tracks.loaderCall (h : Tracks ids calls b) {call : WorkerCall α} {after : Loader α}
    (hafter : ∀ id, after.get? id = call.outcome id (b.loader.get? id)) :
    Tracks ids (calls ++ [.loader call]) { b with loader := after } where
  loader id := by rw [hafter, h.loader, registered_snoc_loader]
  id := h.id
  filled i w hcopy := (h.filled i w hcopy).mono (List.prefix_append _ _)
  empty i hcopy front hused := h.empty i hcopy front (usedBehind_snoc_loader.1 hused)

/-- A use of a slot that has its copy, or that finds nothing, changes nothing. -/
theorem Tracks.unchanged (h : Tracks ids calls b)
    (hnone : (b.slots j).copy = none → registered calls (ids j) = none) (task : τ) :
    Tracks ids (calls ++ [.use j task]) b where
  loader id := by rw [h.loader, registered_snoc_use]
  id := h.id
  filled i w hcopy := (h.filled i w hcopy).mono (List.prefix_append _ _)
  empty i hcopy front hused := by
    rcases usedBehind_snoc_use.1 hused with ⟨rfl, rfl⟩ | hearlier
    · exact hnone hcopy
    · exact h.empty i hcopy front hearlier

variable [DecidableEq ι]

/-- The first use that finds a worker puts it into its slot and into no other. -/
theorem Tracks.taken (h : Tracks ids calls b) (hempty : (b.slots j).copy = none)
    (hfound : registered calls (ids j) = some w) (task : τ) :
    Tracks ids (calls ++ [.use j task])
      { b with slots := Function.update b.slots j ⟨ids j, some w⟩ } where
  loader id := by rw [h.loader, registered_snoc_use]
  id i := by
    by_cases hi : i = j
    · subst hi
      simp
    · simpa [hi] using h.id i
  filled i w' hcopy := by
    by_cases hi : i = j
    · subst hi
      have hw : w = w' := by simpa using hcopy
      subst hw
      exact ⟨calls, usedBehind_snoc_use.2 (.inl ⟨rfl, rfl⟩), hfound, h.empty i hempty⟩
    · have hcopy : (b.slots i).copy = some w' := by simpa [hi] using hcopy
      exact (h.filled i w' hcopy).mono (List.prefix_append _ _)
  empty i hcopy front hused := by
    have hi : i ≠ j := by
      rintro rfl
      simp at hcopy
    have hcopy : (b.slots i).copy = none := by simpa [hi] using hcopy
    rcases usedBehind_snoc_use.1 hused with ⟨hij, -⟩ | hearlier
    · exact absurd hij.symm hi
    · exact h.empty i hcopy front hearlier

/-! ## Runs -/

variable {use : SlotUse ε α τ ρ} {found : α → Loader α → τ → ρ} {missing : WorkerError → τ → ρ}

def useSlot (use : SlotUse ε α τ ρ) (b : Bench ι α) (i : ι) (task : τ) :
    Logged ε (Bench ι α × ρ) := do
  let run ← use (b.slots i) b.loader task
  return ({ b with slots := Function.update b.slots i run.slot }, run.result)

def perform (use : SlotUse ε α τ ρ) (b : Bench ι α) : SlotCall ι α τ → Logged ε (Bench ι α)
  | .loader call => do
    let loader ← call.run b.loader
    return { b with loader }
  | .use i task => do
    let (after, _) ← b.useSlot use i task
    return after

/-- Calls one after another. -/
def performAll (use : SlotUse ε α τ ρ) (b : Bench ι α) (calls : List (SlotCall ι α τ)) :
    Logged ε (Bench ι α) :=
  calls.foldlM (perform use) b

/-- A slot that has its copy goes on with it. -/
theorem Tracks.run_useSlot_of_copy (h : Tracks ids calls b) (hlooks : use.LooksUp found missing)
    (hcopy : (b.slots i).copy = some w) (task : τ) (journal : Journal) :
    ∃ journal', (b.useSlot use i task).run.run journal =
      (.ok (b, found w b.loader task), journal') := by
  have hfill : (b.slots i).fill b.loader = .ok w := by rw [Slot.fill, hcopy]
  obtain ⟨journal', hrun⟩ := hlooks.of_ok hfill task journal
  have hsame : (b.slots i).filled w = b.slots i := by rw [h.slot_eq hcopy, Slot.filled]
  refine ⟨journal', ?_⟩
  rw [useSlot, Stateful.run_bind_of_ok hrun, hsame, Function.update_eq_self]
  rfl

/-- An empty slot takes what is registered. -/
theorem Tracks.run_useSlot_of_registered (h : Tracks ids calls b)
    (hlooks : use.LooksUp found missing) (hempty : (b.slots i).copy = none)
    (hfound : registered calls (ids i) = some w) (task : τ) (journal : Journal) :
    ∃ journal', (b.useSlot use i task).run.run journal =
      (.ok ({ b with slots := Function.update b.slots i ⟨ids i, some w⟩ }, found w b.loader task),
        journal') := by
  have hfill : (b.slots i).fill b.loader = .ok w := by
    rw [Slot.fill, hempty, h.id]
    simp only [Loader.require, h.loader, hfound]
  obtain ⟨journal', hrun⟩ := hlooks.of_ok hfill task journal
  have hslot : (b.slots i).filled w = ⟨ids i, some w⟩ := by rw [h.slot_eq hempty, Slot.filled]
  refine ⟨journal', ?_⟩
  rw [useSlot, Stateful.run_bind_of_ok hrun, hslot]
  rfl

/-- An empty slot stays empty if nothing is registered. -/
theorem Tracks.run_useSlot_of_none (h : Tracks ids calls b) (hlooks : use.LooksUp found missing)
    (hempty : (b.slots i).copy = none) (hnone : registered calls (ids i) = none) (task : τ)
    (journal : Journal) :
    ∃ journal', (b.useSlot use i task).run.run journal =
      (.ok (b, missing (.notRegistered (ids i)) task), journal') := by
  have hfill : (b.slots i).fill b.loader = .error (.notRegistered (ids i)) := by
    rw [Slot.fill, hempty, h.id]
    simp only [Loader.require, h.loader, hnone]
  obtain ⟨journal', hrun⟩ := hlooks.of_error hfill task journal
  refine ⟨journal', ?_⟩
  rw [useSlot, Stateful.run_bind_of_ok hrun, Function.update_eq_self]
  rfl

theorem Tracks.run_perform (h : Tracks ids calls b) (hlooks : use.LooksUp found missing)
    (call : SlotCall ι α τ) (journal : Journal) :
    ∃ after journal', (b.perform use call).run.run journal = (.ok after, journal') ∧
      Tracks ids (calls ++ [call]) after := by
  cases call with
  | loader call =>
    obtain ⟨after, journal', hrun, hafter⟩ := WorkerCall.run_run (ε := ε) call b.loader journal
    exact ⟨_, journal', Stateful.run_bind_of_ok hrun, h.loaderCall hafter⟩
  | use i task =>
    cases hcopy : (b.slots i).copy with
    | some w =>
      obtain ⟨journal', hrun⟩ := h.run_useSlot_of_copy hlooks hcopy task journal
      have hnot : (b.slots i).copy = none → registered calls (ids i) = none := by simp [hcopy]
      exact ⟨b, journal', Stateful.run_bind_of_ok hrun, h.unchanged hnot task⟩
    | none =>
      cases hfound : registered calls (ids i) with
      | some w =>
        obtain ⟨journal', hrun⟩ := h.run_useSlot_of_registered hlooks hcopy hfound task journal
        exact ⟨_, journal', Stateful.run_bind_of_ok hrun, h.taken hcopy hfound task⟩
      | none =>
        obtain ⟨journal', hrun⟩ := h.run_useSlot_of_none hlooks hcopy hfound task journal
        exact ⟨b, journal', Stateful.run_bind_of_ok hrun, h.unchanged (fun _ => hfound) task⟩

theorem Tracks.run_performAll (h : Tracks ids calls b) (hlooks : use.LooksUp found missing)
    (later : List (SlotCall ι α τ)) (journal : Journal) :
    ∃ after journal', (b.performAll use later).run.run journal = (.ok after, journal') ∧
      Tracks ids (calls ++ later) after := by
  induction later generalizing calls b journal with
  | nil => exact ⟨b, journal, rfl, by simpa using h⟩
  | cons call rest ih =>
    obtain ⟨between, journal', hfirst, hbetween⟩ := h.run_perform hlooks call journal
    obtain ⟨after, journal'', hrest, hafter⟩ := ih hbetween journal'
    refine ⟨after, journal'', ?_, by simpa using hafter⟩
    exact (Stateful.run_bind_of_ok hfirst).trans hrest

/-- What uses of a slot do after a history. Once a use has found a worker, all later ones go on with
that worker and change nothing. Before that, a use takes the worker that is registered and changes no
other slot, or there is none and nothing changes. -/
structure Settled (use : SlotUse ε α τ ρ) (found : α → Loader α → τ → ρ)
    (missing : WorkerError → τ → ρ) (ids : ι → String) (calls : List (SlotCall ι α τ))
    (b : Bench ι α) (i : ι) : Prop where
  kept : ∀ w, Finds ids calls i w → b.slots i = ⟨ids i, some w⟩ ∧
    ∀ task journal, ∃ journal', (b.useSlot use i task).run.run journal =
      (.ok (b, found w b.loader task), journal')
  taken : (∀ w, ¬Finds ids calls i w) → ∀ w, registered calls (ids i) = some w →
    b.slots i = ⟨ids i, none⟩ ∧
    ∀ task journal, ∃ journal', (b.useSlot use i task).run.run journal =
      (.ok ({ b with slots := Function.update b.slots i ⟨ids i, some w⟩ }, found w b.loader task),
        journal')
  refused : (∀ w, ¬Finds ids calls i w) → registered calls (ids i) = none →
    b.slots i = ⟨ids i, none⟩ ∧
    ∀ task journal, ∃ journal', (b.useSlot use i task).run.run journal =
      (.ok (b, missing (.notRegistered (ids i)) task), journal')

theorem Tracks.settled (h : Tracks ids calls b) (hlooks : use.LooksUp found missing) (i : ι) :
    Settled use found missing ids calls b i where
  kept w hfinds := by
    have hcopy := h.copy_of_finds hfinds
    exact ⟨h.slot_eq hcopy, h.run_useSlot_of_copy hlooks hcopy⟩
  taken hnot w hfound := by
    have hempty := h.copy_of_not_finds hnot
    exact ⟨h.slot_eq hempty, h.run_useSlot_of_registered hlooks hempty hfound⟩
  refused hnot hnone := by
    have hempty := h.copy_of_not_finds hnot
    exact ⟨h.slot_eq hempty, h.run_useSlot_of_none hlooks hempty hnone⟩

end Bench

open Bench

/-- In every history the slots fix the workers that they first find, and the loader is what the calls
to it alone lead to. -/
def SlotUse.FixesWorkers (use : SlotUse ε α τ ρ) (found : α → Loader α → τ → ρ)
    (missing : WorkerError → τ → ρ) : Prop :=
  ∀ {ι : Type} [DecidableEq ι] (ids : ι → String) (calls : List (SlotCall ι α τ))
    (journal : Journal),
    ∃ (b : Bench ι α) (journal' : Journal),
      ((fresh ids).performAll use calls).run.run journal = (.ok b, journal') ∧
      WorkerCall.LeadsTo (SlotCall.loaderCalls calls) b.loader ∧
      ∀ i, Settled use found missing ids calls b i

theorem SlotUse.LooksUp.fixesWorkers {use : SlotUse ε α τ ρ} {found : α → Loader α → τ → ρ}
    {missing : WorkerError → τ → ρ} (h : use.LooksUp found missing) :
    use.FixesWorkers found missing := by
  intro ι _ ids calls journal
  obtain ⟨b, journal', hrun, htracks⟩ := (tracks_fresh ids).run_performAll h calls journal
  exact ⟨b, journal', hrun, htracks.leadsTo, htracks.settled h⟩

/-! ## Plain uses -/

/-- The slot and the result of a use that gives the filled slot or fails. -/
def SlotRun.ofAttempt (slot : Slot α) (result : Except WorkerError (ρ × Slot α)) :
    SlotRun α (Except WorkerError ρ) where
  slot := result.toOption.elim slot (·.2)
  result := result.map (·.1)

/-- A use that only takes the worker. -/
def Slot.takeUse : SlotUse ε α Unit (Except WorkerError α) := fun slot loader _ => do
  let result ← (slot.take loader).attempt
  return .ofAttempt slot result

variable {slot : Slot α} {loader : Loader α} {worker : α} {e : WorkerError}

theorem Slot.run_take_of_ok (h : slot.fill loader = .ok worker) (journal : Journal) :
    ∃ journal', (slot.take loader).run.run journal =
      (.ok (worker, slot.filled worker), journal') := by
  unfold take
  rw [h]
  cases slot.copy.isNone with
  | true => exact ⟨_, rfl⟩
  | false => exact ⟨_, rfl⟩

theorem Slot.run_take_of_error (h : slot.fill loader = .error e) (journal : Journal) :
    (slot.take loader).run.run journal = (.error e, journal) := by
  unfold take
  rw [h]
  rfl

theorem run_attempt {action : Logged WorkerError α} {result : Except WorkerError α}
    {journal journal' : Journal} (h : action.run.run journal = (result, journal')) :
    (action.attempt : Logged ε (Except WorkerError α)).run.run journal =
      (.ok result, journal') := by
  show (Except.ok (action.run.run journal).1, (action.run.run journal).2) = _
  rw [h]

theorem looksUp_takeUse :
    (Slot.takeUse : SlotUse ε α Unit (Except WorkerError α)).LooksUp
      (fun worker _ _ => .ok worker) (fun e _ => .error e) where
  of_ok h task journal := by
    obtain ⟨journal', hrun⟩ := Slot.run_take_of_ok h journal
    refine ⟨journal', ?_⟩
    rw [Slot.takeUse, Stateful.run_bind_of_ok (run_attempt hrun)]
    rfl
  of_error h task journal := by
    have hrun := Slot.run_take_of_error h journal
    refine ⟨journal, ?_⟩
    rw [Slot.takeUse, Stateful.run_bind_of_ok (run_attempt hrun)]
    rfl

end ExecutorHost
