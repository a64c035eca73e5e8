import ExecutorHost.Mapping.Executor
import ExecutorHost.Proofs.Settings.Layers
import ExecutorHost.Proofs.Worker.Slots

/-!
# Executors and their workers

Executors keep their workers in slots. Each of them looks its worker up before it looks at anything
else, so an executor goes on with the worker of its first successful lookup, also if that run has
then failed on its input. Nested settings are another matter: they are looked up among the combiners
that there are at the time of the run.
-/

namespace ExecutorHost

variable {ε : Type}

/-! ## Mapping executors -/

/-- A run of a mapping executor. -/
def Slot.mappingUse : SlotUse ε Mapping Members (Except WorkerError MappingOutput) :=
  fun slot mappings parameters => do
    let result ← (runMapping slot mappings parameters).attempt
    return .ofAttempt slot result

theorem looksUp_mappingUse :
    (Slot.mappingUse : SlotUse ε Mapping Members (Except WorkerError MappingOutput)).LooksUp
      (fun mapping _ parameters => .ok (.ofParameters mapping parameters))
      (fun e _ => .error e) where
  of_ok {slot loader worker} h parameters journal := by
    obtain ⟨journal', htake⟩ := Slot.run_take_of_ok h journal
    have hrun : (runMapping slot loader parameters).run.run journal =
        (.ok (.ofParameters worker parameters, slot.filled worker), journal') := by
      rw [runMapping, Stateful.run_bind_of_ok htake]
      rfl
    refine ⟨journal', ?_⟩
    rw [Slot.mappingUse, Stateful.run_bind_of_ok (run_attempt hrun)]
    rfl
  of_error {slot loader e} h parameters journal := by
    have hrun : (runMapping slot loader parameters).run.run journal = (.error e, journal) := by
      rw [runMapping, Stateful.run_bind_of_error (Slot.run_take_of_error h journal)]
    refine ⟨journal, ?_⟩
    rw [Slot.mappingUse, Stateful.run_bind_of_ok (run_attempt hrun)]
    rfl

/-! ## Settings executors -/

/-- What a settings executor is run for. -/
inductive SettingsTask
  /-- To put an input document on top of parameters. -/
  | combine (parameters : Members) (input : String)
  /-- To write an input document back into parameters. -/
  | split (parameters : Members) (input : String)

namespace SettingsTask

variable {ω : Type} {view : ω → Combiner}

def parameters : SettingsTask → Members
  | combine parameters _ => parameters
  | split parameters _ => parameters

def input : SettingsTask → String
  | combine _ input => input
  | split _ input => input

/-- A run of a settings executor. -/
def run (view : ω → Combiner) (slot : Slot ω) (loader : Loader ω) :
    SettingsTask → SlotRun ω (SplitResult SettingsOutput)
  | combine parameters input =>
    let run := SettingsExecutor.combine view loader slot parameters input
    ⟨run.slot, ⟨parameters, run.result⟩⟩
  | split parameters input => SettingsExecutor.split view loader slot parameters input

/-- A run with its reports. -/
def use (view : ω → Combiner) : SlotUse ε ω SettingsTask (SplitResult SettingsOutput) :=
  fun slot loader task => do
    let run := task.run view slot loader
    (SettingsExecutor.runEvents slot run.slot run.result.result).forM Logged.report
    return run

/-- The result for a combiner, an input document and the combiners that there are now. -/
def made (combiner : Combiner) (combiners : Combiners) (document : Members) :
    SettingsTask → SplitResult SettingsOutput
  | combine parameters _ =>
    ⟨parameters, (combiner.combine combiners parameters document).map (.ofSettings combiner)⟩
  | split parameters _ =>
    let run := combiner.split combiners parameters document
    ⟨run.parameters, run.result.map (.ofSettings combiner)⟩

/-- The result for a worker: that of its combiner, if the input is a document. -/
def answer (task : SettingsTask) (view : ω → Combiner) (worker : ω) (loader : Loader ω) :
    SplitResult SettingsOutput :=
  match SettingsOutput.readInput task.input with
  | .ok document => task.made (view worker) (loader.map view) document
  | .error e => ⟨task.parameters, .error e⟩

/-- The result without a worker. -/
def refusal (task : SettingsTask) (e : WorkerError) : SplitResult SettingsOutput :=
  ⟨task.parameters, .error (.worker e)⟩

theorem run_of_ok {slot : Slot ω} {loader : Loader ω} {worker : ω}
    (h : slot.fill loader = .ok worker) (task : SettingsTask) :
    task.run view slot loader = ⟨slot.filled worker, task.answer view worker loader⟩ := by
  unfold answer
  cases task with
  | combine parameters input =>
    simp only [run, SettingsExecutor.combine, h, SettingsTask.input, SettingsTask.parameters]
    cases hread : SettingsOutput.readInput input with
    | error e => rfl
    | ok document =>
      cases hmade : (view worker).combine (loader.map view) parameters document <;>
        simp [made, hmade, bind, Except.bind, pure, Except.pure, Except.map]
  | split parameters input =>
    simp only [run, SettingsExecutor.split, h, SettingsTask.input, SettingsTask.parameters]
    cases hread : SettingsOutput.readInput input with
    | error e => rfl
    | ok document => rfl

theorem run_of_error {slot : Slot ω} {loader : Loader ω} {e : WorkerError}
    (h : slot.fill loader = .error e) (task : SettingsTask) :
    task.run view slot loader = ⟨slot, task.refusal e⟩ := by
  cases task with
  | combine parameters input =>
    simp only [run, SettingsExecutor.combine, h]
    rfl
  | split parameters input =>
    simp only [run, SettingsExecutor.split, h]
    rfl

theorem exists_run_use (slot : Slot ω) (loader : Loader ω) (task : SettingsTask)
    (journal : Journal) :
    ∃ journal', (use view slot loader task : Logged ε _).run.run journal =
      (.ok (task.run view slot loader), journal') :=
  ⟨_, Stateful.run_bind_of_ok (Logged.run_forM_report _ journal)⟩

theorem looksUp_use (view : ω → Combiner) :
    (use view : SlotUse ε ω SettingsTask (SplitResult SettingsOutput)).LooksUp
      (fun worker loader task => task.answer view worker loader)
      (fun e task => task.refusal e) where
  of_ok h task journal := by
    rw [← run_of_ok h]
    exact exists_run_use _ _ task journal
  of_error h task journal := by
    rw [← run_of_error h]
    exact exists_run_use _ _ task journal

end SettingsTask

/-! ## Fixed workers -/

/-- In every history of calls to a loader and of uses of any number of slots, a slot has the worker
that was registered under its id at the first use that found one. Every later use goes on with it and
changes nothing. Before that a use is refused exactly if nothing is registered, and then it changes
nothing. Uses never change the loader or another slot. So it is with plain uses, with mapping
executors, and with settings executors, where the first run that finds a worker may be one that
fails on its input. -/
theorem slots_fix_their_workers :
    (∀ {α : Type}, (Slot.takeUse : SlotUse ε α Unit (Except WorkerError α)).FixesWorkers
      (fun worker _ _ => .ok worker) (fun e _ => .error e)) ∧
    (Slot.mappingUse : SlotUse ε Mapping Members (Except WorkerError MappingOutput)).FixesWorkers
      (fun mapping _ parameters => .ok (.ofParameters mapping parameters))
      (fun e _ => .error e) ∧
    ∀ {ω : Type} (view : ω → Combiner),
      (SettingsTask.use view :
        SlotUse ε ω SettingsTask (SplitResult SettingsOutput)).FixesWorkers
        (fun worker loader task => task.answer view worker loader)
        (fun e task => task.refusal e) :=
  ⟨looksUp_takeUse.fixesWorkers, looksUp_mappingUse.fixesWorkers,
    fun view => (SettingsTask.looksUp_use view).fixesWorkers⟩

namespace Sample

/-- A combiner is registered and used for an input that is no document. Then another one is
registered under its id, and that one is removed. -/
def replacedAfterUse : List (SlotCall Unit Combiner SettingsTask) := [
  .loader (.register "blur" blur), .use () (.combine [] "]"),
  .loader (.register "blur" kernel), .loader (.remove "blur")]

theorem finds_replacedAfterUse :
    SlotCall.Finds (fun _ => "blur") replacedAfterUse () blur := by
  refine ⟨[.loader (.register "blur" blur)], ⟨.combine [] "]", ?_⟩, rfl, ?_⟩
  · exact ⟨[.loader (.register "blur" kernel), .loader (.remove "blur")], rfl⟩
  · intro earlier hused
    have hnone : SlotCall.UsedBehind ([] : List (SlotCall Unit Combiner SettingsTask)) () earlier :=
      SlotCall.usedBehind_snoc_loader.1 hused
    exact absurd hnone SlotCall.not_usedBehind_nil

end Sample

/-- An executor keeps the combiner of its first run, which has failed, when there is none left. -/
theorem slots_fix_their_workers_blur :
    ((SettingsTask.combine [] "]").answer (fun c => c) Sample.blur .empty).result.toOption = none ∧
    ∃ b journal',
      ((Bench.fresh fun _ => "blur").performAll
        (SettingsTask.use fun c => c : SlotUse WorkerError _ _ _)
        Sample.replacedAfterUse).run.run {} = (.ok b, journal') ∧
      b.slots () = ⟨"blur", some Sample.blur⟩ ∧ b.loader.get? "blur" = none := by
  obtain ⟨-, -, hsettings⟩ := slots_fix_their_workers (ε := WorkerError)
  obtain ⟨b, journal', hrun, hloader, hsettled⟩ :=
    hsettings (fun c => c) (fun _ => "blur") Sample.replacedAfterUse {}
  obtain ⟨hslot, -⟩ := (hsettled ()).kept _ Sample.finds_replacedAfterUse
  obtain ⟨reported, hcalls⟩ := hloader Unit {}
  have hempty := Except.ok.inj (Prod.mk.inj hcalls).1
  refine ⟨by cbv, b, journal', hrun, hslot, ?_⟩
  rw [← hempty]
  rfl

end ExecutorHost
