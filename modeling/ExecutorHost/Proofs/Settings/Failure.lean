import ExecutorHost.Proofs.Settings.Layers
import ExecutorHost.Settings.Executor
import Mathlib

/-!
# Failing settings operations

Making, combining and splitting settings fail with the references alone: no parameters and no
document make them fail or keep them from failing. Only splitting has changed something by then. It
writes control by control, and what has been written when a reference fails stays written: the
controls before the failing one as a whole, that one as far as the writing came.
-/

namespace ExecutorHost

namespace Combiner

/-- Whether settings operations fail does not depend on the data: combining and making settings fail
with the error of the defaults, whatever they are given, and splitting succeeds if the defaults
exist. -/
theorem failure_independent_of_data (combiners : Combiners) (c : Combiner)
    (parameters document : Members) :
    (∀ e, c.combine combiners parameters document = .error e ↔
      c.create combiners parameters = .error e) ∧
    (∀ e, c.create combiners parameters = .error e ↔ c.defaults combiners = .error e) ∧
    ((∃ settings, (c.split combiners parameters document).result = .ok settings) ↔
      ∃ settings, c.defaults combiners = .ok settings) := by
  refine ⟨fun e => ?_, fun e => ?_, ?_⟩
  · rw [combine_error_iff, create_error_iff]
  · rw [defaults, create_error_iff, create_error_iff]
  · constructor
    · rintro ⟨settings, h⟩
      rw [split] at h
      -- what succeeds at the end is combining, with the parameters written by then
      split at h
      · cases h
      · rw [combine_eq] at h
        rw [defaults_ok_iff]
        cases ht : c.tree combiners with
        | error e => rw [ht] at h; cases h
        | ok t => exact ⟨t, rfl⟩
    · intro h
      obtain ⟨t, ht⟩ := c.defaults_ok_iff.1 h
      rw [split_of_tree ht]
      exact ⟨_, rfl⟩

end Combiner

namespace References

variable {references : References} {way : List String} {document parameters : Members}
  {control : Control}

/-- What writing one control back does: it goes on with other parameters, and then only the entry of
a control that the document has a value for may have changed, or it stops at the reference of the
control or below it. -/
theorem writeBack_cases (references : References) (way : List String)
    (document parameters : Members) (control : Control) :
    (∃ after, (∀ rest, references.writeBack way document (control :: rest) parameters =
        references.writeBack way document rest after) ∧
      ∀ key, (key ≠ control.name ∨ Members.get? document key = none) →
        Members.get? after key = Members.get? parameters key) ∨
    (∃ upper, Members.get? document control.name = some (.object upper) ∧
      control.isSubSettings = true ∧
      ((∃ e, references.descend way control = .error e) ∨
        ∃ next own e, references.descend way control = .ok next ∧
          references.writeBack (way ++ [next.id]) upper next.controls
            (Members.objectAt parameters control.name) = ⟨own, .error e⟩)) := by
  have hput : ∀ value : Document, Members.get? document control.name ≠ none →
      ∀ key, (key ≠ control.name ∨ Members.get? document key = none) →
        Members.get? (Members.put parameters control.name value) key =
          Members.get? parameters key := by
    intro value hsome key hkey
    have hne : key ≠ control.name := by
      rcases hkey with hne | hnone
      · exact hne
      · exact fun heq => hsome (heq ▸ hnone)
    exact Members.get?_put_of_ne parameters hne value
  cases hget : Members.get? document control.name with
  | none => exact .inl ⟨parameters, writeBack_absent hget, fun _ _ => rfl⟩
  | some value =>
    have hsome : Members.get? document control.name ≠ none := by simp [hget]
    by_cases hobject : ∃ upper, value = .object upper ∧ control.isSubSettings = true
    · obtain ⟨upper, rfl, hsub⟩ := hobject
      cases hd : references.descend way control with
      | error e => exact .inr ⟨upper, rfl, hsub, .inl ⟨e, rfl⟩⟩
      | ok next =>
        cases hinner : references.writeBack (way ++ [next.id]) upper next.controls
          (Members.objectAt parameters control.name) with
        | mk own result =>
        cases result with
        | error e => exact .inr ⟨upper, rfl, hsub, .inr ⟨next, own, e, rfl, hinner⟩⟩
        | ok _ =>
          exact .inl ⟨_, writeBack_nested hget hsub hd hinner, hput _ hsome⟩
    · refine .inl ⟨_, writeBack_value hget (fun sub hvalue hsub => ?_), hput value hsome⟩
      exact hobject ⟨sub, hvalue, hsub⟩

/-! ## Controls one after another -/

/-- Controls that can be written back are written before those behind them. -/
theorem writeBack_append {done : List Control} {written : Members}
    (h : references.writeBack way document done parameters = ⟨written, .ok ()⟩)
    (rest : List Control) :
    references.writeBack way document (done ++ rest) parameters =
      references.writeBack way document rest written := by
  induction done generalizing parameters with
  | nil =>
    rw [writeBack_nil] at h
    cases h
    rfl
  | cons control done ih =>
    rcases writeBack_cases references way document parameters control with
      ⟨after, hgo, -⟩ | ⟨upper, hget, hsub, ⟨e, hd⟩ | ⟨next, own, e, hd, hinner⟩⟩
    · rw [hgo] at h
      rw [List.cons_append, hgo]
      exact ih h
    · rw [writeBack_stops hget hsub hd] at h
      cases h
    · rw [writeBack_stops_below hget hsub hd hinner] at h
      cases h

/-- Whether or not the writing comes to its end, an entry stays as it is unless its key is the name
of a control and a key of the document. -/
theorem get?_writeBack {controls : List Control} {key : String}
    (h : key ∉ controls.map (·.name) ∨ Members.get? document key = none) :
    Members.get? (references.writeBack way document controls parameters).parameters key =
      Members.get? parameters key := by
  induction controls generalizing parameters with
  | nil => rw [writeBack_nil]
  | cons control rest ih =>
    have hhead : key ≠ control.name ∨ Members.get? document key = none :=
      h.imp_left fun hnot heq => hnot (heq ▸ List.mem_cons_self)
    have hrest : key ∉ rest.map (·.name) ∨ Members.get? document key = none :=
      h.imp_left fun hnot hmem => hnot (List.mem_cons_of_mem _ hmem)
    rcases writeBack_cases references way document parameters control with
      ⟨after, hgo, hafter⟩ | ⟨upper, hget, hsub, hstop⟩
    · rw [hgo, ih hrest, hafter key hhead]
    · have hne : key ≠ control.name := by
        rcases hhead with hne | hnone
        · exact hne
        · rintro rfl
          rw [hget] at hnone
          cases hnone
      rcases hstop with ⟨e, hd⟩ | ⟨next, own, e, hd, hinner⟩
      · rw [writeBack_stops hget hsub hd]
        exact SettingsTree.get?_openObject_of_ne parameters hne
      · rw [writeBack_stops_below hget hsub hd hinner]
        exact Members.get?_put_of_ne parameters hne _

theorem writeBack_of_absent {controls : List Control}
    (h : ∀ control ∈ controls, Members.get? document control.name = none) :
    references.writeBack way document controls parameters = ⟨parameters, .ok ()⟩ := by
  induction controls with
  | nil => exact writeBack_nil
  | cons control rest ih =>
    rw [writeBack_absent (h control List.mem_cons_self)]
    exact ih fun c hc => h c (List.mem_cons_of_mem _ hc)

/-! ## Where the writing stops -/

/-- Writing some controls back meets an error, with the parameters before and after. The controls in
front of the one whose reference fails have been written. -/
inductive Interrupted (references : References) :
    List String → Members → List Control → Members → SettingsError → Members → Prop
  /-- The reference of a control cannot be followed. By then its entry is an object: the one that
  was there, or else an empty one. -/
  | here {way : List String} {document upper parameters written : Members}
      {done rest : List Control} {control : Control} {e : SettingsError}
      (front : references.writeBack way document done parameters = ⟨written, .ok ()⟩)
      (value : Members.get? document control.name = some (.object upper))
      (nested : control.isSubSettings = true)
      (fails : references.descend way control = .error e) :
      Interrupted references way document (done ++ control :: rest) parameters e
        (SplitResult.openObject written control.name)
  /-- The error is met behind the reference of a control. Its entry has been written so far. -/
  | behind {way : List String} {document upper parameters written own : Members}
      {done rest : List Control} {control : Control} {next : Combiner} {e : SettingsError}
      (front : references.writeBack way document done parameters = ⟨written, .ok ()⟩)
      (value : Members.get? document control.name = some (.object upper))
      (nested : control.isSubSettings = true)
      (leads : references.descend way control = .ok next)
      (inner : Interrupted references (way ++ [next.id]) upper next.controls
        (Members.objectAt written control.name) e own) :
      Interrupted references way document (done ++ control :: rest) parameters e
        (Members.put written control.name (.object own))

/-- A control that has been written is one more in front. -/
theorem Interrupted.cons {rest : List Control} {after left : Members} {e : SettingsError}
    (hgo : ∀ rest, references.writeBack way document (control :: rest) parameters =
      references.writeBack way document rest after)
    (h : Interrupted references way document rest after e left) :
    Interrupted references way document (control :: rest) parameters e left := by
  cases h with
  | here front value nested fails =>
    rw [← List.cons_append]
    exact .here ((hgo _).trans front) value nested fails
  | behind front value nested leads inner =>
    rw [← List.cons_append]
    exact .behind ((hgo _).trans front) value nested leads inner

theorem interrupted_of_writeBack {controls : List Control} {left : Members} {e : SettingsError}
    (h : references.writeBack way document controls parameters = ⟨left, .error e⟩) :
    Interrupted references way document controls parameters e left := by
  -- outer induction on what lies ahead of the way, inner induction on the controls
  generalize hahead : references.ahead way = n
  induction n using Nat.strong_induction_on generalizing way document parameters controls left with
  | _ n deeper =>
    induction controls generalizing parameters with
    | nil =>
      rw [writeBack_nil] at h
      cases h
    | cons control rest ih =>
      rcases writeBack_cases references way document parameters control with
        ⟨after, hgo, -⟩ | ⟨upper, hget, hsub, ⟨e', hd⟩ | ⟨next, own, e', hd, hinner⟩⟩
      · rw [hgo] at h
        exact (ih h).cons hgo
      · rw [writeBack_stops hget hsub hd] at h
        cases h
        rw [← List.nil_append (control :: rest)]
        exact .here writeBack_nil hget hsub hd
      · rw [writeBack_stops_below hget hsub hd hinner] at h
        cases h
        have hlt := ahead_lt_of_descend hd
        rw [hahead] at hlt
        rw [← List.nil_append (control :: rest)]
        exact .behind writeBack_nil hget hsub hd (deeper _ hlt hinner rfl)

/-- Writing back fails exactly at a reference in its path, and then leaves what has been written up
to it. -/
theorem writeBack_error_iff {controls : List Control} {left : Members} {e : SettingsError} :
    references.writeBack way document controls parameters = ⟨left, .error e⟩ ↔
      Interrupted references way document controls parameters e left := by
  refine ⟨interrupted_of_writeBack, fun h => ?_⟩
  induction h with
  | here front value nested fails =>
    rw [writeBack_append front, writeBack_stops value nested fails]
  | behind front value nested leads inner ih =>
    rw [writeBack_append front, writeBack_stops_below value nested leads ih]

/-- What interrupts the writing is met where the references get stuck. -/
theorem Interrupted.stuck {controls : List Control} {left : Members} {e : SettingsError}
    (h : Interrupted references way document controls parameters e left) :
    Stuck references way controls e := by
  induction h with
  | here front value nested fails =>
    exact .here (List.mem_append_right _ List.mem_cons_self) nested fails
  | behind front value nested leads inner ih =>
    exact .behind (List.mem_append_right _ List.mem_cons_self) nested leads ih

end References

namespace Combiner

variable {references : References} {c : Combiner} {parameters document left : Members}
  {e : SettingsError}

theorem parameters_split :
    (c.split references parameters document).parameters =
      (references.writeBack [c.id] document c.controls parameters).parameters := by
  rw [split]
  split <;> rfl

/-- Splitting fails while it writes back, or else after that with the error of the defaults. -/
theorem split_error_iff :
    c.split references parameters document = ⟨left, .error e⟩ ↔
      references.Interrupted [c.id] document c.controls parameters e left ∨
      (references.writeBack [c.id] document c.controls parameters = ⟨left, .ok ()⟩ ∧
        c.defaults references = .error e) := by
  rw [← References.writeBack_error_iff, split, defaults, create_error_iff]
  cases hwritten : references.writeBack [c.id] document c.controls parameters with
  | mk written result =>
    cases result with
    | error e' => simp
    | ok _ =>
      have hcombine : c.combine references written document = .error e ↔
          c.tree references = .error e := combine_error_iff
      rw [← hcombine]
      simp

/-- An error of splitting is met at a reference, on the way of writing back or after it. -/
theorem stuck_of_split (h : (c.split references parameters document).result = .error e) :
    References.Stuck references [c.id] c.controls e := by
  have hsplit : c.split references parameters document =
      ⟨(c.split references parameters document).parameters, .error e⟩ := by
    rw [← h]
  rcases split_error_iff.1 hsplit with hwritten | ⟨-, hdefaults⟩
  · exact hwritten.stuck
  · exact References.stuck_of_unfold (create_error_iff.1 hdefaults)

end Combiner

namespace SettingsExecutor

variable {ω : Type} {view : ω → Combiner} {loader : Loader ω} {slot : Slot ω}
  {parameters left : Members} {input : String} {e : SettingsError}

/-- A splitting run fails before it touches the parameters, or else as the splitting does. -/
theorem split_error_cases
    (h : (split view loader slot parameters input).result = ⟨left, .error e⟩) :
    (left = parameters ∧ ((∃ w, slot.fill loader = .error w ∧ e = .worker w) ∨
      SettingsOutput.readInput input = .error e)) ∨
    ∃ worker document, slot.fill loader = .ok worker ∧
      SettingsOutput.readInput input = .ok document ∧
      (view worker).split (loader.map view) parameters document = ⟨left, .error e⟩ := by
  rw [split] at h
  cases hworker : slot.fill loader with
  | error w =>
    rw [hworker] at h
    cases h
    exact .inl ⟨rfl, .inl ⟨w, rfl, rfl⟩⟩
  | ok worker =>
    rw [hworker] at h
    cases hinput : SettingsOutput.readInput input with
    | error e' =>
      rw [hinput] at h
      cases h
      exact .inl ⟨rfl, .inr rfl⟩
    | ok document =>
      rw [hinput] at h
      refine .inr ⟨worker, document, rfl, rfl, ?_⟩
      cases hsplit : (view worker).split (loader.map view) parameters document with
      | mk written result =>
        simp only [hsplit] at h
        cases result with
        | error e' =>
          cases h
          rfl
        | ok settings => cases h

end SettingsExecutor

/-! ## What a failed splitting leaves behind -/

namespace Sample

/-- A loader that has the blur alone, so that the kernel is missing. -/
def blurAlone : Combiners := IdMap.empty.insert "blur" blur

/-- A document of a blur with values for the radius, the kernel and the border. -/
def fullDocument : Members :=
  [("kernel", .object [("size", .ofNat 9)]), ("border", .bool true), ("radius", .ofNat 7)]

/-- The kernel is missing: by then the radius has been written and the kernel has been made an empty
object, and the border has not been written. -/
theorem split_blurAlone :
    blur.split blurAlone [("border", .null)] fullDocument =
      ⟨[("border", .null), ("radius", .ofNat 7), ("kernel", .object [])],
        .error (.subSettingsNotFound "kernel" "kernel")⟩ := by
  cbv

end Sample

namespace Combiner

/-- A failed splitting keeps what it has written. It ends at a reference that fails while the
document is written back, with the controls before that one written and that one as far as the
writing came, or else after everything has been written, where the defaults fail. Entries that are
not both a control and in the document stay as they are; so do all of them if the document has none
of the controls. A splitting run that has no worker, or whose input is no object, changes nothing. -/
theorem failed_split_keeps_writes (combiners : Combiners) (c : Combiner)
    (parameters document left : Members) (e : SettingsError) :
    (c.split combiners parameters document = ⟨left, .error e⟩ ↔
      combiners.references.Interrupted [c.id] document c.controls parameters e left ∨
      (combiners.references.writeBack [c.id] document c.controls parameters = ⟨left, .ok ()⟩ ∧
        c.defaults combiners = .error e)) ∧
    (c.split combiners parameters document = ⟨left, .error e⟩ →
      (∀ key, key ∉ c.controls.map (·.name) ∨ Members.get? document key = none →
        Members.get? left key = Members.get? parameters key) ∧
      ((∀ control ∈ c.controls, Members.get? document control.name = none) →
        left = parameters)) ∧
    ∀ {ω : Type} (view : ω → Combiner) (loader : Loader ω) (slot : Slot ω) (input : String),
      (SettingsExecutor.split view loader slot parameters input).result = ⟨left, .error e⟩ →
        (left = parameters ∧ ((∃ w, slot.fill loader = .error w ∧ e = .worker w) ∨
          SettingsOutput.readInput input = .error e)) ∨
        ∃ worker document, slot.fill loader = .ok worker ∧
          SettingsOutput.readInput input = .ok document ∧
          (view worker).split (loader.map view) parameters document = ⟨left, .error e⟩ := by
  refine ⟨split_error_iff, fun h => ⟨fun key hkey => ?_, fun habsent => ?_⟩,
    fun view loader slot input => SettingsExecutor.split_error_cases⟩
  · have hleft : (c.split combiners parameters document).parameters = left := by rw [h]
    rw [← hleft, parameters_split, References.get?_writeBack hkey]
  · have hleft : (c.split combiners parameters document).parameters = left := by rw [h]
    rw [← hleft, parameters_split, References.writeBack_of_absent habsent]

/-- The kernel of a blur is missing, in a splitting and in a run for a blank input. -/
theorem failed_split_keeps_writes_blur :
    (Sample.blur.split Sample.blurAlone [("border", .null)] Sample.fullDocument =
        ⟨[("border", .null), ("radius", .ofNat 7), ("kernel", .object [])],
          .error (.subSettingsNotFound "kernel" "kernel")⟩ ∧
      ∀ key, key ∉ ["radius", "label", "kernel", "border"] ∨
          Members.get? Sample.fullDocument key = none →
        Members.get? [("border", .null), ("radius", .ofNat 7), ("kernel", .object [])] key =
          Members.get? [("border", .null)] key) ∧
    (SettingsExecutor.split (fun c => c) Sample.blurAlone { id := "blur" } [("border", .null)]
        "").result = ⟨[("border", .null)], .error (.subSettingsNotFound "kernel" "kernel")⟩ ∧
    ∃ worker document, Slot.fill { id := "blur" } Sample.blurAlone = .ok worker ∧
      SettingsOutput.readInput "" = .ok document ∧
      worker.split (Sample.blurAlone.map fun c => c) [("border", .null)] document =
        ⟨[("border", .null)], .error (.subSettingsNotFound "kernel" "kernel")⟩ := by
  obtain ⟨-, hkept, -⟩ := failed_split_keeps_writes Sample.blurAlone Sample.blur
    [("border", .null)] Sample.fullDocument _ _
  obtain ⟨-, -, hrun⟩ := failed_split_keeps_writes Sample.blurAlone Sample.blur
    [("border", .null)] Sample.fullDocument [("border", .null)]
    (.subSettingsNotFound "kernel" "kernel")
  have hblank : (SettingsExecutor.split (fun c => c) Sample.blurAlone { id := "blur" }
      [("border", .null)] "").result =
        ⟨[("border", .null)], .error (.subSettingsNotFound "kernel" "kernel")⟩ := by
    cbv
  refine ⟨⟨Sample.split_blurAlone, (hkept Sample.split_blurAlone).1⟩, hblank, ?_⟩
  rcases hrun (fun c => c) Sample.blurAlone { id := "blur" } "" hblank with
    ⟨-, ⟨w, -, he⟩ | hinput⟩ | hsplit
  · cases he
  · have hread : SettingsOutput.readInput "" = .ok [] := by cbv
    rw [hread] at hinput
    cases hinput
  · exact hsplit

/-- The parameters after a failed splitting are not those before. -/
theorem split_is_not_undone :
    (Sample.blur.split Sample.blurAlone [("border", .null)] Sample.fullDocument).result =
      .error (.subSettingsNotFound "kernel" "kernel") ∧
    (Sample.blur.split Sample.blurAlone [("border", .null)] Sample.fullDocument).parameters ≠
      [("border", .null)] := by
  rw [Sample.split_blurAlone]
  refine ⟨rfl, fun h => ?_⟩
  cases h

end Combiner

end ExecutorHost
