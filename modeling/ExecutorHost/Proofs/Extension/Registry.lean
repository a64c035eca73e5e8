import Mathlib.Data.List.Nodup
import ExecutorHost.Extension.Registry
import ExecutorHost.Proofs.Extension.Manifest

/-!
# The registry after any calls

A registry may be changed in place as well: the platforms of a call are looked at one by one, and
then entered one by one. A call that fails does so while it looks at them, so it has changed
nothing, and in place or not a call has the same result. Whatever calls there have been, successful
ones and failing ones, the index and the list of platforms say the same.
-/

namespace ExecutorHost

namespace Registry

/-! ## Changing a registry in place -/

/-- A computation that changes a registry and may fail; what it has changed by then stays. -/
abbrev InPlace := ExceptT ExtensionError (StateM Registry)

/-- Fails at the first platform whose id is registered or stands before it. -/
def checkEach (before : List String) : List Platform → InPlace Unit
  | [] => pure ()
  | p :: rest => do
    if p.id ∈ before ∨ (← get).contains p.id then throw (.duplicatePlatformId p.id p.file)
    checkEach (p.id :: before) rest

/-- Enters platforms one by one; the sealed platforms. -/
def enterEach : List Platform → InPlace (List Platform)
  | [] => pure []
  | p :: rest => do
    modify (·.insert p)
    return p.makeImmutable :: (← enterEach rest)

/-- A call of a registry. -/
inductive Call
  | manifest (m : Manifest)
  | platform (p : Platform)

/-- The platforms that a call is to register. -/
def Call.platforms : Call → List Platform
  | .manifest m => m.platforms
  | .platform p => [p]

/-- Manifests and platforms that have been made in some way. -/
def Call.Made : Call → Prop
  | .manifest m => m.Made
  | .platform p => p.Made

/-- A call made in place. -/
def Call.perform (call : Call) : InPlace (List Platform) := do
  checkEach [] call.platforms
  enterEach call.platforms

/-- The registry after calls made one after another. -/
def after (r : Registry) (calls : List Call) : Registry :=
  calls.foldl (fun r call => (call.perform.run.run r).2) r

/-- The answers to calls made one after another. -/
def answers (r : Registry) : List Call → List (Except ExtensionError (List Platform))
  | [] => []
  | call :: calls => (call.perform.run.run r).1 :: (r.after [call]).answers calls

/-! ## Insertions -/

/-- The registered ids, in the order of registration. -/
def ids (r : Registry) : List String := r.platforms.map Platform.id

/-- The index has exactly the ids of the platforms, with their positions. -/
def Indexed (r : Registry) : Prop :=
  ∀ (id : String) (i : Nat),
    r.positions[id]? = some i ↔ ∃ p : Platform, r.ordered[i]? = some p ∧ p.id = id

variable {r : Registry} {p : Platform}

theorem platforms_insert (r : Registry) (p : Platform) :
    (r.insert p).platforms = r.platforms ++ [p.makeImmutable] :=
  Array.toList_push

theorem ids_insert (r : Registry) (p : Platform) : (r.insert p).ids = r.ids ++ [p.id] := by
  rw [ids, platforms_insert, List.map_append]
  rfl

theorem platforms_foldl_insert (r : Registry) (platforms : List Platform) :
    (platforms.foldl insert r).platforms = r.platforms ++ platforms.map Platform.makeImmutable := by
  induction platforms generalizing r with
  | nil => simp
  | cons p rest ih =>
    rw [List.foldl_cons, ih, platforms_insert, List.append_assoc]
    rfl

theorem ids_foldl_insert (r : Registry) (platforms : List Platform) :
    (platforms.foldl insert r).ids = r.ids ++ platforms.map Platform.id := by
  rw [ids, platforms_foldl_insert, List.map_append, List.map_map]
  rfl

theorem mem_platforms_iff : p ∈ r.platforms ↔ ∃ i : Nat, r.ordered[i]? = some p := by
  unfold platforms
  rw [Array.mem_toList_iff, Array.mem_iff_getElem?]

theorem indexed_empty : empty.Indexed := by
  intro id i
  simp [empty]

theorem Indexed.contains_iff (h : r.Indexed) (id : String) : r.contains id = true ↔ id ∈ r.ids := by
  unfold contains ids
  rw [Std.HashMap.contains_eq_isSome_getElem?, Option.isSome_iff_exists, List.mem_map]
  constructor
  · rintro ⟨i, hi⟩
    obtain ⟨p, hp, hid⟩ := (h id i).1 hi
    exact ⟨p, mem_platforms_iff.2 ⟨i, hp⟩, hid⟩
  · rintro ⟨p, hp, hid⟩
    obtain ⟨i, hi⟩ := mem_platforms_iff.1 hp
    exact ⟨i, (h id i).2 ⟨p, hi, hid⟩⟩

/-- A platform with a new id comes into the list and into the index alike. -/
theorem Indexed.insert (h : r.Indexed) (hnew : p.id ∉ r.ids) : (r.insert p).Indexed := by
  intro id i
  have hold : ∀ q : Platform, r.ordered[i]? = some q → q.id ≠ p.id := by
    intro q hq heq
    exact hnew (List.mem_map.2 ⟨q, mem_platforms_iff.2 ⟨i, hq⟩, heq⟩)
  have hend : r.ordered[r.ordered.size]? = none := Array.getElem?_size
  simp only [Registry.insert, Std.HashMap.getElem?_insert, Array.getElem?_push, beq_iff_eq]
  by_cases hid : p.id = id
  · -- the new id has the position behind all platforms, and no platform has it in front of that
    subst hid
    rw [if_pos rfl]
    constructor
    · intro hi
      cases hi
      exact ⟨p.makeImmutable, if_pos rfl, rfl⟩
    · rintro ⟨q, hq, hqid⟩
      by_cases hi : i = r.ordered.size
      · rw [hi]
      · rw [if_neg hi] at hq
        exact absurd hqid (hold q hq)
  · -- any other id is where it was, and the new platform does not have it
    rw [if_neg hid, h id i]
    by_cases hi : i = r.ordered.size
    · subst hi
      rw [hend, if_pos rfl]
      constructor
      · rintro ⟨q, hq, -⟩
        cases hq
      · rintro ⟨q, hq, hqid⟩
        cases hq
        exact absurd hqid hid
    · rw [if_neg hi]

/-- A list has no clash if all its ids are new and none of them stands twice. -/
theorem firstDuplicate?_eq_none_iff (before : List String) (platforms : List Platform) :
    r.firstDuplicate? before platforms = none ↔
      (∀ p ∈ platforms, p.id ∉ before ∧ ¬r.contains p.id) ∧ (platforms.map Platform.id).Nodup := by
  induction platforms generalizing before with
  | nil => simp [firstDuplicate?]
  | cons p rest ih =>
    unfold firstDuplicate?
    by_cases hp : p.id ∈ before ∨ r.contains p.id
    · rw [if_pos hp]
      constructor
      · intro h
        cases h
      · rintro ⟨hnew, -⟩
        obtain ⟨hbefore, hcontains⟩ := hnew p List.mem_cons_self
        exact absurd hp (not_or.2 ⟨hbefore, hcontains⟩)
    · rw [if_neg hp, ih, List.map_cons, List.nodup_cons, List.forall_mem_cons]
      have hother : p.id ∉ rest.map Platform.id ↔ ∀ q ∈ rest, q.id ≠ p.id := by
        simp [List.mem_map]
      rw [hother]
      constructor
      · rintro ⟨hnew, hdistinct⟩
        refine ⟨⟨not_or.1 hp, ?_⟩, ?_, hdistinct⟩
        · intro q hq
          obtain ⟨hbefore, hcontains⟩ := hnew q hq
          exact ⟨List.not_mem_of_not_mem_cons hbefore, hcontains⟩
        · intro q hq
          exact List.ne_of_not_mem_cons (hnew q hq).1
      · rintro ⟨⟨-, hnew⟩, hne, hdistinct⟩
        refine ⟨?_, hdistinct⟩
        intro q hq
        obtain ⟨hbefore, hcontains⟩ := hnew q hq
        exact ⟨List.not_mem_cons_of_ne_of_not_mem (hne q hq) hbefore, hcontains⟩

theorem mem_of_firstDuplicate? {before : List String} {platforms : List Platform}
    (h : r.firstDuplicate? before platforms = some p) : p ∈ platforms := by
  induction platforms generalizing before with
  | nil => cases h
  | cons q rest ih =>
    unfold firstDuplicate? at h
    split at h
    · cases h
      exact List.mem_cons_self
    · exact List.mem_cons_of_mem _ (ih h)

/-! ## Calls in place -/

theorem run_checkEach (r : Registry) (before : List String) (platforms : List Platform) :
    (checkEach before platforms).run.run r =
      (match r.firstDuplicate? before platforms with
        | some p => .error (.duplicatePlatformId p.id p.file)
        | none => .ok (), r) := by
  induction platforms generalizing before with
  | nil => rfl
  | cons p rest ih =>
    have hget : (get : InPlace Registry).run.run r = (.ok r, r) := rfl
    unfold checkEach firstDuplicate?
    rw [Stateful.run_bind_of_ok hget]
    by_cases hp : p.id ∈ before ∨ r.contains p.id
    · rw [if_pos hp, if_pos hp]
      rfl
    · rw [if_neg hp, if_neg hp]
      exact ih (p.id :: before)

theorem run_enterEach (r : Registry) (platforms : List Platform) :
    (enterEach platforms).run.run r =
      (.ok (platforms.map Platform.makeImmutable), platforms.foldl insert r) := by
  induction platforms generalizing r with
  | nil => rfl
  | cons p rest ih =>
    have hentered : (modify (·.insert p) : InPlace Unit).run.run r = (.ok (), r.insert p) := rfl
    unfold enterEach
    rw [Stateful.run_bind_of_ok hentered, Stateful.run_bind_of_ok (ih (r.insert p))]
    rfl

/-- In place, a call that fails leaves the registry as it was, and one that succeeds leaves the one
that a registration gives. -/
theorem run_perform (r : Registry) (call : Call) :
    call.perform.run.run r =
      match r.addAll call.platforms with
      | .ok r' => (.ok (call.platforms.map Platform.makeImmutable), r')
      | .error e => (.error e, r) := by
  have hcheck := run_checkEach r [] call.platforms
  unfold Call.perform addAll
  cases hfirst : r.firstDuplicate? [] call.platforms with
  | some p =>
    rw [hfirst] at hcheck
    exact Stateful.run_bind_of_error hcheck
  | none =>
    rw [hfirst] at hcheck
    rw [Stateful.run_bind_of_ok hcheck]
    exact run_enterEach r call.platforms

/-! ## Registries that calls lead to -/

/-- The index and the list say the same, all platforms are sealed, and their marks are right. -/
structure Consistent (r : Registry) : Prop where
  indexed : r.Indexed
  distinct : r.ids.Nodup
  allSealed : ∀ p ∈ r.platforms, p.Sealed
  builtIn : ∀ p ∈ r.platforms, p.builtIn = Platform.isBuiltInTechnology p.technology

theorem consistent_empty : empty.Consistent where
  indexed := indexed_empty
  distinct := .nil
  allSealed := by simp [platforms, empty]
  builtIn := by simp [platforms, empty]

theorem Consistent.insert (h : r.Consistent) (hp : p.Coherent) (hnew : p.id ∉ r.ids) :
    (r.insert p).Consistent where
  indexed := h.indexed.insert hnew
  distinct := by
    rw [ids_insert, ← List.concat_eq_append, List.nodup_concat]
    exact ⟨hnew, h.distinct⟩
  allSealed := by
    rw [platforms_insert, List.forall_mem_append, List.forall_mem_singleton]
    exact ⟨h.allSealed, p.sealed_makeImmutable⟩
  builtIn := by
    rw [platforms_insert, List.forall_mem_append, List.forall_mem_singleton]
    exact ⟨h.builtIn, hp.builtIn⟩

theorem Consistent.foldl_insert {platforms : List Platform} (h : r.Consistent)
    (hcoherent : ∀ p ∈ platforms, p.Coherent) (hnew : ∀ p ∈ platforms, p.id ∉ r.ids)
    (hdistinct : (platforms.map Platform.id).Nodup) :
    (platforms.foldl Registry.insert r).Consistent := by
  induction platforms generalizing r with
  | nil => exact h
  | cons p rest ih =>
    rw [List.forall_mem_cons] at hcoherent hnew
    rw [List.map_cons, List.nodup_cons] at hdistinct
    rw [List.foldl_cons]
    apply ih (h.insert hcoherent.1 hnew.1) hcoherent.2 _ hdistinct.2
    intro q hq hmem
    rw [ids_insert, List.mem_append, List.mem_singleton] at hmem
    rcases hmem with hold | hsame
    · exact hnew.2 q hq hold
    · exact hdistinct.1 (List.mem_map.2 ⟨q, hq, hsame⟩)

/-- An id of the call is registered already or stands in it twice. -/
def Call.Clashes (call : Call) (r : Registry) : Prop :=
  (∃ p ∈ call.platforms, p.id ∈ r.ids) ∨ ¬(call.platforms.map Platform.id).Nodup

theorem Indexed.firstDuplicate?_eq_none_iff (h : r.Indexed) (call : Call) :
    r.firstDuplicate? [] call.platforms = none ↔ ¬call.Clashes r := by
  rw [Registry.firstDuplicate?_eq_none_iff]
  simp [Call.Clashes, h.contains_iff]

theorem Call.Made.coherent {call : Call} (h : call.Made) : ∀ p ∈ call.platforms, p.Coherent := by
  cases call with
  | manifest m =>
    have hmade : m.Made := h
    exact fun p hp => (hmade.platforms p hp).coherent
  | platform p =>
    have hmade : p.Made := h
    exact List.forall_mem_singleton.2 hmade.coherent

/-- A call without a clash enters its platforms. -/
theorem Consistent.perform_of_not_clashes (h : r.Consistent) {call : Call}
    (hclash : ¬call.Clashes r) :
    call.perform.run.run r =
      (.ok (call.platforms.map Platform.makeImmutable),
        call.platforms.foldl Registry.insert r) := by
  have hfirst := (h.indexed.firstDuplicate?_eq_none_iff call).2 hclash
  rw [run_perform, addAll, hfirst]

/-- A call with a clash fails because of one of its platforms, and changes nothing. -/
theorem Consistent.perform_of_clashes (h : r.Consistent) {call : Call} (hclash : call.Clashes r) :
    ∃ p ∈ call.platforms,
      call.perform.run.run r = (.error (.duplicatePlatformId p.id p.file), r) := by
  cases hfirst : r.firstDuplicate? [] call.platforms with
  | none => exact absurd hclash ((h.indexed.firstDuplicate?_eq_none_iff call).1 hfirst)
  | some p =>
    refine ⟨p, mem_of_firstDuplicate? hfirst, ?_⟩
    rw [run_perform, addAll, hfirst]

theorem Consistent.perform (h : r.Consistent) {call : Call} (hmade : call.Made) :
    (call.perform.run.run r).2.Consistent := by
  by_cases hclash : call.Clashes r
  · obtain ⟨p, -, hrun⟩ := h.perform_of_clashes hclash
    rw [hrun]
    exact h
  · rw [h.perform_of_not_clashes hclash]
    obtain ⟨hnew, hdistinct⟩ := not_or.1 hclash
    apply h.foldl_insert hmade.coherent _ (not_not.1 hdistinct)
    exact fun p hp hmem => hnew ⟨p, hp, hmem⟩

/-- The platforms that a call has entered, by the answer it was given. -/
def Call.entered (call : Call) : Except ExtensionError (List Platform) → List Platform
  | .ok _ => call.platforms.map Platform.makeImmutable
  | .error _ => []

theorem Consistent.platforms_perform (h : r.Consistent) (call : Call) :
    (call.perform.run.run r).2.platforms =
      r.platforms ++ call.entered (call.perform.run.run r).1 := by
  by_cases hclash : call.Clashes r
  · obtain ⟨p, -, hrun⟩ := h.perform_of_clashes hclash
    rw [hrun]
    exact (List.append_nil _).symm
  · rw [h.perform_of_not_clashes hclash]
    exact platforms_foldl_insert r call.platforms

theorem Consistent.after (h : r.Consistent) {calls : List Call}
    (hmade : ∀ call ∈ calls, call.Made) : (r.after calls).Consistent := by
  induction calls generalizing r with
  | nil => exact h
  | cons call rest ih =>
    obtain ⟨hfirst, hrest⟩ := List.forall_mem_cons.1 hmade
    exact ih (h.perform hfirst) hrest

theorem Consistent.platforms_after (h : r.Consistent) {calls : List Call}
    (hmade : ∀ call ∈ calls, call.Made) :
    (r.after calls).platforms =
      r.platforms ++ (calls.zip (r.answers calls)).flatMap fun (call, answer) =>
        call.entered answer := by
  induction calls generalizing r with
  | nil => exact (List.append_nil _).symm
  | cons call rest ih =>
    obtain ⟨hfirst, hrest⟩ := List.forall_mem_cons.1 hmade
    show ((call.perform.run.run r).2.after rest).platforms = _
    rw [ih (h.perform hfirst) hrest, h.platforms_perform, answers, List.zip_cons_cons,
      List.flatMap_cons, List.append_assoc]
    rfl

/-! ## Queries -/

theorem Indexed.lt_size (h : r.Indexed) {id : String} {i : Nat} (hi : r.positions[id]? = some i) :
    i < r.size := by
  obtain ⟨p, hp, -⟩ := (h id i).1 hi
  exact (Array.getElem?_eq_some_iff.1 hp).1

theorem Consistent.get?_eq_some_iff (h : r.Consistent) (id : String) (p : Platform) :
    r.get? id = some p ↔ p ∈ r.platforms ∧ p.id = id := by
  have hget : r.get? id = r.positions[id]?.bind fun i => r.ordered[i]? := rfl
  rw [hget, Option.bind_eq_some_iff, mem_platforms_iff]
  constructor
  · rintro ⟨i, hi, hp⟩
    obtain ⟨q, hq, hid⟩ := (h.indexed id i).1 hi
    rw [hq] at hp
    cases hp
    exact ⟨⟨i, hq⟩, hid⟩
  · rintro ⟨⟨i, hp⟩, hid⟩
    exact ⟨i, (h.indexed id i).2 ⟨p, hp, hid⟩, hp⟩

theorem Consistent.builtIn_eq (h : r.Consistent) :
    r.builtIn = r.byTechnology Platform.builtInTechnology :=
  List.filter_congr fun p hp => h.builtIn p hp

/-! ## Results -/

/-- Reporting events one after another succeeds, and generates no id. -/
theorem run_reports {α : Type} (items : List α) (event : α → Event) (journal : Journal) :
    ∃ journal', journal'.generated = journal.generated ∧
      (forIn items PUnit.unit fun item _ => do
        (Logged.report (event item) : Logged ExtensionError Unit)
        pure (ForInStep.yield PUnit.unit)).run.run journal = (.ok PUnit.unit, journal') := by
  induction items generalizing journal with
  | nil => exact ⟨journal, rfl, rfl⟩
  | cons item rest ih =>
    obtain ⟨journal', hgenerated, hrest⟩ :=
      ih ⟨journal.generated, journal.events ++ [event item]⟩
    refine ⟨journal', hgenerated, ?_⟩
    rw [List.forIn_cons]
    exact hrest

/-- A registration enters all platforms or none, and generates no id. -/
theorem run_register (r : Registry) (platforms : List Platform) (journal : Journal) :
    ∃ journal', journal'.generated = journal.generated ∧
      (r.register platforms).run.run journal =
        ((r.addAll platforms).map fun r' => (r', platforms.map Platform.makeImmutable),
          journal') := by
  unfold register
  cases hadded : r.addAll platforms with
  | ok after =>
    obtain ⟨journal', hgenerated, hreports⟩ := run_reports platforms registeredEvent journal
    refine ⟨journal', hgenerated, ?_⟩
    dsimp only
    rw [Stateful.run_bind_of_ok hreports]
    rfl
  | error e =>
    obtain ⟨journal', hgenerated, hreports⟩ :=
      run_reports (refusedEvents e) (fun event => event) journal
    refine ⟨journal', hgenerated, ?_⟩
    dsimp only
    rw [Stateful.run_bind_of_ok hreports]
    rfl

/-- A registration gives what a call in place gives, whatever has been reported before. -/
theorem register_eq_perform (r : Registry) (call : Call) (journal : Journal) :
    ((r.register call.platforms).run.run journal).1 =
      (call.perform.run.run r).1.map fun answer => ((call.perform.run.run r).2, answer) := by
  obtain ⟨journal', -, hrun⟩ := r.run_register call.platforms journal
  rw [hrun, run_perform]
  cases r.addAll call.platforms with
  | ok after => rfl
  | error e => rfl

/-- After any calls, successful ones and failing ones, the index has exactly the ids of the
platforms with their positions, so that an id is looked up without reaching beyond the list. All
platforms are sealed, and they are those of the successful calls in the order of the calls. The
built-in ones are those of the built-in technology. The next call fails because of a repeated id if
and only if an id is registered already or stands in it twice, in no other way, and then it changes
nothing. -/
theorem registry_after_calls {calls : List Call} (h : ∀ call ∈ calls, call.Made) :
    let r := empty.after calls
    r.Consistent ∧
    (∀ (id : String) (i : Nat), r.positions[id]? = some i → i < r.size) ∧
    (∀ id p, r.get? id = some p ↔ p ∈ r.platforms ∧ p.id = id) ∧
    (r.platforms = (calls.zip (empty.answers calls)).flatMap fun (call, answer) =>
      Call.entered call answer) ∧
    r.builtIn = r.byTechnology "jvm" ∧
    ∀ (call : Call) (answer : Except ExtensionError (List Platform)) (r' : Registry),
      call.perform.run.run r = (answer, r') →
      ((∃ p ∈ call.platforms, answer = .error (.duplicatePlatformId p.id p.file)) ↔
        call.Clashes r) ∧
      (∀ e, answer = .error e → call.Clashes r ∧ r' = r) ∧
      (∀ registered, answer = .ok registered →
        registered = call.platforms.map Platform.makeImmutable) ∧
      ∀ journal, ((r.register call.platforms).run.run journal).1 =
        answer.map fun registered => (r', registered) := by
  intro r
  have hconsistent : r.Consistent := consistent_empty.after h
  refine ⟨hconsistent, fun _ _ => hconsistent.indexed.lt_size, hconsistent.get?_eq_some_iff,
    consistent_empty.platforms_after h, hconsistent.builtIn_eq, ?_⟩
  intro call answer r' hrun
  have hregister : ∀ journal, ((r.register call.platforms).run.run journal).1 =
      answer.map fun registered => (r', registered) := by
    intro journal
    rw [r.register_eq_perform call journal, hrun]
  by_cases hclash : call.Clashes r
  · obtain ⟨p, hp, hfailed⟩ := hconsistent.perform_of_clashes hclash
    rw [hfailed] at hrun
    cases hrun
    refine ⟨⟨fun _ => hclash, fun _ => ⟨p, hp, rfl⟩⟩, fun _ _ => ⟨hclash, rfl⟩, ?_, hregister⟩
    intro registered heq
    cases heq
  · rw [hconsistent.perform_of_not_clashes hclash] at hrun
    cases hrun
    refine ⟨⟨?_, fun hclash' => absurd hclash' hclash⟩, ?_, ?_, hregister⟩
    · rintro ⟨p, -, heq⟩
      cases heq
    · intro e heq
      cases heq
    · intro registered heq
      cases heq
      rfl

theorem registry_refuses_platform_twice :
    let r := empty.after [.platform Manifest.sealedSample]
    r.Consistent ∧ r.platforms = [Manifest.sealedSample.makeImmutable] ∧
      ((Call.platform Manifest.sealedSample).perform.run.run r).2 = r ∧
      ((Call.platform Manifest.sealedSample).perform.run.run r).1 =
        .error (.duplicatePlatformId Manifest.sealedSample.id none) := by
  intro r
  have hmade : ∀ call ∈ [Call.platform Manifest.sealedSample], call.Made :=
    List.forall_mem_singleton.2 Manifest.made_sealedSample
  have hclash : ¬(Call.platform Manifest.sealedSample).Clashes empty := by
    simp [Call.Clashes, Call.platforms, ids, platforms, empty]
  have hanswer := consistent_empty.perform_of_not_clashes hclash
  obtain ⟨hconsistent, -, -, hplatforms, -, hnext⟩ := registry_after_calls hmade
  have hlist : r.platforms = [Manifest.sealedSample.makeImmutable] := by
    rw [hplatforms, answers, hanswer]
    rfl
  have hagain : (Call.platform Manifest.sealedSample).Clashes r := by
    refine .inl ⟨Manifest.sealedSample, List.mem_singleton_self _, ?_⟩
    rw [ids, hlist]
    exact List.mem_singleton_self _
  obtain ⟨hduplicate, hfailed, -⟩ := hnext (.platform Manifest.sealedSample) _ _ rfl
  obtain ⟨p, hp, herror⟩ := hduplicate.2 hagain
  rw [List.mem_singleton.1 hp] at herror
  exact ⟨hconsistent, hlist, (hfailed _ herror).2, herror⟩

end Registry

end ExecutorHost
