import ExecutorHost.Proofs.Document.Writer
import ExecutorHost.Proofs.Settings.Circle
import ExecutorHost.Settings.Search
import Mathlib.Logic.Function.Basic

/-!
# What a settings search finds

The search follows the references of everything it finds, each control once. At any time the
controls of a found specification are those that have been followed and those still in line. What
has been followed decides the children and the unresolved references, and leads to nothing that has
not been found. When the line is empty, everything has been followed.
-/

namespace ExecutorHost

namespace Specification

/-- Exactly the specifications that describe settings have a name of settings. -/
theorem isSettings_iff {s : Specification} :
    s.isSettings = true ↔ ∃ name, s.settingsName? = some name := by
  rw [isSettings, settingsName?]
  cases s.role with
  | none => simp
  | some role => cases h : role.settings <;> simp [h]

/-- The marker of settings occurs in the text of every specification that describes settings. -/
theorem contains_marker {s : Specification} (h : s.isSettings = true) :
    Text.contains s.toDocument.text SettingsSearch.marker = true := by
  obtain ⟨role, hrole⟩ : ∃ role, s.role = some role := by
    rw [isSettings] at h
    cases hrole : s.role with
    | none => rw [hrole] at h; cases h
    | some role => exact ⟨role, rfl⟩
  have hkey : SettingsSearch.marker.toList = Text.Quoted.encode "settings" := by decide
  have hquoted : Text.Quoted.encode "settings" <:+: role.toDocument.compact :=
    Document.isInfix_key (d := .bool role.settings) (by simp)
  refine Document.contains_text ?_
  rw [hkey, toDocument]
  refine hquoted.trans (@Document.isInfix_value "role" _ _ (List.mem_filterMap.2 ?_))
  exact ⟨("role", some role.toDocument), by simp [hrole], rfl⟩

end Specification

/-- Every specification is registered under its own id. -/
def Loader.OwnIds (specifications : Loader Specification) : Prop :=
  ∀ id s, specifications.get? id = some s → s.id = id

theorem Loader.ownIds_iff {specifications : Loader Specification} :
    specifications.OwnIds ↔ ∀ e ∈ specifications.entries, e.2.id = e.1 :=
  ⟨fun h e he => h e.1 e.2 (IdMap.mem_entries_iff.1 he),
    fun h id s hs => h (id, s) (IdMap.mem_entries_iff.2 hs)⟩

namespace SettingsSearch

variable {specifications : Loader Specification}

/-! ## Targets -/

theorem settingsOf?_eq_some_iff {id : String} {s : Specification} :
    settingsOf? specifications id = some s ↔
      specifications.get? id = some s ∧ s.isSettings = true :=
  Option.filter_eq_some_iff

/-- A target is a settings specification that is registered under its id. -/
theorem of_target? (hown : specifications.OwnIds) {control : Control} {s : Specification}
    (h : target? specifications control = some s) : settingsOf? specifications s.id = some s := by
  rw [target?] at h
  split at h
  · have hget := settingsOf?_eq_some_iff.1 h
    rwa [← hown _ s hget.1] at h
  · rw [named?] at h
    obtain ⟨⟨id, t⟩, hfind, rfl⟩ := Option.map_eq_some_iff.1 h
    obtain ⟨hget, hname⟩ := IdMap.of_find? hfind
    obtain rfl := hown id t hget
    exact settingsOf?_eq_some_iff.2
      ⟨hget, Specification.isSettings_iff.2 ⟨control.name, by simpa using hname⟩⟩

/-- The ids of the targets of some controls in their order, none twice. -/
def targetIds (specifications : Loader Specification) (controls : List Control) : List String :=
  ((controls.filterMap (target? specifications)).map (·.id)).eraseDups

/-- The references of some controls that lead nowhere, in their order. -/
def unresolvedAmong (specifications : Loader Specification) (parent : String)
    (controls : List Control) : List UnresolvedReference :=
  (controls.filter fun c => (target? specifications c).isNone).map (unresolvedAt parent)

theorem mem_targetIds_iff {controls : List Control} {id : String} :
    id ∈ targetIds specifications controls ↔
      ∃ control ∈ controls, ∃ s, target? specifications control = some s ∧ s.id = id := by
  rw [targetIds, List.mem_eraseDups, List.mem_map]
  constructor
  · rintro ⟨s, hs, rfl⟩
    obtain ⟨control, hmem, htarget⟩ := List.mem_filterMap.1 hs
    exact ⟨control, hmem, s, htarget, rfl⟩
  · rintro ⟨control, hmem, s, htarget, rfl⟩
    exact ⟨s, List.mem_filterMap.2 ⟨control, hmem, htarget⟩, rfl⟩

theorem targetIds_snoc_of_none {controls : List Control} {control : Control}
    (h : target? specifications control = none) :
    targetIds specifications (controls ++ [control]) = targetIds specifications controls := by
  simp [targetIds, h]

/-- One more control adds the id of its target, unless it is there. -/
theorem targetIds_snoc_of_some {controls : List Control} {control : Control} {s : Specification}
    (h : target? specifications control = some s) :
    targetIds specifications (controls ++ [control]) =
      if s.id ∈ targetIds specifications controls then targetIds specifications controls
      else targetIds specifications controls ++ [s.id] := by
  have hmem : s.id ∈ targetIds specifications controls ↔
      s.id ∈ (controls.filterMap (target? specifications)).map (·.id) := List.mem_eraseDups
  have hsplit : targetIds specifications (controls ++ [control]) =
      targetIds specifications controls ++ ([s.id].removeAll
        ((controls.filterMap (target? specifications)).map (·.id))).eraseDups := by
    rw [targetIds, List.filterMap_append, List.map_append, List.eraseDups_append]
    simp [targetIds, h]
  rw [hsplit]
  by_cases h : s.id ∈ targetIds specifications controls
  · rw [if_pos h]
    simp [List.removeAll, hmem.1 h]
  · rw [if_neg h]
    simp [List.removeAll, mt hmem.2 h, List.eraseDups_cons]

theorem unresolvedAmong_snoc_of_none {parent : String} {controls : List Control}
    {control : Control} (h : target? specifications control = none) :
    unresolvedAmong specifications parent (controls ++ [control]) =
      unresolvedAmong specifications parent controls ++ [unresolvedAt parent control] := by
  simp [unresolvedAmong, h]

theorem unresolvedAmong_snoc_of_some {parent : String} {controls : List Control}
    {control : Control} {s : Specification} (h : target? specifications control = some s) :
    unresolvedAmong specifications parent (controls ++ [control]) =
      unresolvedAmong specifications parent controls := by
  simp [unresolvedAmong, h]

/-! ## The line -/

/-- The controls of an id that are still in line. -/
def leftOf : List Pending → String → List Control
  | [], _ => []
  | p :: rest, id => if p.id = id then p.left else leftOf rest id

theorem leftOf_of_notMem {pending : List Pending} {id : String}
    (h : id ∉ pending.map (·.id)) : leftOf pending id = [] := by
  induction pending with
  | nil => rfl
  | cons p rest ih =>
    rw [List.map_cons, List.mem_cons, not_or] at h
    rw [leftOf, if_neg fun e => h.1 e.symm, ih h.2]

theorem leftOf_append_of_ne (pending : List Pending) {p : Pending} {id : String} (h : p.id ≠ id) :
    leftOf (pending ++ [p]) id = leftOf pending id := by
  induction pending with
  | nil => exact if_neg h
  | cons q rest ih => rw [List.cons_append, leftOf, leftOf, ih]

theorem leftOf_append_self {pending : List Pending} {p : Pending}
    (h : p.id ∉ pending.map (·.id)) : leftOf (pending ++ [p]) p.id = p.left := by
  induction pending with
  | nil => exact if_pos rfl
  | cons q rest ih =>
    rw [List.map_cons, List.mem_cons, not_or] at h
    rw [List.cons_append, leftOf, if_neg fun e => h.1 e.symm, ih h.2]

/-- What has been found and followed when some controls have been followed and others are still in
line. -/
structure Followed (specifications : Loader Specification) (pending : List Pending)
    (past : String → List Control) (r : SearchResult) : Prop where
  /-- What has been found is registered. -/
  registered : ∀ id s, r.found.get? id = some s → settingsOf? specifications id = some s
  /-- The controls are those followed and those in line. -/
  controls : ∀ id s, r.found.get? id = some s → past id ++ leftOf pending id = s.subSettings
  /-- What is in line has been found. -/
  waiting : ∀ p ∈ pending, r.found.contains p.id = true
  /-- Nothing is in line twice. -/
  distinct : (pending.map (·.id)).Nodup
  /-- Of what has not been found nothing has been followed. -/
  fresh : ∀ id, r.found.get? id = none → past id = []
  /-- The children are the targets of what has been followed. -/
  children : ∀ id, r.children.get? id =
    (r.found.get? id).map fun _ => targetIds specifications (past id)
  /-- The unresolved references are among what has been followed. -/
  unresolved : ∀ id, (r.unresolved.filter fun u => u.parent = id) =
    unresolvedAmong specifications id (past id)
  /-- Targets of what has been followed have been found. -/
  closed : ∀ id, ∀ control ∈ past id, ∀ child, target? specifications control = some child →
    r.found.contains child.id = true

namespace Followed

variable {pending rest : List Pending} {past : String → List Control} {r : SearchResult}
  {parent : String} {control : Control} {left : List Control}

theorem empty : Followed specifications [] (fun _ => []) .empty where
  registered := fun _ _ h => nomatch h
  controls := fun _ _ h => nomatch h
  waiting := fun _ h => nomatch h
  distinct := .nil
  fresh := fun _ _ => rfl
  children := fun _ => rfl
  unresolved := fun _ => rfl
  closed := fun _ _ h => nomatch h

/-- A settings specification is found for the first time and put in line. -/
theorem add (h : Followed specifications pending past r) {id : String} {s : Specification}
    (hs : settingsOf? specifications id = some s) (hnew : r.found.get? id = none) :
    Followed specifications (pending ++ [⟨id, s.subSettings⟩]) past (r.add id s) := by
  have hnot : id ∉ pending.map (·.id) := fun hmem => by
    obtain ⟨p, hp, rfl⟩ := List.mem_map.1 hmem
    have hfound := h.waiting p hp
    rw [IdMap.contains, hnew] at hfound
    cases hfound
  have hkept : ∀ key, r.found.contains key = true → (r.add id s).found.contains key = true :=
    fun key hkey => by rw [SearchResult.found_add, IdMap.contains_insert, hkey, Bool.or_true]
  constructor
  case registered =>
    intro key t ht
    by_cases hk : key = id
    · subst hk
      rw [SearchResult.found_add, IdMap.get?_insert_self] at ht
      cases ht
      exact hs
    · rw [SearchResult.found_add, IdMap.get?_insert_of_ne _ hk] at ht
      exact h.registered key t ht
  case controls =>
    intro key t ht
    by_cases hk : key = id
    · subst hk
      rw [SearchResult.found_add, IdMap.get?_insert_self] at ht
      cases ht
      rw [h.fresh key hnew, leftOf_append_self hnot]
      rfl
    · rw [SearchResult.found_add, IdMap.get?_insert_of_ne _ hk] at ht
      rw [leftOf_append_of_ne _ fun e => hk e.symm]
      exact h.controls key t ht
  case waiting =>
    intro p hp
    rcases List.mem_append.1 hp with hp | hp
    · exact hkept p.id (h.waiting p hp)
    · obtain rfl := List.mem_singleton.1 hp
      rw [SearchResult.found_add, IdMap.contains_insert, beq_self_eq_true, Bool.true_or]
  case distinct =>
    rw [List.map_append, List.nodup_append]
    refine ⟨h.distinct, List.nodup_singleton _, fun a ha b hb => ?_⟩
    obtain rfl := List.mem_singleton.1 hb
    exact fun e => hnot (e ▸ ha)
  case fresh =>
    intro key hkey
    by_cases hk : key = id
    · subst hk
      rw [SearchResult.found_add, IdMap.get?_insert_self] at hkey
      cases hkey
    · rw [SearchResult.found_add, IdMap.get?_insert_of_ne _ hk] at hkey
      exact h.fresh key hkey
  case children =>
    intro key
    by_cases hk : key = id
    · subst hk
      rw [SearchResult.add, IdMap.get?_insert_self, IdMap.get?_insert_self, h.fresh key hnew]
      rfl
    · rw [SearchResult.add, IdMap.get?_insert_of_ne _ hk, IdMap.get?_insert_of_ne _ hk]
      exact h.children key
  case unresolved => exact h.unresolved
  case closed =>
    intro key c hc child htarget
    exact hkept child.id (h.closed key c hc child htarget)

/-- The next control of the first in line has been followed. -/
theorem advance (h : Followed specifications (⟨parent, control :: left⟩ :: rest) past r)
    {r' : SearchResult} (hfound : r'.found = r.found)
    (hchildren : ∀ id, r'.children.get? id =
      if id = parent then some (targetIds specifications (past parent ++ [control]))
      else r.children.get? id)
    (hunresolved : ∀ id, (r'.unresolved.filter fun u => u.parent = id) =
      if id = parent then unresolvedAmong specifications parent (past parent ++ [control])
      else r.unresolved.filter fun u => u.parent = id)
    (hclosed : ∀ child, target? specifications control = some child →
      r.found.contains child.id = true) :
    Followed specifications (⟨parent, left⟩ :: rest)
      (Function.update past parent (past parent ++ [control])) r' := by
  have hparent := h.waiting _ List.mem_cons_self
  obtain ⟨s, hs⟩ := IdMap.contains_iff.1 hparent
  constructor
  case registered => exact hfound ▸ h.registered
  case controls =>
    intro id t ht
    have hsplit := h.controls id t (hfound ▸ ht)
    rw [leftOf] at hsplit ⊢
    by_cases hid : parent = id
    · subst hid
      rw [if_pos rfl] at hsplit ⊢
      rw [Function.update_self, List.append_assoc]
      exact hsplit
    · rw [if_neg hid] at hsplit ⊢
      rw [Function.update_of_ne fun e => hid e.symm]
      exact hsplit
  case waiting =>
    intro p hp
    rw [hfound]
    rcases List.mem_cons.1 hp with rfl | hp
    · exact hparent
    · exact h.waiting p (List.mem_cons_of_mem _ hp)
  case distinct => exact h.distinct
  case fresh =>
    intro id hid
    rw [hfound] at hid
    have hne : id ≠ parent := by
      rintro rfl
      rw [hs] at hid
      cases hid
    rw [Function.update_of_ne hne]
    exact h.fresh id hid
  case children =>
    intro id
    rw [hchildren, hfound]
    by_cases hid : id = parent
    · subst hid
      rw [if_pos rfl, Function.update_self, hs]
      rfl
    · rw [if_neg hid, Function.update_of_ne hid]
      exact h.children id
  case unresolved =>
    intro id
    rw [hunresolved]
    by_cases hid : id = parent
    · subst hid
      rw [if_pos rfl, Function.update_self]
    · rw [if_neg hid, Function.update_of_ne hid]
      exact h.unresolved id
  case closed =>
    intro id c hc child htarget
    rw [hfound]
    by_cases hid : id = parent
    · subst hid
      rw [Function.update_self] at hc
      rcases List.mem_append.1 hc with hc | hc
      · exact h.closed id c hc child htarget
      · obtain rfl := List.mem_singleton.1 hc
        exact hclosed child htarget
    · rw [Function.update_of_ne hid] at hc
      exact h.closed id c hc child htarget

/-- A reference that leads nowhere is noted. -/
theorem unresolve (h : Followed specifications (⟨parent, control :: left⟩ :: rest) past r)
    (hnone : target? specifications control = none) :
    Followed specifications (⟨parent, left⟩ :: rest)
      (Function.update past parent (past parent ++ [control]))
      { r with unresolved := r.unresolved ++ [unresolvedAt parent control] } := by
  obtain ⟨s, hs⟩ := IdMap.contains_iff.1 (h.waiting _ List.mem_cons_self)
  refine h.advance rfl (fun id => ?_) (fun id => ?_) fun child htarget => ?_
  · by_cases hid : id = parent
    · subst hid
      rw [if_pos rfl, targetIds_snoc_of_none hnone]
      show r.children.get? id = _
      rw [h.children, hs]
      rfl
    · rw [if_neg hid]
  · rw [List.filter_append, h.unresolved]
    by_cases hid : id = parent
    · subst hid
      rw [if_pos rfl, unresolvedAmong_snoc_of_none hnone]
      simp [unresolvedAt]
    · have hne : parent ≠ id := fun e => hid e.symm
      rw [if_neg hid]
      simp [unresolvedAt, hne]
  · rw [hnone] at htarget
    cases htarget

/-- A reference to something that has been found is noted. -/
theorem refer (h : Followed specifications (⟨parent, control :: left⟩ :: rest) past r)
    {child : Specification} (htarget : target? specifications control = some child)
    (hfound : r.found.contains child.id = true) :
    Followed specifications (⟨parent, left⟩ :: rest)
      (Function.update past parent (past parent ++ [control])) (r.refer parent child.id) := by
  obtain ⟨s, hs⟩ := IdMap.contains_iff.1 (h.waiting _ List.mem_cons_self)
  have hchildren : r.children.get? parent = some (targetIds specifications (past parent)) := by
    rw [h.children, hs]
    rfl
  have hunresolved : (r.refer parent child.id).unresolved = r.unresolved := by
    rw [SearchResult.refer]
    split <;> rfl
  refine h.advance (SearchResult.found_refer ..) (fun id => ?_) (fun id => ?_) fun c hc => ?_
  · rw [targetIds_snoc_of_some htarget, SearchResult.refer, hchildren, Option.getD_some]
    by_cases hmem : child.id ∈ targetIds specifications (past parent)
    · rw [if_pos hmem, if_pos hmem]
      by_cases hid : id = parent
      · rw [if_pos hid, hid, hchildren]
      · rw [if_neg hid]
    · rw [if_neg hmem, if_neg hmem]
      by_cases hid : id = parent
      · rw [if_pos hid, hid]
        exact IdMap.get?_insert_self ..
      · rw [if_neg hid]
        exact IdMap.get?_insert_of_ne _ hid _
  · rw [hunresolved, h.unresolved]
    by_cases hid : id = parent
    · subst hid
      rw [if_pos rfl, unresolvedAmong_snoc_of_some htarget]
    · rw [if_neg hid]
  · cases htarget.symm.trans hc
    exact hfound

/-- The first in line has no controls left. -/
theorem finish (h : Followed specifications (⟨parent, []⟩ :: rest) past r) :
    Followed specifications rest past r where
  registered := h.registered
  controls := fun id s hs => by
    have hsplit := h.controls id s hs
    rw [leftOf] at hsplit
    split at hsplit
    · rename_i hid
      have hnot : id ∉ rest.map (·.id) := hid ▸ (List.nodup_cons.1 h.distinct).1
      rwa [leftOf_of_notMem hnot]
    · exact hsplit
  waiting := fun p hp => h.waiting p (List.mem_cons_of_mem _ hp)
  distinct := h.distinct.tail
  fresh := h.fresh
  children := h.children
  unresolved := h.unresolved
  closed := h.closed

end Followed

/-! ## Runs -/

/-- Following keeps what has been followed, until nothing is in line. -/
theorem followed_follow (hown : specifications.OwnIds) {pending : List Pending}
    {past : String → List Control} {r : SearchResult} (h : Followed specifications pending past r) :
    ∃ past', Followed specifications [] past' (follow specifications pending r) := by
  fun_induction follow specifications pending r generalizing past with
  | case1 r => exact ⟨past, h⟩
  | case2 r parent rest ih => exact ih h.finish
  | case3 r parent control left rest hnone ih => exact ih (h.unresolve hnone)
  | case4 r parent control left rest child htarget hfound ih => exact ih (h.refer htarget hfound)
  | case5 r parent control left rest child htarget hnew ih =>
    have hnone : r.found.get? child.id = none := by
      simpa [IdMap.contains] using hnew
    have hadd := h.add (of_target? hown htarget) hnone
    refine ih (hadd.refer htarget ?_)
    rw [SearchResult.found_add, IdMap.contains_insert, beq_self_eq_true, Bool.true_or]

/-- The candidates that describe settings are put in line. -/
theorem followed_start {pending : List Pending} {past : String → List Control} {r : SearchResult}
    (candidates : List String) (h : Followed specifications pending past r) :
    Followed specifications (start specifications candidates r pending).2 past
      (start specifications candidates r pending).1 := by
  fun_induction start specifications candidates r pending with
  | case1 r line => exact h
  | case2 id rest r line hnone ih => exact ih h
  | case3 id rest r line s hs hfound ih => exact ih h
  | case4 id rest r line s hs hnew ih =>
    refine ih (h.add hs ?_)
    simpa [IdMap.contains] using hnew

theorem contains_follow (pending : List Pending) (r : SearchResult) {id : String}
    (h : r.found.contains id = true) :
    (follow specifications pending r).found.contains id = true := by
  fun_induction follow specifications pending r with
  | case1 r => exact h
  | case2 r parent rest ih => exact ih h
  | case3 r parent control left rest hnone ih => exact ih h
  | case4 r parent control left rest child htarget hfound ih =>
    exact ih (by rwa [SearchResult.found_refer])
  | case5 r parent control left rest child htarget hnew ih =>
    refine ih ?_
    rw [SearchResult.found_refer, SearchResult.found_add, IdMap.contains_insert, h, Bool.or_true]

/-- Candidates that describe settings are found, and nothing that has been found before is lost. -/
theorem contains_start (candidates : List String) (r : SearchResult) (line : List Pending)
    {id : String} (h : r.found.contains id = true ∨
      id ∈ candidates ∧ ∃ s, settingsOf? specifications id = some s) :
    (start specifications candidates r line).1.found.contains id = true := by
  fun_induction start specifications candidates r line with
  | case1 r line =>
    rcases h with h | ⟨hmem, -⟩
    · exact h
    · cases hmem
  | case2 key rest r line hnone ih =>
    refine ih (h.imp_right fun ⟨hmem, s, hs⟩ => ⟨?_, s, hs⟩)
    rcases List.mem_cons.1 hmem with rfl | hmem
    · cases hs.symm.trans hnone
    · exact hmem
  | case3 key rest r line s hs hfound ih =>
    refine ih ?_
    rcases h with h | ⟨hmem, hsettings⟩
    · exact .inl h
    · rcases List.mem_cons.1 hmem with rfl | hmem
      · exact .inl hfound
      · exact .inr ⟨hmem, hsettings⟩
  | case4 key rest r line s hs hnew ih =>
    refine ih ?_
    rw [SearchResult.found_add, IdMap.contains_insert]
    rcases h with h | ⟨hmem, hsettings⟩
    · exact .inl (by rw [h, Bool.or_true])
    · rcases List.mem_cons.1 hmem with rfl | hmem
      · exact .inl (by rw [beq_self_eq_true, Bool.true_or])
      · exact .inr ⟨hmem, hsettings⟩

end SettingsSearch

namespace SearchResult

open SettingsSearch

/-- A result in which the references of everything found have been followed. -/
structure Settled (specifications : Loader Specification) (r : SearchResult) : Prop where
  /-- What has been found is registered. -/
  registered : ∀ id s, r.found.get? id = some s → settingsOf? specifications id = some s
  /-- Exactly what has been found has children, the targets of its sub-settings controls. -/
  children : ∀ id, r.children.get? id =
    (r.found.get? id).map fun s => targetIds specifications s.subSettings
  /-- Of each id the unresolved references are those of its sub-settings controls. -/
  unresolved : ∀ id, (r.unresolved.filter fun u => u.parent = id) =
    (r.found.get? id).elim [] fun s => unresolvedAmong specifications id s.subSettings
  /-- The targets of what has been found have been found. -/
  closed : ∀ id s, r.found.get? id = some s → ∀ control ∈ s.subSettings,
    ∀ child, target? specifications control = some child → r.found.contains child.id = true

variable {specifications : Loader Specification} {r : SearchResult}

theorem settled_of_followed {past : String → List Control}
    (h : Followed specifications [] past r) : r.Settled specifications := by
  have hpast : ∀ id s, r.found.get? id = some s → past id = s.subSettings := fun id s hs => by
    have hsplit := h.controls id s hs
    rwa [leftOf, List.append_nil] at hsplit
  constructor
  case registered => exact h.registered
  case children =>
    intro id
    rw [h.children]
    cases hs : r.found.get? id with
    | none => rfl
    | some s => rw [hpast id s hs]; rfl
  case unresolved =>
    intro id
    rw [h.unresolved]
    cases hs : r.found.get? id with
    | none => rw [h.fresh id hs]; rfl
    | some s => rw [hpast id s hs]; rfl
  case closed =>
    intro id s hs control hmem
    exact h.closed id control (hpast id s hs ▸ hmem)

/-- Children are what the sub-settings controls of a found specification refer to. -/
theorem Settled.pointsTo_iff (h : r.Settled specifications) {a b : String} :
    r.children.PointsTo a b ↔ ∃ s, r.found.get? a = some s ∧ ∃ control ∈ s.subSettings,
      ∃ child, target? specifications control = some child ∧ child.id = b := by
  rw [IdGraph.PointsTo]
  constructor
  · rintro ⟨ids, hids, hmem⟩
    rw [h.children] at hids
    obtain ⟨s, hs, rfl⟩ := Option.map_eq_some_iff.1 hids
    exact ⟨s, hs, mem_targetIds_iff.1 hmem⟩
  · rintro ⟨s, hs, hrefers⟩
    exact ⟨_, by rw [h.children, hs]; rfl, mem_targetIds_iff.2 hrefers⟩

/-- A result is complete exactly if every sub-settings control of a found specification has a
target. -/
theorem Settled.isComplete_iff (h : r.Settled specifications) :
    r.isComplete = true ↔ ∀ id s, r.found.get? id = some s → ∀ control ∈ s.subSettings,
      ∃ child, target? specifications control = some child := by
  rw [isComplete, List.isEmpty_iff]
  constructor
  · intro hempty id s hs control hmem
    have hnone := h.unresolved id
    rw [hempty, hs, List.filter_nil, Option.elim_some, unresolvedAmong, eq_comm,
      List.map_eq_nil_iff, List.filter_eq_nil_iff] at hnone
    simpa [Option.ne_none_iff_exists'] using hnone control hmem
  · intro hall
    rw [List.eq_nil_iff_forall_not_mem]
    intro u hu
    have hmem : u ∈ r.unresolved.filter fun v => v.parent = u.parent :=
      List.mem_filter.2 ⟨hu, by simp⟩
    rw [h.unresolved] at hmem
    cases hs : r.found.get? u.parent with
    | none =>
      rw [hs] at hmem
      cases hmem
    | some s =>
      rw [hs, Option.elim_some, unresolvedAmong] at hmem
      obtain ⟨control, hcontrol, -⟩ := List.mem_map.1 hmem
      obtain ⟨hc, hnone⟩ := List.mem_filter.1 hcontrol
      obtain ⟨child, htarget⟩ := hall _ s hs control hc
      rw [htarget] at hnone
      cases hnone

end SearchResult

namespace SettingsSearch

variable {specifications : Loader Specification}

/-- The search follows the references of everything that it finds. -/
theorem settled_reach (hown : specifications.OwnIds) (candidates : List String) :
    (reach specifications candidates).Settled specifications := by
  obtain ⟨past, h⟩ := followed_follow hown (followed_start candidates Followed.empty)
  exact SearchResult.settled_of_followed h

theorem found_reach (hown : specifications.OwnIds) {candidates : List String} {id : String}
    {s : Specification} (hmem : id ∈ candidates) (hs : settingsOf? specifications id = some s) :
    (reach specifications candidates).found.get? id = some s := by
  have hcontains : (reach specifications candidates).found.contains id = true :=
    contains_follow _ _ (contains_start candidates _ _ (.inr ⟨hmem, s, hs⟩))
  obtain ⟨t, ht⟩ := IdMap.contains_iff.1 hcontains
  have hregistered := (settled_reach hown candidates).registered id t ht
  rw [hs] at hregistered
  cases hregistered
  exact ht

theorem mem_probableIds {id : String} {s : Specification}
    (h : settingsOf? specifications id = some s) : id ∈ probableIds specifications := by
  obtain ⟨hget, hsettings⟩ := settingsOf?_eq_some_iff.1 h
  refine List.mem_map.2 ⟨(id, s), List.mem_filter.2 ⟨IdMap.mem_entries_iff.2 hget, ?_⟩, rfl⟩
  exact Specification.contains_marker hsettings

/-- If all specifications describe settings, all ids are probable. -/
theorem probableIds_of_forall (h : ∀ s ∈ specifications.values, s.isSettings = true) :
    probableIds specifications = specifications.ids := by
  rw [probableIds, entries_catalogueOf, IdMap.ids, List.filter_eq_self.2]
  exact fun e he => Specification.contains_marker (h e.2 (List.mem_map_of_mem he))

/-- A search succeeds exactly if no reference leads back to where it starts. -/
theorem process_ok_iff {candidates : List String} {r : SearchResult} :
    process specifications candidates = .ok r ↔
      r = reach specifications candidates ∧
        ∀ id, ¬ Relation.TransGen (reach specifications candidates).children.PointsTo id id := by
  rw [← IdGraph.circle?_eq_none_iff, process]
  cases (reach specifications candidates).children.circle? with
  | some ids => simp
  | none => simp [eq_comm]

theorem process_error_iff {candidates : List String} {e : SettingsError} :
    process specifications candidates = .error e ↔
      ∃ ids, e = .cycle ids ∧ (reach specifications candidates).children.circle? = some ids := by
  rw [process]
  cases (reach specifications candidates).children.circle? with
  | none => simp
  | some ids => simp [eq_comm]

end SettingsSearch

end ExecutorHost
