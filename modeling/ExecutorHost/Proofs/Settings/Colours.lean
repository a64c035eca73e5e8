import ExecutorHost.Proofs.Settings.Findings

/-!
# Colours of a search for a circle

A search for a circle may keep three records beside its stack: the ids that it has visited, the ids
that it has entered and not left yet, and the way from where it has started. A pointer to an id that
it has entered closes a circle, which starts at the first place of that id on the way. As long as
the records are in step with the stack, this finds the circle that the stack alone shows, and the id
that closes it has a place on the way. So a search for settings fails exactly if something within
reach refers back to itself.
-/

namespace ExecutorHost

open Relation

namespace IdGraph

/-! ## The records -/

/-- The records of a search. -/
structure Colours where
  /-- The ids visited. -/
  visited : List String := []
  /-- The ids entered and not left yet. -/
  entered : List String := []
  /-- The ids entered and not left yet, in the order in which they were entered. -/
  way : List String := []

namespace Colours

/-- An id is visited for the first time. -/
def enter (c : Colours) (id : String) : Colours :=
  ⟨id :: c.visited, id :: c.entered, c.way ++ [id]⟩

/-- All pointers of the id that was entered last have been followed. -/
def leave (c : Colours) (id : String) : Colours :=
  { c with entered := c.entered.filter (· ≠ id), way := c.way.dropLast }

end Colours

/-- A way and the id that the last pointer leads back to. -/
structure Closing where
  /-- The way. -/
  way : List String
  /-- The id that it leads back to. -/
  back : String

namespace Closing

/-- The first place of the id on the way. -/
def start? (closing : Closing) : Option Nat := closing.way.idxOf? closing.back

/-- The way from that place on, or all of it if there is none, and the id again at the end. -/
def circle (closing : Closing) : List String :=
  closing.way.drop (closing.start?.getD 0) ++ [closing.back]

/-- If the id is on the way it has a first place there, where the ids before it end. -/
theorem exists_start {closing : Closing} (h : closing.back ∈ closing.way) :
    ∃ start, closing.start? = some start ∧
      closing.way.drop start = closing.way.dropWhile (· ≠ closing.back) := by
  obtain ⟨way, back⟩ := closing
  rw [start?]
  induction way with
  | nil => cases h
  | cons id way ih =>
    rw [List.idxOf?_cons, List.dropWhile_cons]
    by_cases hid : id = back
    · exact ⟨0, by simp [hid], by simp [hid]⟩
    · obtain ⟨start, hstart, hdrop⟩ := ih ((List.mem_cons.1 h).resolve_left fun e => hid e.symm)
      exact ⟨start + 1, by simp [hid, hstart], by simp [hid, hdrop]⟩

end Closing

/-- Visiting an id outside the graph leaves as many unvisited. -/
theorem unvisited_of_notMem {graph : IdGraph} {id : String} (h : id ∉ graph.ids)
    (visited : List String) : graph.unvisited (id :: visited) = graph.unvisited visited := by
  refine List.countP_congr fun k hk => ?_
  have hne : k ≠ id := fun e => h (e ▸ hk)
  simp [hne]

/-- The first way that closes, from the ids on the stack and then from the ids to start at. An id
outside the graph is left as soon as it has been entered. -/
def findClosing (graph : IdGraph) (c : Colours) (stack : List Visit) (starts : List String) :
    Option Closing :=
  match stack with
  | [] =>
    match starts with
    | [] => none
    | id :: starts =>
      if _h : id ∈ graph.ids ∧ id ∉ c.visited then
        findClosing graph (c.enter id) [⟨id, (graph.get? id).getD []⟩] starts
      else findClosing graph c [] starts
  | ⟨id, []⟩ :: stack => findClosing graph (c.leave id) stack starts
  | ⟨top, next :: left⟩ :: below =>
    if _hnew : next ∉ c.visited then
      if _hmem : next ∈ graph.ids then
        findClosing graph (c.enter next)
          (⟨next, (graph.get? next).getD []⟩ :: ⟨top, left⟩ :: below) starts
      else findClosing graph ((c.enter next).leave next) (⟨top, left⟩ :: below) starts
    else if next ∈ c.entered then some ⟨c.way, next⟩
    else findClosing graph c (⟨top, left⟩ :: below) starts
termination_by (graph.unvisited c.visited, work stack, starts.length)
decreasing_by
  · exact Prod.Lex.left _ _ (unvisited_lt _h.1 _h.2)
  · exact Prod.Lex.right _ (Prod.Lex.right _ (by simp))
  · exact Prod.Lex.right _ (Prod.Lex.left _ _ (by simp [work]))
  · exact Prod.Lex.left _ _ (unvisited_lt _hmem _hnew)
  · -- an id outside the graph is no progress with the graph, but one pointer less is left
    simp only [Colours.enter, Colours.leave, unvisited_of_notMem _hmem]
    exact Prod.Lex.right _ (Prod.Lex.left _ _ (by simp [work]))
  · exact Prod.Lex.right _ (Prod.Lex.left _ _ (by simp [work]))

/-- The first way that closes in a graph, looked for from its ids in their order. -/
def closing? (graph : IdGraph) : Option Closing := graph.findClosing {} [] graph.ids

/-! ## In step with the stack -/

variable {graph : IdGraph} {visited starts : List String} {stack below : List Visit}
  {c : Colours} {id top : String} {left : List String}

/-- The records say what the stack says. -/
structure InStep (graph : IdGraph) (visited : List String) (stack : List Visit) (c : Colours) :
    Prop where
  /-- Of the ids of the graph the same ones have been visited. -/
  visited : ∀ id ∈ graph.ids, id ∈ c.visited ↔ id ∈ visited
  /-- What is on the stack has been visited. -/
  known : ∀ id ∈ stack.map (·.id), id ∈ c.visited
  /-- What has been entered and not left is what is on the stack. -/
  entered : ∀ id, id ∈ c.entered ↔ id ∈ stack.map (·.id)
  /-- The way is the stack from the bottom up. -/
  way : c.way = (stack.map (·.id)).reverse
  /-- No id is on the stack twice. -/
  distinct : (stack.map (·.id)).Nodup

namespace InStep

theorem nil : InStep graph [] [] {} where
  visited := fun _ _ => .rfl
  known := fun _ h => nomatch h
  entered := fun _ => .rfl
  way := rfl
  distinct := .nil

/-- A new id is entered and goes on the stack. -/
theorem enter (h : InStep graph visited stack c) (hnew : id ∉ c.visited) (left : List String) :
    InStep graph (id :: visited) (⟨id, left⟩ :: stack) (c.enter id) where
  visited := fun k hk => by
    rw [Colours.enter, List.mem_cons, List.mem_cons, h.visited k hk]
  known := fun k hk => by
    rcases List.mem_cons.1 hk with rfl | hk
    · exact List.mem_cons_self
    · exact List.mem_cons_of_mem _ (h.known k hk)
  entered := fun k => by
    rw [Colours.enter, List.map_cons, List.mem_cons, List.mem_cons, h.entered k]
  way := by
    rw [Colours.enter, List.map_cons, List.reverse_cons, h.way]
  distinct := List.nodup_cons.2 ⟨fun hon => hnew (h.known id hon), h.distinct⟩

/-- The id on top is left and goes off the stack. -/
theorem leave (h : InStep graph visited (⟨id, left⟩ :: stack) c) :
    InStep graph visited stack (c.leave id) where
  visited := h.visited
  known := fun k hk => h.known k (List.mem_cons_of_mem _ hk)
  entered := fun k => by
    have hnot : id ∉ stack.map (·.id) := (List.nodup_cons.1 h.distinct).1
    rw [Colours.leave, List.mem_filter, h.entered k, List.map_cons, List.mem_cons]
    constructor
    · rintro ⟨rfl | hon, hne⟩
      · simp at hne
      · exact hon
    · intro hon
      have hne : k ≠ id := fun e => hnot (e ▸ hon)
      exact ⟨.inr hon, by simpa using hne⟩
  way := by
    rw [Colours.leave, h.way, List.map_cons, List.reverse_cons, List.dropLast_concat]
  distinct := h.distinct.tail

/-- A pointer to a new id outside the graph is followed there and back. -/
theorem outside (h : InStep graph visited stack c) (hnew : id ∉ c.visited)
    (hout : id ∉ graph.ids) : InStep graph visited stack ((c.enter id).leave id) := by
  have hback := (h.enter hnew []).leave
  -- all but the visited ids is back as it was, and those differ outside the graph only
  refine ⟨fun k hk => ?_, hback.known, hback.entered, hback.way, hback.distinct⟩
  have hne : k ≠ id := fun e => hout (e ▸ hk)
  rw [hback.visited k hk, List.mem_cons]
  exact or_iff_right hne

/-- Which pointers are left does not matter. -/
theorem advance {rest : List String} (h : InStep graph visited (⟨top, left⟩ :: below) c) :
    InStep graph visited (⟨top, rest⟩ :: below) c :=
  ⟨h.visited, h.known, h.entered, h.way, h.distinct⟩

/-- A pointer back onto the stack leads back onto the way. -/
theorem mem_way (h : InStep graph visited stack c) (hon : id ∈ c.entered) : id ∈ c.way := by
  rw [h.way, List.mem_reverse]
  exact (h.entered id).1 hon

/-- The circle on the way is the circle on the stack. -/
theorem circle_eq (h : InStep graph visited stack c) (hon : id ∈ c.entered) :
    (Closing.mk c.way id).circle = circleOf stack id := by
  obtain ⟨start, hstart, hdrop⟩ := @Closing.exists_start ⟨c.way, id⟩ (h.mem_way hon)
  rw [Closing.circle, hstart, Option.getD_some, hdrop, circleOf, List.map_reverse, h.way]

end InStep

/-! ## Runs -/

/-- In step, the records show the circle that the stack shows. -/
theorem findCircle_eq (h : InStep graph visited stack c) :
    graph.findCircle visited stack starts =
      (graph.findClosing c stack starts).map Closing.circle := by
  fun_induction findClosing graph c stack starts generalizing visited with
  | case1 c => rw [findCircle, Option.map_none]
  | case2 c id starts hnew ih =>
    have hold : id ∉ visited := fun hv => hnew.2 ((h.visited id hnew.1).2 hv)
    rw [findCircle, dif_pos ⟨hnew.1, hold⟩]
    exact ih (h.enter hnew.2 _)
  | case3 c id starts hold ih =>
    have hnot : ¬ (id ∈ graph.ids ∧ id ∉ visited) := by
      rintro ⟨hmem, hv⟩
      exact hold ⟨hmem, fun hc => hv ((h.visited id hmem).1 hc)⟩
    rw [findCircle, dif_neg hnot]
    exact ih h
  | case4 c starts id stack ih =>
    rw [findCircle]
    exact ih h.leave
  | case5 c starts top next left below hnew hmem ih =>
    have hoff : next ∉ (⟨top, next :: left⟩ :: below : List Visit).map (·.id) :=
      fun hon => hnew (h.known next hon)
    have hold : next ∉ visited := fun hv => hnew ((h.visited next hmem).2 hv)
    rw [findCircle, if_neg hoff, dif_pos ⟨hmem, hold⟩]
    exact ih (h.advance.enter hnew _)
  | case6 c starts top next left below hnew hout ih =>
    have hoff : next ∉ (⟨top, next :: left⟩ :: below : List Visit).map (·.id) :=
      fun hon => hnew (h.known next hon)
    -- the stack alone passes over this pointer, the records follow it there and back
    rw [findCircle, if_neg hoff, dif_neg fun hin => hout hin.1]
    exact ih (h.advance.outside hnew hout)
  | case7 c starts top next left below hold hon =>
    rw [findCircle, if_pos ((h.entered next).1 hon), Option.map_some, h.circle_eq hon]
  | case8 c starts top next left below hold hoff ih =>
    have hnot : ¬ (next ∈ graph.ids ∧ next ∉ visited) := by
      rintro ⟨hmem, hv⟩
      exact hv ((h.visited next hmem).1 (not_not.1 hold))
    rw [findCircle, if_neg fun hon => hoff ((h.entered next).2 hon), dif_neg hnot]
    exact ih h.advance

/-- In step, a way that closes leads back to an id on it. -/
theorem back_mem_way (h : InStep graph visited stack c) {closing : Closing}
    (hclosing : graph.findClosing c stack starts = some closing) : closing.back ∈ closing.way := by
  fun_induction findClosing graph c stack starts generalizing visited with
  | case1 c => cases hclosing
  | case2 c id starts hnew ih => exact ih (h.enter hnew.2 _) hclosing
  | case3 c id starts hold ih => exact ih h hclosing
  | case4 c starts id stack ih => exact ih h.leave hclosing
  | case5 c starts top next left below hnew hmem ih => exact ih (h.advance.enter hnew _) hclosing
  | case6 c starts top next left below hnew hout ih =>
    exact ih (h.advance.outside hnew hout) hclosing
  | case7 c starts top next left below hold hon =>
    cases hclosing
    exact h.mem_way hon
  | case8 c starts top next left below hold hoff ih => exact ih h.advance hclosing

/-- The first circle is that of the first way that closes. -/
theorem circle?_eq : graph.circle? = graph.closing?.map Closing.circle := findCircle_eq .nil

/-- A circle that is reported starts at a place on the way that closes. -/
theorem exists_closing {ids : List String} (h : graph.circle? = some ids) :
    ∃ closing start, graph.closing? = some closing ∧ closing.start? = some start ∧
      ids = closing.way.drop start ++ [closing.back] := by
  rw [circle?_eq] at h
  obtain ⟨closing, hclosing, rfl⟩ := Option.map_eq_some_iff.1 h
  obtain ⟨start, hstart, -⟩ := Closing.exists_start (back_mem_way .nil hclosing)
  exact ⟨closing, start, hclosing, hstart, by rw [Closing.circle, hstart, Option.getD_some]⟩

end IdGraph

namespace SettingsSearch

variable {specifications : Loader Specification} {candidates ids : List String} {a b : String}

/-! ## Circles within reach -/

/-- The children of what a search finds are the references of what is within reach. -/
theorem pointsTo_reach_iff (hown : specifications.OwnIds) :
    (reach specifications candidates).children.PointsTo a b ↔
      Reached specifications candidates a ∧ RefersTo specifications a b := by
  have hsettled := settled_reach hown candidates
  rw [hsettled.pointsTo_iff, ← mem_ids_reach_iff hown, IdMap.mem_ids_iff]
  constructor
  · rintro ⟨s, hs, hcontrol⟩
    exact ⟨⟨s, hs⟩, (refersTo_iff (hsettled.registered a s hs)).2 hcontrol⟩
  · rintro ⟨⟨s, hs⟩, hrefers⟩
    exact ⟨s, hs, (refersTo_iff (hsettled.registered a s hs)).1 hrefers⟩

/-- From something within reach, references lead where the children lead. -/
theorem transGen_pointsTo_reach_iff (hown : specifications.OwnIds) :
    TransGen (reach specifications candidates).children.PointsTo a b ↔
      Reached specifications candidates a ∧ TransGen (RefersTo specifications) a b := by
  constructor
  · intro h
    obtain ⟨next, hstep, -⟩ := TransGen.head'_iff.1 h
    exact ⟨((pointsTo_reach_iff hown).1 hstep).1,
      h.lift id fun _ _ hstep => ((pointsTo_reach_iff hown).1 hstep).2⟩
  · rintro ⟨hreached, h⟩
    induction h using TransGen.head_induction_on with
    | single hrefers => exact .single ((pointsTo_reach_iff hown).2 ⟨hreached, hrefers⟩)
    | head hrefers _ ih =>
      exact .head ((pointsTo_reach_iff hown).2 ⟨hreached, hrefers⟩) (ih (hreached.reference hrefers))

/-- A search fails exactly if something within reach of its candidates refers back to itself. It
reports a circle of references within reach, which begins where the way that has closed first comes
to the id that closes it, and it stays as it was, so that what it answers stays the same. -/
theorem search_reports_circle (hown : specifications.OwnIds) (search : SettingsSearch) :
    ((∃ ids, (search.run specifications).2 = .error (.cycle ids)) ↔
      ∃ id, Reached specifications (search.candidates.getD (probableIds specifications)) id ∧
        TransGen (RefersTo specifications) id id) ∧
    ∀ ids, (search.run specifications).2 = .error (.cycle ids) →
      IsCircle (RefersTo specifications) ids ∧
      (∀ id ∈ ids,
        Reached specifications (search.candidates.getD (probableIds specifications)) id) ∧
      (∃ closing start, (reach specifications
          (search.candidates.getD (probableIds specifications))).children.closing? = some closing ∧
        closing.start? = some start ∧ ids = closing.way.drop start ++ [closing.back]) ∧
      (search.run specifications).1 = search := by
  generalize hc : search.candidates.getD (probableIds specifications) = candidates
  -- what is reported is a circle of the children that have been found
  have hcircle : ∀ ids, (search.run specifications).2 = .error (.cycle ids) →
      (reach specifications candidates).children.circle? = some ids := by
    intro ids h
    obtain ⟨_, hids, hsome⟩ := process_error_iff.1 (of_run_error h).2
    cases hids
    rwa [hc] at hsome
  refine ⟨⟨?_, ?_⟩, fun ids h => ?_⟩
  · rintro ⟨ids, h⟩
    obtain ⟨id, hloop⟩ := (IdGraph.isCircle_of_circle? (hcircle ids h)).transGen
    exact ⟨id, (transGen_pointsTo_reach_iff hown).1 hloop⟩
  · rintro ⟨id, hback⟩
    have hsome : (reach specifications candidates).children.circle? ≠ none := fun hnone =>
      IdGraph.circle?_eq_none_iff.1 hnone id ((transGen_pointsTo_reach_iff hown).2 hback)
    obtain ⟨ids, hids⟩ := Option.ne_none_iff_exists'.1 hsome
    refine ⟨ids, ?_⟩
    rw [run_of_process_error (process_error_iff.2 ⟨ids, rfl, hc ▸ hids⟩)]
  · have hpoints := IdGraph.isCircle_of_circle? (hcircle ids h)
    refine ⟨hpoints.mono fun _ _ hstep => ((pointsTo_reach_iff hown).1 hstep).2, ?_,
      IdGraph.exists_closing (hcircle ids h), (of_run_error h).1⟩
    intro id hid
    obtain ⟨next, hstep⟩ := hpoints.exists_next hid
    exact ((pointsTo_reach_iff hown).1 hstep).1

end SettingsSearch

namespace Sample

open SettingsSearch

/-- Settings that lead to a ring of two others. -/
def ring : Loader Specification :=
  ((IdMap.empty.insert "a" (settings "a" "first" [reference "b" (some "b")])).insert "b"
    (settings "b" "second" [reference "third" none])).insert "c"
    (settings "c" "third" [reference "second" (some "b")])

/-- A search that was made before, when there was nothing to find. -/
def ringSearch : SettingsSearch := { candidates := some ["a"], result := some .empty }

theorem ownIds_ring : ring.OwnIds := Loader.ownIds_iff.2 (by decide)

theorem run_ring : (ringSearch.run ring).2 = .error (.cycle ["b", "c", "b"]) := by
  have hcircle : (reach ring ["a"]).children.circle? = some ["b", "c", "b"] := by cbv
  have hprocess : process ring ["a"] = .error (.cycle ["b", "c", "b"]) :=
    process_error_iff.2 ⟨_, rfl, hcircle⟩
  rw [run_of_process_error hprocess]

end Sample

namespace SettingsSearch

/-- What a search reports among settings that lead to a ring. -/
theorem search_reports_circle_ring :
    Sample.ring.OwnIds ∧ (∃ id, Reached Sample.ring ["a"] id ∧
      TransGen (RefersTo Sample.ring) id id) ∧
      (Sample.ringSearch.run Sample.ring).2 = .error (.cycle ["b", "c", "b"]) ∧
      IsCircle (RefersTo Sample.ring) ["b", "c", "b"] ∧
      (∃ closing, (reach Sample.ring ["a"]).children.closing? = some closing ∧
        closing.way = ["a", "b", "c"] ∧ closing.start? = some 1) ∧
      (Sample.ringSearch.run Sample.ring).1 = Sample.ringSearch := by
  obtain ⟨hiff, hall⟩ := search_reports_circle Sample.ownIds_ring Sample.ringSearch
  obtain ⟨hcircle, -, -, hsame⟩ := hall _ Sample.run_ring
  refine ⟨Sample.ownIds_ring, hiff.1 ⟨_, Sample.run_ring⟩, Sample.run_ring, hcircle,
    ⟨⟨["a", "b", "c"], "b"⟩, ?_, rfl, ?_⟩, hsame⟩
  · cbv
  · cbv

end SettingsSearch

end ExecutorHost
