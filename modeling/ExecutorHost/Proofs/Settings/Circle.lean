import ExecutorHost.Proofs.IdMap
import ExecutorHost.Settings.Circle
import Mathlib.Data.List.Chain
import Mathlib.Data.List.Nodup
import Mathlib.Data.List.TakeWhile
import Mathlib.Logic.Relation

/-!
# Circles of a graph

The search for a circle finds one exactly if there is one. What it reports is a circle, since the
stack is a chain of pointers. If it reports nothing, every id that has been visited and has left the
stack ends: no way along pointers goes on from it forever.
-/

namespace ExecutorHost

open Relation

/-- Distinct ids, each related to the next one and the last one to the first one, which stands at
the end once more. -/
def IsCircle (R : String → String → Prop) (ids : List String) : Prop :=
  ∃ first rest, ids = first :: rest ++ [first] ∧ (first :: rest).Nodup ∧ ids.IsChain R

/-- A chain of distinct ids that leads back to one of them has a circle at its end, from the first
visit of that id on. -/
theorem isCircle_of_isChain {R : String → String → Prop} {ids : List String} {id : String}
    (hchain : (ids ++ [id]).IsChain R) (hnodup : ids.Nodup) (hmem : id ∈ ids) :
    IsCircle R (ids.dropWhile (· ≠ id) ++ [id]) := by
  have hne : ids.dropWhile (fun k => decide (k ≠ id)) ≠ [] := by
    rw [ne_eq, List.dropWhile_eq_nil_iff]
    intro hall
    simpa using hall id hmem
  have hsuffix := List.dropWhile_suffix (l := ids) fun k => decide (k ≠ id)
  have hhead := List.head_dropWhile_not (fun k => decide (k ≠ id)) hne
  obtain ⟨first, rest, heq⟩ := List.exists_cons_of_ne_nil hne
  simp only [heq, List.head_cons] at hhead
  obtain rfl : first = id := by simpa using hhead
  rw [heq] at hsuffix ⊢
  obtain ⟨front, rfl⟩ := hsuffix
  rw [List.append_assoc] at hchain
  exact ⟨first, rest, rfl, (List.nodup_append.1 hnodup).2.1, hchain.right_of_append⟩

theorem IsCircle.mono {R S : String → String → Prop} {ids : List String} (h : IsCircle R ids)
    (hsub : ∀ a b, R a b → S a b) : IsCircle S ids := by
  obtain ⟨first, rest, heq, hnodup, hchain⟩ := h
  exact ⟨first, rest, heq, hnodup, hchain.imp hsub⟩

/-- From each id of a circle it goes on. -/
theorem IsCircle.exists_next {R : String → String → Prop} {ids : List String} {id : String}
    (h : IsCircle R ids) (hmem : id ∈ ids) : ∃ next, R id next := by
  obtain ⟨first, rest, rfl, -, hchain⟩ := h
  -- the last id is the first one, so there is a place of the id that is not the last
  have hfront : id ∈ first :: rest := by
    rcases List.mem_append.1 hmem with hmem | hmem
    · exact hmem
    · rw [List.mem_singleton.1 hmem]
      exact List.mem_cons_self
  obtain ⟨before, after, heq⟩ := List.append_of_mem hfront
  rw [heq, List.append_assoc] at hchain
  have hbehind := hchain.right_of_append
  cases after with
  | nil => exact ⟨first, (List.isChain_cons_cons.1 hbehind).1⟩
  | cons next after => exact ⟨next, (List.isChain_cons_cons.1 hbehind).1⟩

theorem IsCircle.transGen {R : String → String → Prop} {ids : List String} (h : IsCircle R ids) :
    ∃ id, TransGen R id id := by
  obtain ⟨first, rest, rfl, -, hchain⟩ := h
  have hall : ∀ (rest : List String) (start : String),
      (start :: rest ++ [first]).IsChain R → TransGen R start first := by
    intro rest
    induction rest with
    | nil => exact fun start h => .single (List.isChain_pair.1 h)
    | cons id rest ih =>
      intro start h
      obtain ⟨hstep, hrest⟩ := List.isChain_cons_cons.1 h
      exact .head hstep (ih id hrest)
  exact ⟨first, hall rest first hchain⟩

namespace IdGraph

variable {graph : IdGraph} {visited starts : List String} {stack below : List Visit}
  {top next : String} {left : List String}

/-- An id has another one among its pointers. -/
def PointsTo (graph : IdGraph) (a b : String) : Prop :=
  ∃ pointers, graph.get? a = some pointers ∧ b ∈ pointers

/-- Every way along pointers from an id comes to an end. -/
def Ends (graph : IdGraph) (id : String) : Prop := Acc (fun b a => graph.PointsTo a b) id

theorem mem_getD_iff {a b : String} : b ∈ (graph.get? a).getD [] ↔ graph.PointsTo a b := by
  rw [PointsTo]
  cases graph.get? a <;> simp

theorem ends_of_notMem {id : String} (h : id ∉ graph.ids) : graph.Ends id := by
  refine .intro id fun b hb => ?_
  obtain ⟨pointers, hget, -⟩ := hb
  exact absurd (IdMap.mem_ids_iff.2 ⟨pointers, hget⟩) h

/-- From an id that ends no pointers lead back to it. -/
theorem Ends.not_transGen {id : String} (h : graph.Ends id) : ¬ TransGen graph.PointsTo id id := by
  have hacc : Acc (TransGen fun b a => graph.PointsTo a b) id := Acc.transGen h
  induction hacc with
  | intro id _ ih =>
    intro hloop
    exact ih id (transGen_swap.2 hloop) h hloop

/-! ## What is reported -/

/-- The pointers left on a stack are pointers, and each id on it has a pointer to the one above. -/
structure Threaded (graph : IdGraph) (stack : List Visit) : Prop where
  /-- The pointers that are left belong to their id. -/
  left : ∀ v ∈ stack, ∀ id ∈ v.left, graph.PointsTo v.id id
  /-- The id below has a pointer to the one above. -/
  chain : (stack.map (·.id)).IsChain fun above below => graph.PointsTo below above
  /-- No id is on the stack twice. -/
  distinct : (stack.map (·.id)).Nodup

namespace Threaded

theorem nil : Threaded graph [] where
  left := fun _ h => nomatch h
  chain := .nil
  distinct := .nil

theorem single (id : String) : Threaded graph [⟨id, (graph.get? id).getD []⟩] := by
  refine ⟨fun v hv y hy => ?_, .singleton _, List.nodup_singleton _⟩
  obtain rfl := List.mem_singleton.1 hv
  exact mem_getD_iff.1 hy

theorem pop {v : Visit} (h : Threaded graph (v :: stack)) : Threaded graph stack :=
  ⟨fun w hw => h.left w (List.mem_cons_of_mem _ hw), h.chain.tail, h.distinct.tail⟩

/-- The next pointer of the top is done with. -/
theorem advance (h : Threaded graph (⟨top, next :: left⟩ :: below)) :
    Threaded graph (⟨top, left⟩ :: below) := by
  refine ⟨fun v hv y hy => ?_, h.chain, h.distinct⟩
  rcases List.mem_cons.1 hv with rfl | hv
  · exact h.left _ List.mem_cons_self y (List.mem_cons_of_mem _ hy)
  · exact h.left v (List.mem_cons_of_mem _ hv) y hy

/-- The next pointer of the top leads to a new id, which goes on the stack. -/
theorem push (h : Threaded graph (⟨top, next :: left⟩ :: below))
    (hnew : next ∉ (⟨top, next :: left⟩ :: below : List Visit).map (·.id)) :
    Threaded graph (⟨next, (graph.get? next).getD []⟩ :: ⟨top, left⟩ :: below) := by
  have hpoints := h.left _ List.mem_cons_self next List.mem_cons_self
  refine ⟨fun v hv y hy => ?_, ?_, List.nodup_cons.2 ⟨hnew, h.distinct⟩⟩
  · rcases List.mem_cons.1 hv with rfl | hv
    · exact mem_getD_iff.1 hy
    · exact h.advance.left v hv y hy
  · exact List.isChain_cons_cons.2 ⟨hpoints, h.chain⟩

/-- A pointer of the top back onto the stack closes a circle. -/
theorem isCircle (h : Threaded graph (⟨top, next :: left⟩ :: below))
    (hon : next ∈ (⟨top, next :: left⟩ :: below : List Visit).map (·.id)) :
    IsCircle graph.PointsTo (circleOf (⟨top, next :: left⟩ :: below) next) := by
  have hpoints := h.left _ List.mem_cons_self next List.mem_cons_self
  rw [circleOf, List.map_reverse]
  refine isCircle_of_isChain (List.isChain_append.2 ⟨?_, .singleton _, ?_⟩) ?_ ?_
  · rw [List.isChain_reverse]
    exact h.chain
  · -- bottom up, the chain ends at the top of the stack
    intro x hx y hy
    rw [List.getLast?_reverse] at hx
    cases hx
    cases hy
    exact hpoints
  · rw [List.nodup_reverse]
    exact h.distinct
  · rwa [List.mem_reverse]

end Threaded

theorem isCircle_of_findCircle {ids : List String} (hstack : Threaded graph stack)
    (h : graph.findCircle visited stack starts = some ids) : IsCircle graph.PointsTo ids := by
  fun_induction findCircle graph visited stack starts with
  | case1 visited => cases h
  | case2 visited id starts hnew ih => exact ih (.single id) h
  | case3 visited id starts hold ih => exact ih .nil h
  | case4 visited starts id stack ih => exact ih hstack.pop h
  | case5 visited starts top next left below hon =>
    cases h
    exact hstack.isCircle hon
  | case6 visited starts top next left below hoff hnew ih => exact ih (hstack.push hoff) h
  | case7 visited starts top next left below hoff hold ih => exact ih hstack.advance h

/-! ## What is not reported -/

/-- Of every visit on a stack, the pointers that have been followed lead to ids that end, or to the
id above. -/
def Explored (graph : IdGraph) (above : Option String) : List Visit → Prop
  | [] => True
  | v :: stack =>
    (∀ id, graph.PointsTo v.id id → id ∈ v.left ∨ graph.Ends id ∨ above = some id) ∧
      graph.Explored (some v.id) stack

namespace Explored

/-- An id that ends may leave the stack. -/
theorem of_ends {id : String} (h : graph.Explored (some id) stack) (hends : graph.Ends id) :
    graph.Explored none stack := by
  cases stack with
  | nil => trivial
  | cons v stack =>
    refine ⟨fun y hy => ?_, h.2⟩
    rcases h.1 y hy with hleft | hdone | habove
    · exact .inl hleft
    · exact .inr (.inl hdone)
    · cases habove
      exact .inr (.inl hends)

/-- The top ends if it has no pointers left. -/
theorem ends_top (h : graph.Explored none (⟨top, []⟩ :: stack)) : graph.Ends top := by
  refine .intro top fun id hid => ?_
  rcases h.1 id hid with hleft | hdone | habove
  · cases hleft
  · exact hdone
  · cases habove

/-- The next pointer of the top leads to an id that ends. -/
theorem advance (h : graph.Explored none (⟨top, next :: left⟩ :: below))
    (hends : graph.Ends next) : graph.Explored none (⟨top, left⟩ :: below) := by
  refine ⟨fun id hid => ?_, h.2⟩
  rcases h.1 id hid with hleft | hdone | habove
  · rcases List.mem_cons.1 hleft with rfl | hleft
    · exact .inr (.inl hends)
    · exact .inl hleft
  · exact .inr (.inl hdone)
  · cases habove

/-- The next pointer of the top leads to an id that goes on the stack. -/
theorem push (h : graph.Explored none (⟨top, next :: left⟩ :: below)) :
    graph.Explored none (⟨next, (graph.get? next).getD []⟩ :: ⟨top, left⟩ :: below) := by
  refine ⟨fun id hid => .inl (mem_getD_iff.2 hid), fun id hid => ?_, h.2⟩
  rcases h.1 id hid with hleft | hdone | habove
  · rcases List.mem_cons.1 hleft with rfl | hleft
    · exact .inr (.inr rfl)
    · exact .inl hleft
  · exact .inr (.inl hdone)
  · cases habove

end Explored

/-- If nothing is found, everything ends that has been visited or is to be visited. -/
theorem ends_of_findCircle (h : graph.findCircle visited stack starts = none)
    (hstack : graph.Explored none stack)
    (hvisited : ∀ id ∈ visited, id ∈ stack.map (·.id) ∨ graph.Ends id) :
    ∀ id, id ∈ visited ∨ id ∈ starts → graph.Ends id := by
  fun_induction findCircle graph visited stack starts with
  | case1 visited =>
    intro id hid
    rcases hid with hid | hid
    · rcases hvisited id hid with hon | hends
      · cases hon
      · exact hends
    · cases hid
  | case2 visited id starts hnew ih =>
    have hall := ih h ⟨fun y hy => .inl (mem_getD_iff.2 hy), trivial⟩ fun y hy => by
      rcases List.mem_cons.1 hy with rfl | hy
      · exact .inl List.mem_cons_self
      · rcases hvisited y hy with hon | hends
        · cases hon
        · exact .inr hends
    rintro y (hy | hy)
    · exact hall y (.inl (List.mem_cons_of_mem _ hy))
    · rcases List.mem_cons.1 hy with rfl | hy
      · exact hall y (.inl List.mem_cons_self)
      · exact hall y (.inr hy)
  | case3 visited id starts hold ih =>
    have hall := ih h hstack hvisited
    rintro y (hy | hy)
    · exact hall y (.inl hy)
    · rcases List.mem_cons.1 hy with rfl | hy
      · by_cases hin : y ∈ graph.ids
        · by_contra hnot
          exact hold ⟨hin, fun hv => hnot (hall y (.inl hv))⟩
        · exact ends_of_notMem hin
      · exact hall y (.inr hy)
  | case4 visited starts id stack ih =>
    refine ih h (hstack.2.of_ends hstack.ends_top) fun y hy => ?_
    rcases hvisited y hy with hon | hends
    · rcases List.mem_cons.1 hon with rfl | hon
      · exact .inr hstack.ends_top
      · exact .inl hon
    · exact .inr hends
  | case5 visited starts top next left below hon => cases h
  | case6 visited starts top next left below hoff hnew ih =>
    have hall := ih h hstack.push fun y hy => by
      rcases List.mem_cons.1 hy with rfl | hy
      · exact .inl List.mem_cons_self
      · exact (hvisited y hy).imp (List.mem_cons_of_mem _) fun hends => hends
    rintro y (hy | hy)
    · exact hall y (.inl (List.mem_cons_of_mem _ hy))
    · exact hall y (.inr hy)
  | case7 visited starts top next left below hoff hold ih =>
    have hends : graph.Ends next := by
      by_cases hin : next ∈ graph.ids
      · by_contra hnot
        refine hold ⟨hin, fun hv => ?_⟩
        rcases hvisited next hv with hon | hends
        · exact hoff hon
        · exact hnot hends
      · exact ends_of_notMem hin
    exact ih h (hstack.advance hends) hvisited

/-! ## Circles -/

theorem isCircle_of_circle? {ids : List String} (h : graph.circle? = some ids) :
    IsCircle graph.PointsTo ids :=
  isCircle_of_findCircle .nil h

/-- Nothing is reported exactly if no id leads back to itself. -/
theorem circle?_eq_none_iff :
    graph.circle? = none ↔ ∀ id, ¬ TransGen graph.PointsTo id id := by
  constructor
  · intro h id hloop
    have hmem : id ∈ graph.ids := by
      obtain ⟨next, ⟨pointers, hget, -⟩, -⟩ := TransGen.head'_iff.1 hloop
      exact IdMap.mem_ids_iff.2 ⟨pointers, hget⟩
    exact (ends_of_findCircle h trivial (fun _ h => nomatch h) id (.inr hmem)).not_transGen hloop
  · intro h
    by_contra hne
    obtain ⟨ids, hids⟩ := Option.ne_none_iff_exists'.1 hne
    obtain ⟨id, hloop⟩ := (isCircle_of_circle? hids).transGen
    exact h id hloop

end IdGraph

end ExecutorHost
