import ExecutorHost.IdMap

/-!
# Circles in a graph

A graph gives each id a list of ids that it points to. A circle is looked for depth first: from
every id in turn, unless it has been visited, along a stack of ids whose pointers have not all been
followed. A pointer back to an id on the stack closes a circle. A pointer to an id outside the graph
leads nowhere. Every step down visits a new id, so the search ends.
-/

namespace ExecutorHost

/-- A graph on ids. -/
abbrev IdGraph := IdMap (List String)

namespace IdGraph

/-- How many ids of a graph have not been visited. -/
def unvisited (graph : IdGraph) (visited : List String) : Nat :=
  graph.ids.countP fun id => id ∉ visited

/-- Visiting a new id of the graph leaves fewer unvisited. -/
theorem unvisited_lt {graph : IdGraph} {visited : List String} {id : String}
    (hmem : id ∈ graph.ids) (hnew : id ∉ visited) :
    graph.unvisited (id :: visited) < graph.unvisited visited := by
  unfold unvisited
  generalize graph.ids = ids at hmem
  have hle : ∀ rest : List String,
      (rest.countP fun k => k ∉ id :: visited) ≤ rest.countP fun k => k ∉ visited := by
    intro rest
    refine List.countP_mono_left fun k _ hk => ?_
    simp only [List.mem_cons, not_or, decide_eq_true_eq] at hk ⊢
    exact hk.2
  induction ids with
  | nil => simp at hmem
  | cons k rest ih =>
    rw [List.countP_cons, List.countP_cons]
    rcases List.mem_cons.1 hmem with rfl | hmem
    · have := hle rest
      simp only [List.mem_cons, true_or, not_true_eq_false, decide_false, hnew, not_false_eq_true,
        decide_true, if_true, Bool.false_eq_true, if_false] at this ⊢
      omega
    · have := ih hmem
      have hstep : (if decide (k ∉ id :: visited) = true then 1 else 0) ≤
          if decide (k ∉ visited) = true then 1 else 0 := by
        by_cases hk : k ∈ visited <;> simp [hk]
        split <;> omega
      omega

/-- An id on the stack and the pointers of it that have not been followed yet. -/
structure Visit where
  /-- The id. -/
  id : String
  /-- The pointers left. -/
  left : List String

/-- The work left on a stack: its ids and their pointers. -/
def work (stack : List Visit) : Nat := stack.foldr (fun v n => v.left.length + 1 + n) 0

/-- The ids on a stack from the one that a pointer leads back to, and that one again at the end. -/
def circleOf (stack : List Visit) (id : String) : List String :=
  (stack.reverse.map (·.id)).dropWhile (· ≠ id) ++ [id]

/-- The first circle that is found from the ids on the stack and then from the ids to start at. -/
def findCircle (graph : IdGraph) (visited : List String) (stack : List Visit)
    (starts : List String) : Option (List String) :=
  match stack with
  | [] =>
    match starts with
    | [] => none
    | id :: starts =>
      if _h : id ∈ graph.ids ∧ id ∉ visited then
        findCircle graph (id :: visited) [⟨id, (graph.get? id).getD []⟩] starts
      else findCircle graph visited [] starts
  | ⟨_, []⟩ :: stack => findCircle graph visited stack starts
  | ⟨top, next :: left⟩ :: below =>
    if next ∈ (⟨top, next :: left⟩ :: below : List Visit).map (·.id) then
      some (circleOf (⟨top, next :: left⟩ :: below) next)
    else if _h : next ∈ graph.ids ∧ next ∉ visited then
      findCircle graph (next :: visited)
        (⟨next, (graph.get? next).getD []⟩ :: ⟨top, left⟩ :: below) starts
    else findCircle graph visited (⟨top, left⟩ :: below) starts
termination_by (graph.unvisited visited, work stack, starts.length)
decreasing_by
  · exact Prod.Lex.left _ _ (unvisited_lt _h.1 _h.2)
  · exact Prod.Lex.right _ (Prod.Lex.right _ (by simp))
  · exact Prod.Lex.right _ (Prod.Lex.left _ _ (by simp [work]))
  · exact Prod.Lex.left _ _ (unvisited_lt _h.1 _h.2)
  · exact Prod.Lex.right _ (Prod.Lex.left _ _ (by simp [work]))

/-- The first circle of a graph, looked for from its ids in their order. -/
def circle? (graph : IdGraph) : Option (List String) := graph.findCircle [] [] graph.ids

end IdGraph

end ExecutorHost
