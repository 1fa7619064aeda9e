import ClassDiagram.Relation.Basic
/-!
Connected components of the names of a drawing. Each is found breadth first from the earliest name
that no component holds yet, so its names come in the order in which the search meets them.
-/

namespace ClassDiagram.Layout

def neighbours (relations : List Relation) (name : String) : List String :=
  relations.flatMap fun r =>
    (if r.source = name then [r.target] else []) ++ (if r.target = name then [r.source] else [])

def discover (unseen met : List String) : List String := (met.filter (· ∈ unseen)).eraseDups

def remaining (unseen found : List String) : List String := unseen.filter (· ∉ found)

theorem length_remaining_le (unseen found : List String) :
    (remaining unseen found).length ≤ unseen.length := List.length_filter_le _ _

theorem length_remaining_lt {unseen met : List String} (h : discover unseen met ≠ []) :
    (remaining unseen (discover unseen met)).length < unseen.length := by
  obtain ⟨x, hx⟩ := List.exists_mem_of_ne_nil _ h
  have hu : x ∈ unseen := by
    have := List.mem_eraseDups.1 hx
    simpa using (List.mem_filter.1 this).2
  refine List.length_filter_lt_length_iff_exists.2 ⟨x, hu, ?_⟩
  simpa using hx

/-- The names of a queue with all that they lead to, and the unseen names that are left. -/
def visit (next : String → List String) : (unseen queue : List String) → List String × List String
  | unseen, [] => ([], unseen)
  | unseen, name :: queue =>
    let found := discover unseen (next name)
    let reached := visit next (remaining unseen found) (queue ++ found)
    (name :: reached.1, reached.2)
termination_by unseen queue => (unseen.length, queue.length)
decreasing_by
  -- a name without unseen neighbours shortens the queue, any other the names that are unseen
  by_cases h : discover unseen (next name) = []
  · simp only [h, List.append_nil]
    exact Prod.Lex.right' _ (length_remaining_le unseen []) (Nat.lt_succ_self _)
  · exact Prod.Lex.left _ _ (length_remaining_lt h)

theorem length_visit_le (next : String → List String) (unseen queue : List String) :
    (visit next unseen queue).2.length ≤ unseen.length := by
  fun_induction visit next unseen queue with
  | case1 unseen => exact Nat.le_refl _
  | case2 unseen name queue found reached ih => exact Nat.le_trans ih (length_remaining_le _ _)

def componentsOf (next : String → List String) : List String → List (List String)
  | [] => []
  | start :: names =>
    let reached := visit next names [start]
    reached.1 :: componentsOf next reached.2
termination_by names => names.length
decreasing_by
  exact Nat.lt_succ_of_le (length_visit_le next names [start])

/-- The connected components of some names, of which repeats do not count. -/
def components (nodes : List String) (relations : List Relation) : List (List String) :=
  componentsOf (neighbours relations) nodes.eraseDups

end ClassDiagram.Layout
