import ClassDiagram.Layout.Grid
import ClassDiagram.Proofs.Cluster

/-! In exact arithmetic the grid layout gives every name a cell of its own, so its boxes keep the
same distances as those of one block of a cluster layout. -/

namespace ClassDiagram.Layout

namespace Grid

/-- The names in their cells, as they are entered into the map. -/
def cells (c : Config ℚ) (names : List String) : List (String × Position ℚ) :=
  names.zipIdx.map fun e =>
    (e.1, c.cell c.padding (e.2 % max c.gridColumns 1) (e.2 / max c.gridColumns 1))

theorem positions_eq (c : Config ℚ) (nodes : List String) :
    positions c nodes = NameMap.ofList (cells c nodes.eraseDups) := rfl

theorem names_cells (c : Config ℚ) (names : List String) : (cells c names).map Prod.fst = names := by
  simp only [cells, List.map_map, Function.comp_def]
  exact List.zipIdx_map_fst 0 names

theorem cells_apart {c : Config ℚ} (hc : c.Nonneg) (names : List String) :
    (cells c names).Pairwise fun e f => Apart c e.2 f.2 :=
  List.pairwise_map.2 ((pairwise_zipIdx_ne names).imp fun h => cell_apart hc c.padding h)

theorem mem_names_positions (c : Config ℚ) (nodes : List String) (x : String) :
    x ∈ (positions c nodes).names ↔ x ∈ nodes := by
  rw [positions_eq, NameMap.mem_names_ofList, names_cells, List.mem_eraseDups]

end Grid

end ClassDiagram.Layout
