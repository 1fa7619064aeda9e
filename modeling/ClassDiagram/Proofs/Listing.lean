import ClassDiagram.Model.Listing
import ClassDiagram.Proofs.Reading
import Mathlib.Data.List.Nodup

/-! The listing of relations is read back from its text. Line feeds divide it into lines, and spaces
divide a line into its parts: neither stands in a name, in the arrow of a kind or in its name. -/

namespace ClassDiagram

open Text

/-! ### A line -/

namespace RelationKind

theorem mem_all (k : RelationKind) : k ∈ all := by
  cases k <;> decide

theorem symbol_injective : Function.Injective symbol := by
  intro k k' h
  have hnodup : (all.map symbol).Nodup := by decide
  exact List.inj_on_of_nodup_map hnodup k.mem_all k'.mem_all h

theorem divider_not_mem (k : RelationKind) {c : Char} (hc : c ∈ [' ', '\n']) :
    c ∉ k.symbol.toList ∧ c ∉ k.name.toList := by
  rcases List.mem_pair.1 hc with rfl | rfl <;> cases k <;> decide

end RelationKind

namespace Relation

variable {r : Relation}

/-- What spaces divide in the line of a relation. -/
def parts (r : Relation) : List (List Char) :=
  [r.source.toList, r.kind.symbol.toList, r.target.toList, '(' :: r.kind.name.toList ++ [')']]

theorem parts_injective : Function.Injective parts := by
  intro r r' h
  simp only [parts, List.cons.injEq, String.toList_inj] at h
  obtain ⟨hsource, hsymbol, htarget, -⟩ := h
  obtain ⟨source, target, kind⟩ := r
  obtain ⟨source', target', kind'⟩ := r'
  obtain rfl : source = source' := hsource
  obtain rfl : target = target' := htarget
  obtain rfl : kind = kind' := RelationKind.symbol_injective hsymbol
  rfl

theorem toList_line (r : Relation) : r.line.toList = [' '].intercalate r.parts := by
  simp [line, parts, List.intercalate]

theorem line_ne_nil (r : Relation) : r.line.toList ≠ [] := by
  simp [line]

theorem Normal.divider_not_mem (h : r.Normal) {c : Char} (hc : c ∈ [' ', '\n']) :
    ∀ p ∈ r.parts, c ∉ p := by
  have hplain : isWordChar c = false ∧ c ≠ '(' ∧ c ≠ ')' := by
    rcases List.mem_pair.1 hc with rfl | rfl <;> decide
  obtain ⟨hsymbol, hname⟩ := r.kind.divider_not_mem hc
  simp [parts, h.source.not_mem hplain.1, h.target.not_mem hplain.1, hsymbol, hname, hplain.2]

theorem Normal.splitOn_line (h : r.Normal) : r.line.toList.splitOn ' ' = r.parts := by
  have hparts : ∀ p ∈ r.parts, ' ' ∉ p := h.divider_not_mem (by decide)
  rw [toList_line, List.splitOn_intercalate ' ' hparts (List.cons_ne_nil _ _)]

theorem Normal.newline_line (h : r.Normal) : '\n' ∉ r.line.toList := by
  have hparts : ∀ p ∈ r.parts, '\n' ∉ p := h.divider_not_mem (by decide)
  simp only [parts, List.forall_mem_cons] at hparts
  obtain ⟨hsource, hsymbol, htarget, hname, -⟩ := hparts
  simp only [List.cons_append, List.mem_cons, not_or] at hname
  simp [line, hsource, hsymbol, htarget, hname]

end Relation

/-! ### Many lines -/

/-- A text that line feeds divide into the lines of some relations, one each in their order. That of
no relations is empty. -/
structure Lists (relations : List Relation) (text : String) : Prop where
  empty : relations = [] → text = ""
  lines : relations ≠ [] → text.toList.splitOn '\n' = relations.map (·.line.toList)

namespace Lists

variable {relations relations' : List Relation} {text : String}

theorem of_lines (h : ∀ r ∈ relations, r.Normal) :
    Lists relations ("\n".intercalate (relations.map (·.line))) := by
  refine ⟨?_, fun hne => ?_⟩
  · rintro rfl
    rfl
  · have hlines : ∀ l ∈ relations.map (·.line.toList), '\n' ∉ l := by
      simpa using fun r hr => (h r hr).newline_line
    have htext : ("\n".intercalate (relations.map (·.line))).toList =
        ['\n'].intercalate (relations.map (·.line.toList)) := by
      simp [String.toList_intercalate, Function.comp_def]
    rw [htext, List.splitOn_intercalate '\n' hlines (by simpa using hne)]

theorem splitOn_splitOn (hl : Lists relations text) (h : ∀ r ∈ relations, r.Normal)
    (hne : relations ≠ []) :
    (text.toList.splitOn '\n').map (·.splitOn ' ') = relations.map (·.parts) := by
  rw [hl.lines hne, List.map_map]
  exact List.map_congr_left fun r hr => (h r hr).splitOn_line

/-- The empty text is one line when it is divided, but no relation has an empty line. -/
theorem eq_nil (hl : Lists relations "") : relations = [] := by
  by_contra hne
  have hlines := hl.lines hne
  cases relations with
  | nil => contradiction
  | cons r rs => exact r.line_ne_nil (List.cons.inj hlines).1.symm

theorem unique (hl : Lists relations text) (hl' : Lists relations' text)
    (h : ∀ r ∈ relations, r.Normal) (h' : ∀ r ∈ relations', r.Normal) : relations = relations' := by
  by_cases hnone : relations = []
  · obtain rfl := hl.empty hnone
    rw [hnone, hl'.eq_nil]
  · have hsome : relations' ≠ [] := by
      intro hnil
      obtain rfl := hl'.empty hnil
      exact hnone hl.eq_nil
    have hparts := (hl.splitOn_splitOn h hnone).symm.trans (hl'.splitOn_splitOn h' hsome)
    exact List.map_injective_iff.2 Relation.parts_injective hparts

end Lists

namespace Model

variable {m m' : Model}

theorem relationsOf_eq (m : Model) (name : String) :
    m.relationsOf name = m.relations.filter fun r => r.source = name ∨ r.target = name := by
  simp [relationsOf, Relation.touches]

/-- Where the ends of relations are words, the listing of all of them tells which they are and in
which order. It has one line for each, and the listing of a name has just the lines of the relations
with the name at either end. -/
theorem relationListing_readable (h : ∀ r ∈ m.relations, r.Normal)
    (h' : ∀ r ∈ m'.relations, r.Normal) :
    (m.relationListing none = m'.relationListing none ↔ m.relations = m'.relations) ∧
    Lists m.relations (m.relationListing none) ∧
    ∀ name, Lists (m.relations.filter fun r => r.source = name ∨ r.target = name)
      (m.relationListing (some name)) := by
  refine ⟨⟨fun htext => ?_, fun hsame => ?_⟩, Lists.of_lines h, fun name => ?_⟩
  · have hlists : Lists m.relations (m'.relationListing none) := htext ▸ Lists.of_lines h
    exact hlists.unique (Lists.of_lines h') h h'
  · simp only [relationListing, hsame]
  · rw [← relationsOf_eq]
    exact Lists.of_lines fun r hr => h r (List.mem_of_mem_filter hr)

/-- Two relations at a dock and one that it has no part in. -/
def harbour : Model :=
  { empty with
    relations := [⟨"Dock", "Ship", .composition⟩, ⟨"Tug", "Ship", .inheritance⟩,
      ⟨"Crane", "Dock", .dependency⟩] }

/-- The same relations, the last of them first. -/
def harbourTurned : Model :=
  { empty with
    relations := [⟨"Crane", "Dock", .dependency⟩, ⟨"Dock", "Ship", .composition⟩,
      ⟨"Tug", "Ship", .inheritance⟩] }

theorem relationListing_readable_harbour :
    (∀ r ∈ harbour.relations, r.Normal) ∧ (∀ r ∈ harbourTurned.relations, r.Normal) ∧
    harbour.relationListing none ≠ harbourTurned.relationListing none ∧
    (harbour.relationListing (some "Dock")).toList.splitOn '\n' =
      ["Dock ◆─── Ship (composition)".toList, "Crane ···> Dock (dependency)".toList] := by
  have hnormal : ∀ r ∈ harbour.relations, r.Normal := by
    simp only [harbour, List.forall_mem_cons]
    exact ⟨⟨by decide, by decide⟩, ⟨by decide, by decide⟩, ⟨by decide, by decide⟩, by simp⟩
  have hturned : ∀ r ∈ harbourTurned.relations, r.Normal := by
    simp only [harbourTurned, List.forall_mem_cons]
    exact ⟨⟨by decide, by decide⟩, ⟨by decide, by decide⟩, ⟨by decide, by decide⟩, by simp⟩
  obtain ⟨hsame, -, hname⟩ := relationListing_readable hnormal hturned
  refine ⟨hnormal, hturned, fun htext => ?_, ?_⟩
  · exact absurd (hsame.1 htext) (by decide)
  · rw [(hname "Dock").lines (by decide)]
    decide

end Model

end ClassDiagram
