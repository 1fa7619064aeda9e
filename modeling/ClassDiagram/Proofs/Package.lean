import ClassDiagram.Proofs.RoundTrip
import ClassDiagram.Proofs.Silent

/-! The packages of entities in a diagram of nested blocks. A session keeps one package, so the brace
that closes a package leaves none behind it: an entity is given the package of the block around it
until the first package inside that block is closed. -/

namespace ClassDiagram

open Markup

namespace Model

/-- The names of the entities of a kind, each with its package. -/
def packaged (m : Model) : EntityKind → List (String × Option String)
  | .classes => m.classes.map fun c => (c.name, c.package)
  | .interfaces => m.interfaces.map fun i => (i.name, i.package)
  | .enums => m.enums.map fun e => (e.name, e.package)

theorem map_modify_of_eq {α β : Type} {f : α → α} {g : α → β} (h : ∀ x, g (f x) = g x) (l : List α)
    (i : ℕ) : (l.modify i f).map g = l.map g := by
  induction l generalizing i with
  | nil => cases i <;> rfl
  | cons x l ih => cases i <;> simp [h, ih]

theorem packaged_addMember (m : Model) (e : EntityRef) (line : List Char) :
    (Session.addMember m e line).packaged = m.packaged := by
  funext k
  rcases Session.addMember_cases m e line with h | ⟨-, -, f, -, h⟩ | ⟨-, -, a, -, h⟩ |
    ⟨-, -, a, -, h⟩ | ⟨-, v, -, h⟩
  · rw [h]
  all_goals
    rw [h]
    cases k <;> simp [packaged, addMethod, addAttribute, addInterfaceAttribute, addValue,
      map_modify_of_eq]

theorem packaged_addPackage (m : Model) (p : String) : (m.addPackage p).packaged = m.packaged := by
  unfold addPackage
  split <;> rfl

theorem packaged_addRelation (m : Model) (r : Relation) :
    (m.addRelation r).1.packaged = m.packaged := by
  unfold addRelation
  split <;> rfl

end Model

end ClassDiagram

namespace ClassDiagram.Markup

open Text

/-! ### Diagrams of nested blocks -/

/-- What a head declares: the kind and the name of an entity, and the text behind the name. -/
def declared? (line : List Char) : Option (EntityKind × String × List Char) :=
  if isClassLine line then (readClassHead line).map fun p => (.classes, p.1.name, p.2)
  else if isInterfaceLine line then
    (readNamed "interface" line).map fun p => (.interfaces, p.1, p.2)
  else if isEnumLine line then (readNamed "enum" line).map fun p => (.enums, p.1, p.2)
  else none

/-- A statement that stays in the body around it. -/
structure IsBodyLine (line : List Char) : Prop extends IsStatement line where
  classes : isClassLine line = false
  interfaces : isInterfaceLine line = false
  enums : isEnumLine line = false
  open_body : closesBody line = false

inductive Inside : List (List Char) → Prop where
  | silent {piece : List (List Char)} (h : Silent piece) : Inside piece
  | line {line : List Char} (h : IsBodyLine (trim line)) : Inside [line]

/-- A piece between the blocks: a relation, a line that says nothing, a note or a comment. -/
inductive Between : List (List Char) → Prop where
  | silent {piece : List (List Char)} (h : Silent piece) : Between piece
  | line {line : List Char} (h : IsContent (trim line)) : Between [line]

structure PackageLines where
  name : String
  word : IsWord name.toList
  first : List Char
  opens : trim first = opening "package" name.toList ∨ trim first = opening "namespace" name.toList
  last : List Char
  closes : trim last = ['\x7d']

/-- An entity with its body. The brace stands behind the head or alone on the next line. -/
structure EntityLines where
  kind : EntityKind
  name : String
  head : List Char
  behind : List Char
  declares : declared? (trim head) = some (kind, name, behind)
  brace : Option (List Char)
  opens : match brace with
    | none => (cut? ['\x7b'] behind).map (trim ·.2) = some []
    | some line => cut? ['\x7b'] behind = none ∧ trim line = ['\x7b']
  body : List (List (List Char))
  inside : ∀ piece ∈ body, Inside piece
  last : List Char
  closes : trim last = ['\x7d']

def EntityLines.lines (e : EntityLines) : List (List Char) :=
  e.head :: (e.brace.toList ++ (e.body.flatten ++ [e.last]))

/-- A diagram of blocks: what stands first, and what follows it. -/
inductive Forest where
  | nil
  | package (p : PackageLines) (inner rest : Forest)
  | entity (e : EntityLines) (rest : Forest)
  | aside (piece : List (List Char)) (h : Between piece) (rest : Forest)

namespace Forest

def lines : Forest → List (List Char)
  | nil => []
  | package p inner rest => p.first :: (inner.lines ++ p.last :: rest.lines)
  | entity e rest => e.lines ++ rest.lines
  | aside piece _ rest => piece ++ rest.lines

/-- The entities of a kind, each with the innermost package around it. -/
def enclosed (k : EntityKind) : Option String → Forest → List (String × Option String)
  | _, nil => []
  | around, package p inner rest => inner.enclosed k (some p.name) ++ rest.enclosed k around
  | around, entity e rest => (if e.kind = k then [(e.name, around)] else []) ++ rest.enclosed k around
  | around, aside _ _ rest => rest.enclosed k around

/-- The entities of a kind, each with the package that it is given. -/
def given (k : EntityKind) : Option String → Forest → List (String × Option String)
  | _, nil => []
  | _, package p inner rest => inner.given k (some p.name) ++ rest.given k none
  | around, entity e rest => (if e.kind = k then [(e.name, around)] else []) ++ rest.given k around
  | around, aside _ _ rest => rest.given k around

/-- No entity stands in a diagram but inside its packages. -/
def bare : Forest → Bool
  | nil => true
  | package _ _ rest => rest.bare
  | entity _ _ => false
  | aside _ _ rest => rest.bare

/-- In each package, all entities that stand in no package inside it stand in front of these. -/
def Settled : Option String → Forest → Prop
  | _, nil => True
  | around, package p inner rest =>
    inner.Settled (some p.name) ∧ rest.Settled around ∧ (none = around ∨ rest.bare)
  | around, entity _ rest => rest.Settled around
  | around, aside _ _ rest => rest.Settled around

/-- The package behind a diagram. -/
def left : Option String → Forest → Option String
  | around, nil => around
  | _, package _ _ rest => rest.left none
  | around, entity _ rest => rest.left around
  | around, aside _ _ rest => rest.left around

theorem length_given (f : Forest) (k : EntityKind) (a b : Option String) :
    (f.given k a).length = (f.enclosed k b).length := by
  induction f generalizing a b with
  | nil => rfl
  | package p inner rest ihi ihr =>
    rw [given, enclosed, List.length_append, List.length_append, ihi, ihr]
  | entity e rest ih =>
    rw [given, enclosed, List.length_append, List.length_append, ih]
    split <;> rfl
  | aside piece h rest ih => exact ih a b

/-- Where entities are given the package around them, or none, this is right when nothing in a
package stands behind a package inside it. -/
theorem given_eq_enclosed_iff (f : Forest) {a b : Option String} (hab : a = b ∨ a = none) :
    (∀ k, f.given k a = f.enclosed k b) ↔ f.Settled b ∧ (a = b ∨ f.bare) := by
  induction f generalizing a b with
  | nil => simp [given, enclosed, Settled, bare]
  | package p inner rest ihi ihr =>
    have happ : (∀ k, (package p inner rest).given k a = (package p inner rest).enclosed k b) ↔
        (∀ k, inner.given k (some p.name) = inner.enclosed k (some p.name)) ∧
          ∀ k, rest.given k none = rest.enclosed k b := by
      rw [← forall_and]
      refine forall_congr' fun k => ⟨fun h => ?_, fun h => ?_⟩
      · exact List.append_inj h (inner.length_given k _ _)
      · rw [given, enclosed, h.1, h.2]
    rw [happ, ihi (.inl rfl), ihr (.inr rfl), Settled, bare]
    constructor
    · rintro ⟨⟨hinner, -⟩, hrest, hlast⟩
      refine ⟨⟨hinner, hrest, hlast⟩, ?_⟩
      rcases hab with rfl | rfl
      · exact .inl rfl
      · exact hlast
    · rintro ⟨⟨hinner, hrest, hlast⟩, -⟩
      exact ⟨⟨hinner, .inl rfl⟩, hrest, hlast⟩
  | entity e rest ih =>
    have happ : (∀ k, (entity e rest).given k a = (entity e rest).enclosed k b) ↔
        a = b ∧ ∀ k, rest.given k a = rest.enclosed k b := by
      constructor
      · intro h
        have hlen (k : EntityKind) : (if e.kind = k then [(e.name, a)] else []).length =
            (if e.kind = k then [(e.name, b)] else []).length := by split <;> rfl
        have hparts := fun k => List.append_inj (h k) (hlen k)
        have hfirst := (hparts e.kind).1
        simp only [if_pos, List.cons.injEq, Prod.mk.injEq, true_and, and_true] at hfirst
        exact ⟨hfirst, fun k => (hparts k).2⟩
      · rintro ⟨rfl, h⟩ k
        rw [given, enclosed, h]
    rw [happ, ih hab, Settled, bare]
    constructor
    · rintro ⟨rfl, hrest, -⟩
      exact ⟨hrest, .inl rfl⟩
    · rintro ⟨hrest, rfl | hbare⟩
      · exact ⟨rfl, hrest, .inl rfl⟩
      · contradiction
  | aside piece h rest ih => exact ih hab

end Forest

/-! ### The heads -/

variable {line : List Char}

theorem eq_of_afterKeyword? {k : String} {rest : List Char} (h : afterKeyword? k line = some rest) :
    line = k.toList ++ rest := by
  obtain ⟨hrest, -⟩ := Option.filter_eq_some_iff.1 h
  exact eq_of_after? hrest

theorem eq_of_hasKeyword {k : String} (h : hasKeyword k line = true) :
    ∃ rest, line = k.toList ++ rest := by
  obtain ⟨rest, hrest⟩ := Option.isSome_iff_exists.1 h
  exact ⟨rest, eq_of_afterKeyword? hrest⟩

theorem declared?_cases {k : EntityKind} {name : String} {behind : List Char}
    (h : declared? line = some (k, name, behind)) :
    (isClassLine line = true ∧ .classes = k ∧
      ∃ head, readClassHead line = some (head, behind) ∧ head.name = name) ∨
    (isClassLine line = false ∧ isInterfaceLine line = true ∧ .interfaces = k ∧
      readNamed "interface" line = some (name, behind)) ∨
    (isClassLine line = false ∧ isInterfaceLine line = false ∧ isEnumLine line = true ∧ .enums = k ∧
      readNamed "enum" line = some (name, behind)) := by
  unfold declared? at h
  split at h
  · next hclass =>
    obtain ⟨⟨head, rest⟩, hread, ⟨⟩⟩ := Option.map_eq_some_iff.1 h
    exact .inl ⟨hclass, rfl, head, hread, rfl⟩
  next hclass =>
  split at h
  · next hinterface =>
    obtain ⟨⟨name, rest⟩, hread, ⟨⟩⟩ := Option.map_eq_some_iff.1 h
    exact .inr (.inl ⟨Bool.eq_false_iff.2 hclass, hinterface, rfl, hread⟩)
  next hinterface =>
  split at h
  · next henum =>
    obtain ⟨⟨name, rest⟩, hread, ⟨⟩⟩ := Option.map_eq_some_iff.1 h
    exact .inr (.inr ⟨Bool.eq_false_iff.2 hclass, Bool.eq_false_iff.2 hinterface, henum, rfl, hread⟩)
  · contradiction

theorem head_of_declared {found : EntityKind × String × List Char} (h : declared? line = some found) :
    ∃ c ∈ ['c', 'a', 'i', 'e'], ∃ t, line = c :: t := by
  obtain ⟨hclass, -⟩ | ⟨-, hinterface, -⟩ | ⟨-, -, henum, -⟩ := declared?_cases h
  · unfold isClassLine at hclass
    split at hclass
    · next rest hrest => exact ⟨'a', by simp, _, eq_of_afterKeyword? hrest⟩
    · obtain ⟨rest, hrest⟩ := eq_of_hasKeyword hclass
      exact ⟨'c', by simp, _, hrest⟩
  · obtain ⟨rest, hrest⟩ := eq_of_hasKeyword hinterface
    exact ⟨'i', by simp, _, hrest⟩
  · obtain ⟨rest, hrest⟩ := eq_of_hasKeyword henum
    exact ⟨'e', by simp, _, hrest⟩

theorem statement_of_head (h : ∃ c ∈ ['c', 'a', 'i', 'e'], ∃ t, line = c :: t) :
    IsStatement line ∧ isPackageLine line = false ∧ line ≠ ['\x7d'] := by
  obtain ⟨c, hc, t, rfl⟩ := h
  simp only [List.mem_cons, List.not_mem_nil, or_false] at hc
  rcases hc with rfl | rfl | rfl | rfl
  all_goals exact ⟨⟨List.cons_ne_nil _ _, rfl, rfl, rfl⟩, rfl, by simp⟩

/-! ### What the pieces of a diagram do to a session -/

/-- A session between the blocks of a diagram, with its package and the entities declared so far. -/
structure Stands (s : Session) (package : Option String)
    (found : EntityKind → List (String × Option String)) : Prop where
  mode : s.mode = .outside
  package : s.package = package
  packaged : s.model.packaged = found

namespace Session

variable {s : Session} {e : EntityRef}

theorem step_openNamespace {p : String} (hmode : s.mode = .outside) (hp : IsWord p.toList) :
    s.step (opening "namespace" p.toList) =
      { s with model := s.model.addPackage p, package := some p } := by
  have htrim := trimmed_opening (show IsWord "namespace".toList by decide) p.toList
  have hstatement : IsStatement (opening "namespace" p.toList) :=
    ⟨List.cons_ne_nil _ _, rfl, rfl, rfl⟩
  have hread : readPackage (opening "namespace" p.toList) = some p := by
    have hkey : ¬ startsWith "package".toList (opening "namespace" p.toList) = true :=
      Bool.false_ne_true
    rw [readPackage, if_neg hkey, opening, readNamed_spaced "namespace" hp rfl, Option.map_some,
      String.ofList_toList]
  rw [step_of_outside hmode (by rwa [htrim]), htrim, readStatement_package hmode rfl, openPackage,
    hread]

/-- A head adds an entity with the package of the session and enters it. -/
theorem step_declared {k : EntityKind} {name : String} {behind : List Char}
    (hmode : s.mode = .outside) (h : declared? (trim line) = some (k, name, behind)) :
    ∃ m i, s.step line = ({ s with model := m } : Session).enter ⟨k, i⟩ behind ∧
      ∀ k', m.packaged k' = s.model.packaged k' ++ if k = k' then [(name, s.package)] else [] := by
  obtain ⟨hstatement, hpackage, hbrace⟩ := statement_of_head (head_of_declared h)
  rw [step_of_outside hmode hstatement]
  obtain ⟨hclass, rfl, head, hread, rfl⟩ | ⟨hclass, hinterface, rfl, hread⟩ |
    ⟨hclass, hinterface, henum, rfl, hread⟩ := declared?_cases h
  · rw [readStatement_class hpackage hbrace hclass, declareClass, hread]
    refine ⟨_, _, rfl, fun k' => ?_⟩
    cases k' <;> simp [Model.packaged, Model.addClass]
  · rw [readStatement_interface hpackage hbrace hclass hinterface, declareInterface, hread]
    refine ⟨_, _, rfl, fun k' => ?_⟩
    cases k' <;> simp [Model.packaged, Model.addInterface]
  · rw [readStatement_enum hpackage hbrace hclass hinterface henum, declareEnum, hread]
    refine ⟨_, _, rfl, fun k' => ?_⟩
    cases k' <;> simp [Model.packaged, Model.addEnum]

theorem run_inside {piece : List (List Char)} (hmode : s.mode = .body e) (h : Inside piece) :
    (s.run piece).mode = .body e ∧ (s.run piece).package = s.package ∧
      (s.run piece).model.packaged = s.model.packaged := by
  cases h with
  | silent h =>
    rw [run_silent (by rw [hmode]; rfl) h]
    exact ⟨hmode, rfl, rfl⟩
  | @line line h =>
    have hbrace : trim line ≠ ['\x7d'] := by
      intro hl
      have := h.open_body
      rw [hl] at this
      contradiction
    have htext : IsBodyText (trim line) :=
      ⟨h.toIsStatement, h.classes, h.interfaces, h.enums, hbrace⟩
    rw [run_cons, run_nil, step_bodyText hmode htext, readBody_eq, h.open_body]
    refine ⟨rfl, rfl, ?_⟩
    dsimp only
    split
    · rfl
    · exact Model.packaged_addMember _ _ _

theorem run_body {pieces : List (List (List Char))} (hmode : s.mode = .body e)
    (h : ∀ piece ∈ pieces, Inside piece) :
    (s.run pieces.flatten).mode = .body e ∧ (s.run pieces.flatten).package = s.package ∧
      (s.run pieces.flatten).model.packaged = s.model.packaged := by
  induction pieces generalizing s with
  | nil => exact ⟨hmode, rfl, rfl⟩
  | cons piece pieces ih =>
    obtain ⟨hpiece, hpieces⟩ := List.forall_mem_cons.1 h
    obtain ⟨hmode', hpackage, hpackaged⟩ := run_inside hmode hpiece
    rw [List.flatten_cons, run_append, ← hpackage, ← hpackaged]
    exact ih hmode' hpieces

theorem run_brace (b : EntityLines) (s : Session) (e : EntityRef) :
    (s.enter e b.behind).run b.brace.toList = { s with mode := .body e } := by
  have hopens := b.opens
  cases hbrace : b.brace with
  | none =>
    simp only [hbrace] at hopens
    obtain ⟨⟨before, inner⟩, hcut, hinner⟩ := Option.map_eq_some_iff.1 hopens
    have hinner : trim inner = [] := hinner
    simp [enter, hcut, hinner, run_nil]
  | some line =>
    simp only [hbrace] at hopens
    obtain ⟨hcut, hline⟩ := hopens
    have henter : s.enter e b.behind = { s with mode := .declared e } := by rw [enter, hcut]
    rw [henter, Option.toList_some, run_cons, run_nil, step_openBrace rfl hline]

theorem step_last (hmode : s.mode = .body e) (h : trim line = ['\x7d']) :
    s.step line = { s with mode := .outside } := by
  have htrim : trim line = trim ['\x7d'] := h
  rw [step_trim htrim, step_closeBody hmode]

/-- A brace between the blocks closes the package, if there is one. -/
theorem step_closed (hmode : s.mode = .outside) (h : trim line = ['\x7d']) :
    s.step line = { s with package := none } := by
  have htrim : trim line = trim ['\x7d'] := h
  rw [step_trim htrim]
  cases hp : s.package with
  | some p => exact step_closePackage hmode hp
  | none =>
    have hpackage : isPackageLine ['\x7d'] = false := by decide
    have hread : s.readStatement ['\x7d'] = s.leaveBody := by
      simp [readStatement, hmode, hp, hpackage, isClassLine, isInterfaceLine, isEnumLine, hasKeyword,
        afterKeyword?, after?]
    have hleave : s.leaveBody = s := by rw [leaveBody, hmode]
    have hsame : ({ s with package := none } : Session) = s := by rw [← hp]
    rw [hsame]
    exact (step_of_outside hmode statement_close).trans (hread.trans hleave)

end Session

namespace Stands

open Session

variable {s : Session} {around : Option String} {found : EntityKind → List (String × Option String)}

theorem entity (h : Stands s around found) (e : EntityLines) :
    Stands (s.run e.lines) around fun k => found k ++ if e.kind = k then [(e.name, around)] else [] := by
  obtain ⟨m, i, hstep, hfound⟩ := step_declared h.mode e.declares
  have hopen := run_brace e { s with model := m } ⟨e.kind, i⟩
  have hbody := run_body (s := { s with model := m, mode := .body ⟨e.kind, i⟩ }) rfl e.inside
  obtain ⟨hmode, hpackage, hpackaged⟩ := hbody
  have hlast := step_last hmode e.closes
  have hrun : s.run e.lines = { (({ s with model := m, mode := .body ⟨e.kind, i⟩ } : Session).run
      e.body.flatten) with mode := .outside } := by
    rw [EntityLines.lines, run_cons, run_append, run_append, hstep, hopen, run_cons, run_nil, hlast]
  rw [hrun]
  refine ⟨rfl, hpackage.trans h.package, ?_⟩
  funext k
  have hm := hfound k
  rw [h.package, h.packaged] at hm
  exact (congrFun hpackaged k).trans hm

theorem between (h : Stands s around found) {piece : List (List Char)} (hp : Between piece) :
    Stands (s.run piece) around found := by
  cases hp with
  | silent hp =>
    rw [run_silent (by rw [h.mode]; rfl) hp]
    exact h
  | @line line hp =>
    rw [run_cons, run_nil, step_of_outside h.mode hp.toIsStatement, readStatement_content hp,
      readContent, h.mode]
    dsimp only
    split
    · exact ⟨rfl, h.package, (Model.packaged_addRelation _ _).trans h.packaged⟩
    · exact h

theorem opened (h : Stands s around found) (p : PackageLines) :
    Stands (s.step p.first) (some p.name) found := by
  have hstep : s.step p.first =
      { s with model := s.model.addPackage p.name, package := some p.name } := by
    rcases p.opens with hfirst | hfirst
    · have htrim := trimmed_opening (show IsWord "package".toList by decide) p.name.toList
      rw [step_trim (hfirst.trans htrim.symm), step_openPackage h.mode p.word]
    · have htrim := trimmed_opening (show IsWord "namespace".toList by decide) p.name.toList
      rw [step_trim (hfirst.trans htrim.symm), step_openNamespace h.mode p.word]
  rw [hstep]
  exact ⟨h.mode, rfl, (Model.packaged_addPackage _ _).trans h.packaged⟩

theorem closed (h : Stands s around found) (p : PackageLines) :
    Stands (s.step p.last) none found := by
  rw [step_closed h.mode p.closes]
  exact ⟨h.mode, rfl, h.packaged⟩

/-- A diagram adds its entities, with the packages that they are given. -/
theorem forest (h : Stands s around found) (f : Forest) :
    Stands (s.run f.lines) (f.left around) fun k => found k ++ f.given k around := by
  induction f generalizing s around found with
  | nil => simpa [Forest.lines, Forest.given, Forest.left, run_nil] using h
  | package p inner rest ihi ihr =>
    have hinner := ((ihi (h.opened p)).closed p)
    have hrest := ihr hinner
    simpa [Forest.lines, Forest.given, Forest.left, run_cons, run_append] using hrest
  | entity e rest ih =>
    have hrest := ih (h.entity e)
    simpa [Forest.lines, Forest.given, Forest.left, run_append] using hrest
  | aside piece hp rest ih =>
    have hrest := ih (h.between hp)
    simpa [Forest.lines, Forest.given, Forest.left, run_append] using hrest

end Stands

/-- In a text of nested blocks an entity is given the package of the block around it until a package
inside that block has been closed, and no package from there on. So all entities are given the
innermost packages around them exactly when none stands behind a package inside its own. -/
theorem parse_packaged {f : Forest} {text : String} (htext : Text.lines text.toList = f.lines) :
    (∀ k, (parse text).packaged k = f.given k none) ∧
      ((∀ k, (parse text).packaged k = f.enclosed k none) ↔ f.Settled none) := by
  have hstart : Stands Session.start none fun _ => [] :=
    ⟨rfl, rfl, funext fun k => by cases k <;> rfl⟩
  have hrun := hstart.forest f
  rw [← htext] at hrun
  have hgiven (k : EntityKind) : (parse text).packaged k = f.given k none :=
    congrFun hrun.packaged k
  refine ⟨hgiven, ?_⟩
  simp only [hgiven]
  rw [f.given_eq_enclosed_iff (.inl rfl)]
  simp

/-- A class behind a package that is closed inside its own. -/
def orphanText : String := "package A \x7b\npackage B \x7b\n\x7d\nclass Y \x7b\n\x7d\n\x7d\n"

def orphanClass : EntityLines where
  kind := .classes
  name := "Y"
  head := "class Y \x7b".toList
  behind := " \x7b".toList
  declares := by decide
  brace := none
  opens := by decide
  body := []
  inside := List.forall_mem_nil _
  last := ['\x7d']
  closes := by decide

def orphan : Forest :=
  .package ⟨"A", by decide, "package A \x7b".toList, .inl (by decide), ['\x7d'], by decide⟩
    (.package ⟨"B", by decide, "package B \x7b".toList, .inl (by decide), ['\x7d'], by decide⟩ .nil
      (.entity orphanClass .nil)) .nil

theorem parse_packaged_orphan : Text.lines orphanText.toList = orphan.lines ∧
    (parse orphanText).packaged .classes = [("Y", none)] ∧
    ¬ ∀ k, (parse orphanText).packaged k = orphan.enclosed k none := by
  have htext : Text.lines orphanText.toList = orphan.lines := by decide
  refine ⟨htext, (parse_packaged htext).1 .classes, fun h => ?_⟩
  have hsettled := (parse_packaged htext).2.1 h
  simp [orphan, Forest.Settled, Forest.bare] at hsettled

/-- The innermost package around an entity is not always the one that it is given. -/
theorem not_parse_enclosed : ¬ ∀ (f : Forest) (text : String), Text.lines text.toList = f.lines →
    ∀ k, (parse text).packaged k = f.enclosed k none := by
  intro h
  have hclasses := h orphan orphanText (by decide) .classes
  have hparsed : (parse orphanText).packaged .classes = [("Y", none)] := by decide
  rw [hparsed] at hclasses
  contradiction

end ClassDiagram.Markup
