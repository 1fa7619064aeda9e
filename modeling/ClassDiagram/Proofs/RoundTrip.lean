import ClassDiagram.Proofs.ArrowLine
import ClassDiagram.Proofs.Head
import ClassDiagram.Proofs.MemberLine
import ClassDiagram.Proofs.Session

/-! The text of a model is read as that model. Each line of the text does one thing to a session, a
block of lines adds one entity, and the session is at the top level again behind each piece. -/

namespace ClassDiagram

/-- Elements that are added one by one to a list end up behind it in their order. -/
theorem foldl_snoc {α β : Type} {xs ys : List β} {add : α → β → α} (put : List β → α)
    (h : ∀ zs x rest, zs ++ x :: rest = ys ++ xs → add (put zs) x = put (zs ++ [x])) :
    xs.foldl add (put ys) = put (ys ++ xs) := by
  induction xs generalizing ys with
  | nil => simp
  | cons x xs ih =>
    rw [List.foldl_cons, h ys x xs rfl]
    have hrest : xs.foldl add (put (ys ++ [x])) = put (ys ++ [x] ++ xs) :=
      ih fun zs y rest hzs => h zs y rest (by simpa using hzs)
    rw [hrest, List.append_assoc, List.singleton_append]

theorem modify_concat {α : Type} (l : List α) (x : α) (f : α → α) :
    (l ++ [x]).modify l.length f = l ++ [f x] := by
  simpa using modify_append_right l [x] 0 f

namespace Model

variable (m : Model)

theorem addAttributes_addClass (as : List Attribute) (c : Class) :
    as.foldl (fun m' a => m'.addAttribute m.classes.length a) (m.addClass c) =
      m.addClass { c with attributes := c.attributes ++ as } := by
  refine foldl_snoc (fun as => m.addClass { c with attributes := as }) fun zs a _ _ => ?_
  simp [addClass, addAttribute, modify_concat]

theorem addMethods_addClass (fs : List Method) (c : Class) :
    fs.foldl (fun m' f => m'.addMethod m.classes.length f) (m.addClass c) =
      m.addClass { c with methods := c.methods ++ fs } := by
  refine foldl_snoc (fun fs => m.addClass { c with methods := fs }) fun zs f _ _ => ?_
  simp [addClass, addMethod, modify_concat]

theorem addAttributes_addInterface (as : List Attribute) (i : Interface) :
    as.foldl (fun m' a => m'.addInterfaceAttribute m.interfaces.length a) (m.addInterface i) =
      m.addInterface { i with attributes := i.attributes ++ as } := by
  refine foldl_snoc (fun as => m.addInterface { i with attributes := as }) fun zs a _ _ => ?_
  simp [addInterface, addInterfaceAttribute, modify_concat]

theorem addValues_addEnum (vs : List String) (e : Enumeration) :
    vs.foldl (fun m' v => m'.addValue m.enums.length v) (m.addEnum e) =
      m.addEnum { e with values := e.values ++ vs } := by
  refine foldl_snoc (fun vs => m.addEnum { e with values := vs }) fun zs v _ _ => ?_
  simp [addEnum, addValue, modify_concat]

end Model

end ClassDiagram

namespace ClassDiagram.Markup

open Text

namespace Session

variable {s : Session} {e : EntityRef} {style : Style} {ls : List (List Char)}

/-! ### Lines -/

theorem trimmed_opening {keyword : String} (hk : IsWord keyword.toList) (shown : List Char) :
    trim (opening keyword shown) = opening keyword shown := by
  have happ : opening keyword shown =
      (keyword.toList ++ ' ' :: (shown ++ [' '])) ++ '\x7b' :: [] := by
    simp [opening]
  have hend : trimEnd (opening keyword shown) = opening keyword shown := by
    rw [happ, trimEnd_append_cons (by decide)]
    rfl
  have hhead : (opening keyword shown).head?.any isBlank = false := hk.head_not_blank _
  rw [trim, trimStart_of_head hhead, hend]

theorem step_opening {keyword : String} (hmode : s.mode = .outside)
    (hk : keyword ∈ ["package", "class", "interface", "enum"]) (shown : List Char) :
    s.step (opening keyword shown) = s.readStatement (opening keyword shown) := by
  have hword : ∀ k ∈ ["package", "class", "interface", "enum"], IsWord k.toList := by decide
  have htrim := trimmed_opening (hword keyword hk) shown
  have h : IsStatement (opening keyword shown) := by
    simp only [List.mem_cons, List.not_mem_nil, or_false] at hk
    rcases hk with rfl | rfl | rfl | rfl
    all_goals exact ⟨List.cons_ne_nil _ _, rfl, rfl, rfl⟩
  rw [step_of_outside hmode (by rwa [htrim]), htrim]

theorem step_openPackage {p : String} (hmode : s.mode = .outside) (hp : IsWord p.toList) :
    s.step (opening "package" p.toList) =
      { s with model := s.model.addPackage p, package := some p } := by
  rw [step_opening hmode (by decide), readStatement_package hmode rfl, openPackage, opening,
    readPackage_spaced hp (by rfl), String.ofList_toList]

theorem readClassHead_opening {c : Class} (hc : c.Writable) :
    readClassHead (opening "class" (shownName c)) =
      some (⟨c.name, c.displayName⟩, [' ', '\x7b']) := by
  unfold opening shownName
  split
  · next hd => rw [readClassHead_plain hc.name (by rfl), hd, String.ofList_toList]
  · next hd =>
    have hs := hc.displayName.resolve_left hd
    have hread := readClassHead_aliased hs.ne_nil hs.quote hc.name (t := [' ', '\x7b']) rfl
    simpa using hread

theorem step_openClass {c : Class} (hmode : s.mode = .outside) (hc : c.Writable) :
    s.step (opening "class" (shownName c)) =
      { s with
        model := s.model.addClass ⟨c.name, c.displayName, s.package, [], []⟩
        mode := .body ⟨.classes, s.model.classes.length⟩ } := by
  rw [step_opening hmode (by decide), readStatement_class rfl (by simp [opening]) rfl, declareClass,
    readClassHead_opening hc]
  rfl

theorem step_openInterface {i : Interface} (hmode : s.mode = .outside) (hi : i.Writable) :
    s.step (opening "interface" i.name.toList) =
      { s with
        model := s.model.addInterface ⟨i.name, s.package, []⟩
        mode := .body ⟨.interfaces, s.model.interfaces.length⟩ } := by
  rw [step_opening hmode (by decide), readStatement_interface rfl (by simp [opening]) rfl rfl,
    declareInterface, opening, readNamed_spaced "interface" hi.name (by rfl), String.ofList_toList]
  rfl

theorem step_openEnum {n : Enumeration} (hmode : s.mode = .outside) (hn : n.Writable) :
    s.step (opening "enum" n.name.toList) =
      { s with
        model := s.model.addEnum ⟨n.name, s.package, []⟩
        mode := .body ⟨.enums, s.model.enums.length⟩ } := by
  rw [step_opening hmode (by decide), readStatement_enum rfl (by simp [opening]) rfl rfl rfl,
    declareEnum, opening, readNamed_spaced "enum" hn.name (by rfl), String.ofList_toList]
  rfl

theorem statement_close : IsStatement (trim ['\x7d']) :=
  ⟨by decide, by decide, by decide, by decide⟩

theorem step_closeBody (hmode : s.mode = .body e) :
    s.step ['\x7d'] = { s with mode := .outside } := by
  have hread : s.readStatement ['\x7d'] = s.leaveBody := by
    simp [readStatement, hmode, isClassLine, isInterfaceLine, isEnumLine, hasKeyword, afterKeyword?,
      after?]
  rw [step_of_body hmode statement_close]
  exact hread.trans (by simp [leaveBody, hmode])

theorem step_closePackage {p : String} (hmode : s.mode = .outside) (hp : s.package = some p) :
    s.step ['\x7d'] = { s with package := none } := by
  have hpackage : isPackageLine ['\x7d'] = false := by decide
  have hread : s.readStatement ['\x7d'] = { s with package := none } := by
    simp [readStatement, hmode, hp, hpackage]
  exact (step_of_outside hmode statement_close).trans hread

theorem step_relationLine {r : Relation} (hmode : s.mode = .outside) (hr : r.Writable) :
    s.step (relationLine r) = { s with model := (s.model.addRelation r).1 } := by
  have hend : trimEnd (relationLine r) = relationLine r := by
    have happ : relationLine r =
        (r.source.toList ++ ' ' :: (r.kind.arrow.toList ++ [' '])) ++ r.target.toList := by
      simp [relationLine]
    have hhead := r.target.toList.append_nil ▸ hr.target.head_not_blank []
    rw [happ, trimEnd_append hr.target.ne_nil hhead, hr.target.trimmed.trimEnd_eq]
  have htrim : trim (relationLine r) = relationLine r := by
    have hhead : (relationLine r).head?.any isBlank = false := hr.source.head_not_blank _
    rw [trim, trimStart_of_head hhead, hend]
  have hcontent : IsContent (relationLine r) := by
    refine content_of_spaced hr.source ?_ hr.directive ?_ ?_
    · rw [String.ofList_toList]
      exact hr.unreserved
    · cases r.kind <;> rfl
    · cases r.kind <;> rfl
  have hfind : Relation.find? (relationLine r) = some r := by
    rw [relationLine, Relation.find?_arrow r.kind hr.source hr.target, String.ofList_toList,
      String.ofList_toList]
  exact step_relation hmode (by rwa [htrim]) (by rw [htrim, hfind])

/-! ### Bodies -/

theorem run_indent (s : Session) (ls : List (List Char)) :
    s.run (ls.map (style.indent.chars ++ ·)) = s.run ls := by
  induction ls generalizing s with
  | nil => rfl
  | cons l ls ih =>
    have htrim : trim (style.indent.chars ++ l) = trim l := trim_append_left style.indent.blank l
    rw [List.map_cons, run_cons, step_trim htrim, ih, run_cons]

theorem run_block (s : Session) (first : List Char) (inner : List (List Char)) :
    s.run (style.block first inner) = ((s.step first).run inner).step ['\x7d'] := by
  rw [Style.block, run_cons, run_append, run_indent]
  rfl

/-- Lines that each add one member to the open body. -/
theorem run_members {α : Type} {xs : List α} (line : α → List Char) (add : Model → α → Model)
    (hmode : s.mode = .body e) (h : ∀ x ∈ xs, IsMember (trim (line x)))
    (hadd : ∀ x ∈ xs, ∀ m, addMember m e (trim (line x)) = add m x) :
    s.run (xs.map line) = { s with model := xs.foldl add s.model } := by
  induction xs generalizing s with
  | nil => rfl
  | cons x xs ih =>
    obtain ⟨hx, hxs⟩ := List.forall_mem_cons.1 h
    obtain ⟨haddx, haddxs⟩ := List.forall_mem_cons.1 hadd
    rw [List.map_cons, run_cons, step_member hmode hx, haddx]
    exact ih (s := { s with model := add s.model x }) hmode hxs haddxs

theorem run_classAttributes {as : List Attribute} {n : ℕ} (hmode : s.mode = .body ⟨.classes, n⟩)
    (ha : ∀ a ∈ as, a.Writable) : s.run (as.map style.attributeLine) =
      { s with model := as.foldl (fun m a => m.addAttribute n a) s.model } := by
  apply run_members _ _ hmode
  · intro a hmem
    exact member_attributeLine (ha a hmem)
  · intro a hmem m
    simp [addMember, hasParentheses_attributeLine (ha a hmem),
      readAttribute_attributeLine (ha a hmem)]

theorem run_methods {fs : List Method} {n : ℕ} (hmode : s.mode = .body ⟨.classes, n⟩)
    (hf : ∀ f ∈ fs, f.Writable) : s.run (fs.map style.methodLine) =
      { s with model := fs.foldl (fun m f => m.addMethod n f) s.model } := by
  apply run_members _ _ hmode
  · intro f hmem
    rw [trim_methodLine (hf f hmem)]
    exact member_methodLine (hf f hmem)
  · intro f hmem m
    simp [addMember, trim_methodLine (hf f hmem), hasParentheses_methodLine,
      readMethod_methodLine (hf f hmem)]

theorem run_interfaceAttributes {as : List Attribute} {n : ℕ}
    (hmode : s.mode = .body ⟨.interfaces, n⟩) (ha : ∀ a ∈ as, a.Writable) :
    s.run (as.map style.attributeLine) =
      { s with model := as.foldl (fun m a => m.addInterfaceAttribute n a) s.model } := by
  apply run_members _ _ hmode
  · intro a hmem
    exact member_attributeLine (ha a hmem)
  · intro a hmem m
    simp [addMember, hasParentheses_attributeLine (ha a hmem),
      readAttribute_attributeLine (ha a hmem)]

theorem run_values {vs : List String} {n : ℕ} (hmode : s.mode = .body ⟨.enums, n⟩)
    (hv : ∀ v ∈ vs, IsValue v) : s.run (vs.map String.toList) =
      { s with model := vs.foldl (fun m v => m.addValue n v) s.model } := by
  have htrim : ∀ v ∈ vs, trim v.toList = v.toList := fun v hmem => (hv v hmem).word.trimmed
  apply run_members _ _ hmode
  · intro v hmem
    rw [htrim v hmem]
    exact member_value (hv v hmem)
  · intro v hmem m
    simp [addMember, htrim v hmem, readValue_word (hv v hmem).word]

/-! ### Blocks -/

theorem run_classLines {c : Class} (hmode : s.mode = .outside) (hc : c.Writable) :
    s.run (style.classLines c) =
      { s with model := s.model.addClass { c with package := s.package } } := by
  rw [Style.classLines, run_block, step_openClass hmode hc, run_append,
    run_classAttributes rfl hc.attributes, run_methods rfl hc.methods, step_closeBody rfl]
  simp [Model.addAttributes_addClass, Model.addMethods_addClass, hmode]

theorem run_interfaceLines {i : Interface} (hmode : s.mode = .outside) (hi : i.Writable) :
    s.run (style.interfaceLines i) =
      { s with model := s.model.addInterface { i with package := s.package } } := by
  rw [Style.interfaceLines, run_block, step_openInterface hmode hi,
    run_interfaceAttributes rfl hi.attributes, step_closeBody rfl]
  simp [Model.addAttributes_addInterface, hmode]

theorem run_enumLines {n : Enumeration} (hmode : s.mode = .outside) (hn : n.Writable) :
    s.run (style.enumLines n) =
      { s with model := s.model.addEnum { n with package := s.package } } := by
  rw [Style.enumLines, run_block, step_openEnum hmode hn, run_values rfl hn.values,
    step_closeBody rfl]
  simp [Model.addValues_addEnum, hmode]

theorem run_within {package : Option String} {f : Model → Model} (hmode : s.mode = .outside)
    (hnone : s.package = none) (hp : ∀ p ∈ package, IsWord p.toList)
    (hls : ∀ s' : Session, s'.mode = .outside → s'.package = package →
      s'.run ls = { s' with model := f s'.model }) :
    s.run (style.within package ls) = { s with model := f (s.model.addWithin package) } := by
  cases package with
  | none => exact hls s hmode hnone
  | some p =>
    have hinner := hls ⟨s.model.addPackage p, s.mode, some p⟩ hmode rfl
    have hclose := step_closePackage (s := ⟨f (s.model.addPackage p), s.mode, some p⟩) hmode rfl
    rw [Style.within, run_block, step_openPackage hmode (hp p rfl), hinner, hclose, hnone]
    rfl

/-- A piece of a diagram adds what it says and leaves the session at the top level. -/
theorem run_item {it : Item} (hmode : s.mode = .outside) (hnone : s.package = none)
    (hit : it.Writable) : s.run (style.itemLines it) = { s with model := it.add s.model } := by
  cases it with
  | ofPackage p =>
    have hp : ∀ q ∈ some p, IsWord q.toList := fun q hq => Option.some.inj hq ▸ hit
    exact run_within (f := id) hmode hnone hp fun s' _ _ => run_nil s'
  | ofClass c =>
    apply run_within (f := fun m => m.addClass c) hmode hnone hit.2
    intro s' hmode' hp
    rw [run_classLines hmode' hit.1, hp]
  | ofInterface i =>
    apply run_within (f := fun m => m.addInterface i) hmode hnone hit.2
    intro s' hmode' hp
    rw [run_interfaceLines hmode' hit.1, hp]
  | ofEnum n =>
    apply run_within (f := fun m => m.addEnum n) hmode hnone hit.2
    intro s' hmode' hp
    rw [run_enumLines hmode' hit.1, hp]
  | ofRelation r =>
    rw [Style.itemLines, run_cons, run_nil, step_relationLine hmode hit]
    rfl

theorem run_items {its : List Item} (hmode : s.mode = .outside) (hnone : s.package = none)
    (hits : ∀ it ∈ its, it.Writable) : s.run (its.flatMap style.itemLines) =
      { s with model := its.foldl Item.add s.model } := by
  induction its generalizing s with
  | nil => rfl
  | cons it its ih =>
    obtain ⟨hit, hits⟩ := List.forall_mem_cons.1 hits
    rw [List.flatMap_cons, run_append, run_item hmode hnone hit]
    exact ih (s := { s with model := it.add s.model }) hmode hnone hits

end Session

/-! ### Models -/

theorem addWithin_of_mem {m : Model} {package : Option String}
    (h : ∀ p ∈ package, p ∈ m.packages) : m.addWithin package = m := by
  cases package with
  | none => rfl
  | some p => exact if_pos (h p rfl)

theorem foldl_packages {m : Model} {ps : List String} (h : (m.packages ++ ps).Nodup) :
    (ps.map Item.ofPackage).foldl Item.add m = { m with packages := m.packages ++ ps } := by
  rw [List.foldl_map]
  refine foldl_snoc (fun ps => { m with packages := ps }) fun zs p rest hzs => ?_
  have hp : p ∉ zs := fun hp =>
    (List.nodup_append.1 (hzs ▸ h)).2.2 p hp p List.mem_cons_self rfl
  simp [Item.add, Model.addPackage, hp]

theorem foldl_relations {m : Model} {rs : List Relation} (h : (m.relations ++ rs).Nodup) :
    (rs.map Item.ofRelation).foldl Item.add m = { m with relations := m.relations ++ rs } := by
  rw [List.foldl_map]
  refine foldl_snoc (fun rs => { m with relations := rs }) fun zs r rest hzs => ?_
  have hr : r ∉ zs := fun hr =>
    (List.nodup_append.1 (hzs ▸ h)).2.2 r hr r List.mem_cons_self rfl
  simp [Item.add, Model.addRelation, hr]

theorem foldl_classes {m : Model} {cs : List Class}
    (h : ∀ c ∈ m.classes ++ cs, ∀ p ∈ c.package, p ∈ m.packages) :
    (cs.map Item.ofClass).foldl Item.add m = { m with classes := m.classes ++ cs } := by
  rw [List.foldl_map]
  refine foldl_snoc (fun cs => { m with classes := cs }) fun zs c rest hzs => ?_
  have hm := addWithin_of_mem (m := { m with classes := zs })
    (h c (hzs ▸ List.mem_append_cons_self))
  rw [Item.add, hm]
  rfl

theorem foldl_interfaces {m : Model} {is : List Interface}
    (h : ∀ i ∈ m.interfaces ++ is, ∀ p ∈ i.package, p ∈ m.packages) :
    (is.map Item.ofInterface).foldl Item.add m = { m with interfaces := m.interfaces ++ is } := by
  rw [List.foldl_map]
  refine foldl_snoc (fun is => { m with interfaces := is }) fun zs i rest hzs => ?_
  have hm := addWithin_of_mem (m := { m with interfaces := zs })
    (h i (hzs ▸ List.mem_append_cons_self))
  rw [Item.add, hm]
  rfl

theorem foldl_enums {m : Model} {es : List Enumeration}
    (h : ∀ e ∈ m.enums ++ es, ∀ p ∈ e.package, p ∈ m.packages) :
    (es.map Item.ofEnum).foldl Item.add m = { m with enums := m.enums ++ es } := by
  rw [List.foldl_map]
  refine foldl_snoc (fun es => { m with enums := es }) fun zs e rest hzs => ?_
  have hm := addWithin_of_mem (m := { m with enums := zs })
    (h e (hzs ▸ List.mem_append_cons_self))
  rw [Item.add, hm]
  rfl

theorem foldl_items {m : Model} (hm : m.Writable) : (items m).foldl Item.add Model.empty = m := by
  rw [items, List.foldl_append, List.foldl_append, List.foldl_append, List.foldl_append,
    foldl_packages (by simpa [Model.empty] using hm.packages_nodup),
    foldl_classes (by simpa [Model.empty] using hm.classes_within),
    foldl_interfaces (by simpa [Model.empty] using hm.interfaces_within),
    foldl_enums (by simpa [Model.empty] using hm.enums_within),
    foldl_relations (by simpa [Model.empty] using hm.relations_nodup)]
  simp [Model.empty]

theorem items_writable {m : Model} (hm : m.Writable) : ∀ it ∈ items m, it.Writable := by
  intro it hit
  simp only [items, List.mem_append, List.mem_map] at hit
  rcases hit with (((⟨p, hp, rfl⟩ | ⟨c, hc, rfl⟩) | ⟨i, hi, rfl⟩) | ⟨e, he, rfl⟩) | ⟨r, hr, rfl⟩
  · exact hm.packages p hp
  · exact ⟨hm.classes c hc, fun p hp => hm.packages p (hm.classes_within c hc p hp)⟩
  · exact ⟨hm.interfaces i hi, fun p hp => hm.packages p (hm.interfaces_within i hi p hp)⟩
  · exact ⟨hm.enums e he, fun p hp => hm.packages p (hm.enums_within e he p hp)⟩
  · exact hm.relations r hr

/-- Reading the text of a model gives the model back, in whatever style the text is written. -/
theorem parse_text (style : Style) (m : Model) (hm : m.Writable) : parse (style.text m) = m := by
  have hnewline : ∀ l ∈ (items m).flatMap style.itemLines, '\n' ∉ l := by
    intro l hl
    obtain ⟨it, hit, hl⟩ := List.mem_flatMap.1 hl
    exact newline_itemLines (items_writable hm it hit) l hl
  rw [parse, sessionAfter, Style.text, String.toList_ofList, lines_unlines hnewline,
    Session.run_items rfl rfl (items_writable hm)]
  exact foldl_items hm

/-- A model with a piece of every kind. -/
def shop : Model where
  classes := [⟨"Order", "An order", some "sales", [⟨"total", "Money[0..1]", some ""⟩,
    ⟨"class", "Int", none⟩], [⟨"pay", "Map\x7bInt\x7d"⟩]⟩]
  interfaces := [⟨"Named", none, [⟨"label", "String", some "'none'"⟩]⟩]
  enums := [⟨"State", some "sales", ["hide", "PAID"]⟩]
  relations := [⟨"Named", "Order", .implementation⟩, ⟨"Order", "State", .aggregation⟩]
  packages := ["sales", "stock"]

theorem parse_text_shop : shop.Writable ∧ parse (plainStyle.text shop) = shop := by
  have hshop : shop.Writable := by decide
  exact ⟨hshop, parse_text plainStyle shop hshop⟩

end ClassDiagram.Markup
