import ClassDiagram.Proofs.ArrowLine
import ClassDiagram.Proofs.Caption
import Mathlib.Data.List.Find

/-! Members that are named behind an end of a relation. Behind the target nothing is read any more.
Behind the source a row for members passes over the name of the member; a row for bare names finds
no blank there, and so it starts anew at that name and takes it for the source. -/

namespace ClassDiagram.Relation

open Text

variable {a b m cs s t w line line' : List Char} {p : Pattern}

/-- A name with a member named behind it. -/
def withMember (name member : List Char) : List Char := name ++ memberText (some member)

theorem withMember_append (a m t : List Char) :
    withMember a m ++ t = a ++ (':' :: ':' :: (m ++ t)) := by
  simp [withMember, memberText]

/-- When every row finds in one line what it finds in another, but for a change of its own, the same
row decides about both. -/
theorem find?_of_leftmost {g : Pattern → Relation → Relation}
    (h : ∀ p ∈ patterns, Scan.leftmost p.read? line' = (Scan.leftmost p.read? line).map (g p)) :
    find? line' = (decidingRow? line).bind fun p => (Scan.leftmost p.read? line).map (g p) := by
  have hrow : decidingRow? line' = decidingRow? line :=
    List.find?_congr fun p hp => by rw [h p hp, Option.isSome_map]
  rw [find?_eq, hrow]
  exact Option.bind_congr fun p hp => h p (List.mem_of_find?_eq_some hp)

/-! ### Behind the target -/

/-- Where a word ended, a member behind the rest of the text is passed over only if that rest is
empty, and then nothing is left. -/
theorem skipMember_append_member (hm : IsWord m) (cs : List Char) :
    skipMember (cs ++ ':' :: ':' :: m) =
      if cs = [] then [] else skipMember cs ++ ':' :: ':' :: m := by
  rcases cs with _ | ⟨c, _ | ⟨d, cs⟩⟩
  · have hword := Scan.word_append (t := []) hm rfl
    rw [List.append_nil] at hword
    simp [skipMember, after?, hword]
  · have hnone : Scan.word (':' :: m) = none := Scan.run_none rfl
    by_cases hc : c = ':'
    · subst hc
      simp [skipMember, after?, hnone]
    · simp [skipMember, after?, Ne.symm hc]
  · have hword : Scan.word (cs ++ ':' :: ':' :: m) =
        (Scan.word cs).map fun q => (q.1, q.2 ++ ':' :: ':' :: m) := Scan.word_append_cons rfl _ _
    by_cases hcolons : c = ':' ∧ d = ':'
    · obtain ⟨rfl, rfl⟩ := hcolons
      cases hcs : Scan.word cs <;> simp [skipMember, after?, hword, hcs]
    · have hnone (t : List Char) : after? [':', ':'] (c :: d :: t) = none := by
        rw [after?, after?]
        grind
      simp [skipMember, hnone]

theorem Pattern.read?_append_member (hp : p ∈ patterns) (h : Closed cs) (hm : IsWord m) :
    p.read? (cs ++ ':' :: ':' :: m) = p.read? cs := by
  have hbarrier {rest : List Char} (hrest : Closed rest) :=
    (Pattern.stopsAt hp (isBarrier_colon (':' :: m)) hrest).someBlanks
  rw [read?_eq, read?_eq, Scan.word_append_cons rfl, Option.bind_map]
  refine Option.bind_congr fun q hq => ?_
  have hrest : Closed q.2 := h.behind_word hq
  dsimp only [Function.comp]
  cases hsubject : p.subject with
  | entity => rw [Subject.behind, Subject.behind, hbarrier hrest]
  | member =>
    rw [Subject.behind, Subject.behind, skipMember_append_member hm]
    split
    · next hnil => rw [hnil]; rfl
    · rw [hbarrier (hrest.suffix (skipMember_suffix q.2))]

/-- No relation lies in a text without blanks. -/
theorem leftmost_plain (h : Plain t) (p : Pattern) : Scan.leftmost p.read? t = none := by
  refine Scan.leftmost_none fun s _ hs => Pattern.read?_none ?_
  rw [Option.eq_none_iff_forall_not_mem]
  rintro ⟨w, rest⟩ hread
  obtain ⟨-, b, hb, hsuffix⟩ := Subject.read_suffix hread
  have hplain := h b (hs.subset (hsuffix.subset List.mem_cons_self))
  rw [hb] at hplain
  contradiction

theorem find?_append_member (h : Closed cs) (hm : IsWord m) :
    find? (cs ++ ':' :: ':' :: m) = find? cs := by
  have hplain : Plain (':' :: ':' :: m) := by
    rw [plain_cons, plain_cons]
    exact ⟨rfl, rfl, plain_word hm⟩
  have hrow : ∀ p ∈ patterns, Scan.leftmost p.read? (cs ++ ':' :: ':' :: m) =
      (Scan.leftmost p.read? cs).map id := by
    intro p hp
    rw [Scan.leftmost_append fun s _ hs => p.read?_append_member hp (h.suffix hs) hm,
      leftmost_plain hplain, Option.or_none, Option.map_id_fun, id]
  rw [find?_of_leftmost (g := fun _ => id) hrow, find?_eq]
  simp

/-! ### Behind the source -/

theorem Pattern.leftmost_cons {c : Char} (hc : isWordChar c = false) (p : Pattern) (t : List Char) :
    Scan.leftmost p.read? (c :: t) = Scan.leftmost p.read? t := by
  have hnone : p.read? (c :: t) = none := p.read?_none_of_head (by simpa using hc)
  rw [Scan.leftmost, hnone]

/-- The relation of a row from some source, when its arrow and a target start a text. -/
def Pattern.from? (p : Pattern) (source t : List Char) : Option Relation :=
  (p.readArrow (trimStart t)).map fun target =>
    ⟨String.ofList source, String.ofList target, p.kind⟩

theorem Pattern.from?_none {source : List Char} (h : p.from? source t = none) (w : List Char) :
    p.from? w t = none := by
  rw [from?, Option.map_eq_none_iff] at h ⊢
  exact h

theorem Pattern.read?_word (hw : IsWord w) (p : Pattern) (t : List Char) :
    p.read? (w ++ ' ' :: t) = p.from? w t := by
  have hbehind : p.subject.behind (' ' :: t) = ' ' :: t := by cases p.subject <;> rfl
  rw [read?_eq, Scan.word_append hw rfl, Option.bind_some, hbehind, Scan.someBlanks_bind]
  rfl

theorem Pattern.read?_bare (hp : p.subject = .entity) (hw : IsWord w) (t : List Char) :
    p.read? (w ++ ':' :: t) = none := by
  rw [read?_eq, Scan.word_append hw rfl, Option.bind_some, hp, Subject.behind, Scan.someBlanks_bind]
  rfl

theorem Pattern.read?_member (hp : p.subject = .member) (hw : IsWord w) (hm : IsWord m)
    (t : List Char) : p.read? (w ++ ':' :: ':' :: (m ++ ' ' :: t)) = p.from? w t := by
  have hskip : skipMember (':' :: ':' :: (m ++ ' ' :: t)) = ' ' :: t := by
    have hmember : Scan.word (m ++ ' ' :: t) = some (m, ' ' :: t) := Scan.word_append hm rfl
    simp [skipMember, after?, hmember]
  rw [read?_eq, Scan.word_append hw rfl, Option.bind_some, hp, Subject.behind, hskip,
    Scan.someBlanks_bind]
  rfl

theorem Pattern.leftmost_word (hw : IsWord w) (p : Pattern) (t : List Char) :
    Scan.leftmost p.read? (w ++ ' ' :: t) = (p.from? w t).or (Scan.leftmost p.read? t) := by
  rw [Scan.leftmost_append_front hw.ne_nil, p.read?_word hw, p.leftmost_cons rfl]
  intro hnone s hne hs
  rw [p.read?_word hw] at hnone
  rw [p.read?_word (hw.suffix hne hs)]
  exact p.from?_none hnone s

/-- The name that a row takes for the source, where a member is named behind it. -/
def Subject.source : Subject → (name member : List Char) → List Char
  | .entity, _, m => m
  | .member, name, _ => name

theorem Pattern.leftmost_member (ha : IsWord a) (hm : IsWord m) (p : Pattern) (t : List Char) :
    Scan.leftmost p.read? (withMember a m ++ ' ' :: t) =
      (p.from? (p.subject.source a m) t).or (Scan.leftmost p.read? t) := by
  rw [withMember_append]
  cases hp : p.subject with
  | entity =>
    rw [Scan.leftmost_append_of_none, p.leftmost_cons rfl, p.leftmost_cons rfl, p.leftmost_word hm]
    · rfl
    · intro s hne hs
      exact p.read?_bare hp (ha.suffix hne hs) _
  | member =>
    rw [Scan.leftmost_append_front ha.ne_nil, p.read?_member hp ha hm, p.leftmost_cons rfl,
      p.leftmost_cons rfl, p.leftmost_word hm, Subject.source]
    · cases hfrom : p.from? a t with
      | none => rw [p.from?_none hfrom, Option.none_or]
      | some r => rfl
    · intro hnone s hne hs
      rw [p.read?_member hp ha hm] at hnone
      rw [p.read?_member hp (ha.suffix hne hs) hm]
      exact p.from?_none hnone s

/-- Whether a row for bare names reads its relation at the front of a line. -/
def Pattern.readsBareName (p : Pattern) (line : List Char) : Bool :=
  p.subject = .entity && (p.read? line).isSome

/-- Whether the row that decides about a line takes the bare name at its front for the source. -/
def readsBareName (line : List Char) : Bool := (decidingRow? line).any (·.readsBareName line)

theorem Pattern.leftmost_withMember (ha : IsWord a) (hm : IsWord m) (p : Pattern)
    (t : List Char) : Scan.leftmost p.read? (withMember a m ++ ' ' :: t) =
      (Scan.leftmost p.read? (a ++ ' ' :: t)).map fun r =>
        if p.readsBareName (a ++ ' ' :: t) then { r with source := String.ofList m } else r := by
  rw [p.leftmost_member ha hm, p.leftmost_word ha, readsBareName, p.read?_word ha]
  cases hfrom : p.from? a t with
  | none => simp [p.from?_none hfrom]
  | some r =>
    obtain ⟨target, htarget, rfl⟩ := Option.map_eq_some_iff.1 hfrom
    have hother (w : List Char) : p.from? w t =
        some ⟨String.ofList w, String.ofList target, p.kind⟩ := by
      rw [from?, htarget, Option.map_some]
    rw [hother]
    cases p.subject <;> simp [Subject.source]

theorem find?_withMember (ha : IsWord a) (hm : IsWord m) (t : List Char) :
    find? (withMember a m ++ ' ' :: t) = (find? (a ++ ' ' :: t)).map fun r =>
      if readsBareName (a ++ ' ' :: t) then { r with source := String.ofList m } else r := by
  rw [find?_of_leftmost fun p _ => p.leftmost_withMember ha hm t, find?_eq, Option.map_bind]
  refine Option.bind_congr fun p hp => ?_
  rw [readsBareName, hp]
  rfl

theorem find?_of_readsBareName (ha : IsWord a) (h : readsBareName (a ++ ' ' :: t) = true) :
    ∃ target kind, find? (a ++ ' ' :: t) = some ⟨String.ofList a, target, kind⟩ := by
  rw [readsBareName] at h
  cases hrow : decidingRow? (a ++ ' ' :: t) with
  | none => simp [hrow] at h
  | some p =>
    rw [hrow, Option.any_some, Pattern.readsBareName, Bool.and_eq_true, p.read?_word ha] at h
    obtain ⟨r, hr⟩ := Option.isSome_iff_exists.1 h.2
    obtain ⟨target, -, rfl⟩ := Option.map_eq_some_iff.1 hr
    rw [find?_eq, hrow, Option.bind_some, p.leftmost_word ha, hr]
    exact ⟨_, _, rfl⟩

theorem readsBareName_documented (ha : IsWord a) (hb : IsWord b) (arrow : Arrow) :
    readsBareName (joined a arrow.text b) = true ↔
      arrow.kind ∈ [.inheritance, .implementation, .nested] := by
  have hsubject := arrow.row.subject.read_spaced ha (arrow.head_not_blank (' ' :: b))
  have hfirst : firstRow patterns (arrow.text ++ ' ' :: b) = some (arrow.row, b) := by
    simpa using firstRow_text (tail_of isGap_space hb isTrailer_nil) arrow
  have hone : OneArrow (joined a arrow.text b) (arrow.text ++ ' ' :: b) := by
    simpa [joined] using
      oneArrow_text arrow (plain_word ha) isGap_space isGap_space hb isTrailer_nil
  have hrow := decidingRow?_of_firstRow hone hfirst hsubject
  have hread := read?_of_firstRow hfirst hsubject
  rw [readsBareName, hrow, Option.any_some, Pattern.readsBareName, joined, hread,
    Option.isSome_some, Bool.and_true, decide_eq_true_iff, arrow.row_entity_iff]

/--
Behind the target a member changes nothing. Behind the source it takes the place of the source
exactly if a row for bare names decides about the line and reads its front, as for the arrows of
inheritance, implementation and nesting; it changes nothing otherwise.
-/
theorem find?_joined_member (ha : IsWord a) (hm : IsWord m) (hb : IsWord b) (hs : IsSpelling s) :
    find? (joined a s (withMember b m)) = find? (joined a s b) ∧
    find? (joined (withMember a m) s b) = (find? (joined a s b)).map (fun r =>
      if readsBareName (joined a s b) then { r with source := String.ofList m } else r) ∧
    (find? (joined (withMember a m) s b) = find? (joined a s b) ↔
      (readsBareName (joined a s b) = true → m = a)) ∧
    ∀ arrow : Arrow, arrow.text = s → (readsBareName (joined a s b) = true ↔
      arrow.kind ∈ [.inheritance, .implementation, .nested]) := by
  have hsource := find?_withMember ha hm (s ++ ' ' :: b)
  refine ⟨?_, hsource, ?_, ?_⟩
  · have hjoined : joined a s (withMember b m) = joined a s b ++ ':' :: ':' :: m := by
      simp [joined, withMember, memberText]
    rw [hjoined, find?_append_member (closed_joined ha hs hb) hm]
  · rw [joined, joined, hsource]
    cases hbare : readsBareName (a ++ ' ' :: (s ++ ' ' :: b)) with
    | false => simp
    | true =>
      obtain ⟨target, kind, hfind⟩ := find?_of_readsBareName ha hbare
      simp [hfind, String.ofList_inj]
  · rintro arrow rfl
    exact readsBareName_documented ha hb arrow

theorem isSpelling_inherit : IsSpelling "<|--".toList :=
  ⟨patterns[2], by decide, .cons (.text "<|") (.cons (.run '-' 1) .spaced)⟩

theorem find?_joined_inherit : find? (joined "A".toList "<|--".toList "B".toList) =
    some ⟨"A", "B", .inheritance⟩ := by decide

theorem find?_joined_member_inherit :
    find? "A <|-- B::m".toList = some ⟨"A", "B", .inheritance⟩ ∧
      find? "A::m <|-- B".toList = some ⟨"m", "B", .inheritance⟩ := by
  have hword : IsWord "A".toList ∧ IsWord "m".toList ∧ IsWord "B".toList := by decide
  obtain ⟨htarget, hsource, -, harrow⟩ :=
    find?_joined_member hword.1 hword.2.1 hword.2.2 isSpelling_inherit
  have hbare := (harrow (.inherit 1 none) rfl).2 (by decide)
  rw [find?_joined_inherit] at htarget hsource
  rw [hbare] at hsource
  exact ⟨htarget, hsource⟩

theorem not_find?_joined_member : ¬ ∀ a m s b : List Char,
    IsWord a → IsWord m → IsWord b → IsSpelling s →
      find? (joined (withMember a m) s b) = find? (joined a s b) ∧
        find? (joined a s (withMember b m)) = find? (joined a s b) := by
  intro h
  have hfalse := (h "A".toList "m".toList "<|--".toList "B".toList (by decide) (by decide)
    (by decide) isSpelling_inherit).1
  exact absurd hfalse (by decide)

end ClassDiagram.Relation
