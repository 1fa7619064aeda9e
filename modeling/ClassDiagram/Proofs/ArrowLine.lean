import ClassDiagram.Proofs.ArrowForm

/-! Lines with an arrow of the documentation. A pattern reads its arrow behind a blank, and behind
the blanks of such a line only one text has a dash or a dot; so the row that reads the arrow decides,
whatever the names are and at whatever place a pattern starts. -/

namespace ClassDiagram.Relation

open Text

variable {gap gap' source target behind t : List Char}

/-! ### The lines -/

/-- Blanks, one at least. -/
structure IsGap (gap : List Char) : Prop where
  ne_nil : gap ≠ []
  blank : ∀ c ∈ gap, isBlank c = true

/-- What may follow a relation on its line: no more of the last word, no dash and no dot. -/
structure IsTrailer (behind : List Char) : Prop where
  head : behind.head?.any isWordChar = false
  dash : '-' ∉ behind
  dot : '.' ∉ behind

theorem IsGap.atGap (h : IsGap gap) (t : List Char) : AtGap (gap ++ t) := by
  cases gap with
  | nil => exact absurd rfl h.ne_nil
  | cons c gap => simpa [AtGap] using h.blank c (List.mem_cons_self ..)

theorem readDashed_gap (h : AtGap t) (dash : Bool) :
    readDashed (dashText dash ++ t) = Scan.word (trimStart t) := by
  cases dash with
  | true => rfl
  | false =>
    change readDashed t = _
    rw [readDashed]
    rintro cs rfl
    exact h.head (c := '-') rfl rfl

theorem read_straight (h : t.head?.any isTurn = false) : Target.turned.read t = readDashed t := by
  cases t with
  | nil => rfl
  | cons c t => exact if_neg (Bool.eq_false_iff.1 h)

theorem read_turned (h : AtGap t) {found : List Char × List Char}
    (hword : Scan.word (trimStart t) = some found) (turn : Option Turn) (dash : Bool) :
    Target.turned.read (turnText turn ++ (dashText dash ++ t)) = some found := by
  have hdashed := (readDashed_gap h dash).trans hword
  rcases turn with _ | turn
  · have hhead : (dashText dash ++ t).head?.any isTurn = false := by
      cases dash
      · exact h.turn
      · rfl
    exact (read_straight hhead).trans hdashed
  · have hturn : isTurn turn.char = true := by cases turn <;> rfl
    change Target.turned.read (turn.char :: (dashText dash ++ t)) = some found
    rw [Target.read, if_pos hturn, hdashed]

theorem tail_of (hgap : IsGap gap) (ht : IsWord target) (hb : IsTrailer behind) :
    Tail (gap ++ (target ++ behind)) target := by
  have hword : Scan.word (target ++ behind) = some (target, behind) := Scan.word_append ht hb.head
  have htrim : trimStart (gap ++ (target ++ behind)) = target ++ behind := by
    rw [trimStart_append hgap.blank, trimStart_of_head (ht.head_not_blank behind)]
  have hblanks : Scan.someBlanks (gap ++ (target ++ behind)) = some (gap, target ++ behind) :=
    Scan.someBlanks_append hgap.blank hgap.ne_nil (ht.head_not_blank behind)
  refine ⟨hgap.atGap _, ?_, ?_, fun turn dash => ?_⟩
  · rw [Target.read, hblanks, Option.bind_some, hword, Option.map_some]
  · rw [Target.read, htrim, hword, Option.map_some]
  · rw [read_turned (hgap.atGap _) (by rw [htrim, hword]), Option.map_some]

/-! ### Every documented arrow -/

/-- A member named behind the first name. -/
def memberText (member : Option (List Char)) : List Char := (member.map ("::".toList ++ ·)).getD []

theorem Subject.read_line {s : Subject} {member : Option (List Char)} (hsource : IsWord source)
    (hmember : ∀ m ∈ member, IsWord m ∧ s = .member) (hgap : IsGap gap) {text : List Char}
    (htext : text.head?.any isBlank = false) :
    s.read (source ++ (memberText member ++ (gap ++ text))) = some (source, text) := by
  have hblanks : Scan.someBlanks (gap ++ text) = some (gap, text) :=
    Scan.someBlanks_append hgap.blank hgap.ne_nil htext
  have hgap' : (gap ++ text).head?.any isWordChar = false := (hgap.atGap text).word
  have hskip : skipMember (gap ++ text) = gap ++ text := by
    have hcolons : after? "::".toList (gap ++ text) = none := after?_gap (hgap.atGap text) rfl [':']
    rw [skipMember, hcolons]
    rfl
  cases member with
  | none =>
    have hword : Scan.word (source ++ (gap ++ text)) = some (source, gap ++ text) :=
      Scan.word_append hsource hgap'
    cases s <;> simp [Subject.read, memberText, hword, hskip, hblanks]
  | some m =>
    obtain ⟨hm, rfl⟩ := hmember m rfl
    have hword : Scan.word (source ++ (':' :: ':' :: (m ++ (gap ++ text)))) =
        some (source, ':' :: ':' :: (m ++ (gap ++ text))) := Scan.word_append hsource rfl
    have hmember : skipMember (':' :: ':' :: (m ++ (gap ++ text))) = gap ++ text := by
      have hcolons : after? "::".toList (':' :: ':' :: (m ++ (gap ++ text))) =
        some (m ++ (gap ++ text)) := rfl
      rw [skipMember, hcolons, Option.bind_some, Scan.word_append hm hgap']
    simp [Subject.read, memberText, hword, hmember, hblanks]

theorem plain_member {member : Option (List Char)} (h : ∀ m ∈ member, IsWord m) :
    Plain (memberText member) := by
  cases member with
  | none => exact plain_nil
  | some m => exact (plain_append _ _).2 ⟨by decide, plain_word (h m rfl)⟩

/-- Only inheritance, implementation and nesting are no relations of members. -/
theorem entity_iff : ∀ p ∈ patterns,
    p.subject = .entity ↔ p.kind ∈ [.inheritance, .implementation, .nested] := by decide

namespace Arrow

theorem head_not_blank (a : Arrow) (t : List Char) : (a.text ++ t).head?.any isBlank = false := by
  have hne : a.text ≠ [] := by cases a <;> simp [text, stroke]
  obtain ⟨c, rest, hc⟩ := List.exists_cons_of_ne_nil hne
  have hplain := a.plain_text c (by simp [hc])
  simp [hc, hplain]

theorem row_mem (a : Arrow) : a.row ∈ patterns := by
  rcases a with _ | _ | n | _ | _ | _ | d | d | d | d
  case implement => cases n <;> exact List.getElem_mem _
  case diamond | diamondBehind | diamondStyled | diamondBehindStyled =>
    cases d <;> exact List.getElem_mem _
  all_goals exact List.getElem_mem _

theorem row_entity_iff (a : Arrow) :
    a.row.subject = .entity ↔ a.kind ∈ [.inheritance, .implementation, .nested] := by
  rw [entity_iff a.row a.row_mem, a.row_kind]

theorem row_subject (a : Arrow) (h : a.kind ∉ [.inheritance, .implementation, .nested]) :
    a.row.subject = .member := by
  cases hsubject : a.row.subject with
  | entity => exact absurd (a.row_entity_iff.1 hsubject) h
  | member => rfl

end Arrow

/-- A line with a documented arrow has the line of no other arrow in it. -/
theorem oneArrow_text (a : Arrow) {front : List Char} (hfront : Plain front) (hgap : IsGap gap)
    (hgap' : IsGap gap') (htarget : IsWord target) (hbehind : IsTrailer behind) :
    OneArrow (front ++ (gap ++ (a.text ++ (gap' ++ (target ++ behind)))))
      (a.text ++ (gap' ++ (target ++ behind))) := by
  have hsigns {c : Char} (hblank : isBlank c = false) (hword : isWordChar c = false)
      (hc : c ∉ behind) : c ∉ gap' ++ (target ++ behind) := by
    simp [not_mem_of_blank hgap'.blank hblank, htarget.not_mem hword, hc]
  exact oneArrow_append hfront hgap.blank a.plain_text
    ⟨hsigns rfl rfl hbehind.dash, hsigns rfl rfl hbehind.dot⟩

/-- The row of an arrow reads its line, and no row before it does. -/
theorem find?_text (a : Arrow) {front : List Char} (hfront : Plain front) (hgap : IsGap gap)
    (hgap' : IsGap gap') (htarget : IsWord target) (hbehind : IsTrailer behind)
    (hsubject : a.row.subject.read (front ++ (gap ++ (a.text ++ (gap' ++ (target ++ behind))))) =
      some (source, a.text ++ (gap' ++ (target ++ behind)))) :
    find? (front ++ (gap ++ (a.text ++ (gap' ++ (target ++ behind))))) =
      some ⟨String.ofList source, String.ofList target, a.kind⟩ := by
  rw [← a.row_kind]
  exact find?_of_firstRow (oneArrow_text a hfront hgap hgap' htarget hbehind)
    (firstRow_text (tail_of hgap' htarget hbehind) a) hsubject

/-- A line with any documented arrow is read as the relation of that arrow's kind. -/
theorem find?_documented (a : Arrow) (member : Option (List Char)) (hsource : IsWord source)
    (hmember : ∀ m ∈ member, IsWord m ∧ a.kind ∉ [.inheritance, .implementation, .nested])
    (hgap : IsGap gap) (hgap' : IsGap gap') (htarget : IsWord target) (hbehind : IsTrailer behind) :
    find? (source ++ memberText member ++ gap ++ a.text ++ gap' ++ target ++ behind) =
      some ⟨String.ofList source, String.ofList target, a.kind⟩ := by
  have hfront : Plain (source ++ memberText member) :=
    (plain_append _ _).2 ⟨plain_word hsource, plain_member fun m hm => (hmember m hm).1⟩
  have hsubject := Subject.read_line hsource
    (fun m hm => ⟨(hmember m hm).1, a.row_subject (hmember m hm).2⟩) hgap
    (a.head_not_blank (gap' ++ (target ++ behind)))
  have hline := find?_text a hfront hgap hgap' htarget hbehind
    (by rwa [← List.append_assoc] at hsubject)
  simpa only [List.append_assoc] using hline

theorem find?_documented_turned :
    find? "o::m -[o--]uo\td : uses".toList = some ⟨"o", "d", .aggregation⟩ := by
  have hline := find?_documented
    (.diamondBehindStyled .hollow 0 ⟨"o--".toList, by decide, by decide⟩ (some .up)) (some "m".toList)
    (show IsWord "o".toList by decide)
    (fun m hm => by cases hm; exact ⟨by decide, by decide⟩)
    (show IsGap " ".toList from ⟨by decide, List.all_eq_true.1 rfl⟩)
    (show IsGap "\t".toList from ⟨by decide, List.all_eq_true.1 rfl⟩)
    (show IsWord "d".toList by decide)
    (show IsTrailer " : uses".toList from ⟨by decide, by decide, by decide⟩)
  simp only [String.ofList_toList] at hline
  exact hline

/-! ### The arrow that is written for a kind -/

theorem isGap_space : IsGap [' '] := ⟨by decide, List.all_eq_true.1 rfl⟩

theorem isTrailer_nil : IsTrailer [] := ⟨rfl, List.not_mem_nil, List.not_mem_nil⟩

/-- With a blank behind it the source is read, whether members may be named or not. -/
theorem Subject.read_spaced (s : Subject) (hsource : IsWord source) {text : List Char}
    (htext : text.head?.any isBlank = false) :
    s.read (source ++ ' ' :: text) = some (source, text) := by
  have hmember : ∀ m ∈ (none : Option (List Char)), IsWord m ∧ s = .member :=
    fun m hm => by contradiction
  exact Subject.read_line hsource hmember isGap_space htext

/-- The documented arrow that is written for a kind. -/
def written : RelationKind → Arrow
  | .inheritance => .inherit 1 none
  | .implementation => .implement 1
  | .composition => .diamond .filled
  | .aggregation => .diamond .hollow
  | .association => .forth
  | .dependency => .depend 1
  | .nested => .nest

theorem text_written (k : RelationKind) : (written k).text = k.arrow.toList := by
  cases k <;> rfl

theorem kind_written (k : RelationKind) : (written k).kind = k := by
  cases k <;> rfl

theorem find?_arrow (k : RelationKind) {a b : List Char} (ha : IsWord a) (hb : IsWord b) :
    find? (a ++ ' ' :: (k.arrow.toList ++ ' ' :: b)) =
      some ⟨String.ofList a, String.ofList b, k⟩ := by
  have hsubject :=
    (written k).row.subject.read_spaced ha ((written k).head_not_blank ([' '] ++ (b ++ [])))
  have hline :=
    find?_text (written k) (plain_word ha) isGap_space isGap_space hb isTrailer_nil hsubject
  rwa [text_written, kind_written, List.append_nil] at hline

end ClassDiagram.Relation
