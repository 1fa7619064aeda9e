import ClassDiagram.Proofs.Render
import ClassDiagram.Relation.Table

/-! What the readers take from a line. Whatever the line holds, a member, a head or a relation that is
read from it is in normal form, and its texts are pieces of the line. -/

namespace ClassDiagram

open Text Markup

/-! ### Records in normal form -/

structure Attribute.Normal (a : Attribute) : Prop where
  name : IsWord a.name.toList
  type : IsDefault a.type
  equals : '=' ∉ a.type.toList
  default : ∀ v ∈ a.defaultValue, IsDefault v
  parentheses : ¬ ('(' ∈ a.text ∧ ')' ∈ a.text)

structure Method.Normal (f : Method) : Prop where
  name : IsWord f.name.toList
  ne_nil : f.returnType.toList ≠ []
  trimmed : Trimmed f.returnType.toList
  newline : '\n' ∉ f.returnType.toList

/-- A value of an enumeration, read from a line without a colon. -/
structure IsNormalValue (v : String) : Prop where
  ne_nil : v.toList ≠ []
  trimmed : Trimmed v.toList
  newline : '\n' ∉ v.toList
  slashes : contains "//".toList v.toList = false
  signs : ∀ c ∈ v.toList, c ∉ ['[', ']', ':']

namespace Markup

variable {cs line name raw rest : List Char}

/-! ### What the member readers return -/

theorem afterColon?_suffix (h : afterColon? cs = some rest) : rest <:+ cs := by
  obtain ⟨behind, hafter, rfl⟩ := Option.map_eq_some_iff.1 h
  have hcolon := eq_of_after? hafter
  have hbehind : behind <:+ trimStart cs := ⟨[':'], hcolon.symm⟩
  exact (trimStart_suffix behind).trans (hbehind.trans (trimStart_suffix cs))

theorem eq_of_readTyped (h : readTyped cs = some (name, raw)) : IsWord name ∧ raw <:+ cs := by
  simp only [readTyped, Option.bind_eq_bind, Option.bind_eq_some_iff] at h
  obtain ⟨⟨name', rest⟩, hword, raw', hcolon, h⟩ := h
  split at h
  · contradiction
  · obtain ⟨rfl, rfl⟩ := Prod.mk.inj (Option.some.inj h)
    obtain ⟨hname, rfl⟩ := Scan.eq_of_word hword
    exact ⟨hname, (afterColon?_suffix hcolon).trans (List.suffix_append _ _)⟩

theorem isWord_of_readBare (h : readBare line = some name) : IsWord name := by
  simp only [readBare, Option.bind_eq_bind, Option.bind_eq_some_iff] at h
  obtain ⟨⟨name', rest⟩, hword, h⟩ := h
  split at h
  · obtain rfl := Option.some.inj h
    exact (Scan.eq_of_word hword).1
  · contradiction

/-- A type and the default value behind an equals sign, if there is one. -/
def cutDefault (text : List Char) : String × Option String :=
  match cut? ['='] text with
  | some (type, value) => (String.ofList (trim type), some (String.ofList (trim value)))
  | none => (String.ofList text, none)

/-- The text in which a type is looked for is trimmed, and it lies in front of the comment. -/
theorem readType_eq (raw : List Char) : ∃ text, Trimmed text ∧ text <:+: before "//".toList raw ∧
    readType raw = cutDefault text := by
  have htrim := trimmed_trim (before "//".toList raw)
  have hinside := trim_isInfix (before "//".toList raw)
  unfold readType
  cases htext : trim (before "//".toList raw) with
  | nil => exact ⟨[], by decide, List.nil_infix, rfl⟩
  | cons c text =>
    rw [htext] at htrim hinside
    by_cases hc : c ∈ marks
    · have htail : trimStart text <:+: c :: text :=
        ((trimStart_suffix text).trans (List.suffix_cons c text)).isInfix
      exact ⟨trimStart text, htrim.tail, htail.trans hinside, congrArg cutDefault (if_pos hc)⟩
    · exact ⟨c :: text, htrim, hinside, congrArg cutDefault (if_neg hc)⟩

theorem isDefault_of_isInfix {piece : List Char} (htrim : Trimmed piece)
    (hpiece : piece <:+: before "//".toList raw) (hraw : '\n' ∉ raw) :
    IsDefault (String.ofList piece) := by
  have hinside : piece <:+: raw := hpiece.trans (before_isPrefix _ raw).isInfix
  have htext : (String.ofList piece).toList = piece := String.toList_ofList
  refine ⟨?_, ?_, ?_⟩ <;> rw [htext]
  · exact htrim
  · exact fun h => hraw (hinside.subset h)
  · exact contains_false_of_isInfix hpiece (contains_before (by decide) raw)

/-- A type and a default value in normal form, both of them taken from a text. -/
structure NormalType (raw : List Char) (read : String × Option String) : Prop where
  type : IsDefault read.1
  equals : '=' ∉ read.1.toList
  default : ∀ v ∈ read.2, IsDefault v
  subset : read.1.toList ++ (read.2.getD "").toList ⊆ raw

theorem normal_readType (hraw : '\n' ∉ raw) : NormalType raw (readType raw) := by
  obtain ⟨text, htrim, htext, hread⟩ := readType_eq raw
  have hsub {piece : List Char} (h : piece <:+: text) : piece ⊆ raw :=
    (h.trans (htext.trans (before_isPrefix _ raw).isInfix)).subset
  rw [hread, cutDefault]
  cases hcut : cut? ['='] text with
  | none =>
    have hbefore : before ['='] text = text := before_of_not_contains (by simp [contains, hcut])
    refine ⟨isDefault_of_isInfix htrim htext hraw, ?_, by simp, by simpa using hsub List.infix_rfl⟩
    rw [String.toList_ofList, ← hbefore]
    exact not_mem_of_contains (contains_before (by decide) text)
  | some cut =>
    obtain ⟨type, value⟩ := cut
    have htype : before ['='] text = type := by simp [before, hcut]
    have hparts := eq_of_cut? hcut
    have hfront : trim type <:+: text :=
      (trim_isInfix type).trans (hparts ▸ (List.prefix_append _ _).isInfix)
    have hback : trim value <:+: text := by
      refine (trim_isInfix value).trans ?_
      rw [hparts, ← List.append_assoc]
      exact (List.suffix_append _ _).isInfix
    refine ⟨isDefault_of_isInfix (trimmed_trim type) (hfront.trans htext) hraw, ?_, ?_, ?_⟩
    · rw [String.toList_ofList]
      refine fun h => ?_
      have hmem : '=' ∈ before ['='] text := htype ▸ (trim_isInfix type).subset h
      exact not_mem_of_contains (contains_before (by decide) text) hmem
    · intro v hv
      obtain rfl := Option.some.inj hv
      exact isDefault_of_isInfix (trimmed_trim value) (hback.trans htext) hraw
    · simpa using ⟨hsub hfront, hsub hback⟩

theorem normal_readAttribute {a : Attribute} (h : readAttribute line = some a)
    (hline : '\n' ∉ line) (hparens : ¬ hasParentheses line) : a.Normal := by
  have hparens : ¬ ('(' ∈ line ∧ ')' ∈ line) := by simpa [hasParentheses] using hparens
  rw [readAttribute] at h
  split at h
  · obtain ⟨⟨name, raw⟩, hleft, rfl⟩ := Option.map_eq_some_iff.1 h
    obtain ⟨s, hs, hread⟩ := Scan.exists_of_leftmost hleft
    obtain ⟨hname, hraw⟩ := eq_of_readTyped hread
    have hsub : raw ⊆ line := (hraw.trans hs).subset
    obtain ⟨htype, hequals, hdefault, htext⟩ := normal_readType fun h => hline (hsub h)
    refine ⟨by simpa using hname, htype, hequals, hdefault, ?_⟩
    rintro ⟨hopen, hclose⟩
    exact hparens ⟨hsub (htext hopen), hsub (htext hclose)⟩
  · obtain ⟨name, hbare, rfl⟩ := Option.map_eq_some_iff.1 h
    have hname := isWord_of_readBare hbare
    have htype : IsDefault defaultAttributeType ∧ '=' ∉ defaultAttributeType.toList := by decide
    have hopen : '(' ∉ defaultAttributeType.toList := by decide
    exact ⟨by simpa using hname, htype.1, htype.2, by simp, by simp [Attribute.text, hopen]⟩

theorem returnType_normal (hcs : '\n' ∉ cs) : (returnType cs).toList ≠ [] ∧
    Trimmed (returnType cs).toList ∧ '\n' ∉ (returnType cs).toList := by
  have hvoid : voidType.toList ≠ [] ∧ Trimmed voidType.toList ∧ '\n' ∉ voidType.toList := by decide
  unfold returnType
  split
  · exact hvoid
  · next rest hcolon =>
    split
    · exact hvoid
    · next hne =>
      have hsub : trim rest ⊆ cs :=
        ((trim_isInfix rest).trans (afterColon?_suffix hcolon).isInfix).subset
      rw [String.toList_ofList]
      exact ⟨hne, trimmed_trim rest, fun h => hcs (hsub h)⟩

theorem normal_readMethod {f : Method} (h : readMethod cs = some f) (hcs : '\n' ∉ cs) :
    f.Normal := by
  simp only [readMethod, Option.bind_eq_bind, Option.bind_eq_some_iff] at h
  obtain ⟨⟨name, rest⟩, hword, inside, hopen, behind, hclose, h⟩ := h
  obtain rfl := Option.some.inj h
  obtain ⟨hname, rfl⟩ := Scan.eq_of_word hword
  have hinside : inside <:+ trimStart rest := ⟨['('], (eq_of_after? hopen).symm⟩
  have hbehind : behind <:+ inside :=
    List.IsSuffix.trans ⟨[')'], (eq_of_after? hclose).symm⟩ (List.dropWhile_suffix _)
  have hsub : behind ⊆ name ++ rest :=
    (hbehind.trans (hinside.trans ((trimStart_suffix rest).trans (List.suffix_append _ _)))).subset
  obtain ⟨hne, htrim, hnewline⟩ := returnType_normal fun h => hcs (hsub h)
  exact ⟨by simpa using hname, hne, htrim, hnewline⟩

theorem normal_readValue {v : String} (h : readValue line = some v) (hline : '\n' ∉ line) :
    IsNormalValue v := by
  unfold readValue at h
  split at h
  · contradiction
  next hcolon =>
  dsimp only at h
  split at h
  · contradiction
  next hne =>
  obtain rfl := Option.some.inj h
  set plain := line.filter fun c => c ≠ '[' && c ≠ ']' with hplain
  have hinside := trim_isInfix (before "//".toList plain)
  have hsub : trim (before "//".toList plain) ⊆ plain :=
    (hinside.trans (before_isPrefix _ plain).isInfix).subset
  have hmem {c : Char} (hc : c ∈ trim (before "//".toList plain)) :
      c ∈ line ∧ c ≠ '[' ∧ c ≠ ']' := by
    have hfilter := hsub hc
    rw [hplain, List.mem_filter] at hfilter
    simpa using hfilter
  have htext : (String.ofList (trim (before "//".toList plain))).toList =
      trim (before "//".toList plain) := String.toList_ofList
  constructor <;> rw [htext]
  · exact hne
  · exact trimmed_trim _
  · exact fun h => hline (hmem h).1
  · exact contains_false_of_isInfix hinside (contains_before (by decide) plain)
  · intro c hc
    obtain ⟨hline', hopen, hclose⟩ := hmem hc
    have hne : c ≠ ':' := fun h => hcolon (h ▸ hline')
    simp [hopen, hclose, hne]

/-! ### What the heads name -/

theorem skipKeyword?_suffix {k : String} (h : skipKeyword? k line = some rest) : rest <:+ line := by
  simp only [skipKeyword?, Option.map_eq_some_iff, Option.bind_eq_some_iff] at h
  obtain ⟨⟨gap, rest'⟩, ⟨behind, hafter, hgap⟩, rfl⟩ := h
  obtain ⟨-, -, rfl, -⟩ := Scan.eq_of_run hgap
  rw [eq_of_after? hafter]
  exact (List.suffix_append _ _).trans (List.suffix_append _ _)

theorem eq_of_readNamed {k name : String} (h : readNamed k line = some (name, rest)) :
    IsWord name.toList ∧ rest <:+ line := by
  simp only [readNamed, Option.bind_eq_bind, Option.bind_eq_some_iff] at h
  obtain ⟨behind, hkeyword, ⟨word, rest'⟩, hword, h⟩ := h
  obtain ⟨rfl, rfl⟩ := Prod.mk.inj (Option.some.inj h)
  obtain ⟨hname, rfl⟩ := Scan.eq_of_word hword
  exact ⟨by simpa using hname, (List.suffix_append _ _).trans (skipKeyword?_suffix hkeyword)⟩

theorem isWord_of_readPackage {name : String} (h : readPackage line = some name) :
    IsWord name.toList := by
  obtain ⟨⟨name', rest⟩, hread, rfl⟩ := Option.map_eq_some_iff.1 h
  exact (eq_of_readNamed hread).1

/-- The names of a head and what is left of its line are taken from the line. -/
structure HeadFrom (line : List Char) (head : ClassHead) (rest : List Char) : Prop where
  name : head.name.toList ⊆ line
  displayName : head.displayName.toList ⊆ line
  rest : rest <:+ line

variable {head : ClassHead}

theorem HeadFrom.mono (h : HeadFrom cs head rest) (hcs : cs <:+ line) : HeadFrom line head rest :=
  ⟨fun _ hc => hcs.subset (h.name hc), fun _ hc => hcs.subset (h.displayName hc), h.rest.trans hcs⟩

theorem headFrom_readAliased (h : readAliased cs = some (head, rest)) : HeadFrom cs head rest := by
  simp only [readAliased, Option.bind_eq_bind, Option.bind_eq_some_iff] at h
  obtain ⟨⟨shown, r₁⟩, hquoted, ⟨gap, r₂⟩, hgap, r₃, has, ⟨gap', r₄⟩, hgap', ⟨name, r₅⟩, hword, h⟩ := h
  obtain ⟨rfl, rfl⟩ := Prod.mk.inj (Option.some.inj h)
  obtain ⟨-, -, rfl, -⟩ := Scan.eq_of_run hgap
  obtain rfl := eq_of_after? has
  obtain ⟨-, -, rfl, -⟩ := Scan.eq_of_run hgap'
  obtain ⟨-, rfl⟩ := Scan.eq_of_word hword
  obtain rfl := Scan.eq_of_quoted hquoted
  refine ⟨fun c hc => ?_, fun c hc => ?_, ?_⟩
  · rw [String.toList_ofList] at hc
    simp [hc]
  · rw [String.toList_ofList] at hc
    simp [hc]
  · exact ⟨'"' :: (shown ++ '"' :: (gap ++ ("as".toList ++ (gap' ++ name)))), by simp⟩

theorem headFrom_readQuoted (h : readQuoted cs = some (head, rest)) : HeadFrom cs head rest := by
  simp only [readQuoted, Option.bind_eq_bind, Option.bind_eq_some_iff] at h
  obtain ⟨⟨shown, rest'⟩, hquoted, h⟩ := h
  obtain ⟨rfl, rfl⟩ := Prod.mk.inj (Option.some.inj h)
  have hshown : shown ⊆ cs := by simp [Scan.eq_of_quoted hquoted]
  constructor
  · rw [String.toList_ofList]
    exact fun c hc => hshown ((erasePair_sublist _ _ _).subset hc)
  · rw [String.toList_ofList]
    exact hshown
  · exact ⟨'"' :: shown ++ ['"'], by simp [Scan.eq_of_quoted hquoted]⟩

theorem headFrom_readPlain (h : readPlain cs = some (head, rest)) : HeadFrom cs head rest := by
  simp only [readPlain, Option.bind_eq_bind, Option.bind_eq_some_iff] at h
  obtain ⟨⟨name, rest'⟩, hword, h⟩ := h
  obtain ⟨rfl, rfl⟩ := Prod.mk.inj (Option.some.inj h)
  obtain ⟨-, rfl⟩ := Scan.eq_of_word hword
  exact ⟨by simp, by simp, List.suffix_append _ _⟩

theorem headFrom_readClassHead (h : readClassHead line = some (head, rest)) :
    HeadFrom line head rest := by
  simp only [readClassHead, Option.bind_eq_bind, Option.bind_eq_some_iff] at h
  obtain ⟨behind, hkeyword, h⟩ := h
  have hbehind : behind <:+ line := by
    refine (skipKeyword?_suffix hkeyword).trans ?_
    cases habstract : skipKeyword? "abstract" line with
    | none => exact List.suffix_rfl
    | some rest => exact skipKeyword?_suffix habstract
  refine HeadFrom.mono ?_ hbehind
  split at h
  · next haliased =>
    obtain rfl := Option.some.inj h
    exact headFrom_readAliased haliased
  · split at h
    · next hquoted =>
      obtain rfl := Option.some.inj h
      exact headFrom_readQuoted hquoted
    · exact headFrom_readPlain h

end Markup

/-! ### What relations join -/

namespace Relation

structure Normal (r : Relation) : Prop where
  source : IsWord r.source.toList
  target : IsWord r.target.toList

variable {cs w rest : List Char} {r : Relation}

theorem Subject.isWord_of_read {s : Subject} (h : s.read cs = some (w, rest)) : IsWord w := by
  simp only [Subject.read, Option.bind_eq_bind, Option.bind_eq_some_iff] at h
  obtain ⟨⟨name, behind⟩, hname, ⟨gap, rest'⟩, -, h⟩ := h
  obtain ⟨rfl, -⟩ := Prod.mk.inj (Option.some.inj h)
  exact (Scan.eq_of_word hname).1

theorem isWord_of_readDashed (h : readDashed cs = some (w, rest)) : IsWord w := by
  unfold readDashed at h
  split at h <;> exact (Scan.eq_of_word h).1

theorem Target.isWord_of_read {t : Target} (h : t.read cs = some (w, rest)) : IsWord w := by
  unfold Target.read at h
  split at h
  · exact (Scan.eq_of_word h).1
  · obtain ⟨gap, -, hword⟩ := Option.bind_eq_some_iff.1 h
    exact (Scan.eq_of_word hword).1
  · contradiction
  · split at h
    · split at h
      · next hfound =>
        obtain rfl := Option.some.inj h
        exact isWord_of_readDashed hfound
      · exact isWord_of_readDashed h
    · exact isWord_of_readDashed h

theorem Pattern.normal_read? {p : Pattern} (h : p.read? cs = some r) : r.Normal := by
  simp only [Pattern.read?, Option.bind_eq_bind, Option.bind_eq_some_iff] at h
  obtain ⟨⟨source, behind⟩, hsource, front, -, ⟨target, tail⟩, htarget, h⟩ := h
  obtain rfl := Option.some.inj h
  exact ⟨by simpa using Subject.isWord_of_read hsource, by simpa using Target.isWord_of_read htarget⟩

theorem normal_find? (h : find? cs = some r) : r.Normal := by
  obtain ⟨p, -, hleft⟩ := List.exists_of_findSome?_eq_some h
  obtain ⟨s, -, hread⟩ := Scan.exists_of_leftmost hleft
  exact Pattern.normal_read? hread

end Relation

end ClassDiagram
