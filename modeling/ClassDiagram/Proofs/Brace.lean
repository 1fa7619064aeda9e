import ClassDiagram.Proofs.Package
import ClassDiagram.Proofs.Step

/-! Where the braces of a body stand. The opening brace may follow the head, stand alone below it, or
have the first member behind it; the closing one may stand alone or behind the last member. However
it is written, the entity has the same members, since every piece of a body is read by the body
reader and a piece ends the body just when it has a closing brace too many. -/

namespace ClassDiagram.Markup

open Text

/-! ### Members -/

/-- The attributes that the lines of a body give to a class or an interface. -/
def attributesIn (lines : List (List Char)) : List Attribute :=
  (lines.filter fun line => !isSeparator line && !hasParentheses line).filterMap readAttribute

def methodsIn (lines : List (List Char)) : List Method :=
  (lines.filter fun line => !isSeparator line && hasParentheses line).filterMap
    (Scan.leftmost readMethod)

def valuesIn (lines : List (List Char)) : List String :=
  (lines.filter fun line => !isSeparator line).filterMap readValue

/-- A line of a body that may also stand behind the brace that opens the body, and in front of the
one that closes it. -/
structure IsPiece (line : List Char) : Prop where
  trimmed : Trimmed line
  braces : line.count '\x7b' = line.count '\x7d'
  text : IsBodyText line
  closed_text : IsBodyText (line ++ " \x7d".toList)

instance (line : List Char) : Decidable (IsBodyText line) :=
  decidable_of_iff (IsStatement line ∧ isClassLine line = false ∧ isInterfaceLine line = false ∧
      isEnumLine line = false ∧ line ≠ ['\x7d'])
    ⟨fun ⟨h₁, h₂, h₃, h₄, h₅⟩ => ⟨h₁, h₂, h₃, h₄, h₅⟩,
      fun h => ⟨h.toIsStatement, h.classes, h.interfaces, h.enums, h.ne_brace⟩⟩

instance (line : List Char) : Decidable (IsPiece line) :=
  decidable_of_iff (Trimmed line ∧ line.count '\x7b' = line.count '\x7d' ∧ IsBodyText line ∧
      IsBodyText (line ++ " \x7d".toList))
    ⟨fun ⟨h₁, h₂, h₃, h₄⟩ => ⟨h₁, h₂, h₃, h₄⟩,
      fun h => ⟨h.trimmed, h.braces, h.text, h.closed_text⟩⟩

/-! ### Heads -/

inductive Header where
  | plain (name : List Char) (word : IsWord name)
  | abstract (name : List Char) (word : IsWord name)
  | aliased (shown name : List Char) (visible : shown ≠ []) (unquoted : '"' ∉ shown)
    (word : IsWord name)
  | interface (name : List Char) (word : IsWord name)
  | enum (name : List Char) (word : IsWord name)

namespace Header

def name : Header → List Char
  | plain name _ | abstract name _ | aliased _ name _ _ _ | interface name _ | enum name _ => name

def front : Header → List Char
  | plain _ _ => "class ".toList
  | abstract _ _ => "abstract class ".toList
  | aliased shown _ _ _ _ => "class ".toList ++ ('"' :: shown ++ '"' :: " as ".toList)
  | interface _ _ => "interface ".toList
  | enum _ _ => "enum ".toList

/-- The line of a head with a text behind the name. -/
def line (h : Header) (behind : List Char) : List Char := h.front ++ (h.name ++ behind)

def kind : Header → EntityKind
  | plain _ _ | abstract _ _ | aliased _ _ _ _ _ => .classes
  | interface _ _ => .interfaces
  | enum _ _ => .enums

/-- The model with the entity of a head, in a package and with the members on some lines. -/
def declared (h : Header) (m : Model) (package : Option String) (lines : List (List Char)) : Model :=
  let name := String.ofList h.name
  match h with
  | plain _ _ | abstract _ _ => m.addClass ⟨name, name, package, attributesIn lines, methodsIn lines⟩
  | aliased shown _ _ _ _ =>
    m.addClass ⟨name, String.ofList shown, package, attributesIn lines, methodsIn lines⟩
  | interface _ _ => m.addInterface ⟨name, package, attributesIn lines⟩
  | enum _ _ => m.addEnum ⟨name, package, valuesIn lines⟩

theorem word (h : Header) : IsWord h.name := by
  cases h <;> assumption

theorem head_line (h : Header) (behind : List Char) :
    ∃ c ∈ ['c', 'a', 'i', 'e'], ∃ t, h.line behind = c :: t := by
  cases h
  case abstract => exact ⟨'a', by decide, _, rfl⟩
  case interface => exact ⟨'i', by decide, _, rfl⟩
  case enum => exact ⟨'e', by decide, _, rfl⟩
  all_goals exact ⟨'c', by decide, _, rfl⟩

theorem trim_line (h : Header) (behind : List Char) :
    trim (h.line behind) = h.line (trimEnd behind) := by
  have hhead : (h.line behind).head?.any isBlank = false := by cases h <;> rfl
  rw [trim, trimStart_of_head hhead, line, trimEnd_append_word h.word]
  rfl

end Header

/-! ### The writings of a body -/

/-- What may stand behind the name of a head. -/
structure IsBehind (behind : List Char) : Prop where
  head : behind.head?.any isWordChar = false
  brace : '\x7b' ∉ behind

inductive Opening where
  | behind
  | below
  /-- Behind the head, with the first piece of the body on the same line. -/
  | inline (gap : List Char) (blank : ∀ c ∈ gap, isBlank c = true)

/-- Whether the closing brace stands alone or behind the last member. -/
inductive Closing where
  | alone
  | behind

/-- The lines of a body from its first member to its closing brace. Without members the brace stands
alone. -/
def Closing.pieces : Closing → List (List Char) → List (List Char)
  | _, [] => [['\x7d']]
  | .behind, [last] => [last ++ " \x7d".toList]
  | c, line :: lines => line :: c.pieces lines

/-- The lines of an entity: its head, the text behind the name, its members and the two braces. -/
def writing (h : Header) (behind : List Char) (o : Opening) (c : Closing)
    (members : List (List Char)) : List (List Char) :=
  match o with
  | .behind => h.line (behind ++ " \x7b".toList) :: c.pieces members
  | .below => h.line behind :: ['\x7b'] :: c.pieces members
  | .inline gap _ =>
    (c.pieces members).modifyHead (h.line (behind ++ " \x7b".toList ++ gap) ++ ·)

/-! ### What is added to an entity -/

theorem attributesIn_snoc (lines : List (List Char)) (line : List Char) :
    attributesIn (lines ++ [line]) = attributesIn lines ++ attributesIn [line] := by
  simp [attributesIn]

theorem methodsIn_snoc (lines : List (List Char)) (line : List Char) :
    methodsIn (lines ++ [line]) = methodsIn lines ++ methodsIn [line] := by
  simp [methodsIn]

theorem valuesIn_snoc (lines : List (List Char)) (line : List Char) :
    valuesIn (lines ++ [line]) = valuesIn lines ++ valuesIn [line] := by
  simp [valuesIn]

namespace Session

variable {s : Session} {e : EntityRef} {line : List Char}

theorem addMember_addClass (hline : isSeparator line = false) (m : Model) (c : Class) :
    addMember (m.addClass c) ⟨.classes, m.classes.length⟩ line = m.addClass
      { c with
        attributes := c.attributes ++ attributesIn [line]
        methods := c.methods ++ methodsIn [line] } := by
  cases hp : hasParentheses line with
  | true =>
    cases hread : Scan.leftmost readMethod line <;>
      simp [addMember, attributesIn, methodsIn, hline, hp, hread, Model.addClass, Model.addMethod,
        modify_concat]
  | false =>
    cases hread : readAttribute line <;>
      simp [addMember, attributesIn, methodsIn, hline, hp, hread, Model.addClass,
        Model.addAttribute, modify_concat]

theorem addMember_addInterface (hline : isSeparator line = false) (m : Model) (i : Interface) :
    addMember (m.addInterface i) ⟨.interfaces, m.interfaces.length⟩ line =
      m.addInterface { i with attributes := i.attributes ++ attributesIn [line] } := by
  cases hp : hasParentheses line with
  | true => simp [addMember, attributesIn, hline, hp]
  | false =>
    cases hread : readAttribute line <;>
      simp [addMember, attributesIn, hline, hp, hread, Model.addInterface,
        Model.addInterfaceAttribute, modify_concat]

theorem addMember_addEnum (hline : isSeparator line = false) (m : Model) (n : Enumeration) :
    addMember (m.addEnum n) ⟨.enums, m.enums.length⟩ line =
      m.addEnum { n with values := n.values ++ valuesIn [line] } := by
  cases hread : readValue line <;>
    simp [addMember, valuesIn, hline, hread, Model.addEnum, Model.addValue, modify_concat]

/-- A session that awaits a brace reads any other statement as one at the top level. -/
theorem readLine_statement (h : IsStatement line) (hbrace : line ≠ ['\x7b']) :
    ∃ t : Session, s.readLine line = t.readStatement line ∧ t.model = s.model ∧
      t.package = s.package := by
  cases hmode : s.mode with
  | declared e =>
    refine ⟨{ s with mode := .outside }, ?_, rfl, rfl⟩
    simp [readLine, hmode, h.ne_nil, h.directive, h.comment, h.note, hbrace]
  | _ =>
    refine ⟨s, ?_, rfl, rfl⟩
    simp [readLine, hmode, h.ne_nil, h.directive, h.comment, h.note]

/-- Whatever the mode was in front of a head, it is that of the head behind it. -/
theorem enter_mode (m : Model) (mode mode' : Mode) (package : Option String) (e : EntityRef)
    (rest : List Char) :
    (⟨m, mode, package⟩ : Session).enter e rest = (⟨m, mode', package⟩ : Session).enter e rest := by
  unfold enter
  cases cut? ['\x7b'] rest <;> rfl

end Session

/-! ### Pieces of a body -/

variable {line : List Char}

/-- A line that a body reads the same way whether it stands alone or behind the opening brace. -/
structure Settles (piece : List Char) : Prop where
  ne_nil : piece ≠ []
  trimmed : Trimmed piece
  text : IsBodyText piece ∨ piece = ['\x7d']

theorem IsPiece.settles (h : IsPiece line) : Settles line := ⟨h.text.ne_nil, h.trimmed, .inl h.text⟩

theorem IsPiece.settles_closed (hline : IsPiece line) : Settles (line ++ " \x7d".toList) := by
  have htrim : Trimmed (line ++ " \x7d".toList) := by
    have hsplit : line ++ " \x7d".toList = (line ++ [' ']) ++ '\x7d' :: [] := by simp
    have hhead : (line ++ " \x7d".toList).head?.any isBlank = false := by
      rw [List.head?_append_of_ne_nil _ hline.text.ne_nil, hline.trimmed.head]
    rw [Trimmed, trim, trimStart_of_head hhead, hsplit, trimEnd_append_cons rfl]
    rfl
  exact ⟨by simp, htrim, .inl hline.closed_text⟩

theorem Closing.pieces_ne_nil (c : Closing) (members : List (List Char)) :
    c.pieces members ≠ [] := by
  fun_cases Closing.pieces c members <;> exact List.cons_ne_nil _ _

theorem settles_pieces {members : List (List Char)} (h : ∀ m ∈ members, IsPiece m) (c : Closing) :
    ∀ piece ∈ c.pieces members, Settles piece := by
  fun_induction Closing.pieces c members with
  | case1 => exact List.forall_mem_singleton.2 ⟨List.cons_ne_nil _ _, by decide, .inr rfl⟩
  | case2 last => exact List.forall_mem_singleton.2 (h last List.mem_cons_self).settles_closed
  | case3 c line lines _ ih =>
    obtain ⟨hline, hlines⟩ := List.forall_mem_cons.1 h
    exact List.forall_mem_cons.2 ⟨hline.settles, ih hlines⟩

theorem Session.step_settles {s : Session} {e : EntityRef} (hmode : s.mode = .body e)
    {piece : List Char} (h : Settles piece) : s.step piece = s.readBody e piece := by
  have htrim : trim piece = piece := h.trimmed
  rcases h.text with htext | rfl
  · rw [step_bodyText hmode (by rwa [htrim]), htrim]
  · exact step_closeBody hmode

namespace Header

/-- The entity of a head, behind those of its kind that a model has. -/
def entity (h : Header) (m : Model) : EntityRef := ⟨h.kind, m.count h.kind⟩

theorem declared_snoc (h : Header) (m : Model) (package : Option String)
    (lines : List (List Char)) (line : List Char) :
    h.declared m package (lines ++ [line]) =
      if isSeparator line then h.declared m package lines
      else Session.addMember (h.declared m package lines) (h.entity m) line := by
  split
  · next hline => cases h <;> simp [declared, attributesIn, methodsIn, valuesIn, hline]
  · next hline =>
    rw [Bool.not_eq_true] at hline
    cases h
    case interface =>
      simp only [declared, attributesIn_snoc]
      exact (Session.addMember_addInterface hline m ⟨_, package, attributesIn lines⟩).symm
    case enum =>
      simp only [declared, valuesIn_snoc]
      exact (Session.addMember_addEnum hline m ⟨_, package, valuesIn lines⟩).symm
    all_goals
      simp only [declared, attributesIn_snoc, methodsIn_snoc]
      exact (Session.addMember_addClass hline m
        ⟨_, _, package, attributesIn lines, methodsIn lines⟩).symm

/-- The session with the entity of a head and the members read so far. -/
def session (h : Header) (s : Session) (mode : Mode) (lines : List (List Char)) : Session :=
  ⟨h.declared s.model s.package lines, mode, s.package⟩

def body (h : Header) (s : Session) : Mode := .body (h.entity s.model)

variable {h : Header} {s : Session} {lines : List (List Char)}

/-- What the body reader makes of a member, with or without the closing brace behind it. -/
theorem readBody_session (hne : line ≠ []) {piece : List Char} {closes : Bool}
    (hcloses : closesBody piece = closes) (hcontent : Session.content piece = line) :
    (h.session s (h.body s) lines).readBody (h.entity s.model) piece =
      h.session s (if closes then .outside else h.body s) (lines ++ [line]) := by
  rw [Session.readBody_eq, hcloses, hcontent, session, session, declared_snoc,
    decide_eq_false hne, Bool.false_or]
  rfl

theorem readBody_member (hline : IsPiece line) :
    (h.session s (h.body s) lines).readBody (h.entity s.model) line =
      h.session s (h.body s) (lines ++ [line]) := by
  have hopen := closesBody_of_count hline.braces
  exact readBody_session hline.text.ne_nil hopen (by rw [Session.content, hopen]; rfl)

theorem readBody_last (hline : IsPiece line) :
    (h.session s (h.body s) lines).readBody (h.entity s.model) (line ++ " \x7d".toList) =
      h.session s .outside (lines ++ [line]) := by
  have hcloses : closesBody (line ++ " \x7d".toList) = true := by
    have hbraces := hline.braces
    simp [closesBody, hbraces]
  have hdrop : (line ++ " \x7d".toList).dropLast = line ++ [' '] := by simp
  have hcontent : Session.content (line ++ " \x7d".toList) = line := by
    rw [Session.content, if_pos hcloses, hdrop, trim_append_right blank_space, hline.trimmed]
  exact readBody_session hline.text.ne_nil hcloses hcontent

theorem readBody_brace :
    (h.session s (h.body s) lines).readBody (h.entity s.model) ['\x7d'] =
      h.session s .outside lines := rfl

/-- From the body of its entity a session reads the members, in the order in which they stand, and
leaves the body. -/
theorem run_pieces {members : List (List Char)} (hmembers : ∀ m ∈ members, IsPiece m)
    (c : Closing) : (h.session s (h.body s) lines).run (c.pieces members) =
      h.session s .outside (lines ++ members) := by
  have hpieces := settles_pieces hmembers c
  -- The members read so far grow along the way.
  fun_induction Closing.pieces c members generalizing lines with
  | case1 =>
    rw [Session.run_cons, Session.step_settles rfl (hpieces _ List.mem_cons_self), readBody_brace,
      List.append_nil, Session.run_nil]
  | case2 last =>
    rw [Session.run_cons, Session.step_settles rfl (hpieces _ List.mem_cons_self),
      readBody_last (hmembers last List.mem_cons_self), Session.run_nil]
  | case3 c line rest _ ih =>
    obtain ⟨hline, hrest⟩ := List.forall_mem_cons.1 hmembers
    obtain ⟨hfirst, hpieces⟩ := List.forall_mem_cons.1 hpieces
    rw [Session.run_cons, Session.step_settles rfl hfirst, readBody_member hline, ih hrest hpieces,
      List.append_assoc, List.singleton_append]

/-! ### The opening brace -/

theorem line_aliased {shown name : List Char} (visible : shown ≠ []) (unquoted : '"' ∉ shown)
    (word : IsWord name) (behind : List Char) :
    (aliased shown name visible unquoted word).line behind =
      "class".toList ++ ' ' :: ('"' :: shown ++ '"' :: (" as ".toList ++ (name ++ behind))) := by
  have hline : (aliased shown name visible unquoted word).line behind =
      ("class ".toList ++ ('"' :: shown ++ '"' :: " as ".toList)) ++ (name ++ behind) := rfl
  rw [hline, List.append_assoc, List.append_assoc]
  rfl

theorem readStatement_line {t : Session} (hm : t.model = s.model) (hp : t.package = s.package)
    {behind : List Char} (hbehind : behind.head?.any isWordChar = false) :
    t.readStatement (h.line behind) = (h.session s .outside []).enter (h.entity s.model) behind := by
  obtain ⟨-, hpackage, hbrace⟩ := statement_of_head (h.head_line behind)
  obtain ⟨model, mode, package⟩ := t
  obtain rfl : model = s.model := hm
  obtain rfl : package = s.package := hp
  cases h with
  | plain name word =>
    have hread : readClassHead ((plain name word).line behind) =
        some (⟨String.ofList name, String.ofList name⟩, behind) := readClassHead_plain word hbehind
    rw [Session.readStatement_class hpackage hbrace rfl, Session.declareClass, hread]
    exact Session.enter_mode _ mode .outside _ _ _
  | abstract name word =>
    have hread : readClassHead ((abstract name word).line behind) =
        some (⟨String.ofList name, String.ofList name⟩, behind) :=
      (readClassHead_abstract _).trans (readClassHead_plain word hbehind)
    rw [Session.readStatement_class hpackage hbrace rfl, Session.declareClass, hread]
    exact Session.enter_mode _ mode .outside _ _ _
  | aliased shown name visible unquoted word =>
    have hread : readClassHead ((aliased shown name visible unquoted word).line behind) =
        some (⟨String.ofList name, String.ofList shown⟩, behind) := by
      rw [line_aliased, readClassHead_aliased visible unquoted word hbehind]
    rw [Session.readStatement_class hpackage hbrace rfl, Session.declareClass, hread]
    exact Session.enter_mode _ mode .outside _ _ _
  | interface name word =>
    have hread : readNamed "interface" ((interface name word).line behind) =
        some (String.ofList name, behind) := readNamed_spaced "interface" word hbehind
    rw [Session.readStatement_interface hpackage hbrace rfl rfl, Session.declareInterface, hread]
    exact Session.enter_mode _ mode .outside _ _ _
  | enum name word =>
    have hread : readNamed "enum" ((enum name word).line behind) =
        some (String.ofList name, behind) := readNamed_spaced "enum" word hbehind
    rw [Session.readStatement_enum hpackage hbrace rfl rfl rfl, Session.declareEnum, hread]
    exact Session.enter_mode _ mode .outside _ _ _

theorem step_line (hs : s.mode.saved? = none) {behind : List Char}
    (hbehind : behind.head?.any isWordChar = false) :
    s.step (h.line behind) = (h.session s .outside []).enter (h.entity s.model) (trimEnd behind) := by
  obtain ⟨c, hc, rest, hline⟩ := h.head_line (trimEnd behind)
  obtain ⟨hstatement, -, -⟩ := statement_of_head ⟨c, hc, rest, hline⟩
  have hbrace : h.line (trimEnd behind) ≠ ['\x7b'] := by
    intro hbrace
    obtain rfl : c = '\x7b' := (List.cons.inj (hline.symm.trans hbrace)).1
    exact absurd hc (by decide)
  obtain ⟨t, hread, hm, hp⟩ := s.readLine_statement hstatement hbrace
  rw [Session.step_of_open hs, h.trim_line, hread, readStatement_line hm hp (head_trimEnd hbehind)]

variable {behind : List Char}

theorem step_closed_line (hs : s.mode.saved? = none) (hb : IsBehind behind) :
    s.step (h.line behind) = h.session s (.declared (h.entity s.model)) [] := by
  have hcut : cut? ['\x7b'] (trimEnd behind) = none :=
    cut?_singleton_none fun hmem => hb.brace ((trimEnd_isPrefix behind).subset hmem)
  rw [step_line hs hb.head, Session.enter, hcut]
  rfl

/-- The line of a head and its brace, with what stands behind it. -/
theorem step_open_line (hs : s.mode.saved? = none) (hb : IsBehind behind) (inner : List Char) :
    s.step (h.line (behind ++ " \x7b".toList ++ inner)) =
      if trim inner = [] then h.session s (h.body s) []
      else (h.session s (h.body s) []).readBody (h.entity s.model) (trim inner) := by
  have hsplit : behind ++ " \x7b".toList ++ inner = (behind ++ [' ']) ++ '\x7b' :: inner := by simp
  have hhead : (behind ++ " \x7b".toList ++ inner).head?.any isWordChar = false := by
    have hhead := hb.head
    cases behind with
    | nil => rfl
    | cons c behind => exact hhead
  have hbrace : '\x7b' ∉ behind ++ [' '] := by simpa using hb.brace
  rw [step_line hs hhead, hsplit, trimEnd_append_cons rfl, Session.enter, cut?_singleton hbrace]
  dsimp only
  rw [trim_trimEnd]
  rfl

end Header

/-- Every writing of an entity appends it, in the package of the session and with the members on its
lines, and leaves the session outside of bodies. -/
theorem Session.run_writing {s : Session} (hs : s.mode.saved? = none) (h : Header)
    {behind : List Char} (hb : IsBehind behind) {members : List (List Char)}
    (hmembers : ∀ m ∈ members, IsPiece m) (o : Opening) (c : Closing) :
    s.run (writing h behind o c members) =
      ⟨h.declared s.model s.package members, .outside, s.package⟩ := by
  have hbody : (h.session s (h.body s) []).run (c.pieces members) =
      ⟨h.declared s.model s.package members, .outside, s.package⟩ := h.run_pieces hmembers c
  cases o with
  | behind =>
    have hopen := h.step_open_line hs hb []
    rw [List.append_nil, if_pos (by rfl)] at hopen
    rw [writing, run_cons, hopen, hbody]
  | below =>
    have hopen : (h.session s (.declared (h.entity s.model)) []).step ['\x7b'] =
        h.session s (h.body s) [] := step_openBrace rfl (by decide)
    rw [writing, run_cons, run_cons, h.step_closed_line hs hb, hopen, hbody]
  | inline gap blank =>
    obtain ⟨piece, pieces, hpieces⟩ := List.exists_cons_of_ne_nil (c.pieces_ne_nil members)
    have hpiece : Settles piece := settles_pieces hmembers c piece (by simp [hpieces])
    have hopen := h.step_open_line hs hb (gap ++ piece)
    -- Behind the brace the first piece is read as if it stood on the next line.
    rw [trim_append_left blank, hpiece.trimmed, if_neg hpiece.ne_nil,
      ← step_settles rfl hpiece] at hopen
    rw [← hbody, writing, hpieces, List.modifyHead_cons, run_cons, run_cons, ← hopen]
    simp [Header.line]

/-- A session in a package, behind a head that still awaits its brace. -/
def waiting : Session := Session.start.run ["package p \x7b".toList, "class A".toList]

/-- An entity on five lines, and the same on two. -/
def longWriting : List (List Char) :=
  ["class \"a b\" as B <<x>>".toList, "\x7b".toList, "x : Map = \x7b\x7d".toList,
    "f() : Int".toList, "\x7d".toList]

def shortWriting : List (List Char) :=
  ["class \"a b\" as B <<x>> \x7b x : Map = \x7b\x7d".toList, "f() : Int \x7d".toList]

theorem Session.run_writing_waiting : waiting.run longWriting = waiting.run shortWriting ∧
    waiting.run shortWriting =
      ⟨waiting.model.addClass
        ⟨"B", "a b", some "p", [⟨"x", "Map", some "\x7b\x7d"⟩], [⟨"f", "Int"⟩]⟩,
        .outside, some "p"⟩ := by
  have hs : waiting.mode.saved? = none := by decide
  have hb : IsBehind " <<x>>".toList := ⟨by decide, by decide⟩
  have hmembers : ∀ m ∈ ["x : Map = \x7b\x7d".toList, "f() : Int".toList], IsPiece m := by decide
  have hwriting := run_writing hs
    (.aliased "a b".toList "B".toList (by decide) (by decide) (by decide)) hb hmembers
  have hbelow := hwriting .below .alone
  have hinline := hwriting (.inline [' '] blank_space) .behind
  exact ⟨hbelow.trans hinline.symm, hinline.trans (by decide)⟩

end ClassDiagram.Markup
