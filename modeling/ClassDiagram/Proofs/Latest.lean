import ClassDiagram.Proofs.Session
import Mathlib.Data.Nat.Notation

/-! A session only ever writes into the entity of a kind that was declared last. The place that a
mode carries is the end of its list, and a note or a comment never resumes another. -/

namespace ClassDiagram

open Text Markup

namespace Model

/-- How many entities of a kind a model has. -/
def count (m : Model) : EntityKind → ℕ
  | .classes => m.classes.length
  | .interfaces => m.interfaces.length
  | .enums => m.enums.length

/-- The place is that of the last entity of its kind. -/
def IsLatest (m : Model) (e : EntityRef) : Prop := e.index + 1 = m.count e.kind

instance (m : Model) (e : EntityRef) : Decidable (m.IsLatest e) :=
  inferInstanceAs (Decidable (_ = _))

/-- Below a bound for each kind, the entities of one model are those of another. -/
structure SameBelow (n : EntityKind → ℕ) (m m' : Model) : Prop where
  classes : ∀ i < n .classes, m'.classes[i]? = m.classes[i]?
  interfaces : ∀ i < n .interfaces, m'.interfaces[i]? = m.interfaces[i]?
  enums : ∀ i < n .enums, m'.enums[i]? = m.enums[i]?

variable {n : EntityKind → ℕ} {m m' m'' : Model}

theorem SameBelow.refl (n : EntityKind → ℕ) (m : Model) : SameBelow n m m :=
  ⟨fun _ _ => rfl, fun _ _ => rfl, fun _ _ => rfl⟩

theorem SameBelow.of_eq (n : EntityKind → ℕ) (hc : m'.classes = m.classes)
    (hi : m'.interfaces = m.interfaces) (he : m'.enums = m.enums) : SameBelow n m m' :=
  ⟨fun _ _ => by rw [hc], fun _ _ => by rw [hi], fun _ _ => by rw [he]⟩

theorem SameBelow.mono {n' : EntityKind → ℕ} (h : SameBelow n m m') (hn : ∀ k, n' k ≤ n k) :
    SameBelow n' m m' :=
  ⟨fun i hi => h.classes i (Nat.lt_of_lt_of_le hi (hn _)),
    fun i hi => h.interfaces i (Nat.lt_of_lt_of_le hi (hn _)),
    fun i hi => h.enums i (Nat.lt_of_lt_of_le hi (hn _))⟩

theorem SameBelow.trans (h : SameBelow n m m') (h' : SameBelow n m' m'') : SameBelow n m m'' :=
  ⟨fun i hi => (h'.classes i hi).trans (h.classes i hi),
    fun i hi => (h'.interfaces i hi).trans (h.interfaces i hi),
    fun i hi => (h'.enums i hi).trans (h.enums i hi)⟩

theorem sameBelow_addClass (m : Model) (c : Class) : SameBelow m.count m (m.addClass c) :=
  ⟨fun _ hi => List.getElem?_append_left hi, fun _ _ => rfl, fun _ _ => rfl⟩

theorem sameBelow_addInterface (m : Model) (i : Interface) :
    SameBelow m.count m (m.addInterface i) :=
  ⟨fun _ _ => rfl, fun _ hi => List.getElem?_append_left hi, fun _ _ => rfl⟩

theorem sameBelow_addEnum (m : Model) (e : Enumeration) : SameBelow m.count m (m.addEnum e) :=
  ⟨fun _ _ => rfl, fun _ _ => rfl, fun _ hi => List.getElem?_append_left hi⟩

theorem sameBelow_addPackage (n : EntityKind → ℕ) (m : Model) (name : String) :
    SameBelow n m (m.addPackage name) := by
  unfold addPackage
  split
  · exact .refl n m
  · exact .of_eq n rfl rfl rfl

theorem sameBelow_addRelation (n : EntityKind → ℕ) (m : Model) (r : Relation) :
    SameBelow n m (m.addRelation r).1 := by
  unfold addRelation
  split
  · exact .refl n m
  · exact .of_eq n rfl rfl rfl

theorem count_addRelation (m : Model) (r : Relation) (k : EntityKind) :
    (m.addRelation r).1.count k = m.count k := by
  unfold addRelation
  split
  · rfl
  · cases k <;> rfl

theorem count_addClass_le (m : Model) (c : Class) (k : EntityKind) :
    m.count k ≤ (m.addClass c).count k := by
  cases k <;> simp [count, addClass]

theorem count_addInterface_le (m : Model) (i : Interface) (k : EntityKind) :
    m.count k ≤ (m.addInterface i).count k := by
  cases k <;> simp [count, addInterface]

theorem count_addEnum_le (m : Model) (e : Enumeration) (k : EntityKind) :
    m.count k ≤ (m.addEnum e).count k := by
  cases k <;> simp [count, addEnum]

end Model

namespace Markup

/-- The entity that a mode carries, also under a note or a comment. -/
def Mode.entity? : Mode → Option EntityRef
  | .outside => none
  | .declared e => some e
  | .body e => some e
  | .note resume => resume.entity?
  | .comment resume => resume.entity?

/-- The mode that is saved in a note or a comment. -/
def Mode.saved? : Mode → Option Mode
  | .note resume => some resume
  | .comment resume => some resume
  | _ => none

theorem Mode.entity?_of_saved? {mode r : Mode} (h : mode.saved? = some r) :
    r.entity? = mode.entity? := by
  cases mode <;> simp_all [Mode.saved?, Mode.entity?]

namespace Session

/-- The carried place is that of the last entity of its kind, and what a note or a comment saves is
neither of them. -/
structure Valid (s : Session) : Prop where
  latest : ∀ e ∈ s.mode.entity?, s.model.IsLatest e
  saved : ∀ r ∈ s.mode.saved?, r.saved? = none

/-! ### The guarded session

The same session with a guard in front of every reading of body text: it gives nothing where the
entity is not the last of its kind. -/

def readBody? (s : Session) (entity : EntityRef) (line : List Char) : Option Session :=
  if s.model.IsLatest entity then some (s.readBody entity line) else none

def enter? (s : Session) (entity : EntityRef) (rest : List Char) : Option Session :=
  match cut? ['\x7b'] rest with
  | none => some { s with mode := .declared entity }
  | some (_, inner) =>
    let inner := trim inner
    if inner = [] then some { s with mode := .body entity } else s.readBody? entity inner

def declareClass? (s : Session) (line : List Char) : Option Session :=
  match readClassHead line with
  | none => some s
  | some (head, rest) =>
    enter? { s with model := s.model.addClass ⟨head.name, head.displayName, s.package, [], []⟩ }
      ⟨.classes, s.model.classes.length⟩ rest

def declareInterface? (s : Session) (line : List Char) : Option Session :=
  match readNamed "interface" line with
  | none => some s
  | some (name, rest) =>
    enter? { s with model := s.model.addInterface ⟨name, s.package, []⟩ }
      ⟨.interfaces, s.model.interfaces.length⟩ rest

def declareEnum? (s : Session) (line : List Char) : Option Session :=
  match readNamed "enum" line with
  | none => some s
  | some (name, rest) =>
    enter? { s with model := s.model.addEnum ⟨name, s.package, []⟩ }
      ⟨.enums, s.model.enums.length⟩ rest

def readContent? (s : Session) (line : List Char) : Option Session :=
  match s.mode with
  | .body entity => s.readBody? entity line
  | _ => some (s.readContent line)

def readStatement? (s : Session) (line : List Char) : Option Session :=
  if s.mode = .outside ∧ isPackageLine line then some (s.openPackage line)
  else if s.mode = .outside ∧ line = ['\x7d'] ∧ s.package.isSome then
    some { s with package := none }
  else if isClassLine line then s.declareClass? line
  else if isInterfaceLine line then s.declareInterface? line
  else if isEnumLine line then s.declareEnum? line
  else if line = ['\x7d'] then some s.leaveBody
  else s.readContent? line

def readLine? (s : Session) (line : List Char) : Option Session :=
  if line = [] || isDirective line then some s
  else if opensComment line then
    if isWholeComment line then some s else some { s with mode := .comment s.mode }
  else if opensNote line then
    if isWholeNote line then some s else some { s with mode := .note s.mode }
  else
    match s.mode with
    | .declared entity =>
      if line = ['\x7b'] then some { s with mode := .body entity }
      else readStatement? { s with mode := .outside } line
    | _ => s.readStatement? line

def step? (s : Session) (line : List Char) : Option Session :=
  match s.mode with
  | .note resume => some (if closesNote (trim line) then { s with mode := resume } else s)
  | .comment resume => some (if closesComment (trim line) then { s with mode := resume } else s)
  | _ => s.readLine? (trim line)

def run? (s : Session) (lines : List (List Char)) : Option Session := lines.foldlM step? s

/-! ### What is read stays within the last entity -/

variable {n : EntityKind → ℕ} {s : Session} {e : EntityRef}

theorem count_addMember (m : Model) (e : EntityRef) (line : List Char) (k : EntityKind) :
    (addMember m e line).count k = m.count k := by
  rcases addMember_cases m e line with h | ⟨-, -, _, -, h⟩ | ⟨-, -, _, -, h⟩ | ⟨-, -, _, -, h⟩ |
    ⟨-, _, -, h⟩ <;> rw [h]
  · cases k <;> simp [Model.addMethod, Model.count]
  · cases k <;> simp [Model.addAttribute, Model.count]
  · cases k <;> simp [Model.addInterfaceAttribute, Model.count]
  · cases k <;> simp [Model.addValue, Model.count]

theorem getElem?_modify_of_lt {α : Type} (f : α → α) (l : List α) {b i j : ℕ} (hb : b ≤ i)
    (hj : j < b) : (l.modify i f)[j]? = l[j]? := by
  have hne : i ≠ j := by omega
  simp [hne]

/-- A member goes to its entity and leaves what stands before it alone. -/
theorem sameBelow_addMember (m : Model) (line : List Char) (hn : n e.kind ≤ e.index) :
    Model.SameBelow n m (addMember m e line) := by
  rcases addMember_cases m e line with h | ⟨hk, -, _, -, h⟩ | ⟨hk, -, _, -, h⟩ | ⟨hk, -, _, -, h⟩ |
    ⟨hk, _, -, h⟩ <;> rw [h]
  · exact .refl n m
  all_goals rw [hk] at hn
  · exact ⟨fun _ hi => getElem?_modify_of_lt _ _ hn hi, fun _ _ => rfl, fun _ _ => rfl⟩
  · exact ⟨fun _ hi => getElem?_modify_of_lt _ _ hn hi, fun _ _ => rfl, fun _ _ => rfl⟩
  · exact ⟨fun _ _ => rfl, fun _ hi => getElem?_modify_of_lt _ _ hn hi, fun _ _ => rfl⟩
  · exact ⟨fun _ _ => rfl, fun _ _ => rfl, fun _ hi => getElem?_modify_of_lt _ _ hn hi⟩

theorem sameBelow_readBody (s : Session) (line : List Char) (hn : n e.kind ≤ e.index) :
    Model.SameBelow n s.model (s.readBody e line).model := by
  rcases s.readBody_model e line with h | h <;> rw [h]
  · exact .refl n s.model
  · exact sameBelow_addMember s.model _ hn

theorem sameBelow_enter (s : Session) (rest : List Char) (hn : n e.kind ≤ e.index) :
    Model.SameBelow n s.model (s.enter e rest).model := by
  rcases s.enter_cases e rest with h | h | ⟨inner, h⟩ <;> rw [h]
  · exact .refl n s.model
  · exact .refl n s.model
  · exact sameBelow_readBody s inner hn

theorem Valid.of_outside (h : s.mode = .outside) : s.Valid := by
  constructor <;> simp [h, Mode.entity?, Mode.saved?]

/-- A session that comes out of a note or a comment is valid again. -/
theorem Valid.resume (h : s.Valid) {r : Mode} (hr : s.mode.saved? = some r) :
    Valid { s with mode := r } := by
  refine ⟨fun e he => h.latest e ?_, fun r' hr' => ?_⟩
  · rwa [← Mode.entity?_of_saved? hr]
  · rw [h.saved r hr] at hr'
    cases hr'

theorem valid_readBody (line : List Char) (h : s.model.IsLatest e) : (s.readBody e line).Valid := by
  have hl : (s.readBody e line).model.IsLatest e := by
    rcases s.readBody_model e line with hm | hm
    · rwa [hm]
    · rwa [hm, Model.IsLatest, count_addMember]
  rcases s.readBody_mode e line with hm | hm
  · exact .of_outside hm
  · constructor
    · simpa [hm, Mode.entity?] using hl
    · simp [hm, Mode.saved?]

theorem valid_enter (rest : List Char) (h : s.model.IsLatest e) : (s.enter e rest).Valid := by
  have hd : Valid { s with mode := .declared e } :=
    ⟨fun _ he => Option.some.inj he ▸ h, by simp [Mode.saved?]⟩
  have hb : Valid { s with mode := .body e } :=
    ⟨fun _ he => Option.some.inj he ▸ h, by simp [Mode.saved?]⟩
  rcases s.enter_cases e rest with he | he | ⟨inner, he⟩ <;> rw [he]
  · exact hd
  · exact hb
  · exact valid_readBody inner h

/-! ### What a line does to a valid session

Each function of a session has one lemma, and all of them have one form: the guard never bites, the
session stays valid, and the entities before the last ones of `m`, the model at the start, stay as
they are. -/

structure Sound (m : Model) (t : Session) (guarded : Option Session) : Prop where
  guarded_eq : guarded = some t
  valid : t.Valid
  sameBelow : Model.SameBelow (fun k => m.count k - 1) m t.model

variable {m : Model} {t : Session} {g : Option Session}

theorem Sound.keep (ht : t.Valid) (hm : t.model = m) : Sound m t (some t) :=
  ⟨rfl, ht, hm ▸ .refl _ _⟩

/-- A step from a model that has grown is a step from the model before. -/
theorem Sound.grow {m' : Model} (h : Sound m' t g) (hm : Model.SameBelow m.count m m')
    (hc : ∀ k, m.count k ≤ m'.count k) : Sound m t g :=
  ⟨h.guarded_eq, h.valid, (hm.mono fun _ => Nat.sub_le _ _).trans
    (h.sameBelow.mono fun k => Nat.sub_le_sub_right (hc k) 1)⟩

theorem sound_readBody (s : Session) (line : List Char) (h : s.model.IsLatest e) :
    Sound s.model (s.readBody e line) (s.readBody? e line) :=
  ⟨if_pos h, valid_readBody line h, sameBelow_readBody s line (by
    rw [Model.IsLatest] at h
    omega)⟩

theorem sound_enter (s : Session) (rest : List Char) (h : s.model.IsLatest e) :
    Sound s.model (s.enter e rest) (s.enter? e rest) := by
  refine ⟨?_, valid_enter rest h, sameBelow_enter s rest (by rw [Model.IsLatest] at h; omega)⟩
  unfold enter? enter
  cases cut? ['\x7b'] rest with
  | none => rfl
  | some p =>
    dsimp only
    by_cases hp : trim p.2 = []
    · rw [if_pos hp, if_pos hp]
    · rw [if_neg hp, if_neg hp]
      exact if_pos h

theorem sound_declareClass (hs : s.Valid) (line : List Char) :
    Sound s.model (s.declareClass line) (s.declareClass? line) := by
  unfold declareClass declareClass?
  cases readClassHead line with
  | none => exact .keep hs rfl
  | some p =>
    exact (sound_enter _ p.2 (by simp [Model.IsLatest, Model.count, Model.addClass])).grow
      (Model.sameBelow_addClass s.model _) (Model.count_addClass_le s.model _)

theorem sound_declareInterface (hs : s.Valid) (line : List Char) :
    Sound s.model (s.declareInterface line) (s.declareInterface? line) := by
  unfold declareInterface declareInterface?
  cases readNamed "interface" line with
  | none => exact .keep hs rfl
  | some p =>
    exact (sound_enter _ p.2 (by simp [Model.IsLatest, Model.count, Model.addInterface])).grow
      (Model.sameBelow_addInterface s.model _) (Model.count_addInterface_le s.model _)

theorem sound_declareEnum (hs : s.Valid) (line : List Char) :
    Sound s.model (s.declareEnum line) (s.declareEnum? line) := by
  unfold declareEnum declareEnum?
  cases readNamed "enum" line with
  | none => exact .keep hs rfl
  | some p =>
    exact (sound_enter _ p.2 (by simp [Model.IsLatest, Model.count, Model.addEnum])).grow
      (Model.sameBelow_addEnum s.model _) (Model.count_addEnum_le s.model _)

theorem sound_openPackage (h : s.mode = .outside) (line : List Char) :
    Sound s.model (s.openPackage line) (some (s.openPackage line)) := by
  unfold openPackage
  cases readPackage line with
  | none => exact .keep (.of_outside h) rfl
  | some name => exact ⟨rfl, .of_outside h, Model.sameBelow_addPackage _ _ name⟩

theorem sound_readContent (hs : s.Valid) (line : List Char) :
    Sound s.model (s.readContent line) (s.readContent? line) := by
  unfold readContent?
  split
  · next e hm =>
    rw [readContent, hm]
    exact sound_readBody s line (hs.latest e (by simp [hm, Mode.entity?]))
  · next hm =>
    unfold readContent
    split
    · next e he => exact absurd he (hm e)
    · cases Relation.find? line with
      | none => exact .keep hs rfl
      | some r =>
        refine ⟨rfl, ⟨fun e he => ?_, hs.saved⟩, Model.sameBelow_addRelation _ _ r⟩
        rw [Model.IsLatest, Model.count_addRelation]
        exact hs.latest e he

theorem sound_leaveBody (hs : s.Valid) : Sound s.model s.leaveBody (some s.leaveBody) := by
  unfold leaveBody
  split
  · exact .keep (.of_outside rfl) rfl
  · exact .keep hs rfl

theorem sound_readStatement (hs : s.Valid) (line : List Char) :
    Sound s.model (s.readStatement line) (s.readStatement? line) := by
  unfold readStatement readStatement?
  split
  · next h => exact sound_openPackage h.1 line
  split
  · next h => exact .keep (.of_outside h.1) rfl
  split
  · exact sound_declareClass hs line
  split
  · exact sound_declareInterface hs line
  split
  · exact sound_declareEnum hs line
  split
  · exact sound_leaveBody hs
  · exact sound_readContent hs line

theorem sound_readLine (hs : s.Valid) (hm : s.mode.saved? = none) (line : List Char) :
    Sound s.model (s.readLine line) (s.readLine? line) := by
  have hc : Valid { s with mode := .comment s.mode } :=
    ⟨hs.latest, fun r hr => Option.some.inj hr ▸ hm⟩
  have hn : Valid { s with mode := .note s.mode } :=
    ⟨hs.latest, fun r hr => Option.some.inj hr ▸ hm⟩
  unfold readLine readLine?
  split
  · exact .keep hs rfl
  split
  · split
    · exact .keep hs rfl
    · exact .keep hc rfl
  split
  · split
    · exact .keep hs rfl
    · exact .keep hn rfl
  cases hd : s.mode with
  | declared e =>
    have hb : Valid { s with mode := .body e } :=
      ⟨fun e' he' => hs.latest e' (by rw [hd]; exact he'), fun r hr => nomatch hr⟩
    have ho : Valid { s with mode := .outside } := .of_outside rfl
    dsimp only
    split
    · exact .keep hb rfl
    · exact sound_readStatement ho line
  | _ => exact sound_readStatement hs line

theorem sound_step (hs : s.Valid) (line : List Char) :
    Sound s.model (s.step line) (s.step? line) := by
  unfold step step?
  cases hm : s.mode with
  | note r =>
    dsimp only
    split
    · exact .keep (hs.resume (by rw [hm]; rfl)) rfl
    · exact .keep hs rfl
  | comment r =>
    dsimp only
    split
    · exact .keep (hs.resume (by rw [hm]; rfl)) rfl
    · exact .keep hs rfl
  | _ => exact sound_readLine hs (by rw [hm]; rfl) _

theorem valid_run (hs : s.Valid) (lines : List (List Char)) : (s.run lines).Valid := by
  induction lines generalizing s with
  | nil => exact hs
  | cons line lines ih => exact ih (sound_step hs line).valid

theorem run?_eq (hs : s.Valid) (lines : List (List Char)) : s.run? lines = some (s.run lines) := by
  induction lines generalizing s with
  | nil => rfl
  | cons line lines ih =>
    have hl := sound_step hs line
    rw [run?, List.foldlM_cons, hl.guarded_eq]
    exact ih hl.valid

theorem valid_start : start.Valid := .of_outside rfl

end Session

/-- Whatever text is read, and however far: the place in the mode is that of the last entity of its
kind; notes and comments are not nested; body text has only been read for the entity that was the
last of its kind then; and the next line leaves all entities but the last of each kind alone. -/
theorem body_text_latest (text : String) (k : ℕ) :
    let s := Session.start.run ((lines text.toList).take k)
    (∀ e ∈ s.mode.entity?, e.index < s.model.count e.kind ∧ e.index + 1 = s.model.count e.kind) ∧
    (∀ r ∈ s.mode.saved?, r.saved? = none) ∧
    Session.start.run? ((lines text.toList).take k) = some s ∧
    ∀ line, Model.SameBelow (fun kind => s.model.count kind - 1) s.model (s.step line).model := by
  intro s
  have hs : s.Valid := Session.valid_run Session.valid_start _
  refine ⟨fun e he => ?_, hs.saved, Session.run?_eq Session.valid_start _, fun line =>
    (Session.sound_step hs line).sameBelow⟩
  have hl : e.index + 1 = s.model.count e.kind := hs.latest e he
  exact ⟨by omega, hl⟩

end Markup

end ClassDiagram
