import ClassDiagram.Proofs.Normal

/-! The names of classes. A name is a word, or else a quoted text from which the marks of line breaks
were erased, in one pass from the left. Nothing is left of a text that holds only marks; and where
marks stood between the two characters of another one, those come together. -/

namespace ClassDiagram

open Text

/-! ### Erasing a pair of characters -/

namespace Text

variable {a b : Char} {t u : List Char}

/-- A pair of characters, some times over. -/
def pairs (a b : Char) (k : ℕ) : List Char := (List.replicate k [a, b]).flatten

theorem pairs_succ (a b : Char) (k : ℕ) : pairs a b (k + 1) = a :: b :: pairs a b k := by
  simp [pairs, List.replicate_succ]

theorem erasePair_cons_of_ne (a b : Char) {x : Char} (t : List Char)
    (h : ¬ (x = a ∧ t.head? = some b)) : erasePair a b (x :: t) = x :: erasePair a b t := by
  cases t with
  | nil => rfl
  | cons y t => rw [erasePair, if_neg (by simpa using h)]

theorem erasePair_pairs (a b : Char) (k : ℕ) (t : List Char) :
    erasePair a b (pairs a b k ++ t) = erasePair a b t := by
  induction k with
  | zero => rfl
  | succ k ih => rw [pairs_succ, List.cons_append, List.cons_append, erasePair, if_pos ⟨rfl, rfl⟩, ih]

theorem erasePair_eq_nil_iff : erasePair a b t = [] ↔ ∃ k, t = pairs a b k := by
  constructor
  · intro h
    fun_induction erasePair a b t with
    | case1 x y t hpair ih =>
      obtain ⟨rfl, rfl⟩ := hpair
      obtain ⟨k, rfl⟩ := ih h
      exact ⟨k + 1, (pairs_succ x y k).symm⟩
    | case2 => contradiction
    | case3 => exact ⟨0, h⟩
  · rintro ⟨k, rfl⟩
    have hpairs := erasePair_pairs a b k []
    rwa [List.append_nil] at hpairs

/-- The second character of a pair starts what is left if nothing but pairs stands in front of it. -/
theorem eq_pairs_of_erasePair (h : b ∈ (erasePair a b t).head?) :
    ∃ k rest, t = pairs a b k ++ b :: rest := by
  fun_induction erasePair a b t with
  | case1 x y t hpair ih =>
    obtain ⟨rfl, rfl⟩ := hpair
    obtain ⟨k, rest, rfl⟩ := ih h
    exact ⟨k + 1, rest, by rw [pairs_succ]; rfl⟩
  | case2 x y t hpair ih =>
    obtain rfl : x = b := by simpa using h
    exact ⟨0, y :: t, rfl⟩
  | case3 t =>
    obtain ⟨rest, rfl⟩ := List.head?_eq_some_iff.1 h
    exact ⟨0, rest, rfl⟩

/-- A character that ends no pair parts a text for the erasing. -/
theorem erasePair_append {c : Char} (hc : c ≠ b) (u t : List Char) :
    erasePair a b (u ++ c :: t) = erasePair a b u ++ erasePair a b (c :: t) := by
  fun_induction erasePair a b u with
  | case1 x y u hpair ih => rw [List.cons_append, List.cons_append, erasePair, if_pos hpair, ih]
  | case2 x y u hpair ih =>
    rw [List.cons_append, List.cons_append, erasePair, if_neg hpair, ← List.cons_append, ih]
    rfl
  | case3 u hshort =>
    rcases u with _ | ⟨x, _ | ⟨y, u⟩⟩
    · rfl
    · exact erasePair_cons_of_ne a b (c :: t) (by simp [hc])
    · exact (hshort x y u rfl).elim

/-- A pair is left exactly where other pairs stood between its two characters. -/
theorem contains_erasePair_iff (hab : a ≠ b) : contains [a, b] (erasePair a b t) = true ↔
    ∃ k, a :: (pairs a b (k + 1) ++ [b]) <:+: t := by
  rw [contains_iff]
  constructor
  · intro h
    fun_induction erasePair a b t with
    | case1 x y t hpair ih =>
      obtain ⟨k, hk⟩ := ih h
      exact ⟨k, hk.trans ⟨[x, y], [], by simp⟩⟩
    | case2 x y t hpair ih =>
      rcases List.infix_cons_iff.1 h with hfront | hbehind
      · obtain ⟨rfl, hhead⟩ := List.cons_prefix_cons.1 hfront
        have hb : b ∈ (erasePair a b (y :: t)).head? := by
          obtain ⟨rest, hrest⟩ := hhead
          rw [← hrest]
          rfl
        obtain ⟨k, rest, hk⟩ := eq_pairs_of_erasePair hb
        cases k with
        | zero => exact absurd ⟨rfl, (List.cons.inj hk).1⟩ hpair
        | succ k => exact ⟨k, [], rest, by simp [hk]⟩
      · obtain ⟨k, hk⟩ := ih hbehind
        exact ⟨k, hk.trans (List.suffix_cons x _).isInfix⟩
    | case3 t hshort =>
      rcases t with _ | ⟨x, _ | ⟨y, t⟩⟩
      · exact absurd h.length_le (by simp)
      · exact absurd h.length_le (by simp)
      · exact (hshort x y t rfl).elim
  · rintro ⟨k, u, v, rfl⟩
    refine ⟨erasePair a b u, erasePair a b v, ?_⟩
    have hsplit : u ++ a :: (pairs a b (k + 1) ++ [b]) ++ v =
        u ++ a :: (pairs a b (k + 1) ++ b :: v) := by simp
    have hfirst : ¬ (a = a ∧ (pairs a b (k + 1) ++ b :: v).head? = some b) := by
      simp [pairs_succ, hab]
    rw [hsplit, erasePair_append hab, erasePair_cons_of_ne a b _ hfirst, erasePair_pairs,
      erasePair_cons_of_ne a b v (by simp [Ne.symm hab])]
    simp

end Text

/-! ### Names and shown names -/

namespace Markup

variable {cs line rest : List Char} {head : ClassHead}

/-- How the name of a class and the name it is shown by belong together: the one is a word, or else
it is the other without its marks. -/
def NamedBy (name displayName : String) : Prop :=
  IsWord name.toList ∨ displayName ≠ "" ∧ name.toList = plainName displayName.toList

theorem namedBy_word {w : List Char} (h : IsWord w) (displayName : String) :
    NamedBy (String.ofList w) displayName := .inl (by rwa [String.toList_ofList])

theorem namedBy_readAliased (h : readAliased cs = some (head, rest)) :
    NamedBy head.name head.displayName := by
  simp only [readAliased, Option.bind_eq_bind, Option.bind_eq_some_iff] at h
  obtain ⟨_, -, _, -, _, -, _, -, ⟨name, behind⟩, hword, h⟩ := h
  obtain ⟨rfl, -⟩ := Prod.mk.inj (Option.some.inj h)
  exact namedBy_word (Scan.eq_of_word hword).1 _

theorem namedBy_readQuoted (h : readQuoted cs = some (head, rest)) :
    NamedBy head.name head.displayName := by
  simp only [readQuoted, Option.bind_eq_bind, Option.bind_eq_some_iff] at h
  obtain ⟨⟨shown, behind⟩, hquoted, h⟩ := h
  obtain ⟨rfl, -⟩ := Prod.mk.inj (Option.some.inj h)
  refine .inr ⟨fun hempty => Scan.ne_nil_of_quoted hquoted ?_, ?_⟩
  · simpa using hempty
  · rw [String.toList_ofList, String.toList_ofList]

theorem namedBy_readPlain (h : readPlain cs = some (head, rest)) :
    NamedBy head.name head.displayName := by
  simp only [readPlain, Option.bind_eq_bind, Option.bind_eq_some_iff] at h
  obtain ⟨⟨name, behind⟩, hword, h⟩ := h
  obtain ⟨rfl, -⟩ := Prod.mk.inj (Option.some.inj h)
  exact namedBy_word (Scan.eq_of_word hword).1 _

theorem namedBy_readClassHead (h : readClassHead line = some (head, rest)) :
    NamedBy head.name head.displayName := by
  simp only [readClassHead, Option.bind_eq_bind, Option.bind_eq_some_iff] at h
  obtain ⟨behind, -, h⟩ := h
  split at h
  · next haliased =>
    obtain rfl := Option.some.inj h
    exact namedBy_readAliased haliased
  · split at h
    · next hquoted =>
      obtain rfl := Option.some.inj h
      exact namedBy_readQuoted hquoted
    · exact namedBy_readPlain h

end Markup

/-! ### All classes of a model -/

def Class.Named (c : Class) : Prop := Markup.NamedBy c.name c.displayName

def Model.Named (m : Model) : Prop := ∀ c ∈ m.classes, c.Named

theorem Model.Named.addMember {m : Model} (h : m.Named) (e : Markup.EntityRef) (line : List Char) :
    (Markup.Session.addMember m e line).Named := by
  rcases Markup.Session.addMember_cases m e line with heq | ⟨-, -, f, -, heq⟩ | ⟨-, -, a, -, heq⟩ |
    ⟨-, -, a, -, heq⟩ | ⟨-, v, -, heq⟩ <;> rw [heq]
  · exact h
  · have hadd (c : Class) (hc : c.Named) : Class.Named { c with methods := c.methods ++ [f] } := hc
    exact Model.forall_mem_modify hadd h e.index
  · have hadd (c : Class) (hc : c.Named) :
        Class.Named { c with attributes := c.attributes ++ [a] } := hc
    exact Model.forall_mem_modify hadd h e.index
  · exact h
  · exact h

namespace Markup

namespace Session

variable {s : Session} {line rest : List Char} {m : Model} {e : EntityRef} {p : Option String}

theorem Declares.named (h : Declares s line m e rest) (hs : s.model.Named) : m.Named := by
  cases h with
  | classes keyword read =>
    exact List.forall_mem_append.2 ⟨hs, List.forall_mem_singleton.2 (namedBy_readClassHead read)⟩
  | interfaces keyword read => exact hs
  | enums keyword read => exact hs

theorem Writes.named (h : Writes s line m p) (hs : s.model.Named) : m.Named := by
  cases h with
  | skip | closePackage => exact hs
  | openPackage read =>
    unfold Model.addPackage
    split <;> exact hs
  | relation found =>
    unfold Model.addRelation
    split <;> exact hs
  | member mode => exact hs.addMember _ _
  | head declares => exact declares.named hs
  | headMember declares cut => exact (declares.named hs).addMember _ _

theorem named_run (hs : s.model.Named) (lines : List (List Char)) : (s.run lines).model.Named := by
  induction lines generalizing s with
  | nil => exact hs
  | cons line lines ih => exact ih ((s.step_writes line).named hs)

end Session

/-- A name that is not empty and holds no mark of a line break. -/
def Usable (name : String) : Prop := name ≠ "" ∧ contains "\\n".toList name.toList = false

theorem usable_of_isWord {name : String} (h : IsWord name.toList) : Usable name := by
  refine ⟨fun hempty => h.ne_nil (by simp [hempty]), Bool.eq_false_iff.2 fun hmark => ?_⟩
  have hslash : '\\' ∈ name.toList := (contains_iff.1 hmark).subset (by decide)
  exact h.not_mem rfl hslash

/--
The name of a class is a word, and usable; or else it is the quoted name without its marks, which is
empty if there was nothing but marks, and which still has a mark in it if marks stood inside one.
-/
theorem names_parse (text : String) : ∀ c ∈ (parse text).classes,
    (IsWord c.name.toList ∧ Usable c.name) ∨
    (c.displayName ≠ "" ∧ c.name.toList = plainName c.displayName.toList ∧
      (c.name = "" ↔ ∃ k, c.displayName.toList = pairs '\\' 'n' k) ∧
      (contains "\\n".toList c.name.toList = true ↔
        ∃ k, '\\' :: (pairs '\\' 'n' (k + 1) ++ ['n']) <:+: c.displayName.toList)) := by
  intro c hc
  have hempty : Model.empty.Named := by simp [Model.Named, Model.empty]
  have hnamed : (parse text).Named := Session.named_run hempty _
  rcases hnamed c hc with hword | ⟨hshown, hname⟩
  · exact .inl ⟨hword, usable_of_isWord hword⟩
  · refine .inr ⟨hshown, hname, ?_, ?_⟩
    · rw [← erasePair_eq_nil_iff, ← plainName, ← hname]
      simp
    · rw [hname]
      exact contains_erasePair_iff (by decide)

theorem classes_nested :
    (parse "class \"A\\\\nnB\"\n").classes = [⟨"A\\nB", "A\\\\nnB", none, [], []⟩] ∧
      (parse "class \"\\n\"\n").classes = [⟨"", "\\n", none, [], []⟩] := by decide

theorem names_parse_nested :
    ∃ k, '\\' :: (pairs '\\' 'n' (k + 1) ++ ['n']) <:+: "A\\\\nnB".toList := by
  have hnames := names_parse "class \"A\\\\nnB\"\n" ⟨"A\\nB", "A\\\\nnB", none, [], []⟩
    (by rw [classes_nested.1]; exact List.mem_cons_self)
  rcases hnames with ⟨hword, -⟩ | ⟨-, -, -, hmark⟩
  · exact absurd hword (by decide)
  · exact hmark.1 (by decide)

theorem not_usable_parse : ¬ ∀ text, ∀ c ∈ (parse text).classes, Usable c.name := by
  intro h
  have hfalse := h "class \"\\n\"\n" ⟨"", "\\n", none, [], []⟩
    (by rw [classes_nested.2]; exact List.mem_cons_self)
  exact hfalse.1 rfl

end Markup

end ClassDiagram
